import GroupCoordination.Properties.EpochAgreement
import Mathlib.Data.Finset.Basic

/-!
# The buffer and the engine's pending proposals

Every proposal is held twice: in the single-writer buffer, which names what the next
commit must cover, and inside the engine's group state, which is what the commit will
cover. Both are emptied by a commit. They part in two ways only: a full buffer drops a
proposal the engine has stored, and a restart brings back the group state without the
buffer.
-/

namespace GroupCoordination

open Fallible SingleWriter

-- -------- What the engine is assumed to do

/-- What a group state, a proposal reference and a proposal say about themselves. -/
structure EngineView where
  pending : Bytes → Finset Bytes
  epoch : Bytes → Nat
  refEpoch : Bytes → Nat
  dataEpoch : Bytes → Nat

/-- `ensure_expected_proposal_refs` fails with this text. -/
def isRefMismatch (err : String) : Bool :=
  "pending proposal refs mismatch".toList.isPrefixOf err.toList

namespace EngineView

/-- A proposal of the group state's own epoch becomes pending. -/
structure Stores (V : EngineView) (groupState ref data newState : Bytes) : Prop where
  nonempty : ref ≠ []
  ofRef : V.refEpoch ref = V.epoch groupState
  ofData : V.dataEpoch data = V.epoch groupState
  pending : V.pending newState = insert ref (V.pending groupState)
  epoch : V.epoch newState = V.epoch groupState

/-- The engine's pending set is exactly what was created or processed since the last epoch
change; references and proposals are of one epoch; a commit whose expected references are
the pending ones is not refused for them. -/
structure Obeyed (V : EngineView) (engine : MLSEngine) : Prop where
  created : ∀ groupState pType data result,
    engine.createProposal groupState pType data = .ok result →
    V.Stores groupState result.proposalRef result.proposalBytes result.newGroupState
  processed : ∀ groupState data result, engine.processProposal groupState data = .ok result →
    V.Stores groupState result.proposalRef data result.newGroupState
  committed : ∀ groupState refs result, engine.createCommit groupState refs = .ok result →
    V.pending result.newGroupState = ∅ ∧ V.epoch result.newGroupState = V.epoch groupState + 1
  staged : ∀ groupState commit included refs,
    engine.stageCommit groupState commit included = .ok refs →
    (∀ ref ∈ refs, V.refEpoch ref = V.epoch groupState) ∧
      ∀ data ∈ included, V.dataEpoch data = V.epoch groupState
  merged : ∀ groupState commit included newState newTreeHash,
    engine.processCommit groupState commit included = .ok (newState, newTreeHash) →
      V.pending newState = ∅ ∧ V.epoch newState = V.epoch groupState + 1
  ciphers : ∀ groupState newState, Ciphers engine groupState newState →
    V.pending newState = V.pending groupState ∧ V.epoch newState = V.epoch groupState
  matched : ∀ groupState refs err, refs.Nodup → refs.toFinset = V.pending groupState →
    engine.createCommit groupState refs = .error err → isRefMismatch err = false

theorem Obeyed.accepts {V : EngineView} {engine : MLSEngine} (h : V.Obeyed engine)
    (ha : Accepts engine groupState p newState) :
    V.Stores groupState p.proposalRef p.data newState := by
  cases ha with
  | created hc href hdata =>
    rw [href, hdata]
    exact h.created _ _ _ _ hc
  | processed hp href =>
    rw [href]
    exact h.processed _ _ _ hp

end EngineView

-- -------- The invariant

structure Mirrors (V : EngineView) (cfg : CoordinatorConfig) (c : Core) : Prop where
  refs : (c.singleWriter.proposals.map (·.proposalRef)).toFinset = V.pending c.groupState
  nodup : (c.singleWriter.proposals.map (·.proposalRef)).Nodup
  fits : (c.singleWriter.proposals.length : Int) ≤ cfg.maxBatchedProposals
  current : ∀ p ∈ c.singleWriter.proposals,
    V.refEpoch p.proposalRef = V.epoch c.groupState ∧ V.dataEpoch p.data = V.epoch c.groupState
  past : ∀ applied ∈ c.appliedCommits,
    (∀ ref ∈ applied.commit.committedProposalRefs, V.refEpoch ref < V.epoch c.groupState) ∧
      ∀ data ∈ proposalBytesFromMsgs applied.commit.includedProposals,
        V.dataEpoch data < V.epoch c.groupState
  recorded : ∃ stored, c.ledger.record = some stored ∧
    V.epoch stored.groupState = V.epoch c.groupState

namespace Mirrors

variable {V : EngineView} {x : Ctx} {c c' : Core}

/-- A step that leaves the buffer, the engine's view of its state and the commits alone. -/
theorem congr (h : Mirrors V cfg c) (hw : c'.singleWriter.proposals = c.singleWriter.proposals)
    (hp : V.pending c'.groupState = V.pending c.groupState)
    (he : V.epoch c'.groupState = V.epoch c.groupState) (ha : c'.appliedCommits = c.appliedCommits)
    (hr : ∃ stored, c'.ledger.record = some stored ∧
      V.epoch stored.groupState = V.epoch c.groupState) : Mirrors V cfg c' where
  refs := by rw [hw, hp]; exact h.refs
  nodup := hw ▸ h.nodup
  fits := hw ▸ h.fits
  current := by rw [hw, he]; exact h.current
  past := by rw [ha, he]; exact h.past
  recorded := he ▸ hr

theorem fresh (hw : c.singleWriter.proposals = []) (hp : V.pending c.groupState = ∅)
    (hcfg : 0 ≤ cfg.maxBatchedProposals)
    (ha : ∀ applied ∈ c.appliedCommits,
      (∀ ref ∈ applied.commit.committedProposalRefs, V.refEpoch ref < V.epoch c.groupState) ∧
        ∀ data ∈ proposalBytesFromMsgs applied.commit.includedProposals,
          V.dataEpoch data < V.epoch c.groupState)
    (hr : ∃ stored, c.ledger.record = some stored ∧
      V.epoch stored.groupState = V.epoch c.groupState) : Mirrors V cfg c where
  refs := by rw [hw, hp]; rfl
  nodup := by rw [hw]; exact List.nodup_nil
  fits := by rw [hw]; exact hcfg
  current := by rw [hw]; exact fun _ hm => absurd hm List.not_mem_nil
  past := ha
  recorded := hr

theorem propose (h : Mirrors V x.cfg c) (hs : V.Stores c.groupState p.proposalRef p.data newState)
    (hr : c.Records newState record) (hd : c.singleWriter.drops x.cfg p = false) :
    Mirrors V x.cfg { c with
      groupState := newState
      ledger := { c.ledger with record }
      singleWriter := c.singleWriter.bufferProposal x.cfg p
      dropped := n } := by
  obtain ⟨stored, hrec, hst, -⟩ := hr
  have hrecorded : ∃ stored, record = some stored ∧
      V.epoch stored.groupState = V.epoch c.groupState := ⟨stored, hrec, by rw [hst, hs.epoch]⟩
  by_cases hheld : c.singleWriter.holdsRef p.proposalRef = true
  · -- The engine knows the reference as well.
    have hmem : p.proposalRef ∈ V.pending c.groupState := by
      rw [← h.refs, List.mem_toFinset]
      exact (of_decide_eq_true hheld).2
    have hsame : c.singleWriter.bufferProposal x.cfg p = c.singleWriter := by
      unfold bufferProposal
      rw [if_pos hheld]
    refine h.congr (by rw [hsame]) ?_ hs.epoch rfl hrecorded
    rw [hs.pending, Finset.insert_eq_of_mem hmem]
  have hroom : ¬ c.singleWriter.isFull x.cfg = true := by
    intro hfull
    simp [drops, hheld, hfull] at hd
  have hnew : p.proposalRef ∉ c.singleWriter.proposals.map (·.proposalRef) := fun hm =>
    hheld (decide_eq_true ⟨hs.nonempty, hm⟩)
  have happend : (c.singleWriter.bufferProposal x.cfg p).proposals =
      c.singleWriter.proposals ++ [p] := by
    unfold bufferProposal
    rw [if_neg hheld, if_neg hroom]
  refine ⟨?_, ?_, ?_, ?_, ?_, hs.epoch ▸ hrecorded⟩
  · change ((c.singleWriter.bufferProposal x.cfg p).proposals.map (·.proposalRef)).toFinset = _
    rw [happend, hs.pending, ← h.refs]
    ext ref
    simp only [List.map_append, List.map_cons, List.map_nil, List.mem_toFinset, List.mem_append,
      List.mem_singleton, Finset.mem_insert, or_comm]
  · change ((c.singleWriter.bufferProposal x.cfg p).proposals.map (·.proposalRef)).Nodup
    rw [happend, List.map_append]
    refine List.nodup_append.mpr ⟨h.nodup, List.nodup_singleton _, ?_⟩
    rintro ref hold _ hlast rfl
    exact hnew ((List.mem_singleton.mp hlast : ref = p.proposalRef) ▸ hold)
  · change ((c.singleWriter.bufferProposal x.cfg p).proposals.length : Int) ≤ _
    rw [happend, List.length_append, List.length_singleton]
    have hlt : ¬ (c.singleWriter.proposals.length : Int) ≥ x.cfg.maxBatchedProposals := fun hge =>
      hroom (decide_eq_true hge)
    push_cast
    omega
  · change ∀ q ∈ (c.singleWriter.bufferProposal x.cfg p).proposals, _
    rw [happend]
    intro q hq
    rw [hs.epoch]
    rcases List.mem_append.mp hq with hold | hlast
    · exact h.current q hold
    · rw [List.mem_singleton.mp hlast]
      exact ⟨hs.ofRef, hs.ofData⟩
  · intro applied ha
    rw [hs.epoch]
    exact h.past applied ha

theorem enterEpoch (h : Mirrors V cfg c) (newTreeHash commitData : Bytes)
    (hp : V.pending newState = ∅) (he : V.epoch newState = V.epoch c.groupState + 1)
    (hcfg : 0 ≤ cfg.maxBatchedProposals)
    (hr : ∃ r, ledger.record = some r ∧ r.groupState = newState) :
    Mirrors V cfg (c.enterEpoch x newState newTreeHash commitData ledger) where
  refs := hp.symm
  nodup := List.nodup_nil
  fits := hcfg
  current _ hm := absurd hm List.not_mem_nil
  past applied ha := by
    obtain ⟨hrefs, hdata⟩ := h.past applied ha
    change (∀ ref ∈ _, _ < V.epoch newState) ∧ ∀ data ∈ _, _ < V.epoch newState
    rw [he]
    exact ⟨fun ref hm => (hrefs ref hm).trans (Nat.lt_succ_self _),
      fun data hm => (hdata data hm).trans (Nat.lt_succ_self _)⟩
  recorded := by
    obtain ⟨r, hrec, hst⟩ := hr
    exact ⟨r, hrec, by rw [hst]; rfl⟩

theorem accepted_past (hV : V.Obeyed engine)
    (ha : CommitAccepted engine groupState commit newState newTreeHash) :
    (∀ ref ∈ commit.committedProposalRefs, V.refEpoch ref < V.epoch newState) ∧
      ∀ data ∈ proposalBytesFromMsgs commit.includedProposals,
        V.dataEpoch data < V.epoch newState := by
  obtain ⟨refs, hstage, hrefs⟩ := ha.staged
  obtain ⟨hofRef, hofData⟩ := hV.staged _ _ _ _ hstage
  rw [(hV.merged _ _ _ _ _ ha.processed).2]
  refine ⟨fun ref hm => Nat.lt_succ_of_le ?_, fun data hm => Nat.lt_succ_of_le (hofData data hm).le⟩
  rcases hrefs with hnil | hperm
  · rw [hnil] at hm
    cases hm
  · exact (hofRef ref (hperm.mem_iff.mpr hm)).le

theorem drain_self (h : Mirrors V cfg c) (ha : applied ∈ c.appliedCommits) :
    ((c.singleWriter.drainBatchByRefs applied.commit.committedProposalRefs).1.drainBatchByData
      ((proposalBytesFromMsgs applied.commit.includedProposals).filter (· ≠ []))).1 =
        c.singleWriter := by
  obtain ⟨hrefs, hdata⟩ := h.past applied ha
  rw [drainBatchByRefs_of_not_mem, drainBatchByData_of_not_mem]
  · intro p hp hm
    have := hdata p.data (List.mem_filter.mp hm).1
    have := (h.current p hp).2
    omega
  · intro p hp hm
    have := hrefs p.proposalRef hm
    have := (h.current p hp).1
    omega

theorem coreStep (h : Mirrors V x.cfg c) (hV : V.Obeyed x.engine)
    (hcfg : 0 ≤ x.cfg.maxBatchedProposals)
    (hstep : CoreStep x c c') (hd : c'.dropped = c.dropped) : Mirrors V x.cfg c' := by
  cases hstep with
  | suspend pid => exact h.congr (suspend_proposals _) rfl rfl rfl h.recorded
  | propose p newState record accepted recorded =>
    refine h.propose (hV.accepts accepted) recorded ?_
    change c.dropped + (c.singleWriter.drops x.cfg p).toNat = c.dropped at hd
    cases hdrops : c.singleWriter.drops x.cfg p with
    | false => rfl
    | true => simp [hdrops] at hd
  | commit env wire commit newState newTreeHash ledger known payload current gate accepted applies
      stored =>
    obtain ⟨hp, he⟩ := hV.merged _ _ _ _ _ accepted.processed
    obtain ⟨r, hrec, hst, -⟩ := stored
    have henter := h.enterEpoch (x := x) newTreeHash commit.commitData hp he hcfg ⟨r, hrec, hst⟩
    refine ⟨henter.refs, henter.nodup, henter.fits, henter.current, fun applied hm => ?_,
      henter.recorded⟩
    rcases List.mem_append.mp hm with hold | hnew
    · exact henter.past applied hold
    · rw [List.mem_singleton.mp hnew]
      exact accepted_past hV accepted
  | issue issued result refs wire ledger electorate writer elected sender message carries created
      applies stored =>
    obtain ⟨hp, he⟩ := hV.committed _ _ _ created
    obtain ⟨r, hrec, hst, -⟩ := stored
    have henter := h.enterEpoch (x := x) result.newTreeHash result.commitBytes hp he hcfg
      ⟨r, hrec, hst⟩
    exact ⟨henter.refs, henter.nodup, henter.fits, henter.current, henter.past, henter.recorded⟩
  | drain applied seen =>
    exact h.congr (congrArg proposals (h.drain_self seen)) rfl rfl rfl h.recorded
  | deliver wire newState ledger ciphers applies coord recorded =>
    obtain ⟨hp, he⟩ := hV.ciphers _ _ ciphers
    obtain ⟨stored, hrec, hst, -⟩ := recorded
    exact h.congr rfl hp he rfl ⟨stored, hrec, by rw [hst, he]⟩
  | batch wire newState ledger ciphers applies coord recorded =>
    obtain ⟨hp, he⟩ := hV.ciphers _ _ ciphers
    rcases recorded with hsame | ⟨stored, hrec, hst, -⟩
    · obtain ⟨stored, hrec, hst⟩ := h.recorded
      exact h.congr rfl hp he rfl ⟨stored, hsame.trans hrec, hst⟩
    · exact h.congr rfl hp he rfl ⟨stored, hrec, by rw [hst, he]⟩
  | _ => exact h.congr rfl rfl rfl rfl h.recorded

theorem dropped_le (hstep : CoreStep x c c') : c.dropped ≤ c'.dropped := by
  cases hstep with
  | propose => exact Nat.le_add_right _ _
  | _ => exact le_rfl

theorem coreSteps (h : Mirrors V x.cfg c) (hV : V.Obeyed x.engine)
    (hcfg : 0 ≤ x.cfg.maxBatchedProposals) (hsteps : CoreSteps x c c')
    (hd : c'.dropped = c.dropped) : Mirrors V x.cfg c' := by
  have hmono : ∀ {b}, CoreSteps x c b → c.dropped ≤ b.dropped := by
    intro b hb
    induction hb with
    | refl => exact le_rfl
    | tail _ hstep ih => exact ih.trans (dropped_le hstep)
  induction hsteps with
  | refl => exact h
  | tail hsteps hstep ih =>
    have hle := hmono hsteps
    have hle' := dropped_le hstep
    exact (ih (by omega)).coreStep hV hcfg hstep (by omega)

end Mirrors

-- -------- Boots

def Boot.Saved (b : Boot) : Prop :=
  ∃ stored, b.storage.group = some stored ∧ stored.groupState = b.groupState

section Boots

variable {x : Ctx} {b b' : Boot} {s : State}

theorem loadGroup_saved (h : loadGroup x b = .ok b') (hb : b.Saved ∨ b.groupState = []) :
    b'.Saved := by
  obtain ⟨hne, rfl⟩ | ⟨-, stored, hgroup, rfl⟩ := loadGroup_cases h
  · exact hb.resolve_right hne
  · exact ⟨stored, hgroup, rfl⟩

theorem createGroup_saved (h : createGroup x b = .ok b') : b'.Saved := by
  unfold createGroup at h
  obtain ⟨⟨groupState, treeHash⟩, -, h⟩ := bind_ok h
  obtain ⟨db, hsave, h⟩ := bind_ok h
  obtain ⟨db', hcoord, h⟩ := bind_ok h
  cases h
  obtain ⟨-, stored, hg, hs, -⟩ := Storage.saveGroupRecord_ok hsave
  obtain ⟨-, -, rfl⟩ := Disk.exec_ok hcoord
  exact ⟨stored, hg, hs⟩

theorem start_saved (h : start x b = .ok s) (hb : b.Saved ∨ b.groupState = []) :
    s.core.singleWriter.proposals = [] ∧
      ∃ stored, s.core.ledger.record = some stored ∧ stored.groupState = s.core.groupState := by
  obtain ⟨b₁, b₂, lastCommitHash, hload, hhist, hcore⟩ := start_core h
  rw [hcore]
  refine ⟨rfl, ?_⟩
  change (rootHistory x b₂).Saved
  obtain ⟨hs, -, hg⟩ := rootHistory_rest (x := x) (b := b₂)
  obtain ⟨hs', -, hg'⟩ := loadHistory_rest hhist
  rw [Boot.Saved, hs, hg, hs', hg']
  exact loadGroup_saved hload hb

end Boots

theorem Booted.mirrors {V : EngineView} (h : Booted node allowed s)
    (hp : V.pending s.groupState = ∅) (hcfg : 0 ≤ cfg.maxBatchedProposals) :
    Mirrors V cfg s.core := by
  have hsaved : s.core.singleWriter.proposals = [] ∧
      ∃ stored, s.core.ledger.record = some stored ∧ stored.groupState = s.core.groupState := by
    cases h with
    | created w ok view storage hcreate hstart =>
      exact start_saved hstart (.inl (createGroup_saved hcreate))
    | stored w ok view anchor storage hstart =>
      exact start_saved hstart (.inr (rebooted_nil _ view anchor storage))
  obtain ⟨hw, stored, hrec, hst⟩ := hsaved
  obtain ⟨_, _, hcore⟩ := h.core
  have ha : s.core.appliedCommits = [] := congrArg Core.appliedCommits hcore
  exact .fresh hw hp hcfg (by rw [ha]; exact fun _ hm => absurd hm List.not_mem_nil)
    ⟨stored, hrec, by rw [hst]⟩

-- -------- Runs

/-- The events after which buffer and engine still agree: no heal, an engine as described, no
proposal dropped by a full buffer, and no restart from a group state with pending proposals. -/
structure EngineView.Keeps (V : EngineView) (node : Node) (s : State) (a : Action) : Prop where
  obeyed : V.Obeyed a.world.engine
  noHeal : ∀ wake, a.op ≠ .heal wake
  room : ∀ s', step node a s = some s' → s'.dropped = s.dropped
  restarts : ∀ view anchor, a.op = .restart view anchor →
    ∀ stored, s.storage.group = some stored → V.pending stored.groupState = ∅

theorem step_mirrors {V : EngineView} (h : Mirrors V node.cfg s.core) (ok : V.Keeps node s a)
    (hcfg : 0 ≤ node.cfg.maxBatchedProposals) (hstep : step node a s = some s') :
    Mirrors V node.cfg s'.core := by
  have hroom := ok.room s' hstep
  by_cases hrestart : ∃ view anchor, a.op = .restart view anchor
  · obtain ⟨view, anchor, hop⟩ := hrestart
    unfold step at hstep
    rw [hop] at hstep
    obtain ⟨s₁, hstart, hcore⟩ := restart_core (toOption_eq_some hstep)
    obtain ⟨hw, stored, hrec, hst⟩ := start_saved hstart (.inr (rebooted_nil _ view anchor _))
    obtain ⟨hledger, -, -⟩ := rebooted_tables hstart
    obtain ⟨stored', hrec', hepoch⟩ := h.recorded
    obtain rfl : stored = stored' := Option.some.inj (hrec.symm.trans (hledger.trans hrec'))
    rw [hst] at hepoch
    rw [hcore]
    refine .fresh hw ?_ hcfg ?_ ⟨stored, hrec, by rw [hst]⟩
    · change V.pending s₁.core.groupState = ∅
      rw [← hst]
      exact ok.restarts view anchor hop stored hrec'
    change ∀ applied ∈ s.core.appliedCommits, (∀ ref ∈ _, _ < V.epoch s₁.core.groupState) ∧
      ∀ data ∈ _, _ < V.epoch s₁.core.groupState
    rw [hepoch]
    exact h.past
  · have harrive : Mirrors V node.cfg (s.arrive a.op).core := h.congr rfl rfl rfl rfl h.recorded
    unfold step at hstep
    split at hstep
    next view anchor hop =>
      exact absurd ⟨view, anchor, hop⟩ hrestart
    have hsteps := (perform_moves (x := a.ctx node) (run_reenters a.fuel) a.op ok.noHeal
      (s.arrive a.op) (fun _ hm => hm) rfl).steps
    rw [Option.some.inj hstep] at hsteps
    exact Mirrors.coreSteps (x := a.ctx node) harrive ok.obeyed hcfg hsteps hroom

theorem Mirrors.snapshot {V : EngineView} {s : State} (h : Mirrors V cfg s.core) :
    ((s.singleWriter.snapshotNextBatch cfg).map (·.proposalRef)).Perm
      (s.singleWriter.proposals.map (·.proposalRef)) := by
  have hall : s.singleWriter.snapshotNextBatch cfg = sortProposals s.singleWriter.proposals := by
    unfold snapshotNextBatch
    dsimp only
    rw [if_neg]
    rw [sortProposals, (List.perm_insertionSort _ _).length_eq]
    exact not_lt.mpr h.fits
  rw [hall]
  exact (List.perm_insertionSort _ _).map _

/-- In every run without heals in which no full buffer drops a proposal and no restart finds
pending proposals, the references in the buffer are the pending ones, and no commit of the
next batch is refused because they differ. -/
theorem buffer_mirrors_engine (node : Node) (V : EngineView) (s₀ s : State)
    (boot : Booted node (fun _ => True) s₀) (empty : V.pending s₀.groupState = ∅)
    (run : Transition.Run (step node) (V.Keeps node) s₀ s) :
    (s.singleWriter.proposals.map (·.proposalRef)).toFinset = V.pending s.groupState ∧
      ∀ engine err, V.Obeyed engine → engine.createCommit s.groupState
          ((s.singleWriter.snapshotNextBatch node.cfg).map (·.proposalRef)) = .error err →
        isRefMismatch err = false := by
  have hcfg : 0 ≤ node.cfg.maxBatchedProposals :=
    (Int.zero_le_ofNat 1).trans (CoordinatorConfig.maxBatchedProposals_pos node.valid)
  have h : Mirrors V node.cfg s.core :=
    run.invariant (fun s => Mirrors V node.cfg s.core) (boot.mirrors empty hcfg)
      fun _ _ _ h ok hstep => step_mirrors h ok hcfg hstep
  refine ⟨h.refs, fun engine err hV hfail => hV.matched _ _ _ ?_ ?_ hfail⟩
  · exact h.snapshot.nodup_iff.mpr h.nodup
  · rw [List.toFinset_eq_of_perm _ _ h.snapshot]
    exact h.refs

-- -------- The reference engine

namespace Reference

/-- A proposal, and a reference, begins with its epoch. -/
def itemEpoch : Bytes → Nat
  | e :: _ => e
  | [] => 0

def view : EngineView where
  pending groupState := (pending groupState).toFinset
  epoch := epoch
  refEpoch := itemEpoch
  dataEpoch := itemEpoch

theorem store_stores (e : Byte) (ids : Bytes) (id : Byte) :
    view.Stores (1 :: e :: ids) [e, id] [e, id] (store e ids id) := by
  unfold store
  split
  next hm =>
    refine ⟨List.cons_ne_nil _ _, rfl, rfl, ?_, rfl⟩
    refine (Finset.insert_eq_of_mem ?_).symm
    exact List.mem_toFinset.mpr (List.mem_map_of_mem hm)
  · refine ⟨List.cons_ne_nil _ _, rfl, rfl, ?_, rfl⟩
    change ((ids ++ [id]).map ([e, ·])).toFinset = insert [e, id] (ids.map ([e, ·])).toFinset
    ext ref
    rw [List.mem_toFinset, List.map_append, List.mem_append, or_comm, List.map_singleton,
      List.mem_singleton, Finset.mem_insert, List.mem_toFinset]

theorem createCommit_matched (hn : refs.Nodup) (hr : refs.toFinset = view.pending groupState)
    (h : createCommit groupState refs = .error err) : isRefMismatch err = false := by
  unfold createCommit at h
  split at h
  next e ids =>
    dsimp only at h
    split at h
    next hmismatch =>
      obtain ⟨-, hne⟩ := hmismatch
      have hpending : (ids.dedup.map ([e, ·])).Nodup :=
        (List.nodup_dedup ids).map fun a b hab => (List.cons.inj (List.cons.inj hab).2).1
      have hperm : (ids.dedup.map ([e, ·])).Perm refs := by
        refine List.perm_of_nodup_nodup_toFinset_eq hpending hn (hr.symm ▸ ?_)
        ext ref
        simp [view, pending]
      rw [proposalRefSetsEqual_iff.mpr hperm] at hne
      cases hne
    split at h
    · cases h
      decide
    split at h
    · cases h
      decide
    · cases h
  · cases h
    decide

theorem engine_obeys : view.Obeyed engine where
  created _ _ _ _ h := by
    obtain ⟨e, ids, id, rfl, -, rfl⟩ := createProposal_ok h
    exact store_stores e ids id
  processed _ _ _ h := by
    obtain ⟨e, ids, id, rfl, rfl, rfl⟩ := processProposal_ok h
    exact store_stores e ids id
  committed _ _ _ h := by
    obtain ⟨e, ids, rfl, hlast, hnew⟩ := createCommit_ok h
    rw [hnew]
    exact ⟨rfl, epoch_succ hlast⟩
  staged groupState commit included refs h := by
    obtain ⟨⟨e, staged⟩, hstage, rfl⟩ := map_ok h
    obtain ⟨ids, committed, rfl, -, rfl, hdata⟩ := stage_ok hstage
    refine ⟨fun ref hm => ?_, fun data hm => ?_⟩
    · obtain ⟨id, -, rfl⟩ := List.mem_map.mp hm
      rfl
    obtain ⟨-, hhead⟩ := hdata data hm
    cases data with
    | nil => cases hhead
    | cons b rest => exact congrArg Fin.val (Option.some.inj hhead)
  merged groupState commit included newState newTreeHash h := by
    obtain ⟨⟨e, staged⟩, hstage, hresult⟩ := map_ok h
    cases hresult
    obtain ⟨ids, committed, rfl, hlast, -⟩ := stage_ok hstage
    exact ⟨rfl, epoch_succ hlast⟩
  ciphers groupState newState h := by
    cases h with
    | encrypted h => rw [(encryptMessage_ok h).1]; exact ⟨rfl, rfl⟩
    | decrypted h => rw [(decryptMessage_ok h).1]; exact ⟨rfl, rfl⟩
  matched _ _ _ hn hr h := createCommit_matched hn hr h

end Reference

open Reference in
/-- A received proposal is in both. -/
theorem received_proposal_mirrored :
    let node := node .testConfig CoordinatorConfig.testConfig_valid [66]
    let proposal := wire 0 [65] .proposal
      (.proposal { proposalType := .add, data := [0, 9], proposalRef := [0, 9] })
    ∃ s, trace node [[65], [66]] [action (.receive [65] proposal)] = some s ∧
      s.singleWriter.proposals.map (·.proposalRef) = [[0, 9]] ∧
      (s.singleWriter.proposals.map (·.proposalRef)).toFinset = view.pending s.groupState := by
  intro node proposal
  obtain ⟨s₀, hboot, s, hstep, hempty, hdropped₀, hdropped, hrefs⟩ :
      ∃ s₀, boot node [[65], [66]] = some s₀ ∧
      ∃ s, step node (action (.receive [65] proposal)) s₀ = some s ∧ pending s₀.groupState = [] ∧
        s₀.dropped = 0 ∧ s.dropped = 0 ∧ s.singleWriter.proposals.map (·.proposalRef) =
          [[0, 9]] := by
    decide +kernel
  have hkeeps : view.Keeps node s₀ (action (.receive [65] proposal)) := by
    refine ⟨engine_obeys, nofun, fun s' hs' => ?_, nofun⟩
    rw [hstep] at hs'
    rw [← Option.some.inj hs', hdropped, hdropped₀]
  have hmirrors := buffer_mirrors_engine node view s₀ s
    (boot_booted hboot trivial) (congrArg List.toFinset hempty) (.snoc _ .refl hkeeps hstep)
  refine ⟨s, ?_, hrefs, hmirrors.1⟩
  simp [trace, hboot, Transition.exec, hstep]

open Reference in
/-- A restart forgets the buffer and not what is pending, and the next commit is refused; a
full buffer drops a proposal that is pending. -/
theorem restart_and_full_buffer_lose_refs :
    let proposal (id : Byte) := wire 0 [65] .proposal
      (.proposal { proposalType := .add, data := [0, id], proposalRef := [0, id] })
    let small := { CoordinatorConfig.testConfig with maxBatchedProposals := 1 }
    let refs (s : State) := s.singleWriter.proposals.map (·.proposalRef)
    (trace (node .testConfig CoordinatorConfig.testConfig_valid [66])
        [[65], [66]] ([.receive [65] (proposal 9), .restart [[65], [66]] none,
          .receive [65] (proposal 7)].map action)).map (fun s =>
            (refs s, pending s.groupState,
              match engine.createCommit s.groupState (refs s) with
              | .error err => isRefMismatch err
              | .ok _ => false)) = some ([[0, 7]], [[0, 9], [0, 7]], true) ∧
      (trace (node small ((CoordinatorConfig.validate_ok _).mpr (by decide)) [66])
        [[65], [66]] ([.receive [65] (proposal 9), .receive [65] (proposal 7)].map
          action)).map (fun s => (refs s, pending s.groupState)) =
            some ([[0, 9]], [[0, 9], [0, 7]]) := by
  decide +kernel

end GroupCoordination
