import GroupCoordination.Properties.EpochAgreement
import GroupCoordination.Properties.Jobs
import Mathlib.Data.List.Count

/-!
# Messages of later epochs

A message that is ahead of the node is kept for its epoch and handed to its handler when
that epoch begins. The balance behind it: every message ever kept is still in the buffer,
on its way to a handler, or dispatched, and each of these once per time it was kept.

While the coordinator catches up or applies a heal nothing is handled; commits and single
messages go to the envelope log instead.

Three kinds of messages are not kept: a join proposal, which is meant for whatever epoch
the receiver is in, a batch, and, without offline sync, anything that arrives during a
catch-up. A restart and a heal that swaps the branch forget what was kept.
-/

namespace GroupCoordination

-- -------- The balance

def dispatchedCount (log : List Dispatched) (key : Nat) (wire : Wire) : Nat :=
  log.countP fun d => d.key = key ∧ d.wire = wire

structure Balanced (c : Core) : Prop where
  balance : ∀ key wire, c.retained.count (key, wire) =
    (c.epochTracker.futureBuffer key).count wire + c.inflight.count (key, wire) +
      dispatchedCount c.dispatched key wire
  begun : ∀ entry ∈ c.inflight, entry.1 ≤ c.epoch
  reached : ∀ d ∈ c.dispatched, d.key ≤ d.epoch ∧ d.epoch ≤ c.epoch

namespace Balanced

variable {x : Ctx} {c c' : Core}

theorem congr (h : Balanced c) (hr : c'.retained = c.retained)
    (ht : c'.epochTracker = c.epochTracker) (hi : c'.inflight = c.inflight)
    (hd : c'.dispatched = c.dispatched) (he : c'.epoch = c.epoch) : Balanced c' where
  balance := by rw [hr, ht, hi, hd]; exact h.balance
  begun := by rw [hi, he]; exact h.begun
  reached := by rw [hd, he]; exact h.reached

theorem retain (h : Balanced c) (hk : c.epochTracker.epoch < key) :
    Balanced { c with
      epochTracker := c.epochTracker.bufferFuture key wire
      retained := c.retained ++ [(key, wire)] } where
  balance k w := by
    have hb := h.balance k w
    rw [EpochTracker.bufferFuture_of_lt hk]
    by_cases hkey : k = key
    · subst hkey
      by_cases hw : wire = w
      · subst hw
        simp only [List.count_append, List.count_singleton_self, if_true]
        omega
      have hne : ((k, wire) : Nat × Wire) ≠ (k, w) := fun he => hw (Prod.mk.inj he).2
      simp only [List.count_append, List.count_singleton, if_true, beq_iff_eq, hw, hne, if_false]
      omega
    · have hne : ((key, wire) : Nat × Wire) ≠ (k, w) := fun he => hkey (Prod.mk.inj he).1.symm
      simp only [List.count_append, List.count_singleton, beq_iff_eq, hne, if_false, hkey]
      omega
  begun := h.begun
  reached := h.reached

theorem take (h : Balanced c) (next : c.inflight = (key, wire) :: rest) :
    Balanced { c with
      inflight := rest
      dispatched := c.dispatched ++ [{ key, wire, epoch := c.epoch }] } where
  balance k w := by
    have hb := h.balance k w
    rw [next] at hb
    by_cases heq : (key, wire) = (k, w)
    · obtain ⟨rfl, rfl⟩ := Prod.mk.inj heq
      simp [dispatchedCount, List.countP_append] at hb ⊢
      omega
    · have hnot : ¬ (key = k ∧ wire = w) := fun ⟨hk, hw⟩ => heq (by rw [hk, hw])
      simp [dispatchedCount, List.countP_append, heq, hnot] at hb ⊢
      omega
  begun entry hm := h.begun entry (next ▸ List.mem_cons_of_mem _ hm)
  reached d hm := by
    rcases List.mem_append.mp hm with hold | hnew
    · exact h.reached d hold
    · rw [List.mem_singleton.mp hnew]
      exact ⟨h.begun (key, wire) (next ▸ List.mem_cons_self), le_rfl⟩

theorem count_released (e : Nat) (buffered : List Wire) (w : Wire) :
    (buffered.map ((e, ·))).count (e, w) = buffered.count w :=
  List.count_map_of_injective _ _ (Prod.mk_right_injective _) _

theorem count_released_of_ne {k e : Nat} (buffered : List Wire) (h : k ≠ e) :
    (buffered.map ((e, ·))).count (k, w) = 0 := by
  refine List.count_eq_zero.mpr fun hm => ?_
  obtain ⟨_, -, he⟩ := List.mem_map.mp hm
  exact h (Prod.mk.inj he).1.symm

/-- The next epoch moves what was kept for it to its handlers. Nothing older is lost,
because nothing older is kept. -/
theorem enterEpoch (h : Balanced c) (ha : EpochsAgree c) (newState newTreeHash commitData : Bytes)
    (ledger : Ledger) : Balanced (c.enterEpoch x newState newTreeHash commitData ledger) where
  balance k w := by
    have hb := h.balance k w
    simp only [Core.enterEpoch, EpochTracker.advance, List.count_append]
    rcases Nat.lt_trichotomy k (c.epoch + 1) with hlt | heq | hgt
    · have hempty : c.epochTracker.futureBuffer k = [] := by
        by_contra hne
        have := ha.ahead k hne
        omega
      rw [if_pos hlt.le, count_released_of_ne _ hlt.ne]
      rw [hempty] at hb
      simp only [List.count_nil] at hb ⊢
      omega
    · subst heq
      rw [if_pos le_rfl, count_released]
      simp only [List.count_nil]
      omega
    · rw [if_neg (by omega), count_released_of_ne _ hgt.ne']
      omega
  begun entry hm := by
    rcases List.mem_append.mp hm with hnew | hold
    · obtain ⟨_, -, rfl⟩ := List.mem_map.mp hnew
      exact le_rfl
    · exact (h.begun entry hold).trans (Nat.le_succ _)
  reached d hm := (h.reached d hm).imp_right fun hle => hle.trans (Nat.le_succ _)

theorem coreStep (h : Balanced c) (ha : EpochsAgree c) (hstep : CoreStep x c c') : Balanced c' := by
  cases hstep with
  | retain key wire source env _ _ _ hk => exact h.retain hk
  | take key wire rest next => exact h.take next
  | commit env wire commit newState newTreeHash ledger =>
    exact (h.enterEpoch (x := x) ha newState newTreeHash commit.commitData ledger).congr
      rfl rfl rfl rfl rfl
  | issue issued result refs wire ledger =>
    exact (h.enterEpoch (x := x) ha result.newGroupState result.newTreeHash result.commitBytes
      ledger).congr rfl rfl rfl rfl rfl
  | _ => exact h.congr rfl rfl rfl rfl rfl

theorem coreSteps (h : Balanced c) (ha : EpochsAgree c) (hsteps : CoreSteps x c c') :
    Balanced c' := by
  suffices Balanced c' ∧ EpochsAgree c' from this.1
  induction hsteps with
  | refl => exact ⟨h, ha⟩
  | tail _ hstep ih => exact ⟨ih.1.coreStep ih.2 hstep, ih.2.coreStep hstep⟩

theorem healEdit (h : Balanced c) (ha : EpochsAgree c) (hstep : HealEdit x c c') : Balanced c' := by
  cases hstep with
  | drop => exact h.congr rfl rfl rfl rfl rfl
  | restore stored here => exact h.congr rfl rfl rfl rfl (ha.restored here)
  | overwrite => exact h.congr rfl rfl rfl rfl rfl

end Balanced

-- -------- Receiving

/-- The messages a live node keeps for their epoch. A single message that was applied
before is a duplicate, and a node without a group state takes no proposals. -/
inductive Retainable (x : Ctx) (env : Envelope) (data : Wire) (s : State) : Prop
  | commit (h : env.type = .commit)
  | application (h : env.type = .application)
      (fresh : (checkAppliedEnvelopeLocked x env data s).2 = false)
  | proposal (proposal : ProposalMsg) (h : env.type = .proposal)
      (payload : env.payload = .proposal proposal) (notJoin : proposal.proposalType ≠ .join)
      (group : s.groupState ≠ [])

/-- A kept proposal is marshalled again, anything else is kept as it came. -/
def Envelope.keptAs (env : Envelope) (data : Wire) : Wire :=
  if env.type = .proposal then env.marshal else data

section Receiving

variable {x : Ctx} {s : State} {call : Call → State → State}

theorem applicationAction_ahead (h : s.epochTracker.epoch < env.epoch) :
    applicationAction x env envelopeHash s = .bufferFuture := by
  have hv : s.epochTracker.validate env.epoch = .bufferFuture := validateEpoch_future.mpr h
  unfold applicationAction
  simp [hv]

theorem handleLiveLocked_retains (h : Retainable x env data s)
    (hahead : s.epochTracker.epoch < env.epoch) :
    (handleLiveLocked x call pid env data s).core =
      (s.retain env.epoch (env.keptAs data)).core := by
  have hv : s.epochTracker.validate env.epoch = .bufferFuture := validateEpoch_future.mpr hahead
  unfold handleLiveLocked
  cases h with
  | commit ht =>
    rw [ht]
    simp [handleCommitLocked, hv, Envelope.keptAs, ht]
  | application ht fresh =>
    rw [ht]
    simp only [handleApplicationLocked, handleApplicationDetailedLocked, fresh, Envelope.keptAs, ht,
      applicationAction_ahead hahead]
    exact conclude_core _
  | proposal msg ht payload notJoin group =>
    rw [ht]
    simp [handleProposalLocked, payload, notJoin, group, hv, Envelope.keptAs, ht]

theorem handleRawMessage_retains (hraw : acceptsRaw x pid data = some env)
    (hcatch : s.operationalMode ≠ .catchingUp) (hfrozen : s.operationalMode ≠ .frozenForApply)
    (h : Retainable x env data s) (hahead : s.epochTracker.epoch < env.epoch) :
    (handleRawMessage x call pid data s).core = (s.retain env.epoch (env.keptAs data)).core := by
  unfold handleRawMessage
  rw [hraw]
  dsimp only [handleAcceptedLocked]
  split
  next hm =>
    exact absurd hm hcatch
  next hm =>
    exact absurd hm hfrozen
  · exact handleLiveLocked_retains h hahead

theorem appendEnvelopeWithSource_row {d : Disk} {db : Storage} (msgType : MessageType)
    (ts : HLCTimestamp) (source : String) (hw : d.works db.writes .appendEnvelope = true)
    (he : epoch < 2 ^ 63) (hfresh : d.hash wire ∉ db.dedup) :
    ∃ db' row, Storage.appendEnvelopeWithSource d db msgType epoch ts wire source = .ok db' ∧
      db'.envelopeLog = db.envelopeLog ++ [row] ∧ row.envelope = wire ∧ row.epoch = epoch ∧
      row.msgType = msgType := by
  unfold Storage.appendEnvelopeWithSource Storage.putEnvelope
  simp only [hfresh, if_false, Disk.write, Disk.exec, hw, bindable, he, decide_true,
    and_self, if_true]
  exact ⟨_, _, rfl, rfl, rfl, rfl, rfl⟩

theorem handleRawMessage_logs (hraw : acceptsRaw x pid data = some env)
    (htype : env.type = .commit ∨ env.type = .application)
    (hmode : s.operationalMode = .frozenForApply ∨
      s.operationalMode = .catchingUp ∧ x.cfg.offlineSyncEnabled = true)
    (hw : x.works s.storage.writes .appendEnvelope = true) (he : env.epoch < 2 ^ 63)
    (hfresh : x.disk.hash data ∉ s.storage.dedup) :
    ∃ row, (handleRawMessage x call pid data s).storage.envelopeLog =
        s.storage.envelopeLog ++ [row] ∧
      row.envelope = data ∧ row.epoch = env.epoch ∧ row.msgType = env.type := by
  have hrow :=
    fun source => appendEnvelopeWithSource_row (d := x.disk) env.type env.timestamp source
    hw he hfresh
  unfold handleRawMessage
  rw [hraw]
  dsimp only [handleAcceptedLocked]
  rcases hmode with hm | ⟨hm, hsync⟩
  · obtain ⟨db, row, hok, hlog, hrest⟩ := hrow "local"
    simp only [hm, htype, if_true, Storage.appendEnvelope, hok, State.storeOrWarn]
    exact ⟨row, hlog, hrest⟩
  · obtain ⟨db, row, hok, hlog, hrest⟩ := hrow "gossip_catchup"
    simp only [hm, htype, if_true, hsync, hok, State.storeOrWarn]
    exact ⟨row, hlog, hrest⟩

end Receiving

-- -------- Runs

variable {node : Node} {s s' : State}

structure Retains (c : Core) : Prop where
  agree : EpochsAgree c
  balanced : Balanced c
  idle : c.inflight = []

theorem Booted.retains (h : Booted node allowed s) : Retains s.core := by
  obtain ⟨_, b, hb⟩ := h.core
  refine ⟨h.epochsAgree, ?_, ?_⟩
  · rw [hb]
    exact ⟨fun _ _ => rfl, fun _ hm => absurd hm List.not_mem_nil,
      fun _ hm => absurd hm List.not_mem_nil⟩
  · rw [hb]
    rfl

theorem Retainable.arrive {x : Ctx} (op : Op) (h : Retainable x env data s) :
    Retainable x env data (s.arrive op) := by
  cases h with
  | commit ht => exact .commit ht
  | application ht fresh => exact .application ht fresh
  | proposal msg ht payload notJoin group => exact .proposal msg ht payload notJoin group

theorem step_retains (h : Retains s.core) (ok : KeepsBranch s a)
    (hstep : step node a s = some s') : Retains s'.core := by
  refine ⟨step_epochsAgree h.agree hstep, ?_, ?_⟩
  · have hb : Balanced (s.arrive a.op).core := h.balanced.congr rfl rfl rfl rfl rfl
    cases step_effect hstep with
    | moves hmoves => exact hb.coreSteps (h.agree.arrive a.op) hmoves.steps
    | edit hedit => exact hb.healEdit (h.agree.arrive a.op) hedit
    | swap wake hop hs hswap => exact absurd hs (ok.2 wake hop)
    | restart view anchor hop hrestart => exact absurd hop (ok.1 view anchor)
  cases step_effect hstep with
  | moves hmoves => exact hmoves.settled.trans h.idle
  | edit hedit =>
    generalize s'.core = c' at hedit
    cases hedit <;> exact h.idle
  | swap wake hop hs hswap => exact absurd hs (ok.2 wake hop)
  | restart view anchor hop hrestart => exact absurd hop (ok.1 view anchor)

theorem Retains.dispatched_reached (h : Retains s.core) (hk : key ≤ s.epoch) :
    dispatchedCount s.dispatched key wire = s.retained.count (key, wire) := by
  have hb := h.balanced.balance key wire
  have hempty : s.core.epochTracker.futureBuffer key = [] := by
    by_contra hne
    exact absurd (h.agree.ahead key hne) (Nat.not_lt.mpr hk)
  rw [hempty, h.idle] at hb
  simp only [List.count_nil, Nat.zero_add] at hb
  exact hb.symm

theorem Retains.dispatched_ahead (h : Retains s.core) (hk : s.epoch < key) :
    dispatchedCount s.dispatched key wire = 0 := by
  refine List.countP_eq_zero.mpr fun d hd hboth => ?_
  obtain ⟨hle, hle'⟩ := h.balanced.reached d hd
  have hkey := (of_decide_eq_true hboth).1
  change d.epoch ≤ s.epoch at hle'
  omega

theorem Retains.step_retains_ahead (h : Retains s.core) (hop : a.op = .receive pid data)
    (hraw : acceptsRaw (a.ctx node) pid data = some env)
    (hcatch : s.operationalMode ≠ .catchingUp) (hfrozen : s.operationalMode ≠ .frozenForApply)
    (hahead : s.epoch < env.epoch) (hretain : Retainable (a.ctx node) env data s) :
    ∃ s', step node a s = some s' ∧
      s'.retained = s.retained ++ [(env.epoch, env.keptAs data)] := by
  refine ⟨_, step_receive hop, ?_⟩
  have ht : s.epochTracker.epoch = s.epoch := h.agree.tracker
  rw [← ht] at hahead
  exact congrArg Core.retained
    (handleRawMessage_retains (s := s.arrive a.op) hraw hcatch hfrozen (hretain.arrive a.op) hahead)

namespace Reference

def unsynced : Node :=
  Reference.node { CoordinatorConfig.testConfig with offlineSyncEnabled := false }
    ((CoordinatorConfig.validate_ok _).mpr (by decide)) [66]

def retained (node : Node) (ops : List Op) : Option State :=
  trace node [[65], [66]] (ops.map action)

def retainedCommit (e : Byte) : Wire :=
  wire e [65] .commit (.commit (commitMsg e 9 { proposalType := .add }))

end Reference

end GroupCoordination
