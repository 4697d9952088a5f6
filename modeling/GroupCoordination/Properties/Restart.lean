import GroupCoordination.Properties.History

/-!
# What a restart remembers of the branch

The group record and the history chain are stored by separate transactions. A process
that ends between the two comes back with the record of the new epoch and the chain of the
old one. If the coordination state was stored after the last commit, a restart finds the
history it left.
-/

namespace GroupCoordination

theorem HistoryChain.get_map (f : Option Bytes → Option Bytes) (chain : HistoryChain) :
    HistoryChain.get (chain.map fun (epoch, h) => (epoch, f h)) e = (chain.get e).map f := by
  unfold HistoryChain.get
  rw [List.find?_map, Option.map_map, Option.map_map]
  rfl

structure Stored (node : Node) (c : Core) : Prop where
  last : c.lastCommitHash = c.lineage.commits.getLast?.getD []
  coord : c.ledger.saved = true → c.ledger.coord = some c.coordState ∨
    c.ledger.coord = some { lastCommitHash := [], historyChain := [] } ∧
      c.lineage.root = node.genesis ∧ c.lineage.commits = []

namespace Stored

theorem enterEpoch (node : Node) (newState newTreeHash commitData : Bytes) (ledger : Ledger)
    (persisted : (Core.enterEpoch x newState newTreeHash commitData ledger c).Persisted) :
    Stored node (c.enterEpoch x newState newTreeHash commitData ledger) where
  last := by simp [Core.enterEpoch, Lineage.extend]
  coord hsaved := by
    refine .inl (persisted.resolve_right fun hlost => ?_)
    rw [hlost] at hsaved
    cases hsaved

theorem coreStep (h : Stored node c) (hstep : CoreStep x c c') : Stored node c' := by
  cases hstep with
  | commit env wire commit newState newTreeHash ledger known payload current gate accepted applies
      stored persisted =>
    have h' := Stored.enterEpoch node newState newTreeHash commit.commitData ledger persisted
    exact ⟨h'.last, h'.coord⟩
  | issue issued result refs wire ledger electorate writer elected sender message carries created
      applies stored persisted =>
    have h' := Stored.enterEpoch node result.newGroupState result.newTreeHash
      result.commitBytes ledger persisted
    exact ⟨h'.last, h'.coord⟩
  | deliver wire newState ledger ciphers applies coord
  | batch wire newState ledger ciphers applies coord =>
    refine ⟨h.last, fun hsaved => ?_⟩
    change ledger.coord = _ ∨ ledger.coord = _ ∧ _
    rw [coord.1]
    exact h.coord (coord.2.symm.trans hsaved)
  | persist => exact ⟨h.last, fun _ => .inl rfl⟩
  | _ => exact ⟨h.last, h.coord⟩

theorem coreSteps (h : Stored node c) (hsteps : CoreSteps x c c') : Stored node c' := by
  induction hsteps with
  | refl => exact h
  | tail _ hstep ih => exact ih.coreStep hstep

theorem healEdit (h : Stored node c) (hstep : HealEdit x c c') : Stored node c' := by
  cases hstep <;> exact ⟨h.last, h.coord⟩

theorem healSwap (hstep : HealSwap x c c') (hw : ¬ x.toWorld.LosesCoordState) : Stored node c' := by
  obtain ⟨newState, newTreeHash, newEpoch, record, coord, saved, -, -, persisted⟩ := hstep
  exact ⟨rfl, fun _ => .inl (persisted.resolve_right hw)⟩

end Stored

-- -------- Restarts

structure Recalls (node : Node) (c : Core) : Prop
    extends EpochsAgree c, Charted node.hash c, Stored node c

theorem Charted.get_stored (h : Charted H c) (e : Nat) :
    c.coordState.historyChain.get e = c.historyChain.get e := by
  rw [Core.coordState, HistoryChain.get_map fun h => some (h.getD [])]
  cases hget : c.historyChain.get e with
  | none => rfl
  | some hash =>
    obtain ⟨-, -, rfl⟩ := (h.entries e hash).mp hget
    rfl

theorem Charted.stored_ne_nil (h : Charted H c) : c.coordState.historyChain ≠ [] := by
  intro hnil
  have hhead := (h.get_stored c.epoch).trans h.head_entry
  rw [hnil] at hhead
  cases hhead

/-- What a start without an anchor loads: the stored record, the hash of the last commit, and
the stored chain, or the group's root if that is empty. -/
theorem start_loads (hstart : start x (rebooted x view none db) = .ok s)
    (hcoord : db.coord = some coord) :
    ∃ stored, db.group = some stored ∧ s.core.epoch = stored.epoch ∧
      s.core.lastCommitHash = coord.lastCommitHash ∧
      (coord.historyChain = [] ∧ s.core.historyHash = some x.initialHistoryHash ∧
          s.core.historyChain = HistoryChain.set [] stored.epoch (some x.initialHistoryHash) ∨
        coord.historyChain ≠ [] ∧ ∀ r, coord.historyChain.get stored.epoch = some (some r) →
          s.core.historyHash = some r ∧ s.core.historyChain = coord.historyChain) := by
  obtain ⟨b₁, b₂, lastCommitHash, hload, hhist, hcore⟩ := start_core hstart
  obtain ⟨stored, hgroup, rfl⟩ := loadGroup_stored (rebooted_nil _ _ _ _) hload
  refine ⟨stored, hgroup, ?_⟩
  rw [hcore]
  obtain ⟨rfl, ⟨hnil, rfl⟩ | ⟨hne, rfl⟩⟩ := loadHistory_found hcoord hhist
  · exact ⟨rfl, rfl, .inl ⟨hnil, rfl, rfl⟩⟩
  refine ⟨?_, rfl, .inr ⟨hne, fun r hr => ?_⟩⟩
  · exact (rootHistory_rest (x := x)).2.1
  · simp [rootHistory, hr, Core.ofBoot]

theorem start_recalls (h : Recalls x.toNode c) (hledger : db.ledger = c.ledger)
    (hsaved : c.ledger.saved = true) (hstart : start x (rebooted x view none db) = .ok s) :
    Recalls x.toNode { s.core with lineage := c.lineage } := by
  have hagree := start_epochsAgree hstart (.inr (rebooted_nil x view none db))
  have hkept : s.core.ledger = c.ledger := (start_ledger hstart).1.trans hledger
  have hcoord : db.coord = c.ledger.coord := congrArg Ledger.coord hledger
  rcases h.coord hsaved with hown | ⟨hnone, hroot, hcommits⟩
  · obtain ⟨stored, hgroup, hepoch, hlast, hchain⟩ := start_loads hstart (hcoord.trans hown)
    have hstored : stored.epoch = c.epoch := h.toEpochsAgree.restored (hledger ▸ hgroup)
    have hget : c.coordState.historyChain.get stored.epoch =
        some (some (c.lineage.history x.hash)) := by
      rw [h.get_stored, hstored, h.head_entry, h.head]
    obtain ⟨hhash, hchain⟩ := (hchain.resolve_left fun hnil => h.stored_ne_nil hnil.1).2 _ hget
    refine ⟨hagree.congr rfl rfl rfl hagree.record, ?_, ?_⟩
    · exact h.toCharted.congr (hepoch.trans hstored) rfl (hhash.trans h.head.symm)
        fun e => (congrArg (HistoryChain.get · e) hchain).trans (h.get_stored e)
    refine ⟨hlast.trans h.last, fun _ => .inl ?_⟩
    change s.core.ledger.coord = some ⟨s.core.lastCommitHash, s.core.historyChain.map _⟩
    rw [hkept, hown, hlast, hchain]
    simp [Core.coordState]
  obtain ⟨stored, hgroup, hepoch, hlast, hchain⟩ := start_loads hstart (hcoord.trans hnone)
  have hstored : stored.epoch = c.epoch := h.toEpochsAgree.restored (hledger ▸ hgroup)
  obtain ⟨-, hhash, hchain⟩ := hchain.resolve_right fun hne => hne.1 rfl
  have hbase : c.lineage.base = s.core.epoch := by
    rw [hepoch, hstored, h.toCharted.epoch, Lineage.epoch, hcommits]
    rfl
  refine ⟨hagree.congr rfl rfl rfl hagree.record, ?_, ?_⟩
  · have hlineage : c.lineage = { root := x.toNode.genesis, base := s.core.epoch } :=
      Lineage.ext hroot hbase hcommits
    exact Charted.rooted hlineage hhash (hepoch ▸ hchain)
  refine ⟨hlast.trans ?_, fun _ => .inr ?_⟩
  · rw [hcommits]
    rfl
  · exact ⟨(congrArg Ledger.coord hkept).trans hnone, hroot, hcommits⟩

theorem Enters.recalls (h : Enters node past s) : Recalls node s.core := by
  obtain ⟨hrooted, -⟩ := h.rooted
  refine ⟨h.follows.toEpochsAgree, h.follows.toCharted, ?_, fun _ => ?_⟩
  · rw [hrooted.last, hrooted.lineage]
    rfl
  refine hrooted.coord.imp id fun hnone => ⟨hnone.1, ?_⟩
  rw [hrooted.lineage]
  exact ⟨hnone.2, rfl⟩

/-- A restart brings no anchor and comes after the coordination state of the last commit was
stored. -/
def Remembers (s : State) (a : Action) : Prop :=
  ∀ view anchor, a.op = .restart view anchor → anchor = none ∧ historySaved s.storage.log = true

theorem step_recalls (h : Recalls node s.core) (hr : Remembers s a)
    (hswap : ∀ wake, a.op = .heal wake → s.AtSwap → ¬ a.world.LosesCoordState)
    (hstep : step node a s = some s') : Recalls node s'.core := by
  have hagree := step_epochsAgree h.toEpochsAgree hstep
  have hcharted : Charted node.hash (s.arrive a.op).core :=
    h.toCharted.congr rfl rfl rfl fun _ => rfl
  have hstored : Stored node (s.arrive a.op).core := ⟨h.last, h.coord⟩
  cases step_effect hstep with
  | moves hmoves =>
    exact ⟨hagree, Charted.coreSteps (x := a.ctx node) hcharted hmoves.steps,
      hstored.coreSteps hmoves.steps⟩
  | edit hedit =>
    exact ⟨hagree, hcharted.healEdit (h.toEpochsAgree.arrive a.op) hedit, hstored.healEdit hedit⟩
  | swap wake hop hs hheal =>
    exact ⟨hagree, .healSwap hheal, .healSwap hheal (hswap wake hop hs)⟩
  | restart view anchor hop hrestart =>
    obtain ⟨rfl, hsaved⟩ := hr view anchor hop
    obtain ⟨s₁, hstart, hcore⟩ := restart_core hrestart
    have h₁ := start_recalls (x := a.ctx node) h rfl hsaved hstart
    rw [hcore] at hagree ⊢
    exact ⟨hagree, h₁.toCharted.congr rfl rfl rfl fun _ => rfl, h₁.last, h₁.coord⟩

theorem step_lineage_root (hswap : ∀ wake, a.op = .heal wake → ¬ s.AtSwap)
    (hstep : step node a s = some s') :
    s'.lineage.root = s.lineage.root ∧ s'.lineage.base = s.lineage.base := by
  cases step_effect hstep with
  | moves hmoves => exact hmoves.steps.lineage_root
  | edit hedit =>
    exact ⟨congrArg Lineage.root hedit.lineage, congrArg Lineage.base hedit.lineage⟩
  | swap wake hop hs => exact absurd hs (hswap wake hop)
  | restart view anchor hop hrestart =>
    obtain ⟨s₁, -, hcore⟩ := restart_core hrestart
    have hlineage : s'.lineage = s.lineage := congrArg Core.lineage hcore
    exact ⟨congrArg Lineage.root hlineage, congrArg Lineage.base hlineage⟩

theorem Recalls.run (h : Recalls node s.core) (run : Transition.Run (step node)
      (fun s a => Remembers s a ∧ ∀ wake, a.op = .heal wake → ¬ s.AtSwap) s s') :
    Recalls node s'.core ∧ s'.lineage.root = s.lineage.root ∧ s'.lineage.base = s.lineage.base := by
  refine run.invariant (fun t => Recalls node t.core ∧ t.lineage.root = s.lineage.root ∧
    t.lineage.base = s.lineage.base) ⟨h, rfl, rfl⟩ ?_
  rintro t a t' ⟨h, hroot, hbase⟩ ⟨hr, hswap⟩ hstep
  obtain ⟨hroot', hbase'⟩ := step_lineage_root hswap hstep
  exact ⟨step_recalls h hr (fun wake hop hs => absurd hs (hswap wake hop)) hstep,
    hroot'.trans hroot, hbase'.trans hbase⟩

/-- In every run without a heal's swap in which each restart comes after the coordination
state of the last commit was stored, the history hash is that of all commits of the stored
record, and the last commit's hash is that of the last commit taken here or, in a group
founded here, of the last commit at all. -/
theorem restart_preserves_branch (node : Node) (past : List Bytes) (s₀ s : State)
    (enters : Enters node past s₀)
    (run : Transition.Run (step node)
      (fun s a => Remembers s a ∧ ∀ wake, a.op = .heal wake → ¬ s.AtSwap) s₀ s) :
    (∃ stored, s.storage.group = some stored ∧ stored.epoch = s.epoch ∧
        (past ++ s.lineage.commits).length = s.epoch) ∧
      s.historyHash = some (node.historyAfter (past ++ s.lineage.commits)) ∧
      (past = [] ∨ s.lineage.commits ≠ [] →
        s.lastCommitHash = (past ++ s.lineage.commits).getLast?.getD []) := by
  obtain ⟨h, hroot, hbase⟩ := enters.recalls.run run
  replace hroot := hroot.trans enters.follows.root
  replace hbase := hbase.trans enters.follows.base
  refine ⟨?_, ?_, fun hpast => ?_⟩
  · obtain ⟨stored, hgroup, hepoch⟩ := h.record
    have hlineage : s.epoch = s.lineage.base + s.lineage.commits.length := h.toCharted.epoch
    refine ⟨stored, hgroup, hepoch, ?_⟩
    rw [List.length_append, hlineage, hbase]
  · have hhead : s.historyHash = some
        (Chain.value node.hash.link s.lineage.root s.lineage.commits) :=
      h.head
    rw [hhead, hroot, Node.historyAfter, Node.historyAfter, Chain.value_append]
  have hlast : s.lastCommitHash = s.lineage.commits.getLast?.getD [] := h.last
  rw [hlast]
  rcases hpast with rfl | hne
  · rfl
  · rw [List.getLast?_append_of_ne_nil _ hne]

namespace Reference

/-- A founder that adds a member while its process ends after some transactions. -/
def diesAdding (transactions : Nat) : Option State :=
  trace (member [65]) [[65]] [{
    world := { world with works := fun n _ => n < transactions }
    fuel := 4
    op := .addMember { targetPeerID := [66], keyPackageBytes := [5] } }]

def restartAfter (transactions : Nat) : Option State :=
  (diesAdding transactions).bind (step (member [65]) (action (.restart [[65]] none)))

end Reference

open Reference in
/-- A process that ends after the coordination state was stored comes back to its branch. -/
theorem restart_after_saved_history :
    ∃ s, restartAfter 7 = some s ∧ s.lineage.commits ≠ [] ∧
      s.historyHash = some ((member [65]).historyAfter s.lineage.commits) ∧
      s.lastCommitHash = s.lineage.commits.getLast?.getD [] := by
  obtain ⟨s, hdies, s', hrestart, hsaved, hcommits⟩ : ∃ s, diesAdding 7 = some s ∧
      ∃ s', step (member [65]) (action (.restart [[65]] none)) s = some s' ∧
        historySaved s.storage.log = true ∧ s'.lineage.commits ≠ [] := by
    decide +kernel
  have htrace := hdies
  unfold diesAdding trace at htrace
  obtain ⟨s₀, hboot, hexec⟩ := Option.bind_eq_some_iff.mp htrace
  have hremembers : Remembers s (action (.restart [[65]] none)) := by
    rintro view anchor ⟨⟩
    exact ⟨rfl, hsaved⟩
  obtain ⟨-, hhash, hlast⟩ := restart_preserves_branch (member [65]) [] s₀ s'
    (.founded (boot_founded hboot)) (.snoc _ (.of_exec hexec (by
      intro _ a ha
      obtain rfl := List.mem_singleton.mp ha
      exact ⟨nofun, nofun⟩)) ⟨hremembers, nofun⟩ hrestart)
  refine ⟨s', ?_, hcommits, hhash, hlast (.inl rfl)⟩
  rw [restartAfter, hdies]
  exact hrestart

open Reference in
/-- A process that ends between the two transactions of a commit comes back in the new epoch
with the history of none. -/
theorem restart_between_record_and_history :
    ∃ s, restartAfter 6 = some s ∧ s.epoch = 1 ∧
      s.storage.group.map (·.epoch) = some 1 ∧ s.lineage.commits ≠ [] ∧
      s.historyHash = some (member [65]).genesis ∧
      s.historyHash ≠ some ((member [65]).historyAfter s.lineage.commits) ∧
      s.lastCommitHash ≠ s.lineage.commits.getLast?.getD [] := by
  decide +kernel

end GroupCoordination
