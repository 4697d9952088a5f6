import GroupCoordination.Refinement.Quiet

/-!
# Handlers as sequences of steps

`Moves x s s'` says that a piece of the coordinator took `s` to `s'` by core steps,
handed every message it took out of the buffer to a handler, and issued commits of a
certain kind only: over a batch of the buffer, unless said otherwise. It composes, so a
handler moves if its parts do; the calls back into the coordinator are assumed to.
-/

namespace GroupCoordination

def Issues (ok : IssuedCommit → Prop) (s s' : State) : Prop :=
  ∃ new, s'.issuedCommits = s.issuedCommits ++ new ∧ ∀ i ∈ new, ok i

def IssuedCommit.OverBatch (i : IssuedCommit) : Prop := i.path = .batch

structure Moves (x : Ctx) (s s' : State) (ok : IssuedCommit → Prop := IssuedCommit.OverBatch) :
    Prop where
  steps : CoreSteps x s.core s'.core
  settled : s'.inflight = s.inflight
  issues : Issues ok s s'

section Moves

variable {x : Ctx} {s s' s'' : State} {ok : IssuedCommit → Prop}

namespace Issues

theorem none (h : s'.issuedCommits = s.issuedCommits) : Issues ok s s' :=
  ⟨[], by rw [h, List.append_nil], fun _ hm => absurd hm List.not_mem_nil⟩

theorem trans (h : Issues ok s s') (h' : Issues ok s' s'') : Issues ok s s'' := by
  obtain ⟨new, he, hok⟩ := h
  obtain ⟨new', he', hok'⟩ := h'
  refine ⟨new ++ new', by rw [he', he, List.append_assoc], fun i hi => ?_⟩
  exact (List.mem_append.mp hi).elim (hok i) (hok' i)

theorem mono (h : Issues ok s s') (hmono : ∀ i, ok i → ok' i) : Issues ok' s s' := by
  obtain ⟨new, he, hok⟩ := h
  exact ⟨new, he, fun i hi => hmono i (hok i hi)⟩

end Issues

namespace Moves

theorem of_core (h : s'.core = s.core) : Moves x s s' ok where
  steps := h ▸ .refl
  settled := congrArg Core.inflight h
  issues := .none (congrArg Core.issuedCommits h)

theorem refl (s : State) : Moves x s s ok := of_core rfl

theorem trans (h : Moves x s s' ok) (h' : Moves x s' s'' ok) : Moves x s s'' ok where
  steps := h.steps.trans h'.steps
  settled := h'.settled.trans h.settled
  issues := h.issues.trans h'.issues

theorem mono (h : Moves x s s' ok) (hmono : ∀ i, ok i → ok' i) : Moves x s s' ok' where
  steps := h.steps
  settled := h.settled
  issues := h.issues.mono hmono

theorem of_step (h : CoreStep x s.core s'.core) (hi : s'.inflight = s.inflight)
    (hn : s'.issuedCommits = s.issuedCommits) : Moves x s s' ok where
  steps := .single h
  settled := hi
  issues := .none hn

theorem quiet (h : Moves x s s' ok) (hq : s''.core = s'.core) : Moves x s s'' ok :=
  h.trans (of_core hq)

theorem after (h : Moves x s' s'' ok) (hq : s'.core = s.core) : Moves x s s'' ok :=
  (of_core hq).trans h

theorem foldl (f : State → α → State) (l : List α) (s : State)
    (h : ∀ s, ∀ a ∈ l, Moves x s (f s a)) : Moves x s (l.foldl f s) := by
  induction l generalizing s with
  | nil => exact refl s
  | cons a l ih =>
    refine (h s a List.mem_cons_self).trans (ih _ fun s b hb => h s b (List.mem_cons_of_mem a hb))

end Moves

structure Reenters (x : Ctx) (call : Call → State → State) : Prop where
  tryCommit : ∀ s, Moves x s (call .tryCommit s)
  dispatch : ∀ raw s, (∃ d ∈ s.dispatched, d.wire = raw) → Moves x s (call (.dispatch raw) s)

-- -------- Scheduling

variable {call : Call → State → State}

section

variable (hcall : Reenters x call)

include hcall

theorem scheduleBatchCommitLocked_moves (s : State) :
    Moves x s (scheduleBatchCommitLocked x call s) := by
  unfold scheduleBatchCommitLocked
  split
  · exact .refl s
  split
  · exact hcall.tryCommit s
  · exact .of_core (armProposalTimer_core s)

theorem commitOrWaitLocked_moves (s : State) : Moves x s (commitOrWaitLocked x call s) := by
  unfold commitOrWaitLocked
  split
  · exact scheduleBatchCommitLocked_moves hcall s
  · exact .of_core (scheduleFailoverTimerLocked_core s)

theorem proposalTimerFires_moves (s : State) : Moves x s (proposalTimerFires x call timer s) := by
  unfold proposalTimerFires
  split
  · dsimp only
    split
    · exact (hcall.tryCommit _).after rfl
    · exact .of_core rfl
  · exact .refl s

theorem suspendHolder_moves (s : State) : Moves x s (suspendHolder x call s) := by
  unfold suspendHolder
  split
  · exact .refl s
  rename_i holder _
  split
  · exact .refl s
  have hs : Moves x s { s with singleWriter := s.singleWriter.suspend holder } :=
    Moves.of_step (.suspend holder) rfl rfl
  dsimp only
  split
  · exact hs.trans (scheduleBatchCommitLocked_moves hcall _)
  · exact hs.quiet (scheduleFailoverTimerLocked_core _)

theorem failoverTimerFires_moves (s : State) : Moves x s (failoverTimerFires x call timer s) := by
  unfold failoverTimerFires
  split
  · dsimp only
    split
    · exact (suspendHolder_moves hcall _).after rfl
    · exact .of_core rfl
  · exact .refl s

end

-- -------- The stored record

theorem State.store_records {record : GroupRecord}
    (h : s.store (Storage.saveGroupRecord d s.storage record) = .ok s')
    (he : record.epoch = s.epoch) :
    ∃ db, s' = { s with storage := db } ∧
      db.ledger = { s.storage.ledger with record := db.group } ∧
      s.core.Records record.groupState db.group := by
  obtain ⟨db, hr, rfl⟩ := State.store_ok h
  obtain ⟨hl, stored, hg, hs, hepoch⟩ := Storage.saveGroupRecord_ok hr
  exact ⟨db, rfl, hl, stored, hg, hs, hepoch.trans he⟩

theorem withStoredFields_spec (x : Ctx) (s : State) (record : GroupRecord) :
    (withStoredFields x s record).groupState = record.groupState ∧
      (withStoredFields x s record).epoch = record.epoch := by
  unfold withStoredFields
  split <;> exact ⟨rfl, rfl⟩

theorem persistCurrentEpochStateLocked_ok
    (h : persistCurrentEpochStateLocked x newState s = .ok s') :
    ∃ db, s' = { s with storage := db } ∧
      db.ledger = { s.storage.ledger with record := db.group } ∧
      s.core.Records newState db.group := by
  obtain ⟨hs, he⟩ := withStoredFields_spec x s
    { groupState := newState, epoch := s.epoch, treeHash := s.treeHash, updatedAt := x.now }
  have := State.store_records h he
  rwa [show _ = newState from hs] at this

theorem saveCurrentGroupStateLocked_ok (h : saveCurrentGroupStateLocked x s = .ok s') :
    ∃ db, s' = { s with storage := db } ∧
      db.ledger = { s.storage.ledger with record := db.group } ∧
      s.core.Records s.groupState db.group := by
  obtain ⟨record, hstate, hepoch, hstore⟩ := saveCurrentGroupStateLocked_stores h
  exact hstate ▸ State.store_records hstore hepoch

end Moves

end GroupCoordination
