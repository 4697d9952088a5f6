import GroupCoordination.Lib.Fallible
import GroupCoordination.Refinement.Moves

/-!
# The handlers refine the core

Each handler of the coordinator moves: proposals, operations after a commit,
application messages, commits received and issued. At the end the recursion through
`run` is closed by induction on the fuel.
-/

namespace GroupCoordination

open Fallible

section Handlers

variable {x : Ctx} {s s' s'' : State} {call : Call → State → State} {ok : IssuedCommit → Prop}

-- -------- Proposals

section

variable (h : createAndStoreLocalProposalLocked x pType data info s = .ok (msg, buffered, s'))

include h

/-- A created proposal differs from nothing in the core but the engine state and the
record, until it is buffered. -/
theorem createAndStore_ok :
    ∃ result record, x.engine.createProposal s.groupState pType data = .ok result ∧
      s.core.Records result.newGroupState record ∧
      s'.core = { s.core with
        groupState := result.newGroupState, ledger := { s.core.ledger with record } } ∧
      msg.toBuffered = buffered ∧
      buffered = { info with
        type := pType, data := result.proposalBytes, proposalRef := result.proposalRef } := by
  unfold createAndStoreLocalProposalLocked at h
  obtain ⟨result, hr, h⟩ := bind_ok h
  obtain ⟨s₁, hs, h⟩ := bind_ok h
  obtain ⟨db, rfl, hl, hrec⟩ := persistCurrentEpochStateLocked_ok hs
  cases h
  refine ⟨result, db.group, hr, hrec, ?_, rfl, rfl⟩
  simp [State.core, hl]

theorem propose_moves (hq : s''.core = s'.core) : Moves x s (s''.bufferProposal x buffered) := by
  obtain ⟨result, record, hr, hrec, hc, -, hb⟩ := createAndStore_ok h
  have hcore : (s''.bufferProposal x buffered).core =
      { s''.core with
        singleWriter := s''.core.singleWriter.bufferProposal x.cfg buffered
        dropped := s''.core.dropped + (s''.core.singleWriter.drops x.cfg buffered).toNat } := rfl
  refine .of_step ?_ ?_ ?_
  · rw [hcore, hq, hc]
    exact .propose buffered _ record (.created hr (by rw [hb]) (by rw [hb])) hrec
  · exact congrArg Core.inflight (hq.trans hc)
  · exact congrArg Core.issuedCommits (hq.trans hc)

end

theorem createAndBufferLocked_moves (s : State) :
    Moves x s (createAndBufferLocked x pType data info s) := by
  unfold createAndBufferLocked
  split
  · exact .refl s
  next h =>
    exact propose_moves h rfl

theorem removeZombieLocked_moves (s : State) :
    Moves x s (removeZombieLocked x identity peer s) := by
  unfold removeZombieLocked
  split
  · exact createAndBufferLocked_moves s
  · exact .refl s

theorem handleJoinLocked_moves (hcall : Reenters x call) (s : State) :
    Moves x s (handleJoinLocked x call env proposal s) := by
  unfold handleJoinLocked
  split
  · exact .refl s
  split
  · exact .refl s
  dsimp only
  split
  · exact (removeZombieLocked_moves s).trans (createAndBufferLocked_moves _)
  · exact ((removeZombieLocked_moves s).trans (createAndBufferLocked_moves _)).trans
      (commitOrWaitLocked_moves hcall _)

theorem processProposalLocked_moves (h : processProposalLocked x proposal s = .ok s') :
    Moves x s s' := by
  unfold processProposalLocked at h
  obtain ⟨processed, hp, h⟩ := bind_ok h
  split at h
  · cases h
  rename_i hmatch
  obtain ⟨s₁, hs, h⟩ := bind_ok h
  obtain ⟨db, rfl, hl, hrec⟩ := persistCurrentEpochStateLocked_ok hs
  cases h
  refine .of_step ?_ rfl rfl
  have hstep := CoreStep.propose (x := x) (c := s.core) (ProposalMsg.toBuffered { proposal with
      proposalRef := proposal.refOr processed.proposalRef }) processed.newGroupState db.group
    (.processed hp (not_not.mp hmatch)) hrec
  simpa [State.core, State.bufferProposal, hl] using hstep

theorem retain_moves (hk : s.core.Known source env) (hwire : wire.unmarshal = some env)
    (h : s.epochTracker.validate env.epoch = .bufferFuture) : Moves x s (s.retain env.epoch wire) :=
  Moves.of_step (.retain env.epoch wire source env hk hwire rfl (validateEpoch_future.mp h))
    rfl rfl

theorem handleProposalLocked_moves (hcall : Reenters x call) (hk : s.core.Known source env) :
    Moves x s (handleProposalLocked x call «from» env s) := by
  unfold handleProposalLocked
  split
  · split
    · exact .refl s
    split
    · exact handleJoinLocked_moves hcall s
    split
    · exact .refl s
    next h =>
      exact retain_moves hk env.unmarshal_marshal h
    split
    · exact .refl s
    rename_i h
    dsimp only
    have hp := processProposalLocked_moves h
    split
    · exact (hp.quiet (by simp)).trans (scheduleBatchCommitLocked_moves hcall _)
    · exact hp.quiet (by simp)
  · exact .refl s

theorem proposeLockedWithMetadata_moves (hcall : Reenters x call)
    (h : proposeLockedWithMetadata x call pType data info s = .ok s') : Moves x s s' := by
  unfold proposeLockedWithMetadata at h
  split at h
  · cases h
  split at h
  · cases h
  obtain ⟨⟨msg, buffered, s₁⟩, hc, h⟩ := bind_ok h
  have hp : Moves x s
      ((broadcastLocked x .proposal (.proposal msg) s₁).bufferProposal x buffered) :=
    propose_moves (mapError_ok hc) (broadcastLocked_core s₁)
  dsimp only at h
  split at h <;> cases h
  · exact (hp.quiet (by simp)).trans (scheduleBatchCommitLocked_moves hcall _)
  · exact hp.quiet (by simp)

-- -------- Pending operations

theorem repropose_moves (hcall : Reenters x call) (s : State) :
    Moves x s (repropose x call op prevEpoch s) := by
  unfold repropose
  dsimp only
  split
  · exact .of_core (saveOperation_core s)
  next h =>
    exact ((propose_moves h (broadcastLocked_core _)).trans
      (commitOrWaitLocked_moves hcall _)).quiet (finishRebase_core _)

theorem rebaseOperation_moves (hcall : Reenters x call) (s : State)
    (op : PendingOperation) : Moves x s (rebaseOperation x call s op) := by
  unfold rebaseOperation
  split
  · exact .refl s
  split
  · exact .of_core (saveOperation_core s)
  split
  · exact .of_core (saveOperation_core s)
  split
  · exact .refl s
  split
  · exact .refl s
  split
  · exact .of_core (saveOperation_core s)
  · exact repropose_moves hcall s

theorem reconcileAndRebaseOperationsLocked_moves (hcall : Reenters x call)
    (s : State) : Moves x s (reconcileAndRebaseOperationsLocked x call s) := by
  unfold reconcileAndRebaseOperationsLocked
  split
  · exact .refl s
  rename_i ops _
  have hloop : Moves x s (ops.foldl (rebaseOperation x call) s) :=
    Moves.foldl _ ops s fun s op _ => rebaseOperation_moves hcall s op
  dsimp only
  split
  · exact hloop.trans (scheduleBatchCommitLocked_moves hcall _)
  · exact hloop

-- -------- Application messages

theorem deliverLocked_moves (h : deliverLocked x msg newState env wire s = .ok (applied, s'))
    (hc : Ciphers x.engine s.groupState newState) : Moves x s s' := by
  unfold deliverLocked at h
  obtain ⟨⟨applied', db⟩, hap, h⟩ := bind_ok h
  dsimp only at h
  split at h
  · cases h
    exact .refl s
  rename_i hok
  obtain rfl : applied' = true := by simpa using hok
  cases h
  obtain ⟨happlies, stored, hcoord, hsaved⟩ := Storage.applyEnvelope_true hap
  refine .of_step ?_ rfl rfl
  have hstep := CoreStep.deliver (x := x) (c := s.core) wire newState db.ledger hc happlies
    ⟨hcoord, hsaved⟩ stored
  simpa [State.core] using hstep

theorem processApplicationLocked_moves (s : State) :
    Moves x s (processApplicationLocked x «from» env wire result s).2 := by
  unfold processApplicationLocked
  split
  · split
    · exact .of_core (conclude_core s)
    dsimp only
    split
    · exact .of_core (conclude_core _)
    rename_i hdec
    split
    · exact .of_core (conclude_core _)
    next hdel =>
      have hd := deliverLocked_moves hdel (.decrypted hdec)
      exact (hd.quiet (conclude_core _)).after rfl
    next hdel =>
      have hd := deliverLocked_moves hdel (.decrypted hdec)
      exact (hd.quiet ((conclude_core _).trans (sendDeliveryAckLocked_core _))).after rfl
  · exact .of_core (conclude_core s)

theorem applicationAction_future (h : applicationAction x env envelopeHash s = .bufferFuture) :
    s.epochTracker.validate env.epoch = .bufferFuture := by
  unfold applicationAction at h
  dsimp only at h
  split at h
  · cases h
  · exact h

theorem handleApplicationDetailedLocked_moves (hk : s.core.Known wire env) :
    Moves x s (handleApplicationDetailedLocked x «from» env wire s).2 := by
  unfold handleApplicationDetailedLocked
  dsimp only
  split
  · exact .of_core (conclude_core s)
  split
  · exact .of_core (conclude_core s)
  next h =>
    exact (retain_moves hk hk.1 (applicationAction_future h)).quiet (conclude_core _)
  · exact processApplicationLocked_moves s

theorem handleApplicationLocked_moves (hk : s.core.Known wire env) :
    Moves x s (handleApplicationLocked x «from» env wire s) :=
  handleApplicationDetailedLocked_moves hk

theorem saveGroup_spec (x : Ctx) (s : State) :
    ∃ db, s.unlessError (saveCurrentGroupStateLocked x s) = { s with storage := db } ∧
      db.ledger = { s.storage.ledger with record := db.ledger.record } ∧
      (db.ledger.record = s.storage.ledger.record ∨
        s.core.Records s.groupState db.ledger.record) := by
  cases h : saveCurrentGroupStateLocked x s with
  | error => exact ⟨s.storage, rfl, rfl, .inl rfl⟩
  | ok s' =>
    obtain ⟨db, rfl, hl, hrec⟩ := saveCurrentGroupStateLocked_ok h
    exact ⟨db, rfl, hl, .inr hrec⟩

theorem applyBatched_spec (h : Storage.applyBatchedApplication d db record msgs msgType wire ts
      epoch = .ok (applied, db')) :
    db' = db ∨ Applies db.ledger (d.hash wire) db'.ledger ∧
      (∃ stored, db'.ledger.record = some stored ∧ stored.groupState = record.groupState ∧
        stored.epoch = record.epoch) ∧
      db'.ledger.coord = db.ledger.coord ∧ db'.ledger.saved = db.ledger.saved := by
  unfold Storage.applyBatchedApplication at h
  split at h
  · cases h
  cases applied with
  | false => exact .inl (Storage.applyEnvelope_false h)
  | true =>
    exact .inr (Storage.applyEnvelope_true h)

theorem storeBatchLocked_moves (hc : Ciphers x.engine s.groupState newState) :
    Moves x s (storeBatchLocked x msgs newState env wire s) := by
  obtain ⟨db, hs, hl, hrec⟩ := saveGroup_spec x { s with groupState := newState }
  have hkeep : Moves x s { s with groupState := newState, storage := db } :=
    Moves.of_step (CoreStep.batch wire newState db.ledger hc
      (.inl (by rw [hl]; exact ⟨rfl, rfl⟩)) (by rw [hl]; exact ⟨rfl, rfl⟩) hrec) rfl rfl
  unfold storeBatchLocked
  dsimp only
  rw [hs]
  cases hap : Storage.applyBatchedApplication x.disk db
      (sameEpochRecord x newState { s with groupState := newState, storage := db }) msgs env.type
      wire env.timestamp env.epoch with
  | error => exact hkeep
  | ok result =>
    obtain ⟨applied, db'⟩ := result
    rcases applyBatched_spec hap with rfl | ⟨happlies, stored, hcoord⟩
    · exact hkeep
    rw [hl] at happlies hcoord
    have hstep := CoreStep.batch (x := x) (c := s.core) wire newState db'.ledger hc
      (.inr ⟨happlies.fresh, happlies.applied, happlies.messages⟩) hcoord (.inr stored)
    exact Moves.of_step hstep rfl rfl

theorem handleApplicationBatchedLocked_moves (s : State) :
    Moves x s (handleApplicationBatchedLocked x «from» env wire s) := by
  unfold handleApplicationBatchedLocked
  dsimp only
  split
  · exact .of_core (markReplayResultLocked_core s)
  split
  · exact .refl s
  split
  · split
    · exact .refl s
    rename_i hdec
    split
    · exact .refl s
    rw [foldl_deliverBatchedEvent]
    exact storeBatchLocked_moves (.decrypted hdec)
  · exact .refl s

-- -------- Commits

/-- The next epoch is entered, and the coordination state stored unless its write is lost. -/
theorem enterEpochLocked_core (newState newTreeHash commitData : Bytes) (s : State)
    (hc : s.core.ledger.saved = false) :
    ∃ coord saved, (enterEpochLocked x newState (s.epoch + 1) newTreeHash commitData s).core =
        s.core.enterEpoch x newState newTreeHash commitData { s.core.ledger with coord, saved } ∧
      (s.core.enterEpoch x newState newTreeHash commitData
        { s.core.ledger with coord, saved }).Persisted := by
  unfold enterEpochLocked
  dsimp only
  rw [State.emit_core]
  rcases persistCoord_core x _ with hcore | hcore
  · exact ⟨s.core.ledger.coord, s.core.ledger.saved, hcore, .inr hc⟩
  · exact ⟨_, true, hcore, .inl rfl⟩

theorem dispatchBuffered_moves (hcall : Reenters x call) (key : Nat)
    (buffered : List Wire) (rest : List (Nat × Wire)) (s : State)
    (h : s.inflight = buffered.map (key, ·) ++ rest) :
    CoreSteps x s.core (dispatchBuffered call key buffered s).core ∧
      (dispatchBuffered call key buffered s).inflight = rest ∧
      Issues IssuedCommit.OverBatch s (dispatchBuffered call key buffered s) := by
  induction buffered generalizing s with
  | nil => exact ⟨.refl, h, .none rfl⟩
  | cons raw buffered ih =>
    have htake : CoreStep x s.core (s.takeBuffered key raw).core := by
      have hstep := CoreStep.take (x := x) (c := s.core) key raw (buffered.map (key, ·) ++ rest) h
      simpa [State.core, State.takeBuffered, h] using hstep
    have hmove := hcall.dispatch raw (s.takeBuffered key raw)
      ⟨_, List.mem_append_right _ List.mem_cons_self, rfl⟩
    obtain ⟨hsteps, hrest, hnew⟩ := ih (call (.dispatch raw) (s.takeBuffered key raw)) (by
      rw [hmove.settled]
      simp [State.takeBuffered, h])
    have hissues : Issues IssuedCommit.OverBatch s
        (call (.dispatch raw) (s.takeBuffered key raw)) :=
      hmove.issues
    exact ⟨(Relation.ReflTransGen.single htake).trans (hmove.steps.trans hsteps), hrest,
      hissues.trans hnew⟩

theorem CoreSteps.arriving (h : CoreSteps x c c') : c'.arriving = c.arriving := by
  induction h with
  | refl => rfl
  | tail _ hstep ih => cases hstep <;> exact ih

theorem CoreSteps.appliedCommits_mono (h : CoreSteps x c c') (hm : a ∈ c.appliedCommits) :
    a ∈ c'.appliedCommits := by
  induction h with
  | refl => exact hm
  | tail _ hstep ih =>
    cases hstep <;> first
      | exact ih
      | exact List.mem_append_left _ ih

section EpochChange

variable (hcall : Reenters x call)

include hcall

theorem advanceEpochLocked_steps (newState newTreeHash commitData : Bytes) (s : State)
    (hc : s.core.ledger.saved = false) :
    ∃ coord saved, (s.core.enterEpoch x newState newTreeHash commitData
        { s.core.ledger with coord, saved }).Persisted ∧
      CoreSteps x
        (s.core.enterEpoch x newState newTreeHash commitData { s.core.ledger with coord, saved })
        (advanceEpochLocked x call newState (s.epoch + 1) newTreeHash commitData s).core ∧
      (advanceEpochLocked x call newState (s.epoch + 1) newTreeHash commitData s).inflight =
        s.inflight ∧
      Issues IssuedCommit.OverBatch s
        (advanceEpochLocked x call newState (s.epoch + 1) newTreeHash commitData s) := by
  obtain ⟨coord, saved, henter, hp⟩ := enterEpochLocked_core newState newTreeHash commitData s hc
  obtain ⟨hsteps, hrest, hnew⟩ := dispatchBuffered_moves hcall (s.epoch + 1)
    (s.epochTracker.futureBuffer (s.epoch + 1)) s.inflight _ (congrArg Core.inflight henter)
  rw [henter] at hsteps
  have hentered : Issues IssuedCommit.OverBatch s
      (enterEpochLocked x newState (s.epoch + 1) newTreeHash commitData s) :=
    .none (congrArg Core.issuedCommits henter)
  exact ⟨coord, saved, hp, hsteps, hrest, hentered.trans hnew⟩

/-- An epoch change that follows a commit step moves: what it released it dispatched. -/
theorem advanceEpochLocked_moves (s' : State) (hc : s'.core.ledger.saved = false)
    (hstep : ∀ coord saved, (s'.core.enterEpoch x newState newTreeHash commitData
        { s'.core.ledger with coord, saved }).Persisted →
      CoreStep x s.core (s'.core.enterEpoch x newState newTreeHash commitData
        { s'.core.ledger with coord, saved }))
    (hi : s'.inflight = s.inflight) (hn : Issues ok s s') (hok : ∀ i, i.OverBatch → ok i) :
    Moves x s (advanceEpochLocked x call newState (s'.epoch + 1) newTreeHash commitData s') ok := by
  obtain ⟨coord, saved, hp, hsteps, hrest, hnew⟩ :=
    advanceEpochLocked_steps hcall newState newTreeHash commitData s' hc
  exact ⟨hsteps.head (hstep coord saved hp), hrest.trans hi, hn.trans (hnew.mono hok)⟩

theorem advanceEpochLocked_applied (newState newTreeHash commitData : Bytes)
    (hc : s.core.ledger.saved = false) (hm : a ∈ s.appliedCommits) :
    a ∈ (advanceEpochLocked x call newState
      (s.epoch + 1) newTreeHash commitData s).appliedCommits := by
  obtain ⟨_, _, -, hsteps, -⟩ := advanceEpochLocked_steps hcall newState newTreeHash commitData s hc
  exact hsteps.appliedCommits_mono hm

end EpochChange

theorem validateCommitLocked_ok
    (h : validateCommitLocked x env commit s = .ok (newState, newTreeHash)) :
    GatePassed x.peers (s.electorate x) s.singleWriter env commit ∧
      CommitAccepted x.engine s.groupState commit newState newTreeHash := by
  unfold validateCommitLocked at h
  obtain ⟨refs, hstage, h⟩ := bind_ok h
  split at h
  · cases h
  rename_i hrefs
  obtain ⟨⟨⟩, hgate, hproc⟩ := bind_ok h
  refine ⟨?_, ⟨refs, hstage, ?_⟩, hproc⟩
  · unfold checkCommitter at hgate
    dsimp only at hgate
    split at hgate
    next hskip =>
      exact hskip.elim .inl fun hs => .inr (.inl hs)
    split at hgate
    · cases hgate
    rename_i holder hholder
    split at hgate
    · cases hgate
    rename_i heq
    split at hgate
    · cases hgate
    rename_i hrem
    refine .inr (.inr ⟨?_, by simpa using hrem⟩)
    rw [not_not.mp heq]
    exact hholder
  · by_cases hempty : commit.committedProposalRefs = []
    · exact .inl hempty
    right
    rw [← proposalRefSetsEqual_iff]
    simpa [hempty] using hrefs

theorem validateCommitLocked_of_accepted
    (hg : GatePassed x.peers (s.electorate x) s.singleWriter env commit)
    (ha : CommitAccepted x.engine s.groupState commit newState newTreeHash) :
    validateCommitLocked x env commit s = .ok (newState, newTreeHash) := by
  obtain ⟨⟨refs, hstage, hrefs⟩, hproc⟩ := ha
  have hgate : checkCommitter x env (bufferedBatchFromProposalMsgs commit.includedProposals) s =
      .ok () := by
    unfold checkCommitter
    dsimp only
    split
    · rfl
    rename_i hskip
    rw [not_or] at hskip
    obtain ⟨hholder, hrem⟩ := (hg.resolve_left hskip.1).resolve_left hskip.2
    rw [show s.holderForBatch x _ = _ from hholder]
    simp [hrem]
  have hmatch : ¬ (commit.committedProposalRefs ≠ [] ∧
      (!proposalRefSetsEqual refs commit.committedProposalRefs) = true) := by
    rintro ⟨hne, hnot⟩
    have heq := proposalRefSetsEqual_iff.mpr (hrefs.resolve_left hne)
    rw [heq] at hnot
    cases hnot
  unfold validateCommitLocked
  simp only [hstage, hgate, hproc, bind, Except.bind]
  rw [if_neg hmatch]

theorem settleCommitLocked_moves (hcall : Reenters x call) (applied : AppliedCommit)
    (hseen : applied ∈ s.appliedCommits) :
    Moves x s (settleCommitLocked x call applied.commit newState nextEpoch s) := by
  have hdrain : Moves x s (drainCommitted applied.commit s) :=
    Moves.of_step (CoreStep.drain applied hseen) rfl rfl
  unfold settleCommitLocked
  dsimp only
  refine .quiet ?_ (State.foldl_core _ (fun s _ => s.emit_core) _ _)
  refine .quiet ?_ (updateLocalAccessRevocationLocked_core _)
  exact (hdrain.quiet (reconcileOperationsAfterCommitLocked_core _)).trans
    (reconcileAndRebaseOperationsLocked_moves hcall _)

theorem commitApplied_step (hk : s.core.Known wire env) (hpayload : env.payload = .commit commit)
    (he : env.epoch = s.epochTracker.epoch)
    (hgate : GatePassed x.peers (s.electorate x) s.singleWriter env commit)
    (hacc : CommitAccepted x.engine s.groupState commit newState newTreeHash)
    (hap : Storage.applyCommit x.disk s.storage (nextEpochRecord x newState newTreeHash s) env.type
      wire env.timestamp env.epoch = .ok (true, db)) :
    (s.commitApplied x env commit db).core.ledger.saved = false ∧
      ∀ coord saved, ((s.commitApplied x env commit db).core.enterEpoch x newState newTreeHash
          commit.commitData { db.ledger with coord, saved }).Persisted →
        CoreStep x s.core ((s.commitApplied x env commit db).core.enterEpoch x newState newTreeHash
          commit.commitData { db.ledger with coord, saved }) := by
  obtain ⟨happlies, stored, -, hsaved⟩ := Storage.applyEnvelope_true hap
  refine ⟨hsaved, fun coord saved hp => ?_⟩
  exact CoreStep.commit env wire commit newState newTreeHash { db.ledger with coord, saved } hk
    hpayload he hgate hacc ⟨happlies.fresh, happlies.applied, happlies.messages⟩ stored hp

theorem processCommitLocked_moves (hcall : Reenters x call) (hk : s.core.Known wire env)
    (hpayload : env.payload = .commit commit) (he : env.epoch = s.epochTracker.epoch) :
    Moves x s (processCommitLocked x call env wire commit s).2 := by
  unfold processCommitLocked
  split
  next err herr =>
    refine .of_step ?_ rfl rfl
    rw [markInvalidCommitLocked_core]
    refine .refuse env wire commit hk hpayload he fun newState newTreeHash hg ha => ?_
    rw [validateCommitLocked_of_accepted hg ha] at herr
    cases herr
  rename_i newState newTreeHash hval
  split
  · exact .refl s
  · exact .refl s
  rename_i db hap
  obtain ⟨hgate, hacc⟩ := validateCommitLocked_ok hval
  obtain ⟨hc, hstep⟩ := commitApplied_step hk hpayload he hgate hacc hap
  dsimp only
  refine (advanceEpochLocked_moves hcall (s.commitApplied x env commit db) hc hstep rfl (.none rfl)
    fun _ h => h).trans ?_
  refine settleCommitLocked_moves hcall ⟨env, commit, s.groupState, s.electorate x,
    s.singleWriter⟩ ?_
  refine advanceEpochLocked_applied (s := s.commitApplied x env commit db) hcall _ _ _ hc ?_
  exact List.mem_append_right _ List.mem_cons_self

theorem handleCommitLocked_moves (hcall : Reenters x call) (hk : s.core.Known wire env) :
    Moves x s (handleCommitLocked x call env wire s).2 := by
  unfold handleCommitLocked
  split
  · exact .refl s
  next hv =>
    exact retain_moves hk hk.1 hv
  rename_i hv
  split
  next commit hpayload =>
    split
    · exact .refl s
    · exact processCommitLocked_moves hcall hk hpayload (validateEpoch_process.mp hv)
  · exact .refl s

theorem handleCommitDetailedLocked_moves (hcall : Reenters x call) (hk : s.core.Known wire env) :
    Moves x s (handleCommitDetailedLocked x call env wire s).2 := by
  unfold handleCommitDetailedLocked
  dsimp only
  split
  · exact .of_core (conclude_core _)
  split
  · exact .of_core (conclude_core _)
  next hv =>
    exact (retain_moves hk hk.1 hv).quiet (conclude_core _)
  have hh : Moves x s (handleCommitLocked x call env wire s).2 := handleCommitLocked_moves hcall hk
  split
  next s' heq =>
    rw [heq] at hh
    exact hh.quiet (conclude_core _)
  rename_i s' heq
  rw [heq] at hh
  split
  all_goals exact hh.quiet (conclude_core _)

-- -------- Commits issued here

theorem State.isTokenHolder_iff :
    s.isTokenHolder x = true ↔
      s.singleWriter.holderForBatch (s.electorate x) (s.singleWriter.snapshotNextBatch x.cfg) =
        .ok x.localID := by
  unfold State.isTokenHolder SingleWriter.isTokenHolder SingleWriter.currentTokenHolder
    SingleWriter.holderForBatch
  split
  next holder h =>
    rw [h]
    simp
  next h =>
    rw [h]
    simp

structure CommitPlan.Elected (plan : CommitPlan) (x : Ctx) (s : State) : Prop where
  holder : s.singleWriter.holderForBatch (s.electorate x) plan.electedFor = .ok x.localID
  carries : plan.path = .batch → plan.included = proposalMsgsFromBatch plan.electedFor

section

variable (hcall : Reenters x call)

include hcall

theorem finishIssueLocked_moves (s' : State) (hc : s'.core.ledger.saved = false)
    (hstep : ∀ coord saved, ((s'.commitIssued x plan (plan.message result) env).core.enterEpoch x
        result.newGroupState result.newTreeHash result.commitBytes
        { s'.core.ledger with coord, saved }).Persisted →
      CoreStep x s.core ((s'.commitIssued x plan (plan.message result) env).core.enterEpoch x
        result.newGroupState result.newTreeHash result.commitBytes
        { s'.core.ledger with coord, saved }))
    (hi : s'.inflight = s.inflight)
    (hn : Issues ok s (s'.commitIssued x plan (plan.message result) env))
    (hok : ∀ i, i.OverBatch → ok i) :
    Moves x s (finishIssueLocked x call plan result env s').2 ok := by
  have hpublish : (publishPreparedEnvelopeLocked .commit env.marshal
      (s'.commitIssued x plan (plan.message result) env)).core = _ :=
    publishPreparedEnvelopeLocked_core _
  unfold finishIssueLocked
  dsimp only
  refine .quiet ?_ (updateLocalAccessRevocationLocked_core _)
  refine .trans ?_ ((reconcileAndRebaseOperationsLocked_moves hcall _).mono hok)
  refine .quiet ?_ (reconcileOperationsAfterCommitLocked_core _)
  refine advanceEpochLocked_moves hcall _ ?_ ?_ ((congrArg Core.inflight hpublish).trans hi)
    (hn.trans (.none (congrArg Core.issuedCommits hpublish))) hok
  · exact (congrArg (·.ledger.saved) hpublish).trans hc
  · rw [hpublish]
    exact hstep

/-- The plan's own commit is of the kind asked for, and so is every commit over a batch. -/
theorem issueCommitLocked_moves (plan : CommitPlan)
    (s : State) (h : plan.Elected x s) (hok : ∀ i, i.OverBatch → ok i)
    (hown : ∀ env commit, commit.includedProposals = plan.included →
      ok ⟨plan.path, env, commit, plan.electedFor, s.electorate x, s.singleWriter⟩) :
    Moves x s (issueCommitLocked x call plan s).2 ok := by
  unfold issueCommitLocked
  split
  · exact .refl s
  rename_i result hcreate
  dsimp only
  split
  · exact .of_core rfl
  · exact .of_core rfl
  rename_i db hap
  obtain ⟨happlies, stored, -, hsaved⟩ := Storage.applyEnvelope_true hap
  refine finishIssueLocked_moves hcall _ hsaved (fun coord saved hp => ?_) rfl ⟨_, rfl, ?_⟩ hok
  rotate_left
  · intro i hi
    rw [List.mem_singleton.mp hi]
    exact hown _ _ rfl
  exact CoreStep.issue (c := s.core) ⟨plan.path, _, plan.message result, plan.electedFor,
    s.electorate x,
    s.singleWriter⟩ result plan.expectedRefs _ { db.ledger with coord, saved } rfl rfl
    h.holder rfl ⟨rfl, rfl, rfl⟩ h.carries hcreate
    ⟨happlies.fresh, happlies.applied, happlies.messages⟩ stored hp

theorem doCommitBatchLocked_moves (batch : List BufferedProposal) (s : State)
    (h : s.singleWriter.holderForBatch (s.electorate x) batch = .ok x.localID) :
    Moves x s (doCommitBatchLocked x call batch s) := by
  have hissue := issueCommitLocked_moves hcall (batchPlan x batch) s ⟨h, fun _ => rfl⟩
    (fun _ hi => hi) fun _ _ _ => rfl
  unfold doCommitBatchLocked
  split
  · exact .refl s
  split
  next heq =>
    rw [heq] at hissue
    exact hissue
  rename_i issued s' heq
  rw [heq] at hissue
  dsimp only
  generalize (if issued.drained = [] then batch else issued.drained) = committed
  refine hissue.quiet ?_
  split
  · exact State.foldl_core _ (fun s _ => s.emit_core) _ _
  · rfl

theorem tryCommitLocked_moves (s : State) : Moves x s (tryCommitLocked x call s) := by
  unfold tryCommitLocked
  dsimp only
  split
  · exact .refl s
  rename_i hguard
  split
  · exact .of_core (deferCommitUntilViewReadyLocked_core s)
  refine doCommitBatchLocked_moves hcall _ s (State.isTokenHolder_iff.mp ?_)
  by_contra hnot
  exact hguard (.inl (by simpa using hnot))

end

-- -------- Re-entry

theorem dispatchLocked_moves (hcall : Reenters x call)
    (hd : ∃ d ∈ s.dispatched, d.wire = raw) : Moves x s (dispatchLocked x call raw s) := by
  unfold dispatchLocked
  split
  · exact .refl s
  rename_i env henv
  have hk : s.core.Known raw env := ⟨henv, .inr hd⟩
  dsimp only
  split
  · exact handleProposalLocked_moves hcall hk
  · exact handleCommitLocked_moves hcall hk
  · exact handleApplicationLocked_moves hk
  · exact handleApplicationBatchedLocked_moves s
  · exact .refl s

theorem run_reenters (fuel : Nat) : Reenters x (run x fuel) := by
  induction fuel with
  | zero => exact ⟨fun _ => Moves.of_core rfl, fun _ _ _ => Moves.of_core rfl⟩
  | succ fuel ih => exact ⟨tryCommitLocked_moves ih, fun _ _ hd => dispatchLocked_moves ih hd⟩

end Handlers

end GroupCoordination
