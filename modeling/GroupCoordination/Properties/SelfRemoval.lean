import GroupCoordination.Model.Reference
import GroupCoordination.Properties.Election
import GroupCoordination.Refinement.Desk

/-!
# A member who removes itself

The committer of a removal is elected among the peers the removal leaves, so a token holder who
leaves hands the commit over: it publishes the removal and the next peer commits it. A request to
remove a member asks for the holder before its removal is in the buffer, and therefore finds the
holder who leaves still in office and commits at once.
-/

namespace GroupCoordination

-- -------- Elections after a removal

section Elections

variable {cfg : CoordinatorConfig} {w : SingleWriter} {p : BufferedProposal} {E : Electorate}

theorem SingleWriter.bufferProposal_cases (cfg : CoordinatorConfig) (w : SingleWriter)
    (p : BufferedProposal) :
    w.bufferProposal cfg p = w ∨ p ∈ (w.bufferProposal cfg p).snapshotNextBatch cfg := by
  unfold bufferProposal
  split
  · exact .inl rfl
  split
  · exact .inl rfl
  rename_i hfull
  right
  have hroom : ¬ ((w.proposals ++ [p]).length : Int) > cfg.maxBatchedProposals := by
    simp only [isFull, decide_eq_true_eq, List.length_append, List.length_singleton] at hfull ⊢
    omega
  unfold snapshotNextBatch
  rw [if_neg (by simpa [sortProposals] using hroom)]
  exact mem_sortProposals.mpr (List.mem_append_right _ (List.mem_singleton_self p))

theorem Electorate.exists_holder (hmem : pid ∈ E.members)
    (hadmits : E.admits epoch suspended batch pid = true) :
    ∃ holder, E.computeHolder epoch batch suspended = .ok holder ∧
      E.admits epoch suspended batch holder = true := by
  have hne : (E.members.filter (E.admits epoch suspended batch)).argmin
      (electionHash E.hash E.groupID epoch) ≠ none := by
    rw [Ne, List.argmin_eq_none]
    exact List.ne_nil_of_mem (List.mem_filter.mpr ⟨hmem, hadmits⟩)
  obtain ⟨holder, hholder⟩ := Option.ne_none_iff_exists'.mp hne
  have helected := Electorate.computeHolder_eq_ok.mpr hholder
  exact ⟨holder, helected, (Electorate.computeHolder_iff.mp helected).2.1⟩

theorem Electorate.not_admits_removed (hp : p ∈ batch) (htype : p.type = .remove)
    (hname : E.codec.toString pid ≠ "") (htarget : p.targetPeerID = E.codec.toString pid) :
    E.admits epoch suspended batch pid = false := by
  have hremoved : E.codec.toString pid ∈ removedByBatch batch := by
    rw [removedByBatch, List.mem_map]
    exact ⟨p, List.mem_filter.mpr ⟨hp, by simp [htype, htarget, hname]⟩, htarget⟩
  simp [admits, hremoved]

end Elections

-- -------- The request

def RemoveMemberRequest.proposal (x : Ctx) (req : RemoveMemberRequest)
    (result : CreateProposalResult) : BufferedProposal where
  type := .remove
  data := result.proposalBytes
  proposalRef := result.proposalRef
  operationID := recordedID x req.operationID
  targetPeerID := x.peers.toString req.targetPeerID

def RemoveMemberRequest.batch (x : Ctx) (req : RemoveMemberRequest) (result : CreateProposalResult)
    (s : State) : List BufferedProposal :=
  (s.singleWriter.bufferProposal x.cfg (req.proposal x result)).snapshotNextBatch x.cfg

/-- The local peer asks for its own removal. The request is no repetition, the engine makes the
proposal, and another peer is eligible to commit it. -/
structure RemovesItself (x : Ctx) (req : RemoveMemberRequest) (result : CreateProposalResult)
    (s : State) : Prop where
  own : req.targetPeerID = x.localID
  accepted : guardMutation s = .ok ()
  identity : req.targetIdentity ≠ []
  fresh : repeatedRequest x req.operationID
    ("remove_member_" ++ x.peers.toString req.targetPeerID) s = none
  proposal : x.engine.createProposal s.groupState .remove req.targetIdentity = .ok result
  other : ∃ pid ∈ s.activeView.sortedMembers, pid ≠ x.localID ∧
    (s.electorate x).admits s.singleWriter.epoch s.singleWriter.suspended (req.batch x result s) pid

/-- The same node with an engine that answers differently when it is asked for a commit. -/
def Ctx.withCommits (x : Ctx) (answer : Bytes → List Bytes → Except String CreateCommitResult) :
    Ctx :=
  { x with engine := { x.engine with createCommit := answer } }

/-- The request asks the engine for a commit: the engine's answer shows in the outcome. -/
def RemoveMemberRequest.Commits (x : Ctx) (call : Call → State → State)
    (req : RemoveMemberRequest) (s : State) : Prop :=
  ∃ answer, removeMemberWithPeer (x.withCommits answer) call req s ≠
    removeMemberWithPeer x call req s

/-- The removal is handed over: no commit is attempted, the proposal is published, and the holder
of the token is another peer. -/
structure HandsOver (x : Ctx) (call : Call → State → State) (req : RemoveMemberRequest)
    (result : CreateProposalResult) (s s' : State) : Prop where
  uncommitted : ¬ req.Commits x call s
  published : ∃ env : Envelope, s'.published = s.published ++ [env.marshal] ∧
    env.type = .proposal ∧ env.payload = .proposal (req.proposal x result).toMsg
  holder : ∃ pid, s'.currentTokenHolder x = .ok pid ∧ pid ≠ x.localID

def RemoveMemberRequest.operation (x : Ctx) (req : RemoveMemberRequest) (s : State) :
    PendingOperation :=
  newOperation x .removeMember req.operationID
    ("remove_member_" ++ x.peers.toString req.targetPeerID) (x.peers.toString req.targetPeerID)
    req.targetIdentity [] s

/-- It is stored before the proposal is made, and a second time on a node that does not hold the
token. -/
def RemoveMemberRequest.recorded (x : Ctx) (req : RemoveMemberRequest) (s : State) : State :=
  (s.saveOperation x (req.operation x s)).saveOperation x
    { req.operation x s with status := .proposed }

theorem ActiveView.one_lt_size {v : ActiveView} (hp : p ∈ v.sortedMembers)
    (hq : q ∈ v.sortedMembers) (hne : p ≠ q) : 1 < v.size := by
  rw [mem_sortedMembers] at hp hq
  unfold size
  rw [← List.length_map Prod.fst]
  by_contra hle
  rcases Nat.le_one_iff_eq_zero_or_eq_one.mp (not_lt.mp hle) with hzero | hone
  · rw [List.length_eq_zero_iff.mp hzero] at hp
    cases hp
  obtain ⟨m, hm⟩ := List.length_eq_one_iff.mp hone
  rw [hm, List.mem_singleton] at hp hq
  exact hne (hp.trans hq.symm)

section Requests

variable {x : Ctx} {call : Call → State → State} {req : RemoveMemberRequest}
  {result : CreateProposalResult} {s t : State}

theorem saveOperation_eq (x : Ctx) (op : PendingOperation) (s : State) :
    ∃ storage operationTrace, s.saveOperation x op = { s with storage, operationTrace } := by
  unfold State.saveOperation
  split
  · exact ⟨s.storage, s.operationTrace, rfl⟩
  · exact ⟨_, _, rfl⟩

@[simp] theorem saveOperation_activeView (s : State) :
    (s.saveOperation x op).activeView = s.activeView := by
  obtain ⟨_, _, heq⟩ := saveOperation_eq x op s
  rw [heq]

@[simp] theorem saveOperation_published (s : State) :
    (s.saveOperation x op).published = s.published := by
  obtain ⟨_, _, heq⟩ := saveOperation_eq x op s
  rw [heq]

@[simp] theorem State.bufferProposal_activeView (s : State) :
    (s.bufferProposal x p).activeView = s.activeView := rfl

@[simp] theorem scheduleFailoverTimerLocked_activeView (s : State) :
    (scheduleFailoverTimerLocked x s).activeView = s.activeView := by
  unfold scheduleFailoverTimerLocked
  split
  · rfl
  · split <;> rfl

theorem RemoveMemberRequest.recorded_eq (x : Ctx) (req : RemoveMemberRequest) (s : State) :
    ∃ storage operationTrace, req.recorded x s = { s with storage, operationTrace } := by
  unfold RemoveMemberRequest.recorded
  obtain ⟨db, trace, hfirst⟩ := saveOperation_eq x (req.operation x s) s
  rw [hfirst]
  exact saveOperation_eq x { req.operation x s with status := .proposed }
    { s with storage := db, operationTrace := trace }

theorem RemovesItself.holder (hpeers : x.peers.Lawful) (hlocal : x.localID ≠ [])
    (h : RemovesItself x req result s) (hholder : s.isTokenHolder x = false) :
    ∃ pid, (s.singleWriter.bufferProposal x.cfg (req.proposal x result)).currentTokenHolder
      (s.electorate x) x.cfg = .ok pid ∧ pid ≠ x.localID := by
  obtain ⟨other, hmem, -, hadmits⟩ := h.other
  unfold SingleWriter.currentTokenHolder
  rw [SingleWriter.bufferProposal_epoch, SingleWriter.bufferProposal_suspended]
  obtain ⟨pid, helected, hpid⟩ := Electorate.exists_holder (E := s.electorate x) hmem hadmits
  refine ⟨pid, helected, ?_⟩
  rintro rfl
  rcases s.singleWriter.bufferProposal_cases x.cfg (req.proposal x result) with hsame | hin
  · -- Nothing was added, and the local peer did not win the same election before.
    unfold RemoveMemberRequest.batch at helected
    rw [hsame] at helected
    unfold State.isTokenHolder SingleWriter.isTokenHolder SingleWriter.currentTokenHolder at hholder
    rw [helected] at hholder
    simp at hholder
  have htarget : (req.proposal x result).targetPeerID = x.peers.toString x.localID :=
    congrArg x.peers.toString h.own
  have hremoved : (s.electorate x).admits s.singleWriter.epoch s.singleWriter.suspended
      (req.batch x result s) x.localID = false :=
    Electorate.not_admits_removed hin rfl (hpeers.toString_ne _ hlocal) htarget
  rw [hremoved] at hpid
  cases hpid

section

variable (h : RemovesItself x req result s)

include h

theorem RemovesItself.ready (hholder : s.isTokenHolder x = true)
    (hview : t.activeView = s.activeView) : commitViewReadyLocked x batch t = true := by
  obtain ⟨other, hother, hne, -⟩ := h.other
  have hself : x.localID ∈ s.activeView.sortedMembers := by
    unfold State.isTokenHolder SingleWriter.isTokenHolder at hholder
    split at hholder
    next pid helected =>
      cases of_decide_eq_true hholder
      exact (Electorate.computeHolder_iff.mp helected).1
    · cases hholder
  have htwo : 1 < t.activeView.size := by
    rw [hview]
    exact ActiveView.one_lt_size hself hother hne.symm
  unfold commitViewReadyLocked
  rw [if_pos (.inr htwo)]

theorem RemovesItself.eq_holder (hholder : s.isTokenHolder x = true) :
    removeMemberWithPeer x call req s =
      removeAsHolderLocked x call req (req.operation x s)
        (s.saveOperation x (req.operation x s)) := by
  obtain ⟨db, trace, hsaved⟩ := saveOperation_eq x (req.operation x s) s
  have hstill : (s.saveOperation x (req.operation x s)).isTokenHolder x = true := by
    rw [hsaved]
    exact hholder
  unfold removeMemberWithPeer
  simp only [h.accepted, if_neg h.identity, h.fresh]
  change (if !(s.saveOperation x (req.operation x s)).isTokenHolder x then _ else _) = _
  rw [hstill]
  rfl

theorem RemovesItself.create (ht : t.groupState = s.groupState) :
    createAndStoreLocalProposalLocked x .remove req.targetIdentity
      { targetPeerID := x.peers.toString req.targetPeerID
        operationID := (req.operation x s).operationID } t =
      (persistCurrentEpochStateLocked x result.newGroupState t).map fun t =>
        ((req.proposal x result).toMsg, req.proposal x result, { t with
          groupState := result.newGroupState
          operationTrace := t.operationTrace ++ [.proposed (recordedID x req.operationID)] }) := by
  unfold createAndStoreLocalProposalLocked
  rw [ht, h.proposal]
  cases hpersist : persistCurrentEpochStateLocked x result.newGroupState t with
  | error err => simp [hpersist, Except.map, bind, Except.bind]
  | ok t' => simp [hpersist, Except.map, bind, Except.bind]; rfl

theorem RemovesItself.holder_unstored (hholder : s.isTokenHolder x = true)
    (hstore : persistCurrentEpochStateLocked x result.newGroupState
      (s.saveOperation x (req.operation x s)) = .error err) :
    (removeMemberWithPeer x call req s).2.published = s.published := by
  obtain ⟨db, trace, hsaved⟩ := saveOperation_eq x (req.operation x s) s
  have hcreate := h.create (t := s.saveOperation x (req.operation x s)) (by rw [hsaved])
  rw [h.eq_holder hholder]
  unfold removeAsHolderLocked
  dsimp only
  rw [hcreate, hstore]
  simp [Except.map]

theorem RemovesItself.holder_refused (hholder : s.isTokenHolder x = true)
    (hstore : persistCurrentEpochStateLocked x result.newGroupState
      (s.saveOperation x (req.operation x s)) = .ok t)
    (hrefuse : ∀ groupState refs, x.engine.createCommit groupState refs = .error err) :
    (removeMemberWithPeer x call req s).1 = .error ("CreateCommit: " ++ err) := by
  obtain ⟨db, trace, hsaved⟩ := saveOperation_eq x (req.operation x s) s
  have hcreate := h.create (t := s.saveOperation x (req.operation x s)) (by rw [hsaved])
  obtain ⟨db', -, rfl⟩ := State.store_ok hstore
  rw [h.eq_holder hholder]
  unfold removeAsHolderLocked
  dsimp only
  rw [hcreate, hstore]
  dsimp only [Except.map]
  rw [h.ready hholder (by simp)]
  unfold commitRemoveLocked issueCommitLocked
  rw [hrefuse]
  rfl

theorem RemovesItself.eq_other (hholder : s.isTokenHolder x = false) :
    removeMemberWithPeer x call req s =
      match proposeLockedWithMetadata x call .remove req.targetIdentity
        { targetPeerID := x.peers.toString req.targetPeerID
          operationID := (req.operation x s).operationID } (req.recorded x s) with
      | .error err => (.error err, req.recorded x s)
      | .ok s => (.ok (), s) := by
  obtain ⟨db, trace, hsaved⟩ := saveOperation_eq x (req.operation x s) s
  have hstill : (s.saveOperation x (req.operation x s)).isTokenHolder x = false := by
    rw [hsaved]
    exact hholder
  unfold removeMemberWithPeer
  simp only [h.accepted, if_neg h.identity, h.fresh]
  change (if !(s.saveOperation x (req.operation x s)).isTokenHolder x then _ else _) = _
  rw [hstill]
  rfl

end

def proposed (x : Ctx) (req : RemoveMemberRequest) (result : CreateProposalResult) (t : State) :
    State :=
  let t := { t with
    groupState := result.newGroupState
    operationTrace := t.operationTrace ++ [.proposed (recordedID x req.operationID)] }
  let t :=
    (broadcastLocked x .proposal (.proposal (req.proposal x result).toMsg) t).bufferProposal x
    (req.proposal x result)
  (scheduleFailoverTimerLocked x t).emit (.proposalObserved
    { epoch := t.epoch
      actorPeerID := x.peers.toString x.localID
      proposalType := .remove
      targetPeerID := x.peers.toString req.targetPeerID })

theorem RemovesItself.propose (h : RemovesItself x req result s)
    (hstore : persistCurrentEpochStateLocked x result.newGroupState (req.recorded x s) = stored) :
    proposeLockedWithMetadata x call .remove req.targetIdentity
      { targetPeerID := x.peers.toString req.targetPeerID
        operationID := (req.operation x s).operationID } (req.recorded x s) =
      (stored.mapError ("CreateProposal: " ++ ·)).map fun t =>
        let t := proposed x req result t
        if t.isTokenHolder x then scheduleBatchCommitLocked x call t else t := by
  obtain ⟨db, trace, hrecorded⟩ := req.recorded_eq x s
  have hcreate := h.create (t := req.recorded x s) (by rw [hrecorded])
  obtain ⟨hstarted, hrevoked⟩ : s.started = true ∧ s.accessRevoked = false := by
    have haccepted := h.accepted
    unfold guardMutation at haccepted
    cases hstarted : s.started <;> cases hrevoked : s.accessRevoked <;> simp_all
  unfold proposeLockedWithMetadata
  rw [if_neg (by rw [hrecorded]; simp [hstarted]), if_neg (by rw [hrecorded]; simp [hrevoked]),
    hcreate, hstore]
  cases stored with
  | error err | ok t => rfl

@[simp] theorem scheduleFailoverTimerLocked_published (s : State) :
    (scheduleFailoverTimerLocked x s).published = s.published := by
  unfold scheduleFailoverTimerLocked
  split
  · rfl
  · split <;> rfl

theorem proposed_published (t : State) : ∃ env : Envelope,
    (proposed x req result t).published = t.published ++ [env.marshal] ∧
      env.type = .proposal ∧ env.payload = .proposal (req.proposal x result).toMsg := by
  unfold proposed
  simp only [State.emit, scheduleFailoverTimerLocked_published]
  exact ⟨_, rfl, rfl, rfl⟩

theorem proposed_holder (hview : t.activeView = s.activeView)
    (hwriter : t.singleWriter = s.singleWriter) :
    (proposed x req result t).currentTokenHolder x =
      (s.singleWriter.bufferProposal x.cfg (req.proposal x result)).currentTokenHolder
        (s.electorate x) x.cfg := by
  have hcore := scheduleFailoverTimerLocked_core (x := x) ((broadcastLocked x .proposal
    (.proposal (req.proposal x result).toMsg) { t with
      groupState := result.newGroupState
      operationTrace :=
        t.operationTrace ++ [.proposed (recordedID x req.operationID)] }).bufferProposal
    x (req.proposal x result))
  have hafter : (proposed x req result t).singleWriter =
      t.singleWriter.bufferProposal x.cfg (req.proposal x result) :=
        congrArg Core.singleWriter hcore
  have hseen : (proposed x req result t).activeView = t.activeView := by
    unfold proposed
    simp [State.emit]
    rfl
  unfold State.currentTokenHolder State.electorate
  rw [hafter, hseen, hview, hwriter]

theorem RemovesItself.other_uncommitted (h : RemovesItself x req result s)
    (hholder : s.isTokenHolder x = false) : ¬ req.Commits x call s := by
  rintro ⟨answer, hne⟩
  have h' : RemovesItself (x.withCommits answer) req result s :=
    ⟨h.own, h.accepted, h.identity, h.fresh, h.proposal, h.other⟩
  apply hne
  rw [h.eq_other hholder, h'.eq_other hholder]
  rfl

theorem RemovesItself.other_stored (hpeers : x.peers.Lawful) (hlocal : x.localID ≠ [])
    (h : RemovesItself x req result s) (hholder : s.isTokenHolder x = false)
    (hstore : persistCurrentEpochStateLocked x result.newGroupState (req.recorded x s) = .ok t) :
    (removeMemberWithPeer x call req s).2 = proposed x req result t ∧
      t.published = s.published ∧
      ∃ pid, (proposed x req result t).currentTokenHolder x = .ok pid ∧ pid ≠ x.localID := by
  obtain ⟨db, trace, hrecorded⟩ := req.recorded_eq x s
  obtain ⟨db', -, ht⟩ := State.store_ok hstore
  rw [hrecorded] at ht
  obtain ⟨pid, helected, hne⟩ := h.holder hpeers hlocal hholder
  have hnow : (proposed x req result t).currentTokenHolder x = .ok pid := by
    rw [proposed_holder (s := s) (by rw [ht]) (by rw [ht])]
    exact helected
  have hstill : (proposed x req result t).isTokenHolder x = false := by
    unfold State.currentTokenHolder at hnow
    unfold State.isTokenHolder SingleWriter.isTokenHolder
    rw [hnow]
    exact decide_eq_false hne
  refine ⟨?_, by rw [ht], pid, hnow, hne⟩
  rw [h.eq_other hholder, h.propose hstore]
  simp [Except.mapError, Except.map, hstill]

theorem RemovesItself.holder_commits (h : RemovesItself x req result s)
    (hholder : s.isTokenHolder x = true)
    (hstore : persistCurrentEpochStateLocked x result.newGroupState
      (s.saveOperation x (req.operation x s)) = .ok t) : req.Commits x call s := by
  -- Two refusals lead to two errors, and at most one of them is what happens.
  have hrefused : ∀ err, (removeMemberWithPeer (x.withCommits fun _ _ => .error err) call req s).1 =
      .error ("CreateCommit: " ++ err) := by
    intro err
    have h' : RemovesItself (x.withCommits fun _ _ => .error err) req result s :=
      ⟨h.own, h.accepted, h.identity, h.fresh, h.proposal, h.other⟩
    exact h'.holder_refused hholder hstore fun _ _ => rfl
  by_contra hnone
  have hsame : ∀ err, (removeMemberWithPeer x call req s).1 = .error ("CreateCommit: " ++ err) := by
    intro err
    rw [← hrefused err]
    by_contra hne
    exact hnone ⟨_, fun heq => hne (congrArg Prod.fst heq.symm)⟩
  have heq := (hsame "a").symm.trans (hsame "b")
  simp at heq

end Requests

/-- A peer that asks for its own removal hands the commit over exactly if it does not hold the token
at that moment, provided that the proposal can be stored. A holder of the token never does. -/
theorem self_removal_is_handed_over_iff (x : Ctx) (call : Call → State → State)
    (req : RemoveMemberRequest) (result : CreateProposalResult) (s : State)
    (hpeers : x.peers.Lawful) (hlocal : x.localID ≠ []) (h : RemovesItself x req result s) :
    HandsOver x call req result s (removeMemberWithPeer x call req s).2 ↔
      s.isTokenHolder x = false ∧
        ∃ t, persistCurrentEpochStateLocked x result.newGroupState (req.recorded x s) = .ok t := by
  obtain ⟨db, trace, hrecorded⟩ := req.recorded_eq x s
  cases hholder : s.isTokenHolder x with
  | true =>
    refine ⟨fun hover => ?_, fun hfalse => absurd hfalse.1 (by decide)⟩
    exfalso
    cases hstore : persistCurrentEpochStateLocked x result.newGroupState
        (s.saveOperation x (req.operation x s)) with
    | error err =>
      obtain ⟨env, hpublished, -⟩ := hover.published
      rw [h.holder_unstored hholder hstore] at hpublished
      simp at hpublished
    | ok t => exact hover.uncommitted (h.holder_commits hholder hstore)
  | false =>
    cases hstore : persistCurrentEpochStateLocked x result.newGroupState (req.recorded x s) with
    | error err =>
      refine ⟨fun hover => ?_, fun hstored => by simp at hstored⟩
      obtain ⟨env, hpublished, -⟩ := hover.published
      rw [h.eq_other hholder, h.propose hstore] at hpublished
      simp [Except.mapError, Except.map, hrecorded] at hpublished
    | ok t =>
      obtain ⟨hafter, hpublished, hholder'⟩ := h.other_stored hpeers hlocal hholder hstore
      refine ⟨fun _ => ⟨rfl, t, rfl⟩, fun _ => ⟨h.other_uncommitted hholder, ?_, ?_⟩⟩
      · rw [hafter, ← hpublished]
        exact proposed_published t
      · rw [hafter]
        exact hholder'

namespace Reference

def leaver (pid : PeerID) : Ctx := { member pid, world with }

def ownRemoval (pid : PeerID) : RemoveMemberRequest :=
  { targetPeerID := pid, targetIdentity := pid }

def removalOf (b : Byte) : CreateProposalResult where
  proposalBytes := [0, b + 1]
  proposalRef := [0, b + 1]
  newGroupState := [1, 0, b + 1]

def asksToLeave (pid other : PeerID) (result : CreateProposalResult) (s : State) : Bool :=
  s.started ∧ s.accessRevoked = false ∧ s.groupState = [1, 0] ∧
    repeatedRequest (leaver pid) "" ("remove_member_" ++ peers.toString pid) s = none ∧
    other ∈ s.activeView.sortedMembers ∧
    (s.electorate (leaver pid)).admits s.singleWriter.epoch s.singleWriter.suspended
      ((ownRemoval pid).batch (leaver pid) result s) other = true

theorem removesItself (h : asksToLeave [b] other (removalOf b) s = true) (hne : other ≠ [b])
    (hmade : createProposal [1, 0] .remove [b] = .ok (removalOf b)) :
    RemovesItself (leaver [b]) (ownRemoval [b]) (removalOf b) s := by
  obtain ⟨hstarted, hrevoked, hstate, hfresh, hmem, hadmits⟩ := of_decide_eq_true h
  refine ⟨rfl, ?_, List.cons_ne_nil _ _, hfresh, ?_, other, hmem, hne, hadmits⟩
  · simp [guardMutation, hstarted, hrevoked]
  · rw [hstate]
    exact hmade

end Reference

open Reference in
/-- The member who does not hold the token is removed by the other one. -/
theorem removal_of_follower_is_handed_over : ∃ s,
    boot (member [66]) [[65], [66]] = some s ∧
    RemovesItself (leaver [66]) (ownRemoval [66]) (removalOf 66) s ∧
    HandsOver (leaver [66]) (run (leaver [66]) 4) (ownRemoval [66])
      (removalOf 66) s (removeMemberWithPeer (leaver [66])
        (run (leaver [66]) 4) (ownRemoval [66]) s).2 := by
  obtain ⟨s, hs, hasks, hholder, t, ht, -⟩ : ∃ s, boot (member [66]) [[65], [66]] = some s ∧
      asksToLeave [66] [65] (removalOf 66) s = true ∧ s.isTokenHolder (leaver [66]) = false ∧
      ∃ t, (persistCurrentEpochStateLocked (leaver [66]) [1, 0, 67]
        ((ownRemoval [66]).recorded (leaver [66]) s)).toOption = some t ∧ True := by
    decide +kernel
  have hremoves := removesItself hasks (by decide) rfl
  refine ⟨s, hs, hremoves, (self_removal_is_handed_over_iff _ _ _ _ s peers_lawful
    (List.cons_ne_nil _ _) hremoves).mpr ⟨hholder, t, Fallible.toOption_eq_some ht⟩⟩

open Reference in
/-- The one who holds it commits its own removal at once, and publishes the commit only. -/
theorem holder_commits_its_own_removal : ∃ s s',
    Booted (member [65]) (fun _ => True) s ∧
    RemovesItself (leaver [65]) (ownRemoval [65]) (removalOf 65) s ∧
    s.isTokenHolder (leaver [65]) = true ∧
    (removeMemberWithPeer (leaver [65]) (run (leaver [65]) 4)
      (ownRemoval [65]) s).2 = s' ∧
    s'.issuedCommits.map (·.commit.includedProposals) = [[((ownRemoval [65]).proposal (leaver [65])
        (removalOf 65)).toMsg]] ∧
    s'.published = s.published ++ s'.issuedCommits.map (·.env.marshal) := by
  obtain ⟨s, hs, hasks, hholder, hissued, hpublished⟩ : ∃ s, boot (member [65])
    [[65], [66]] = some s ∧
      asksToLeave [65] [66] (removalOf 65) s = true ∧ s.isTokenHolder (leaver [65]) = true ∧
      let s' := (removeMemberWithPeer (leaver [65]) (run (leaver [65]) 4) (ownRemoval [65]) s).2
      s'.issuedCommits.map (·.commit.includedProposals) =
          [[((ownRemoval [65]).proposal (leaver [65]) (removalOf 65)).toMsg]] ∧
        s'.published = s.published ++ s'.issuedCommits.map (·.env.marshal) := by
    decide +kernel
  exact ⟨s, _, boot_booted hs trivial, removesItself hasks (by decide) rfl,
    hholder, rfl, hissued, hpublished⟩

end GroupCoordination
