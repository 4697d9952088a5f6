import GroupCoordination.Model.Application

/-!
# Fork healing

`coordinator_heal.go` and the sending half of `coordinator_batch.go`. A heal runs on
its own goroutine and takes the lock for one phase at a time, so each phase is a step
of its own and anything may happen between two of them. The group state is dropped
before the join request goes out and comes back by the swap to the winning branch or,
when the heal ends without one, from the stored record.

Audit rows and metrics are left out.
-/

namespace GroupCoordination

-- -------- Scheduling

variable (x : Ctx)

def startHeal (event : ForkEvent) (s : State) : State :=
  if s.healing then s
  else
    { s with
      healing := true
      heal := some { traceID := x.freshID, event, phase := .queued } }.emit
      (.forkHeal "fork_heal_started" x.freshID s.epoch)

/-- `scheduleHeal`: a node that lags behind first asks for a sync, three times. -/
def scheduleHeal (event : ForkEvent) (s : State) : State :=
  let s := { s with suspected := s.suspected ++ [(event, s.lineage)] }
  if event.remoteEpoch > s.epoch ∧ x.onSyncRequired ∧ s.syncRetryAttempts < 3 then
    { s with deferredForkEvent := some event }.emit (.syncRequired event.remotePeer)
  else startHeal x event { s with deferredForkEvent := none }

def resetSyncRetryAttempts (s : State) : State :=
  { s with syncRetryAttempts := 0, deferredForkEvent := none }

def incrementSyncRetryAttempts (s : State) : State :=
  { s with syncRetryAttempts := s.syncRetryAttempts + 1 }

def triggerDeferredHeal (s : State) : State :=
  match s.deferredForkEvent with
  | none => s
  | some event => startHeal x event { s with deferredForkEvent := none }

def setOperationalMode (mode : GroupOperationalMode) (s : State) : State :=
  { s with operationalMode := mode }

-- -------- Phases up to the join request

def State.saveJob (job : ForkHealingJob) (s : State) : State :=
  s.storeOrWarn (Storage.saveForkHealingJob x.disk s.storage job)

def State.saveEvent (ev : ApplicationEvent) (s : State) : State :=
  s.storeOrWarn (Storage.saveApplicationEvent x.disk s.storage ev)

def State.setHealPhase (phase : HealPhase) (s : State) : State :=
  { s with heal := s.heal.map ({ · with phase }) }

def newHealingJob (run : HealRun) (s : State) : ForkHealingJob where
  jobID := "job-" ++ x.groupID ++ "-" ++ toString x.nowMs
  traceID := run.traceID
  status := .initiated
  losingBranchID := s.lastCommitHash
  winningBranchID := run.event.remoteAnnounce.commitHash
  forkBaseEpoch := s.epoch
  losingEpoch := s.epoch
  winningEpoch := run.event.remoteEpoch
  losingTreeHash := s.treeHash
  winningTreeHash := run.event.remoteAnnounce.treeHash?
  winningCommitHash := run.event.remoteAnnounce.commitHash
  winnerPeerID := x.peers.toString run.event.remotePeer
  createdAtMs := x.nowMs
  updatedAtMs := x.nowMs

def beginHeal (run : HealRun) (s : State) : State :=
  if !s.started then s.setHealPhase .restore
  else
    let (job, s) := match Storage.getActiveForkHealingJob x.disk s.storage with
      | .ok (some job) => (job, s)
      | _ =>
        let job := newHealingJob x run s
        (job, s.saveJob x job)
    (setOperationalMode .frozenForApply s).setHealPhase (.snapshot job)

section

variable (job : ForkHealingJob)

def snapshotEvent (envelopeHash : Bytes) (epoch : Nat)
    (author : String) (ts : HLCTimestamp) (payloadHash : Bytes) (payload : Bytes × Bytes)
    (status : EventStatus) : ApplicationEvent where
  eventID := hexEncode envelopeHash
  jobID := job.jobID
  originalBranchID := job.losingBranchID
  originalEpoch := epoch
  authorID := author
  envelopeHash := envelopeHash
  payloadSealed := payload.1
  payloadHash := payloadHash
  sealKeyID := "local_node_key"
  sealNonce := payload.2
  hlc := ts
  status := status
  createdAtMs := x.nowMs
  updatedAtMs := x.nowMs

def snapshotOwnMessage (s : State) (msg : StoredMessage) : State :=
  let content := msg.content.getD []
  match x.sealer.sealPayload s.storage.writes content with
  | .error _ => s
  | .ok sealed =>
    s.saveEvent x (snapshotEvent x job msg.envelopeHash msg.epoch (x.peers.toString x.localID)
      msg.timestamp (x.hash.sum content) sealed .orphanedOwn)

/-- A message still in the log: decrypted for its author if that is the local node. -/
def snapshotPendingEnvelope (s : State) (row : EnvelopeRecord) : State :=
  match row.msgType, row.envelope.unmarshal with
  | .application, some env =>
    match env.payload with
    | .application ciphertext =>
      let event := snapshotEvent x job row.envelopeHash row.epoch env.from row.timestamp
      match x.engine.decryptMessage s.groupState ciphertext with
      | .error _ => s.saveEvent x (event row.envelopeHash ([], []) .unrecoverable)
      | .ok (plaintext, _) =>
        if env.from = x.peers.toString x.localID then
          let sealed := match x.sealer.sealPayload s.storage.writes plaintext with
            | .ok sealed => sealed
            | .error _ => ([], [])
          s.saveEvent x (event (x.hash.sum plaintext) sealed .orphanedOwn)
        else s.saveEvent x (event (x.hash.sum plaintext) ([], []) .waitingAuthorReplay)
    | _ => s
  | _, _ => s

def snapshotHeal (s : State) : State :=
  if job.status ≠ .initiated then s.setHealPhase (.join job)
  else
    let s := match Storage.getMessagesByOwnerInRange x.disk s.storage x.localID 0 x.nowMs with
      | .error _ => s
      | .ok msgs => msgs.foldl (snapshotOwnMessage x job) s
    let s := match Storage.getPendingEnvelopes x.disk s.storage 1000 with
      | .error _ => s
      | .ok rows => rows.foldl (snapshotPendingEnvelope x job) s
    let job := { job with status := .snapshotCreated, updatedAtMs := x.nowMs }
    (s.saveJob x job).setHealPhase (.join job)

def publishJoin (msg : ProposalMsg) (s : State) : State :=
  let (s, ts) := s.stamp x
  publishPreparedEnvelopeLocked .proposal
    (buildEnvelopeWithTimestampLocked x s .proposal (.proposal msg) ts) s

def joinHeal (s : State) : State :=
  if job.status ≠ .snapshotCreated then s.setHealPhase (.swap job)
  else
    match x.engine.generateKeyPackage x.signingKey with
    | .error _ => s.setHealPhase .thaw
    | .ok (keyPackage, bundlePrivate) =>
      let msg : ProposalMsg :=
        { proposalType := .join
          data := keyPackage
          targetPeerID := x.peers.toString x.localID
          targetIdentity := x.localIdentity
          keyPackageHash := x.hash.sum keyPackage
          operationID := job.jobID }
      let s := publishJoin x msg { s with groupState := [], treeHash := [] }
      let job := { job with
        status := .proposalSent, pendingBundlePrivate := bundlePrivate, updatedAtMs := x.nowMs }
      (s.saveJob x job).setHealPhase (.awaiting job 1 msg)

end

-- -------- Waiting for the welcome

inductive HealWake
  | signal
  | timeout
  | cancelled
  deriving DecidableEq

def reloadJob (s : State) : State :=
  let s := { s with welcomeReceived := false }
  match Storage.getActiveForkHealingJob x.disk s.storage with
  | .ok (some job) => s.setHealPhase (.swap job)
  | _ => (s.setHealPhase .thaw)

/-- `ProposalJoin` is sent three times; a welcome that arrives with the last timeout still
counts. -/
def awaitWelcome (job : ForkHealingJob) (attempt : Nat) (msg : ProposalMsg)
    (wake : HealWake) (s : State) : State :=
  match wake with
  | .signal => if s.welcomeReceived then reloadJob x s else s
  | .cancelled => s.setHealPhase .thaw
  | .timeout =>
    if s.welcomeReceived then reloadJob x s
    else if attempt < 3 then (publishJoin x msg s).setHealPhase (.awaiting job (attempt + 1) msg)
    else s.setHealPhase .thaw

/-- `ProcessWelcomeIfWaiting`. The private bundle is not stored with the job, so a job
read from the database never passes the second check. -/
def processWelcomeIfWaiting (welcome : Bytes) (s : State) : Bool × State :=
  match Storage.getActiveForkHealingJob x.disk s.storage with
  | .ok (some job) =>
    if job.status ≠ .proposalSent ∨ job.pendingBundlePrivate = [] then (false, s)
    else
      match x.engine.processWelcome welcome x.signingKey job.pendingBundlePrivate
          x.cfg.getMaxPastEpochs with
      | .error _ => (false, s)
      | .ok (groupState, treeHash, epoch) =>
        let s := s.saveJob x { job with
          status := .externalJoined
          winningEpoch := epoch
          winningTreeHash := nilIfEmpty treeHash
          pendingGroupState := groupState
          pendingEpoch := epoch
          pendingTreeHash := treeHash
          updatedAtMs := x.nowMs }
        (true, { s with welcomeReceived := true })
  | _ => (false, s)

-- -------- Swap

/-- The in-memory half of `applyHealedState`: everything of the losing branch is
replaced, the history chain starts again at the group's root. -/
def swapState (newState newTreeHash : Bytes) (newEpoch : Nat) (s : State) : State :=
  let s := { s with
    groupState := newState
    treeHash := newTreeHash
    epoch := newEpoch
    epochTracker := EpochTracker.new newEpoch newTreeHash
    singleWriter := SingleWriter.new newEpoch
    lastCommitHash := x.hashCommitData []
    historyHash := some x.initialHistoryHash
    historyChain := HistoryChain.set [] newEpoch (some x.initialHistoryHash)
    lineage := { root := x.initialHistoryHash, base := newEpoch } }
  { s with forkDetector := s.forkDetector.reset.updateLocal s.announcement }

def healedRecord (newState newTreeHash : Bytes) (newEpoch : Nat) (s : State) :
    Except String GroupRecord :=
  let record : GroupRecord :=
    { groupState := newState, epoch := newEpoch, treeHash := newTreeHash,
      myRole := some .member, createdAt := x.now, updatedAt := x.now }
  match Storage.getGroupRecord x.disk s.storage with
  | .error err =>
    if err ≠ errGroupNotFound then .error ("load group record: " ++ err) else .ok record
  | .ok prev =>
    .ok { record with
      myRole := if prev.myRole.isSome then prev.myRole else some .member
      groupType := prev.groupType
      categoryID := prev.categoryID
      createdAt := if prev.createdAt ≠ 0 then prev.createdAt else x.now }

/-- `applyHealedState`. Once the record is saved the swap happens, even if the
coordination state cannot be written after it. -/
def applyHealedState (newState newTreeHash : Bytes) (newEpoch : Nat) (s : State) :
    Except String Unit × State :=
  match healedRecord x newState newTreeHash newEpoch s with
  | .error err => (.error err, s)
  | .ok record =>
    match s.store (Storage.saveGroupRecord x.disk s.storage record) with
    | .error err => (.error ("persist healed group state: " ++ err), s)
    | .ok s =>
      let s := swapState x newState newTreeHash newEpoch s
      match persistCoordStateLocked x s with
      | .error err => (.error ("persist healed coordination state: " ++ err), s)
      | .ok s => (.ok (), s.emit (.epochChange newEpoch))

def swapHeal (job : ForkHealingJob) (s : State) : State :=
  if job.status ≠ .externalJoined then s.setHealPhase (.replay job)
  else if job.pendingGroupState = [] then s.setHealPhase .thaw
  else
    match applyHealedState x job.pendingGroupState job.pendingTreeHash job.pendingEpoch s with
    | (.error _, s) => s.setHealPhase .thaw
    | (.ok (), s) =>
      let job := { job with status := .stateSwapped, updatedAtMs := x.nowMs }
      (s.saveJob x job).setHealPhase (.replay job)

-- -------- Replay

def markReplayed (s : State) (ev : ApplicationEvent) : State :=
  let s := s.saveEvent x { ev with status := .replayed, replayedAtMs := x.nowMs }
  { s with storage := Storage.markMessageReplayed x.disk s.storage ev.envelopeHash }

def broadcastBatchedOutboundReplay (outbound : OutboundReplay)
    (evs : List ApplicationEvent) (s : State) : State :=
  let s := appendOfflineEnvelopeLocked x outbound.replayEnvelope s
  let s := publishPreparedEnvelopeLocked .applicationBatched outbound.replayEnvelope s
  match s.store (Storage.saveOutboundReplay x.disk s.storage
      { outbound with status := .broadcasted, updatedAtMs := x.nowMs }) with
  | .error _ => s
  | .ok s => evs.foldl (markReplayed x) s

def resendOutbound (jobID : String) (s : State) (outbound : OutboundReplay) : State :=
  if outbound.status = .broadcasted then s
  else
    match Storage.listApplicationEvents x.disk s.storage jobID with
    | .error _ => s
    | .ok evs =>
      let matching := evs.filter (·.replayOperationID = outbound.replayOperationID)
      if matching = [] then s else broadcastBatchedOutboundReplay x outbound matching s

/-- One turn of the first loop of `batchAndReplayOutbox`: events of other authors are left
to them, own events are opened. -/
def openOrphan (acc : List ReplayItem × State) (ev : ApplicationEvent) : List ReplayItem × State :=
  let (items, s) := acc
  if ev.authorID ≠ x.peers.toString x.localID then
    (items, s.saveEvent x { ev with
      status := .waitingAuthorReplay, payloadSealed := [], sealNonce := [], sealKeyID := "" })
  else if ev.status ≠ .orphanedOwn ∧ ev.status ≠ .replayPending then (items, s)
  else if ev.payloadSealed = [] ∨ ev.sealNonce = [] then
    (items, s.saveEvent x { ev with status := .waitingAuthorReplay })
  else
    let ev := { ev with
      status := .replayPending, replayAttemptCount := ev.replayAttemptCount + 1 }
    let s := s.saveEvent x ev
    match x.sealer.openPayload ev.payloadSealed ev.sealNonce with
    | .error err => (items, s.saveEvent x { ev with status := .replayFailed, lastError := err })
    | .ok plaintext =>
      (items ++ [{ event := ev, payload :=
        { eventID := ev.eventID, plaintext := nilIfEmpty plaintext, hlc := ev.hlc } }], s)

def maxBatchSize : Nat := 50

def resendQueue (jobID : String) (s : State) : State :=
  match Storage.listOutboundReplays x.disk s.storage jobID with
  | .error _ => s
  | .ok outbounds => outbounds.foldl (resendOutbound x jobID) s

def replayHeal (job : ForkHealingJob) (s : State) : State :=
  if job.status ≠ .stateSwapped then s.setHealPhase (.clean job)
  else
    let s := resendQueue x job.jobID s
    match Storage.listApplicationEvents x.disk s.storage job.jobID with
    | .error _ => s.setHealPhase (.encrypt job 0 [])
    | .ok events =>
      let (items, s) := events.foldl (openOrphan x) ([], s)
      s.setHealPhase (.encrypt job 0 (items.toChunks maxBatchSize))

/-- The first critical section of a batch: the engine encrypts it. With no batch left the
job is locally complete. -/
def encryptHeal (job : ForkHealingJob) (index : Nat) (chunks : List (List ReplayItem))
    (s : State) : State :=
  match chunks with
  | [] =>
    let job := { job with status := .localComplete, updatedAtMs := x.nowMs }
    (s.saveJob x job).setHealPhase (.clean job)
  | chunk :: rest =>
    match x.engine.encryptMessage s.groupState (x.codec.encodeBatch (chunk.map (·.payload))) with
    | .error err =>
      let s := chunk.foldl (fun s item =>
        s.saveEvent x { item.event with status := .replayFailed, lastError := err }) s
      s.setHealPhase (.encrypt job (index + 1) rest)
    | .ok (ciphertext, newState) =>
      s.setHealPhase (.assign job index chunk ciphertext newState rest)

/-- The second one: the engine state from the first replaces whatever is there now. -/
def assignHeal (job : ForkHealingJob) (index : Nat) (chunk : List ReplayItem)
    (ciphertext newState : Bytes) (rest : List (List ReplayItem)) (s : State) : State :=
  let (s, ts) := s.stamp x
  let wire := buildEnvelopeWithTimestampLocked x s .applicationBatched
    (.applicationBatched ciphertext) ts
  let s := { s with groupState := newState }
  let s := s.unlessError (saveCurrentGroupStateLocked x s)
  let replayedHash := x.disk.hash wire
  let outbound : OutboundReplay :=
    { replayOperationID := hexEncode replayedHash
      eventID := "BATCH-" ++ toString index
      jobID := job.jobID
      replayEnvelope := wire
      replayedEnvelopeHash := replayedHash
      status := .enqueued
      createdAtMs := x.nowMs
      updatedAtMs := x.nowMs }
  let s := s.storeOrWarn (Storage.saveOutboundReplay x.disk s.storage outbound)
  let enqueued := chunk.map fun item =>
    { item.event with
      replayOperationID := outbound.replayOperationID
      replayedEnvelopeHash := replayedHash
      status := .replayEnqueued }
  let s := enqueued.foldl (fun s ev => s.saveEvent x ev) s
  (broadcastBatchedOutboundReplay x outbound enqueued s).setHealPhase
    (.encrypt job (index + 1) rest)

-- -------- End of a heal

def cleanHeal (run : HealRun) (job : ForkHealingJob) (s : State) : State :=
  if job.status ≠ .localComplete then s.setHealPhase .thaw
  else
    let s := s.storeOrWarn (Storage.clearSealedPayloads x.disk s.storage job.jobID)
    let s := s.saveJob x { job with
      status := .cleaned, completedAtMs := x.nowMs, updatedAtMs := x.nowMs }
    (s.emit (.forkHeal "fork_heal_completed" run.traceID job.pendingEpoch)).setHealPhase .thaw

/-- The deferred restore of `runHeal`: a group state that is still dropped comes back from
the stored record. -/
def restoreHeal (s : State) : State :=
  let s := match Storage.getGroupRecord x.disk s.storage with
    | .error _ => s
    | .ok stored =>
      if s.groupState = [] ∧ stored.groupState ≠ [] then
        { s with
          groupState := stored.groupState, epoch := stored.epoch, treeHash := stored.treeHash }
      else s
  s.setHealPhase .release

def healStep (wake : HealWake) (s : State) : State :=
  match s.heal with
  | none => s
  | some run =>
    match run.phase with
    | .queued => beginHeal x run s
    | .snapshot job => snapshotHeal x job s
    | .join job => joinHeal x job s
    | .awaiting job attempt msg => awaitWelcome x job attempt msg wake s
    | .swap job => swapHeal x job s
    | .replay job => replayHeal x job s
    | .encrypt job index chunks => encryptHeal x job index chunks s
    | .assign job index chunk ciphertext newState rest =>
      assignHeal x job index chunk ciphertext newState rest s
    | .clean job => cleanHeal x run job s
    | .thaw => (setOperationalMode .live s).setHealPhase .restore
    | .restore => restoreHeal x s
    | .release => { s with heal := none, healing := false }

-- -------- Resuming

def JobStatus.beforeStateSwapped : JobStatus → Bool
  | .initiated | .snapshotCreated | .externalJoined => true
  | _ => false

def isAlreadyOnWinningBranch (job : ForkHealingJob) (s : State) : Bool :=
  if job.status = .initiated ∨ job.status = .snapshotCreated then false
  else if job.pendingEpoch > 0 ∧ s.epoch = job.pendingEpoch then s.treeHash = job.pendingTreeHash
  else if s.epoch = job.winningEpoch then s.treeHash = job.winningTreeHash.getD []
  else false

/-- A job whose swap has already happened goes on from there. -/
def skipSwap (job : ForkHealingJob) (s : State) : State :=
  if isAlreadyOnWinningBranch job s ∧ job.status.beforeStateSwapped then
    s.saveJob x { job with status := .stateSwapped, updatedAtMs := x.nowMs }
  else s

def resumeForkHealingJob (s : State) : State :=
  match s.resuming with
  | none => s
  | some job =>
    let s := skipSwap x job { s with resuming := none }
    let winnerPeer := (x.peers.decode job.winnerPeerID).getD (stringBytes job.winnerPeerID)
    let event : ForkEvent :=
      { groupID := x.groupID
        remotePeer := winnerPeer
        remoteAnnounce := { treeHash? := job.winningTreeHash, epoch := job.winningEpoch }
        remoteEpoch := job.winningEpoch
        needExternalJoin := true
        winnerPeers := [winnerPeer]
        partitionStartedAt := some job.createdAtMs }
    if s.healing then s
    else { s with
      healing := true
      heal := some { traceID := job.traceID, event, phase := .queued } }

end GroupCoordination
