import GroupCoordination.Model.Application
import GroupCoordination.Model.Reconcile

/-!
# Commits

`coordinator_commit.go` and `coordinator_helpers.go`: receiving a commit, issuing
one as token holder, and the epoch change both end in. The epoch change takes the
messages kept for the new epoch and dispatches them on the spot, and each of them
may be the next commit: `handleCommitLocked` and `advanceEpochLocked` call each
other. That recursion goes through `call`; `run` at the end closes it over a fuel
that bounds the depth.
-/

namespace GroupCoordination

-- -------- Batches

def BufferedProposal.toMsg (p : BufferedProposal) : ProposalMsg where
  proposalType := p.type
  data := p.data
  proposalRef := p.proposalRef
  operationID := p.operationID
  targetPeerID := p.targetPeerID
  requestID := p.requestID
  groupType := p.groupType
  categoryID := p.categoryID
  keyPackageHash := p.keyPackageHash

def proposalMsgsFromBatch (batch : List BufferedProposal) : List ProposalMsg :=
  batch.map BufferedProposal.toMsg

def bufferedBatchFromProposalMsgs (proposals : List ProposalMsg) : List BufferedProposal :=
  proposals.map ProposalMsg.toBuffered

@[simp] theorem bufferedBatch_of_msgs (batch : List BufferedProposal) :
    bufferedBatchFromProposalMsgs (proposalMsgsFromBatch batch) = batch := by
  unfold bufferedBatchFromProposalMsgs proposalMsgsFromBatch
  rw [List.map_map]
  exact List.map_id _

def proposalBytesFromMsgs (proposals : List ProposalMsg) : List Bytes := proposals.map (·.data)

def proposalRefSetsEqual (a b : List Bytes) : Bool :=
  a.insertionSort (· ≤ ·) = b.insertionSort (· ≤ ·)

theorem proposalRefSetsEqual_iff : proposalRefSetsEqual a b = true ↔ a.Perm b := by
  unfold proposalRefSetsEqual
  rw [decide_eq_true_iff]
  constructor
  · intro h
    exact (List.perm_insertionSort (· ≤ ·) a).symm.trans (h ▸ List.perm_insertionSort _ b)
  intro h
  refine List.Perm.eq_of_pairwise' (List.pairwise_insertionSort _ _)
    (List.pairwise_insertionSort _ _) ?_
  exact (List.perm_insertionSort _ a).trans (h.trans (List.perm_insertionSort _ b).symm)

def removesPeer (C : PeerCodec) (batch : List BufferedProposal) (pid : PeerID) : Bool :=
  pid ≠ [] ∧ batch.any fun p => p.type = .remove ∧ p.targetPeerID = C.toString pid

def batchContainsType (batch : List BufferedProposal) (pType : ProposalType) : Bool :=
  batch.any (·.type = pType)

variable (x : Ctx) (call : Call → State → State)

/-- Routing metadata of the additions in a batch; one welcome serves them all. -/
def buildAddDeliveriesFromBatch (batch : List BufferedProposal) (welcomeBytes : Bytes) :
    List AddCommitDelivery :=
  (batch.filter (·.type = .add)).map fun p =>
    { operationID := p.operationID
      targetPeerID := p.targetPeerID
      requestID := p.requestID
      groupType := p.groupType
      categoryID := p.categoryID
      keyPackageHash := p.keyPackageHash
      welcomeHash := if welcomeBytes = [] then [] else x.hash.sum welcomeBytes }

-- -------- The epoch change

/-- The history hash and chain of the epoch after this commit. A chain without a head
starts at the group's root. -/
def extendHistory (newEpoch : Nat) (commitHash : Bytes) (historyHash : Option Bytes)
    (chain : HistoryChain) : Bytes × HistoryChain :=
  let (prev, chain) := match historyHash with
    | some h => (h, chain)
    | none => (x.initialHistoryHash, chain.set (newEpoch - 1) (some x.initialHistoryHash))
  let next := x.computeHistoryHash prev commitHash
  (next, chain.set newEpoch (some next))

theorem extendHistory_head :
    (extendHistory x newEpoch commitHash historyHash chain).2.get newEpoch =
      some (some (extendHistory x newEpoch commitHash historyHash chain).1) :=
  HistoryChain.get_set_self _

/-- `advanceEpochLocked` before its loop. The messages kept for the new epoch are on
their way to a handler afterwards. -/
def enterEpochLocked (newState : Bytes) (newEpoch : Nat) (newTreeHash commitData : Bytes)
    (s : State) : State :=
  let (tracker, buffered) := s.epochTracker.advance newEpoch newTreeHash
  let (historyHash, historyChain) := extendHistory x newEpoch (x.hashCommitData commitData)
    s.historyHash s.historyChain
  let s := { s with
    groupState := newState
    epoch := newEpoch
    treeHash := newTreeHash
    epochTracker := tracker
    singleWriter := s.singleWriter.advanceEpoch newEpoch
    proposalTimer := none
    failoverTimer := none
    lastCommitHash := x.hashCommitData commitData
    historyHash := some historyHash
    historyChain
    lineage := s.lineage.extend (x.hashCommitData commitData)
    inflight := buffered.map (newEpoch, ·) ++ s.inflight }
  let s := { s with
    lastTokenHolder := match s.currentTokenHolder x with
      | .ok holder => holder
      | .error _ => s.lastTokenHolder
    forkDetector := s.forkDetector.updateLocal s.announcement }
  (s.unlessError (persistCoordStateLocked x s)).emit (.epochChange newEpoch)

def State.takeBuffered (key : Nat) (raw : Wire) (s : State) : State :=
  { s with
    inflight := s.inflight.tail
    dispatched := s.dispatched ++ [{ key, wire := raw, epoch := s.epoch }] }

def dispatchBuffered (key : Nat) (buffered : List Wire) (s : State) : State :=
  buffered.foldl (fun s raw => call (.dispatch raw) (s.takeBuffered key raw)) s

def advanceEpochLocked (newState : Bytes) (newEpoch : Nat)
    (newTreeHash commitData : Bytes) (s : State) : State :=
  dispatchBuffered call newEpoch (s.epochTracker.futureBuffer newEpoch)
    (enterEpochLocked x newState newEpoch newTreeHash commitData s)

-- -------- Receiving a commit

def markInvalidCommitLocked (commitHash : Bytes) (s : State) : State :=
  { s with forkDetector := s.forkDetector.markInvalidCommit commitHash }

section

variable (env : Envelope)

/-- The single-writer check on a batch: the peer the envelope names must be the holder
for the batch and survive it. An envelope that names no peer skips the check. -/
def checkCommitter (batch : List BufferedProposal) (s : State) : Except String Unit :=
  let sender := decodeEnvelopePeerID x.peers env.from []
  if batch = [] ∨ sender = [] then .ok ()
  else
    match s.holderForBatch x batch with
    | .error err => .error err
    | .ok holder =>
      if sender ≠ holder then .error "Rejected commit from non-token-holder"
      else if removesPeer x.peers batch sender then
        .error "Rejected commit whose batch removes the committer"
      else .ok ()

def validateCommitLocked (commit : CommitMsg) (s : State) : Except String (Bytes × Bytes) := do
  let included := proposalBytesFromMsgs commit.includedProposals
  let stagedRefs ← x.engine.stageCommit s.groupState commit.commitData included
  if commit.committedProposalRefs ≠ [] ∧
      !proposalRefSetsEqual stagedRefs commit.committedProposalRefs then
    .error "committed proposal refs do not match the staged commit"
  else do
    checkCommitter x env (bufferedBatchFromProposalMsgs commit.includedProposals) s
    x.engine.processCommit s.groupState commit.commitData included

/-- The record of the epoch a commit opens. Epochs stay below `2^63`, where the stored
record would refuse them, so the source's addition does not wrap. -/
def nextEpochRecord (newState newTreeHash : Bytes) (s : State) : GroupRecord :=
  { groupState := newState, epoch := s.epoch + 1, treeHash := newTreeHash, updatedAt := x.now }

/-- Both drains after a received commit: by ref, and by body for a node whose refs differ. -/
def drainCommitted (commit : CommitMsg) (s : State) : State :=
  let w := (s.singleWriter.drainBatchByRefs commit.committedProposalRefs).1
  let datas := (proposalBytesFromMsgs commit.includedProposals).filter (· ≠ [])
  { s with singleWriter := (w.drainBatchByData datas).1 }

def settleCommitLocked (commit : CommitMsg)
    (newState : Bytes) (nextEpoch : Nat) (s : State) : State :=
  let s := reconcileOperationsAfterCommitLocked x commit (drainCommitted commit s)
  let s := reconcileAndRebaseOperationsLocked x call s
  let s := updateLocalAccessRevocationLocked x newState nextEpoch s
  commit.addDeliveries.foldl (fun s d => s.emit (.addCommitted d nextEpoch [])) s

def State.commitApplied (commit : CommitMsg) (db : Storage) (s : State) : State :=
  { s with
    storage := db
    appliedCommits := s.appliedCommits ++ [{
      env, commit, groupState := s.groupState, electorate := s.electorate x,
      singleWriter := s.singleWriter }] }

def processCommitLocked (wire : Wire) (commit : CommitMsg) (s : State) : Bool × State :=
  match validateCommitLocked x env commit s with
  | .error _ => (false, markInvalidCommitLocked (x.hashCommitData commit.commitData) s)
  | .ok (newState, newTreeHash) =>
    match Storage.applyCommit x.disk s.storage (nextEpochRecord x newState newTreeHash s) env.type
        wire env.timestamp env.epoch with
    | .error _ => (false, s)
    | .ok (false, _) => (false, s)
    | .ok (true, db) =>
      let nextEpoch := s.epoch + 1
      let s := advanceEpochLocked x call newState nextEpoch newTreeHash commit.commitData
        (s.commitApplied x env commit db)
      (true, settleCommitLocked x call commit newState nextEpoch s)

def handleCommitLocked (wire : Wire) (s : State) : Bool × State :=
  match s.epochTracker.validate env.epoch with
  | .rejectStale => (false, s)
  | .bufferFuture => (false, s.retain env.epoch wire)
  | .process =>
    match env.payload with
    | .commit commit =>
      if (checkAppliedEnvelopeLocked x env wire s).2 then (false, s)
      else processCommitLocked x call env wire commit s
    | _ => (false, s)

def handleCommitDetailedLocked (wire : Wire) (s : State) : ReplayEnvelopeResult × State :=
  let (envelopeHash, alreadyApplied) := checkAppliedEnvelopeLocked x env wire s
  let result := { newReplayResultLocked x env wire s with envelopeHash }
  if alreadyApplied then conclude x result.asDuplicate s
  else
    match s.epochTracker.validate env.epoch with
    | .rejectStale => conclude x result.asStale s
    | .bufferFuture => conclude x result.asFuture (s.retain env.epoch wire)
    | .process =>
      match handleCommitLocked x call env wire s with
      | (true, s) => conclude x result.asApplied s
      | (false, s) =>
        match Storage.hasAppliedEnvelope x.disk s.storage envelopeHash with
        | .error err => conclude x (result.asPersistFailed err) s
        | .ok true => conclude x result.asDuplicate s
        | .ok false => conclude x (result.asFailed .invalid "commit replay did not apply") s

end

-- -------- Issuing a commit

/-- A commit the local node is about to issue: what it was elected for, the refs the
engine must cover, and what the commit carries. -/
structure CommitPlan where
  path : IssuePath
  electedFor : List BufferedProposal
  expectedRefs : List Bytes
  included : List ProposalMsg
  /-- The deliveries of the additions, given the welcome. -/
  deliveries : Bytes → List AddCommitDelivery

structure IssueResult where
  commit : CreateCommitResult
  drained : List BufferedProposal
  prevEpoch : Nat

variable (plan : CommitPlan)

/-- The message for a created commit. An engine that reports no refs covered the
expected ones. -/
def CommitPlan.message (result : CreateCommitResult) : CommitMsg where
  commitData := result.commitBytes
  newTreeHash := result.newTreeHash
  addDeliveries := plan.deliveries result.welcomeBytes
  includedProposals := plan.included
  committedProposalRefs :=
    if result.committedProposalRefs = [] then plan.expectedRefs else result.committedProposalRefs

def commitEnvelope (commit : CommitMsg) (ts : HLCTimestamp) (s : State) : Envelope where
  type := .commit
  groupID := x.groupID
  epoch := s.epoch
  «from» := x.peers.toString x.localID
  timestamp := ts
  payload := .commit commit

def State.commitIssued (msg : CommitMsg) (env : Envelope) (s : State) : State :=
  { s with
    issuedCommits := s.issuedCommits ++ [{
      path := plan.path, env, commit := msg, electedFor := plan.electedFor,
      electorate := s.electorate x, singleWriter := s.singleWriter }]
    singleWriter := (s.singleWriter.drainBatchByRefs msg.committedProposalRefs).1 }

def finishIssueLocked (result : CreateCommitResult) (env : Envelope) (s : State) :
    List BufferedProposal × State :=
  let msg := plan.message result
  let nextEpoch := s.epoch + 1
  let drained := (s.singleWriter.drainBatchByRefs msg.committedProposalRefs).2
  let s := publishPreparedEnvelopeLocked .commit env.marshal (s.commitIssued x plan msg env)
  let s := advanceEpochLocked x call result.newGroupState nextEpoch result.newTreeHash
    result.commitBytes s
  let s := reconcileOperationsAfterCommitLocked x msg s
  let s := reconcileAndRebaseOperationsLocked x call s
  (drained, updateLocalAccessRevocationLocked x result.newGroupState nextEpoch s)

def issueCommitLocked (s : State) : Except String IssueResult × State :=
  match x.engine.createCommit s.groupState plan.expectedRefs with
  | .error err => (.error ("CreateCommit: " ++ err), s)
  | .ok result =>
    let (s, ts) := s.stamp x
    let env := commitEnvelope x (plan.message result) ts s
    match Storage.applyCommit x.disk s.storage
        (nextEpochRecord x result.newGroupState result.newTreeHash s) .commit env.marshal ts
        s.epoch with
    | .error err => (.error ("persist commit: " ++ err), s)
    | .ok (false, _) => (.error "commit envelope already applied", s)
    | .ok (true, db) =>
      let prevEpoch := s.epoch
      let (drained, s) := finishIssueLocked x call plan result env { s with storage := db }
      (.ok { commit := result, drained, prevEpoch }, s)

def batchPlan (batch : List BufferedProposal) : CommitPlan where
  path := .batch
  electedFor := batch
  expectedRefs := batch.map (·.proposalRef)
  included := proposalMsgsFromBatch batch
  deliveries welcome := buildAddDeliveriesFromBatch x batch welcome

def doCommitBatchLocked (batch : List BufferedProposal) (s : State) : State :=
  if s.groupState = [] then s
  else
    match issueCommitLocked x call (batchPlan x batch) s with
    | (.error _, s) => s
    | (.ok issued, s) =>
      let committed := if issued.drained = [] then batch else issued.drained
      let s := s.emit (.commitIssued issued.prevEpoch (issued.prevEpoch + 1) committed)
      if batchContainsType committed .add then
        (buildAddDeliveriesFromBatch x batch issued.commit.welcomeBytes).foldl (fun s d =>
          s.emit (.addCommitted d (issued.prevEpoch + 1) issued.commit.welcomeBytes)) s
      else s

def tryCommitLocked (s : State) : State :=
  let batch := s.singleWriter.snapshotNextBatch x.cfg
  if !s.isTokenHolder x ∨ s.groupState = [] ∨ batch = [] then s
  else if !commitViewReadyLocked x batch s then deferCommitUntilViewReadyLocked s
  else doCommitBatchLocked x call batch s

-- -------- Closing the recursion

def dispatchLocked (raw : Wire) (s : State) : State :=
  match raw.unmarshal with
  | none => s
  | some env =>
    let «from» := decodeEnvelopePeerID x.peers env.from []
    match env.type with
    | .proposal => handleProposalLocked x call «from» env s
    | .commit => (handleCommitLocked x call env raw s).2
    | .application => handleApplicationLocked x «from» env raw s
    | .applicationBatched => handleApplicationBatchedLocked x «from» env raw s
    | _ => s

/-- The coordinator re-entering itself, at most `fuel` deep. A call that finds no fuel
left is not made, and the state says so. -/
def run (x : Ctx) : Nat → Call → State → State
  | 0, _, s => { s with exhausted := true }
  | fuel + 1, .tryCommit, s => tryCommitLocked x (run x fuel) s
  | fuel + 1, .dispatch raw, s => dispatchLocked x (run x fuel) raw s

end GroupCoordination
