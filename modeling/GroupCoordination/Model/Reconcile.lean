import GroupCoordination.Model.Proposal

/-!
# Pending operations after a commit

`coordinator_reconcile.go`. After every commit the stored membership operations
are compared with it: those it carries out are settled, settled ones it undoes are
superseded, and the open ones that remain are proposed again in the new epoch.
-/

namespace GroupCoordination

variable (x : Ctx) (commit : CommitMsg) (op : PendingOperation) (call : Call → State → State)

def State.saveOperation (s : State) : State :=
  match Storage.savePendingOperation x.disk s.storage op with
  | .error _ => s
  | .ok db => { s with storage := db, operationTrace := s.operationTrace ++ [.stored op] }

/-- The status a commit gives an open operation: its own proposal was committed, or
another one to the same end. -/
def CommitMsg.settles : Option OpStatus :=
  match op.opType with
  | .addMember =>
    (commit.addDeliveries.find? fun d =>
        d.operationID = op.operationID ∨ some d.targetPeerID = op.targetMemberID).map fun d =>
      if d.operationID = op.operationID then .committed else .satisfiedByOther
  | .removeMember =>
    (commit.includedProposals.find? fun p =>
        p.proposalType = .remove ∧ some p.targetPeerID = op.targetMemberID).map fun p =>
      if p.operationID = op.operationID then .committed else .satisfiedByOther

def settleOperation (s : State) (op : PendingOperation) : State :=
  if op.isOpen then
    match commit.settles op with
    | some status => s.saveOperation x { op with status, updatedAt := x.nowSec }
    | none => s
  else s

def CommitMsg.adds : List AddCommitDelivery :=
  commit.addDeliveries.filter (·.targetPeerID ≠ "")

def CommitMsg.removes : List ProposalMsg :=
  commit.includedProposals.filter fun p => p.proposalType = .remove ∧ p.targetPeerID ≠ ""

/-- Whether a settled operation is undone by the commit and is not part of it. -/
def CommitMsg.supersedes : Bool :=
  match op.targetMemberID with
  | none => false
  | some target =>
    op.isReached ∧ target ≠ "" ∧
    op.operationID ∉ commit.adds.map (·.operationID) ++ commit.removes.map (·.operationID) ∧
    ((op.opType = .addMember ∧ target ∈ commit.removes.map (·.targetPeerID)) ∨
      (op.opType = .removeMember ∧ target ∈ commit.adds.map (·.targetPeerID)))

def supersedeOperation (s : State) (op : PendingOperation) : State :=
  if commit.supersedes op then
    (s.saveOperation x
      { op with status := .superseded, idempotencyKey := none, updatedAt := x.nowSec }).emit
      (.pendingOperation
        { operationID := op.operationID, opType := op.opType,
          targetPeerID := op.targetMemberID.getD "", stage := "superseded",
          currentEpoch := s.epoch })
  else s

def supersedeStaleMembershipOpsLocked (s : State) : State :=
  if commit.adds = [] ∧ commit.removes = [] then s
  else
    match Storage.listPendingOperations x.disk s.storage with
    | .error _ => s
    | .ok ops => ops.foldl (supersedeOperation x commit) s

def orphanOwnMessage (s : State) (msg : StoredMessage) : State :=
  if msg.epoch + 1 = s.epoch then
    let content := msg.content.getD []
    match x.sealer.sealPayload s.storage.writes content with
    | .error _ => s
    | .ok (payloadSealed, sealNonce) =>
      s.storeOrWarn (Storage.saveApplicationEvent x.disk s.storage
        { eventID := hexEncode msg.envelopeHash
          jobID := "COMMIT-RECONCILE-" ++ x.groupID
          originalEpoch := msg.epoch
          authorID := x.peers.toString x.localID
          envelopeHash := msg.envelopeHash
          payloadSealed
          payloadHash := x.hash.sum content
          sealKeyID := "local_node_key"
          sealNonce
          hlc := msg.timestamp
          status := .orphanedOwn
          createdAtMs := x.nowMs
          updatedAtMs := x.nowMs })
  else s

/-- `reconcileOperationsAfterCommitLocked`. The loop over pending envelopes has an empty
body in the source. -/
def reconcileOperationsAfterCommitLocked (s : State) : State :=
  match Storage.listPendingOperations x.disk s.storage with
  | .error _ => s
  | .ok ops =>
    let s := ops.foldl (settleOperation x commit) s
    let s := supersedeStaleMembershipOpsLocked x commit s
    match Storage.getMessagesByOwnerInRange x.disk s.storage x.localID 0 x.nowMs with
    | .error _ => s
    | .ok msgs => msgs.foldl (orphanOwnMessage x) s

-- -------- Rebase

def PendingOperation.isExpired : Bool :=
  op.expiresAt.any fun t => t > 0 ∧ x.nowSec > t

/-- A removal whose target is no longer in the tree. The check is by MLS identity; an
addition only knows the peer, so it is never settled here. -/
def PendingOperation.isSatisfied (groupState : Bytes) (op : PendingOperation) : Bool :=
  op.targetMemberID.any (· ≠ "") && op.opType = .removeMember && op.semanticPayload ≠ [] &&
    match x.engine.hasMember groupState op.semanticPayload with
    | .ok isMember => !isMember
    | .error _ => false

def rebaseRetryLimit (cfg : CoordinatorConfig) : Int :=
  if cfg.applicationDirectRetryLimit ≤ 0 then 5 else cfg.applicationDirectRetryLimit

def PendingOperation.proposal : ProposalType × BufferedProposal :=
  match op.opType with
  | .addMember =>
    (.add, { operationID := op.operationID, targetPeerID := op.targetMemberID.getD "",
             keyPackageHash := op.operationHash })
  | .removeMember =>
    (.remove, { operationID := op.operationID, targetPeerID := op.targetMemberID.getD "" })

def PendingOperation.audit (stage : String) (currentEpoch : Nat) :
    PendingOperationAuditSummary where
  operationID := op.operationID
  opType := op.opType
  targetPeerID := op.targetMemberID.getD ""
  stage := stage
  retryCount := op.retryCount
  currentEpoch := currentEpoch

/-- The tail of a rebase whose proposal was made: a commit issued meanwhile may have
settled the operation already. -/
def finishRebase (prevEpoch : Nat) (s : State) : State :=
  let reached := match Storage.getPendingOperation x.disk s.storage op.operationID with
    | .ok dbOp => if dbOp.isReached then some dbOp else none
    | .error _ => none
  match reached with
  | some dbOp =>
    s.saveOperation x
      { op with status := dbOp.status, updatedAt := dbOp.updatedAt, lastError := dbOp.lastError }
  | none =>
    (s.saveOperation x { op with lastError := none }).emit
      (.pendingOperation { op.audit "rebased" s.epoch with preconditionEpoch := prevEpoch })

def repropose (op : PendingOperation) (prevEpoch : Nat) (s : State) : State :=
  let op := { op with
    retryCount := op.retryCount + 1, preconditionEpoch := some s.epoch, updatedAt := x.nowSec }
  let (pType, info) := op.proposal
  match createAndStoreLocalProposalLocked x pType op.semanticPayload info s with
  | .error err =>
    (s.saveOperation x { op with lastError := some err }).emit (.pendingOperation
      { op.audit "rebase_failed" s.epoch with preconditionEpoch := prevEpoch, lastError := err })
  | .ok (msg, buffered, s) =>
    let s := (broadcastLocked x .proposal (.proposal msg) s).bufferProposal x buffered
    let s := commitOrWaitLocked x call s
    finishRebase x
      { op with latestProposalHash := x.hash.sum msg.data, status := .proposed } prevEpoch s

def rebaseOperation (s : State) (op : PendingOperation) : State :=
  if !op.isOpen then s
  else if op.isExpired x then
    s.saveOperation x { op with
      status := .failedExpired, lastError := some "operation TTL expired", updatedAt := x.nowSec }
  else if op.isSatisfied x s.groupState then
    s.saveOperation x { op with status := .satisfiedByOther, updatedAt := x.nowSec }
  else
    match op.preconditionEpoch with
    | none => s
    | some prevEpoch =>
      if prevEpoch ≥ s.epoch then s
      else if op.retryCount ≥ rebaseRetryLimit x.cfg then
        (s.saveOperation x { op with
          status := .failedRetryExhausted, lastError := some "max retries exceeded",
          updatedAt := x.nowSec }).emit (.pendingOperation
            { op.audit "retry_exhausted" s.epoch with lastError := "max retries exceeded" })
      else repropose x call op prevEpoch s

/-- The operations are listed once; a commit made on the way does not change the list. -/
def reconcileAndRebaseOperationsLocked (s : State) : State :=
  match Storage.listPendingOperations x.disk s.storage with
  | .error _ => s
  | .ok ops =>
    let s := ops.foldl (rebaseOperation x call) s
    if s.isTokenHolder x then scheduleBatchCommitLocked x call s else s

end GroupCoordination
