import GroupCoordination.Model.Commit

/-!
# Adding and removing members

`coordinator_members.go`. Both operations are recorded before anything is proposed.
On the token holder they commit their own proposal at once; elsewhere they broadcast
it and leave the commit to the holder. `AddMember` asks who holds the token after its
proposal is buffered, `RemoveMemberWithPeer` before.
-/

namespace GroupCoordination

structure AddMemberRequest where
  targetPeerID : PeerID
  keyPackageBytes : Bytes
  operationID : String := ""
  requestID : String := ""
  groupType : String := ""
  categoryID : String := ""
  keyPackageHash : Bytes := []
  deriving DecidableEq

structure AddMemberResult where
  operationID : String := ""
  welcome : Bytes := []
  commitEpoch : Nat := 0
  deferred : Bool := false
  delivery : AddCommitDelivery := {}
  deriving DecidableEq

structure RemoveMemberRequest where
  targetPeerID : PeerID := []
  targetIdentity : Bytes
  operationID : String := ""
  deriving DecidableEq

def PendingOperation.answers (op : PendingOperation) : Option AddMemberResult :=
  if op.isReached then
    some { operationID := op.operationID, commitEpoch := op.preconditionEpoch.getD 0 }
  else if op.status = .proposed then some { operationID := op.operationID, deferred := true }
  else none

variable (x : Ctx) (call : Call → State → State) (req : AddMemberRequest) (opID : String)

def repeatedRequest (operationID key : String) (s : State) : Option AddMemberResult :=
  let byID :=
    if operationID = "" then none
    else (Storage.getPendingOperation x.disk s.storage operationID).toOption.bind (·.answers)
  byID.or ((Storage.getPendingOperationByIdempotencyKey x.disk s.storage key).toOption.bind
    (·.answers))

def newOperation (opType : OpType) (operationID key target : String)
    (payload operationHash : Bytes) (s : State) : PendingOperation where
  operationID := if operationID = "" then "op_" ++ x.freshID else operationID
  opType := opType
  idempotencyKey := some key
  operationHash := operationHash
  preconditionEpoch := some s.epoch
  targetMemberID := some target
  semanticPayload := payload
  status := .pending
  createdAt := x.nowSec
  updatedAt := x.nowSec

def guardMutation (s : State) : Except String Unit :=
  if !s.started then .error "coordinator not started"
  else if s.accessRevoked then .error errAccessRevoked
  else .ok ()

def requestPlan (path : IssuePath) (electedFor : List BufferedProposal) (msg : ProposalMsg)
    (deliveries : Bytes → List AddCommitDelivery) : CommitPlan where
  path := path
  electedFor := electedFor
  expectedRefs := [msg.proposalRef]
  included := [msg]
  deliveries := deliveries

-- -------- AddMember

def AddMemberRequest.delivery :
    AddCommitDelivery where
  operationID := opID
  targetPeerID := x.peers.toString req.targetPeerID
  requestID := req.requestID
  groupType := req.groupType
  categoryID := req.categoryID
  keyPackageHash := req.keyPackageHash

def AddMemberRequest.info :
    BufferedProposal where
  operationID := opID
  targetPeerID := x.peers.toString req.targetPeerID
  requestID := req.requestID
  groupType := req.groupType
  categoryID := req.categoryID
  keyPackageHash := req.keyPackageHash

def commitAddLocked (msg : ProposalMsg) (s : State) : Except String AddMemberResult × State :=
  let delivery (welcome : Bytes) :=
    { req.delivery x opID with
      welcomeHash := if welcome = [] then [] else x.hash.sum welcome }
  let electedFor := s.singleWriter.snapshotNextBatch x.cfg
  match issueCommitLocked x call
      (requestPlan .addMember electedFor msg fun welcome => [delivery welcome]) s with
  | (.error err, s) => (.error err, s)
  | (.ok issued, s) =>
    let welcome := issued.commit.welcomeBytes
    let nextEpoch := issued.prevEpoch + 1
    let s := s.emit (.commitIssued issued.prevEpoch nextEpoch
      [{ req.info x opID with type := .add }])
    let s := if welcome = [] then s
      else s.emit (.addCommitted (delivery welcome) nextEpoch welcome)
    (.ok { operationID := opID, welcome, commitEpoch := nextEpoch,
           delivery := delivery welcome }, s)

def concludeAddLocked (msg : ProposalMsg) (buffered : BufferedProposal) (s : State) :
    Except String AddMemberResult × State :=
  let deferred : AddMemberResult :=
    { operationID := opID, deferred := true, delivery := req.delivery x opID }
  if !s.isTokenHolder x then (.ok deferred, broadcastLocked x .proposal (.proposal msg) s)
  else if !commitViewReadyLocked x [buffered] s then
    (.ok deferred, deferCommitUntilViewReadyLocked (broadcastLocked x .proposal (.proposal msg) s))
  else commitAddLocked x call req opID msg s

def addMember (x : Ctx) (call : Call → State → State) (req : AddMemberRequest) (s : State) :
    Except String AddMemberResult × State :=
  let target := x.peers.toString req.targetPeerID
  let key := "add_member_" ++ target
  match guardMutation s with
  | .error err => (.error err, s)
  | .ok () =>
    if req.keyPackageBytes = [] then (.error "AddMember: key package is required", s)
    else
      match repeatedRequest x req.operationID key s with
      | some earlier => (.ok earlier, s)
      | none =>
        let op := newOperation x .addMember req.operationID key target req.keyPackageBytes
          req.keyPackageHash s
        let s := s.saveOperation x op
        match createAndStoreLocalProposalLocked x .add req.keyPackageBytes
            (req.info x op.operationID) s with
        | .error err =>
          (.error ("CreateProposal: " ++ err), s.saveOperation x
            { op with status := .failedPrecondition, lastError := some err })
        | .ok (msg, buffered, s) =>
          let s := scheduleFailoverTimerLocked x (s.bufferProposal x buffered)
          let s := s.saveOperation x
            { op with status := .proposed, latestProposalHash := x.hash.sum msg.data }
          let s := s.emit (.proposalObserved
            { epoch := s.epoch
              actorPeerID := x.peers.toString x.localID
              proposalType := .add
              operationID := op.operationID
              targetPeerID := target
              requestID := req.requestID
              groupType := req.groupType
              categoryID := req.categoryID
              keyPackageHash := req.keyPackageHash })
          concludeAddLocked x call req op.operationID msg buffered s

-- -------- RemoveMember

/-- The synchronous commit of `RemoveMemberWithPeer`. The local node was elected for the
buffer as it was before the removal joined it. -/
def commitRemoveLocked (target opID : String)
    (electedFor : List BufferedProposal) (msg : ProposalMsg) (s : State) :
    Except String Unit × State :=
  match issueCommitLocked x call (requestPlan .removeMember electedFor msg fun _ => []) s with
  | (.error err, s) => (.error err, s)
  | (.ok issued, s) =>
    (.ok (), s.emit (.commitIssued issued.prevEpoch (issued.prevEpoch + 1)
      [{ type := .remove, targetPeerID := target, operationID := opID }]))

def removeAsHolderLocked (req : RemoveMemberRequest)
    (op : PendingOperation) (s : State) : Except String Unit × State :=
  let target := x.peers.toString req.targetPeerID
  let electedFor := s.singleWriter.snapshotNextBatch x.cfg
  match createAndStoreLocalProposalLocked x .remove req.targetIdentity
      { targetPeerID := target, operationID := op.operationID } s with
  | .error err =>
    (.error ("CreateProposal: " ++ err), s.saveOperation x
      { op with status := .failedPrecondition, lastError := some err })
  | .ok (msg, buffered, s) =>
    let s := scheduleFailoverTimerLocked x (s.bufferProposal x buffered)
    let s := s.saveOperation x
      { op with status := .proposed, latestProposalHash := x.hash.sum msg.data }
    if !commitViewReadyLocked x [buffered] s then
      (.ok (), deferCommitUntilViewReadyLocked (broadcastLocked x .proposal (.proposal msg) s))
    else commitRemoveLocked x call target op.operationID electedFor msg s

def removeMemberWithPeer (req : RemoveMemberRequest) (s : State) : Except String Unit × State :=
  let target := x.peers.toString req.targetPeerID
  let key := "remove_member_" ++ target
  match guardMutation s with
  | .error err => (.error err, s)
  | .ok () =>
    if req.targetIdentity = [] then (.error "target identity is required", s)
    else
      match repeatedRequest x req.operationID key s with
      | some _ => (.ok (), s)
      | none =>
        let op := newOperation x .removeMember req.operationID key target req.targetIdentity [] s
        let s := s.saveOperation x op
        if !s.isTokenHolder x then
          let s := s.saveOperation x { op with status := .proposed }
          match proposeLockedWithMetadata x call .remove req.targetIdentity
              { targetPeerID := target, operationID := op.operationID } s with
          | .error err => (.error err, s)
          | .ok s => (.ok (), s)
        else removeAsHolderLocked x call req op s

def removeMember (targetIdentity : Bytes) (s : State) : Except String Unit × State :=
  removeMemberWithPeer x call { targetIdentity } s

end GroupCoordination
