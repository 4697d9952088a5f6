import GroupCoordination.Lib.Fallible
import GroupCoordination.Model.Joining

/-!
# Add operations

The row of one operation in `group_add_operations.go`. `ComputeAddOperationID` hashes the
group, the target and the key package, so every `InvitePeerToGroup` for these three works on
the same row, and each statement names its id, so no other row matters. Left out: the columns
that no transition reads, and the errors of the writes, which every caller only logs.

`handleGroupJoinAckStream` of `invite.go` works over the tables of one group. Its statements work;
the events are left out.
-/

namespace GroupCoordination

inductive AddOpStatus
  | approved | proposalBroadcast | commitObserved | welcomeQueued | welcomeDelivered | failed
  deriving DecidableEq

namespace AddOpStatus

def rank : AddOpStatus → Nat
  | approved => 1
  | proposalBroadcast => 2
  | commitObserved => 3
  | welcomeQueued => 4
  | welcomeDelivered => 5
  | failed => 99

def transition (new old : AddOpStatus) : AddOpStatus :=
  if old.rank < if new = failed then welcomeDelivered.rank else new.rank then new else old

theorem transition_cases (new old : AddOpStatus) :
    transition new old = new ∨ transition new old = old :=
  ite_eq_or_eq _ _ _

theorem rank_le_transition (new old : AddOpStatus) : old.rank ≤ (transition new old).rank := by
  cases new <;> cases old <;> decide

theorem transition_reaches (hnew : new ≠ failed) (hold : old ≠ failed) :
    transition new old ≠ failed ∧ new.rank ≤ (transition new old).rank := by
  cases new <;> cases old <;> simp_all [transition, rank]

end AddOpStatus

/-- How `AddMember` answers an attempt; `already` is an error that says the member is there. An
error may come after the Add was proposed: the holder buffers its proposal before `CreateCommit`
and `ApplyCommit`, and leaves it there when one of them fails. -/
inductive AddOutcome
  | refused (proposed : Bool)
  | already (proposed : Bool)
  | deferred | committed
  deriving DecidableEq

namespace AddOutcome

def mark : AddOutcome → Option AddOpStatus
  | refused _ => some .failed
  | already _ => none
  | deferred => some .proposalBroadcast
  | committed => some .welcomeQueued

/-- How far the attempt's own Add comes. -/
def reaches : AddOutcome → Option AddOpStatus
  | refused false | already false => none
  | refused true | already true | deferred => some .proposalBroadcast
  | committed => some .welcomeQueued

end AddOutcome

inductive AddOpEvent
  /-- `InvitePeerToGroup` from `CreateGroupAddOperation` on, and whether its two writes work. The
  second of a committed Add is made by `dispatchTokenHolderWelcome`. -/
  | invite (outcome : AddOutcome) (createWorks markWorks : Bool)
  /-- `MarkAddCommitObserved`, or `MarkAddWelcomeDelivered` for a join-ack. -/
  | mark (delivered : Bool)

/-- The row, and how far an attempt's Add has come. -/
structure AddOperation where
  row : Option AddOpStatus := none
  reached : Option AddOpStatus := none

namespace AddOperation

def step : AddOpEvent → AddOperation → Option AddOperation
  | .invite outcome createWorks markWorks, s =>
    -- `INSERT OR IGNORE`: a row that is there stays
    let row := if createWorks then some (s.row.getD .approved) else s.row
    some {
      row := match outcome.mark with
        | some new => if markWorks then row.map (.transition new) else row
        | none => row
      reached := match outcome.reaches with
        | some new => some ((s.reached.map (.transition new)).getD new)
        | none => s.reached }
  | .mark delivered, s =>
    some { s with
      row := s.row.map (.transition (if delivered then .welcomeDelivered else .commitObserved)) }

end AddOperation

-- -------- Join acknowledgements

open Fallible (require)

structure GroupAddOperation where
  operationID : String
  targetPeerID : String
  status : AddOpStatus
  deriving DecidableEq

structure GroupJoinAck where
  v : Int
  groupID : String
  peerID : String

def MembershipStore.rosterSync (db : MembershipStore) (node : Node) (w : JoinWorld)
    (peerID : String) : Except String MembershipStore := do
  let peerID := trimSpace peerID
  require (peerID ≠ "") "group_id and peer_id are required"
  require (node.isValidPeerID peerID) "invalid peer_id format"
  let rec ← db.getGroupMember peerID
  return if rec.status = .left then db else db.upsertGroupMember .mergePreservingRole
    { peerID, role := db.resolveGroupMemberRole w peerID, status := .active }

def listGroupAddOperationsForTarget (ops : List GroupAddOperation) (targetPeerID : String) :
    List GroupAddOperation :=
  ops.filter fun op => op.targetPeerID = trimSpace targetPeerID ∧ op.status ≠ .failed ∧
    op.status ≠ .welcomeDelivered

def markAddWelcomeDelivered (ops : List GroupAddOperation) (operationID : String) :
    List GroupAddOperation :=
  ops.map fun op =>
    if op.operationID = operationID then
      { op with status := .transition .welcomeDelivered op.status }
    else op

def completeAdd (node : Node) (w : JoinWorld) (peerID : String) (db : MembershipStore)
    (ops : List GroupAddOperation) : MembershipStore × List GroupAddOperation :=
  match db.rosterSync node w peerID with
  | .error _ => (db, ops)
  | .ok db => (db.setDelivered true (· = peerID),
      ((listGroupAddOperationsForTarget ops peerID).map (·.operationID)).foldl
        markAddWelcomeDelivered ops)

def handleGroupJoinAckStream (node : Node) (w : JoinWorld) (verified : Bool) (remote : PeerID)
    (msg : GroupJoinAck) (db : MembershipStore) (ops : List GroupAddOperation) :
    MembershipStore × List GroupAddOperation :=
  if verified = false then (db, ops)
  else if msg.v ≠ 1 ∨ trimSpace msg.groupID = "" ∨ trimSpace msg.peerID = "" then (db, ops)
  else if node.peers.toString remote ≠ msg.peerID then (db, ops)
  -- `HasGroup`
  else if msg.groupID ≠ node.groupID ∨ db.storage.group = none then (db, ops)
  else completeAdd node w msg.peerID db ops

end GroupCoordination
