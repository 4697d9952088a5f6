import GroupCoordination.Model.System

/-!
# Dispatching a Welcome

The part of the runtime that sends a Welcome: `makeAddCommittedHandler` of `group.go`, which runs on
a goroutine of its own after the commit, and the end of `InvitePeerToGroup` of `invite.go`. Both
read the anchor from the coordinator in two calls that take its lock one after the other, so
anything may happen to the coordinator before each of them.

Bookkeeping of add operations, audit events and the transport of the Welcome are left out.
-/

namespace GroupCoordination

inductive DispatchPhase
  | called
  | epochRead (anchorEpoch : Nat)
  deriving DecidableEq

structure WelcomeTask where
  delivery : AddCommitDelivery
  commitEpoch : Nat
  welcome : Bytes
  phase : DispatchPhase := .called
  deriving DecidableEq

structure PendingWelcome where
  targetPeerID : PeerID
  welcome : Bytes
  anchorEpoch : Nat
  anchorHistoryHash : Option Bytes
  commitEpoch : Nat
  deriving DecidableEq

structure Runtime where
  coord : State
  tasks : List WelcomeTask := []
  dispatched : List PendingWelcome := []

/-- The callback of the node that ran `CreateCommit`; an observer's carries no Welcome. -/
def addCommittedTask : Callback → Option WelcomeTask
  | .addCommitted delivery commitEpoch welcome =>
    if trimSpace delivery.operationID = "" ∨ welcome = [] then none
    else some { delivery, commitEpoch, welcome }
  | _ => none

def inviteTask (x : Ctx) (call : Call → State → State) (op : Op) (s : State) : Option WelcomeTask :=
  match op with
  | .addMember req =>
    match (addMember x call req s).1 with
    | .ok result =>
      if result.deferred ∨ result.welcome = [] then none
      else some {
        delivery := result.delivery
        commitEpoch := result.commitEpoch
        welcome := result.welcome }
    | .error _ => none
  | _ => none

def dispatchTokenHolderWelcome (node : Node) (task : WelcomeTask) (anchorEpoch : Nat)
    (anchorHistoryHash : Option Bytes) : Option PendingWelcome :=
  let target := trimSpace task.delivery.targetPeerID
  if target = "" then none
  else
    (node.peers.decode target).map fun targetPeerID =>
      { targetPeerID, welcome := task.welcome, anchorEpoch, anchorHistoryHash,
        commitEpoch := task.commitEpoch }

inductive RuntimeOp
  | coord (a : Action)
  | currentEpoch (task : Nat)
  | getHistoryHash (task : Nat)
  | unregistered (task : Nat)

def newTasks (node : Node) (a : Action) (s s' : State) : List WelcomeTask :=
  (s'.callbacks.drop s.callbacks.length).filterMap addCommittedTask ++
    (inviteTask (a.ctx node) (run (a.ctx node) a.fuel) a.op (s.arrive a.op)).toList

def Runtime.finish (node : Node) (i : Nat) (task : WelcomeTask) (anchorEpoch : Nat)
    (anchorHistoryHash : Option Bytes) (s : Runtime) : Runtime :=
  { s with
    tasks := s.tasks.eraseIdx i
    dispatched := s.dispatched ++
      (dispatchTokenHolderWelcome node task anchorEpoch anchorHistoryHash).toList }

/-- One event. A coordinator that is no longer registered leaves the anchor empty, and a new process
knows nothing of the goroutines of the old one. -/
def Runtime.step (node : Node) (op : RuntimeOp) (s : Runtime) : Option Runtime :=
  match op with
  | .coord a =>
    (GroupCoordination.step node a s.coord).map fun coord =>
      match a.op with
      | .restart .. => { s with coord, tasks := [] }
      | _ => { s with coord, tasks := s.tasks ++ newTasks node a s.coord coord }
  | .currentEpoch i =>
    match s.tasks[i]? with
    | some task =>
      if task.phase = .called then
        some { s with tasks := s.tasks.set i { task with phase := .epochRead s.coord.epoch } }
      else none
    | none => none
  | .getHistoryHash i =>
    match s.tasks[i]? with
    | some task =>
      match task.phase with
      | .called => none
      | .epochRead anchorEpoch => some (s.finish node i task anchorEpoch s.coord.historyHash)
    | none => none
  | .unregistered i =>
    match s.tasks[i]? with
    | some task => if task.phase = .called then some (s.finish node i task 0 none) else none
    | none => none

end GroupCoordination
