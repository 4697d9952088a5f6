import GroupCoordination.Model.Joining
import GroupCoordination.Model.Reference

/-!
# Memberships as a system

Everything that can happen to a node's membership in one group: calls of the user, of peers and of
the coordinator, each a program that runs beside the others; the coordinator's own work; that of one
which was taken out of the map; and a crash, which leaves the tables.
-/

namespace GroupCoordination

inductive JoinCall
  | welcomeDelivery (remote : String) (frame : WelcomeFrame)
  | welcomeStore (ifNewer : Bool) (remote : String) (frame : WelcomeFrame)
  | refreshPendingInvites (answers : List (String × WelcomeFrame))
  | processPendingWelcomesOnStartup (answers : List (String × WelcomeFrame))
  | checkStoredWelcomes (answer : Option (String × WelcomeFrame))
  | checkDHTWelcome (answer : Option (String × WelcomeFrame))
  | joinGroupWithWelcome (welcome : Bytes) (bundle : Option Bytes)
  | acceptInvite (inviteID : String)
  | rejectInvite (inviteID : String)
  | leaveGroup
  | accessLost
  | loadExistingGroup
  | getGroupMembers
  | peerObserved (peerID : String)
  | dispatchWelcome (storePeers : List String) (targetPeerID groupType : String) (welcome : Bytes)
      (anchorEpoch : Nat) (anchorHistoryHash : Bytes)
  | resendPendingWelcome (storePeers : List String) (targetPeerID groupType : String)
  | retryPendingWelcomes (targetPeerID : String)
  | replicatePendingWelcomes (storePeer : String)
  | groupJoinAck (peerID : String)
  | serveStoredWelcome (inviteePeerID : String)

def JoinCall.program (node : Node) : JoinCall → JoinM Unit
  | .welcomeDelivery remote frame => handleWelcomeDelivery node remote frame
  | .welcomeStore ifNewer remote frame => handleWelcomeStore node ifNewer remote frame
  | .refreshPendingInvites answers => GroupCoordination.refreshPendingInvites node answers
  | .processPendingWelcomesOnStartup answers =>
    GroupCoordination.processPendingWelcomesOnStartup node answers
  | .checkStoredWelcomes answer => GroupCoordination.checkStoredWelcomes node answer
  | .checkDHTWelcome answer => GroupCoordination.checkDHTWelcome node answer
  | .joinGroupWithWelcome welcome bundle => joinGroupWithWelcomeCall node welcome bundle
  | .acceptInvite inviteID => do let _ ← GroupCoordination.acceptInvite node inviteID
  | .rejectInvite inviteID => do let _ ← GroupCoordination.rejectInvite node inviteID
  | .leaveGroup => do let _ ← GroupCoordination.leaveGroup node
  | .accessLost => GroupCoordination.accessLost node
  | .loadExistingGroup => GroupCoordination.loadExistingGroup node
  | .getGroupMembers => GroupCoordination.getGroupMembers node
  | .peerObserved peerID =>
    if peerID = node.me then pure () else upsertGroupMemberFromRosterSync node peerID
  | .dispatchWelcome storePeers targetPeerID groupType welcome anchorEpoch anchorHistoryHash =>
    GroupCoordination.dispatchWelcome node storePeers targetPeerID groupType welcome anchorEpoch
      anchorHistoryHash
  | .resendPendingWelcome storePeers targetPeerID groupType =>
    GroupCoordination.resendPendingWelcome node storePeers targetPeerID groupType
  | .retryPendingWelcomes targetPeerID => GroupCoordination.retryPendingWelcomes node targetPeerID
  | .replicatePendingWelcomes storePeer => replicatePendingWelcomesToStorePeer node storePeer
  | .groupJoinAck peerID => ask (.markWelcomeDeliveredFor peerID)
  | .serveStoredWelcome inviteePeerID => GroupCoordination.serveStoredWelcome inviteePeerID

inductive JoinAction
  | call (c : JoinCall)
  | advance (i : Nat) (w : JoinWorld)
  | coordinate (a : Action)
  | late (i : Nat) (a : Action)
  | crash

abbrev JoinPool := Program.Pool Membership JoinOp.Reply

/-- A coordinator works on the tables. The runtime, not the coordinator, sees to its restart. -/
def coordinate (node : Node) (a : Action) (db : MembershipStore) (s : State) :
    Option (MembershipStore × State) :=
  match a.op with
  | .restart _ _ => none
  | _ => (step node a { s with storage := db.storage }).map fun s' => (db.written s'.storage, s')

def membershipStep (node : Node) : JoinAction → JoinPool → Option JoinPool
  | .call c, p => some (p.spawn (c.program node))
  | .advance i w, p => p.advance (joinMachine node) w i
  | .coordinate a, p => do
    let s ← p.state.coord
    let (db, s) ← coordinate node a p.state.db s
    return { p with state := { p.state with db, coord := some s } }
  | .late i a, p => do
    let s ← p.state.stopped[i]?
    let (db, s) ← coordinate node a p.state.db s
    return { p with state := { p.state with db, stopped := p.state.stopped.set i s } }
  | .crash, p => some { state := { p.state with coord := none, stopped := [], locked := false } }

-- -------- Steps

/-- A coordinator's step changes the coordinator's tables, and the lifecycle with them. -/
theorem coordinate_eq (h : coordinate node a db s = some (db', s')) :
    step node a { s with storage := db.storage } = some s' ∧ db' = db.written s'.storage := by
  unfold coordinate at h
  split at h
  · cases h
  obtain ⟨t, hstep, ht⟩ := Option.map_eq_some_iff.mp h
  cases ht
  exact ⟨hstep, rfl⟩

inductive MembershipStep (node : Node) (p : JoinPool) : JoinAction → JoinPool → Prop
  | call (c : JoinCall) : MembershipStep node p (.call c) (p.spawn (c.program node))
  | advance (h : p.advance (joinMachine node) w i = some p') :
      MembershipStep node p (.advance i w) p'
  | coordinate (s s' : State) (hcoord : p.state.coord = some s)
      (hstep : step node a { s with storage := p.state.db.storage } = some s') :
      MembershipStep node p (.coordinate a)
        { p with state := { p.state with db := p.state.db.written s'.storage, coord := some s' } }
  | late (s s' : State) (hcoord : p.state.stopped[i]? = some s)
      (hstep : step node a { s with storage := p.state.db.storage } = some s') :
      MembershipStep node p (.late i a)
        { p with state := { p.state with
          db := p.state.db.written s'.storage, stopped := p.state.stopped.set i s' } }
  | crash :
      MembershipStep node p .crash
        { state := { p.state with coord := none, stopped := [], locked := false } }

theorem membershipStep_cases (h : membershipStep node e p = some p') :
    MembershipStep node p e p' := by
  cases e with
  | call c =>
    cases h
    exact .call c
  | advance i w => exact .advance h
  | coordinate a =>
    obtain ⟨s, hcoord, h⟩ := Option.bind_eq_some_iff.mp h
    obtain ⟨⟨db, s'⟩, hrun, h⟩ := Option.bind_eq_some_iff.mp h
    cases h
    obtain ⟨hstep, rfl⟩ := coordinate_eq hrun
    exact .coordinate s s' hcoord hstep
  | late i a =>
    obtain ⟨s, hcoord, h⟩ := Option.bind_eq_some_iff.mp h
    obtain ⟨⟨db, s'⟩, hrun, h⟩ := Option.bind_eq_some_iff.mp h
    cases h
    obtain ⟨hstep, rfl⟩ := coordinate_eq hrun
    exact .late s s' hcoord hstep
  | crash =>
    cases h
    exact .crash

-- -------- The reference world

def Reference.joinWorld : JoinWorld where
  toWorld := Reference.world
  dbWorks := true
  pick := 0
  sessionActive := true
  ready := .ok ()
  kpBundle := .ok [6]
  mlsIdentity := .ok ()
  subscribe := .ok ()
  initialActiveView := []
  listMemberIdentities _ := .ok []
  peerIDByPublicKey _ := .error "unknown"
  roleRecord _ := none
  unacknowledged _ := false
  awaited _ := false

def Reference.leftAt (e : Byte) : Membership where
  db :=
    { storage := { group := some { groupState := [1, e], epoch := e, treeHash := [e] } }
      lifecycle := .left }

end GroupCoordination
