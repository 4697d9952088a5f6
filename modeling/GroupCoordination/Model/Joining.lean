import GroupCoordination.Lib.Program
import GroupCoordination.Model.InviteStore

/-!
# Joining and leaving a group

The runtime's side of a membership in one group: `invite.go`, `invite_lifecycle.go`,
`blind_store.go`, and the parts of `group.go`, `membership.go` and `group_member_directory.go` that
join a group, leave it and keep its roster. A call is a program that takes one statement, or one
call of the coordinator or the engine, at a time, and any number of calls run side by side. Only
`joinGroupWithWelcome` and the start of the process hold the runtime's lock over several statements;
the other calls take it to look at the coordinators, and wait while it is held.

Left out: events, notifications, key-package refreshes, acknowledgements of a join, categories, and
the network, which may deliver a frame any number of times or never.
-/

namespace GroupCoordination

-- -------- Operations

/-- A Welcome on the network: a direct delivery, a request to a store peer, an object of the blind
store, or the answer of a store peer. -/
structure WelcomeFrame where
  inviteePeerID : String
  groupType : String
  welcome : Bytes
  sourcePeerID : String
  anchorEpoch : Nat
  anchorHistoryHash : Bytes
  publishedAt : Int
  deriving DecidableEq

structure JoinWorld extends World where
  dbWorks : Bool
  /-- Which of the rows of the same time a query returns. -/
  pick : Nat
  sessionActive : Bool
  ready : Except String Unit
  kpBundle : Except String Bytes
  mlsIdentity : Except String Unit
  subscribe : Except String Unit
  initialActiveView : List PeerID
  listMemberIdentities : Bytes → Except String (List Bytes)
  /-- `GetPeerIDByPublicKeyHex`, with the counterparty of a DM for a key that is not known. -/
  peerIDByPublicKey : Bytes → Except String String
  roleRecord : String → Option GroupMemberRole
  /-- Targets of add operations that are neither delivered nor failed. -/
  unacknowledged : String → Bool
  /-- Targets of undelivered Welcomes of other groups. -/
  awaited : String → Bool

inductive JoinOp
  | ensureSessionActive
  | lock
  | unlock
  | coordinatorExists (holding : Bool)
  | takeCoordinator
  | stopCoordinators
  | runtimeReady
  | getKPBundle
  | getMLSIdentity
  | hasGroup
  | isGroupActive
  | markGroupLeft
  | purgeGroupMetadata
  | getGroupRecord
  | getGroupCreatorPeerID
  | setGroupCreatorPeerID (creatorPeerID : String)
  | getGroupMember (peerID : String)
  | listActiveMembers
  | resolveGroupMemberRole (peerID : String)
  | upsertGroupMember (preservingRole : Bool) (rec : GroupMemberRecord)
  | markGroupMemberLeft (peerID : String)
  | getStoredWelcome (inviteePeerID : String)
  | saveStoredWelcome (ifNewer : Bool) (row : StoredWelcome)
  | deleteStoredWelcome (inviteePeerID : String)
  | savePendingWelcome (row : OutgoingWelcome)
  | getPendingWelcomes (targetPeerID : Option String)
  | awaitsOtherWelcome (targetPeerID : String)
  | getAnyPendingWelcome (targetPeerID : String)
  | reopenUnacknowledged
  | markWelcomeDeliveredFor (targetPeerID : String)
  | getPendingInvite (id : String)
  | getLatestPendingInvite
  | listPendingInvites
  | savePendingInvite (inv : PendingInvite)
  | markPendingInvite (id : String) (status : PendingInviteStatus)
  | reopenRejectedInvite (inv : PendingInvite)
  | markWelcomeApplied (welcome : Bytes)
  | processWelcome (welcome bundle : Bytes)
  | saveGroupRecord (groupState treeHash : Bytes) (epoch : Nat) (groupType : String)
  | getCoordState
  | newCoordinator (anchor : Option (Nat × Bytes))
  /-- `Start` and the registration, for a group that is joined by a Welcome or restored. -/
  | startCoordinator (welcome : Option Bytes) (boot : Boot)
  | listMemberIdentities (groupState : Bytes)
  | getPeerIDByPublicKey (identity : Bytes)
  | getKnownGroupMembers
  | send (frame : WelcomeFrame)

@[reducible] def JoinOp.Reply : JoinOp → Type
  | .ensureSessionActive => Bool
  | .lock => Unit
  | .unlock => Unit
  | .coordinatorExists _ => Bool
  | .takeCoordinator => Bool
  | .stopCoordinators => Unit
  | .runtimeReady => Except String Unit
  | .getKPBundle => Except String Bytes
  | .getMLSIdentity => Except String Unit
  | .hasGroup => Except String Bool
  | .isGroupActive => Except String Bool
  | .markGroupLeft => Except String Unit
  | .purgeGroupMetadata => Except String Unit
  | .getGroupRecord => Except String GroupRecord
  | .getGroupCreatorPeerID => Except String String
  | .setGroupCreatorPeerID _ => Unit
  | .getGroupMember _ => Except String GroupMemberRecord
  | .listActiveMembers => Except String (List GroupMemberRecord)
  | .resolveGroupMemberRole _ => GroupMemberRole
  | .upsertGroupMember _ _ => Unit
  | .markGroupMemberLeft _ => Unit
  | .getStoredWelcome _ => Except String StoredWelcome
  | .saveStoredWelcome _ _ => Unit
  | .deleteStoredWelcome _ => Unit
  | .savePendingWelcome _ => Unit
  | .getPendingWelcomes _ => Except String (List OutgoingWelcome)
  | .awaitsOtherWelcome _ => Bool
  | .getAnyPendingWelcome _ => Except String Bytes
  | .reopenUnacknowledged => Unit
  | .markWelcomeDeliveredFor _ => Unit
  | .getPendingInvite _ => Except String PendingInvite
  | .getLatestPendingInvite => Except String PendingInvite
  | .listPendingInvites => Except String (List PendingInvite)
  | .savePendingInvite _ => Except String Unit
  | .markPendingInvite _ _ => Except String Unit
  | .reopenRejectedInvite _ => Except String Unit
  | .markWelcomeApplied _ => Unit
  | .processWelcome _ _ => Except String (Bytes × Bytes × Nat)
  | .saveGroupRecord _ _ _ _ => Except String Unit
  | .getCoordState => Except String CoordState
  | .newCoordinator _ => Boot
  | .startCoordinator _ _ => Except String Unit
  | .listMemberIdentities _ => Except String (List Bytes)
  | .getPeerIDByPublicKey _ => Except String String
  | .getKnownGroupMembers => Except String (List String)
  | .send _ => Unit

-- -------- The machine

structure JoinRecord where
  welcome : Bytes
  epoch : Nat
  historyHash : Option Bytes
  deriving DecidableEq

/-- A membership: the tables, the coordinator in the runtime's map, those that were taken out of it
and may still be at work, and a record of the joins and of the frames that were sent. -/
structure Membership where
  db : MembershipStore := {}
  coord : Option State := none
  stopped : List State := []
  locked : Bool := false
  joins : List JoinRecord := []
  sent : List WelcomeFrame := []

def Membership.withDB (m : Membership) (db : MembershipStore) : Membership := { m with db }

def Membership.write (m : Membership) (w : JoinWorld) (db : MembershipStore) : Unit × Membership :=
  ((), if w.dbWorks then m.withDB db else m)

def Membership.tryWrite (m : Membership) (w : JoinWorld) (db : Except String MembershipStore) :
    Except String Unit × Membership :=
  if w.dbWorks then
    match db with
    | .ok db => (.ok (), m.withDB db)
    | .error err => (.error err, m)
  else (.error "database", m)

def Membership.query (m : Membership) (w : JoinWorld) (rows : Except String α) :
    Except String α × Membership :=
  (if w.dbWorks then rows else .error "database", m)

def Membership.tryStore (m : Membership) (storage : Except String Storage) :
    Except String Unit × Membership :=
  match storage with
  | .ok storage => (.ok (), m.withDB (m.db.written storage))
  | .error err => (.error err, m)

def MembershipStore.resolveGroupMemberRole (db : MembershipStore) (w : JoinWorld)
    (peerID : String) : GroupMemberRole :=
  if db.storage.group.isSome ∧ db.groupCreatorPeerID ≠ "" ∧
      trimSpace db.groupCreatorPeerID = peerID then .creator
  else (w.roleRecord peerID).getD .member

def bootCoordinator (x : Ctx) (view : List PeerID) (anchor : Option (Nat × Bytes))
    (storage : Storage) : Boot :=
  match anchor with
  | some (epoch, hash) => seedHistoryAnchor x epoch (some hash) (newCoordinator x view storage)
  | none => newCoordinator x view storage

/-- What the operations reply and do. Those that take the runtime's lock wait while it is held. -/
def joinMachine (node : Node) : Program.Machine JoinWorld Membership JoinOp.Reply :=
  fun w op m =>
  let x : Ctx := { node, w.toWorld with }
  match op with
  | .ensureSessionActive => some (w.sessionActive, m)
  | .lock => if m.locked then none else some ((), { m with locked := true })
  | .unlock => some ((), { m with locked := false })
  | .coordinatorExists holding =>
    if m.locked ∧ holding = false then none else some (m.coord.isSome, m)
  | .takeCoordinator =>
    if m.locked then none
    else some (m.coord.isSome, { m with coord := none, stopped := m.stopped ++ m.coord.toList })
  | .stopCoordinators => some ((), { m with stopped := m.stopped.map stop })
  | .runtimeReady => some (w.ready, m)
  | .getKPBundle => some (w.kpBundle, m)
  | .getMLSIdentity => some (w.mlsIdentity, m)
  | .hasGroup => some (m.query w (.ok m.db.storage.group.isSome))
  | .isGroupActive => some (m.query w m.db.isGroupActive)
  | .markGroupLeft =>
    some (m.tryWrite w (if m.db.storage.group.isSome then .ok m.db.markGroupLeft
      else .error errNoRows))
  | .purgeGroupMetadata => some (m.tryWrite w (.ok m.db.purgeGroupMetadata))
  | .getGroupRecord => some (Storage.getGroupRecord x.disk m.db.storage, m)
  | .getGroupCreatorPeerID =>
    some (m.query w (if m.db.storage.group.isSome then .ok (trimSpace m.db.groupCreatorPeerID)
      else .error errNoRows))
  | .setGroupCreatorPeerID creatorPeerID =>
    some (m.write w (m.db.setGroupCreatorPeerID creatorPeerID))
  | .getGroupMember peerID => some (m.query w (m.db.getGroupMember peerID))
  | .listActiveMembers => some (m.query w (.ok (m.db.members.filter (·.status = .active))))
  | .resolveGroupMemberRole peerID => some (m.db.resolveGroupMemberRole w peerID, m)
  | .upsertGroupMember preservingRole rec =>
    some (m.write w (m.db.upsertGroupMember
      (if preservingRole then GroupMemberRecord.mergePreservingRole
        else GroupMemberRecord.merge) rec))
  | .markGroupMemberLeft peerID => some (m.write w (m.db.markGroupMemberLeft peerID))
  | .getStoredWelcome inviteePeerID => some (m.query w (m.db.getStoredWelcome inviteePeerID))
  | .saveStoredWelcome ifNewer row =>
    let row := if ifNewer then row else { row with createdAt := x.nowSec }
    some (m.write w (m.db.saveStoredWelcome
      (if ifNewer then StoredWelcome.mergeIfNewer else StoredWelcome.merge) row))
  | .deleteStoredWelcome inviteePeerID => some (m.write w (m.db.deleteStoredWelcome inviteePeerID))
  | .savePendingWelcome row => some (m.write w (m.db.savePendingWelcome row))
  | .getPendingWelcomes targetPeerID =>
    some (m.query w (.ok (m.db.pendingWelcomesOut.filter fun row =>
      row.delivered = false ∧ (targetPeerID.all (· = row.targetPeerID)))))
  | .awaitsOtherWelcome targetPeerID => some (w.awaited targetPeerID, m)
  | .getAnyPendingWelcome targetPeerID =>
    some (m.query w (match m.db.pendingWelcomesOut.find? (·.targetPeerID = targetPeerID) with
      | some row => if row.welcomeBytes = [] then .error errNoRows else .ok row.welcomeBytes
      | none => .error errNoRows))
  | .reopenUnacknowledged => some (m.write w (m.db.setDelivered false w.unacknowledged))
  | .markWelcomeDeliveredFor targetPeerID =>
    some (m.write w (m.db.setDelivered true (· = targetPeerID)))
  | .getPendingInvite id => some (m.query w (m.db.getPendingInvite id))
  | .getLatestPendingInvite => some (m.query w (m.db.getLatestPendingInvite w.pick))
  | .listPendingInvites => some (m.query w (.ok m.db.listPendingInvites))
  | .savePendingInvite inv =>
    some (m.tryWrite w (m.db.savePendingInvite
      { inv with receivedAt := x.nowSec, updatedAt := x.nowSec }))
  | .markPendingInvite id status =>
    some (m.tryWrite w (m.db.markPendingInviteStatus x.nowSec id status))
  | .reopenRejectedInvite inv => some (m.tryWrite w (m.db.reopenRejectedInvite x.nowSec inv))
  | .markWelcomeApplied welcome =>
    some (m.write w (m.db.markWelcomeApplied welcome))
  | .processWelcome welcome bundle =>
    some (w.engine.processWelcome welcome node.signingKey bundle node.cfg.getMaxPastEpochs, m)
  | .saveGroupRecord groupState treeHash epoch groupType =>
    some (m.tryStore (Storage.saveGroupRecord x.disk m.db.storage
      { groupState, treeHash, epoch, groupType, myRole := some .member, createdAt := x.now,
        updatedAt := x.now }))
  | .getCoordState => some (Storage.getCoordState x.disk m.db.storage, m)
  | .newCoordinator anchor =>
    let boot := bootCoordinator x w.initialActiveView anchor m.db.storage
    -- the tables stay where they are
    some ({ boot with storage := {} }, m.withDB (m.db.written boot.storage))
  | .startCoordinator welcome boot =>
    match start x { boot with storage := m.db.storage }, w.subscribe with
    | .ok s, .ok () =>
      some (.ok (), { m with
        coord := some s
        joins := m.joins ++ (welcome.map fun welcome =>
          { welcome, epoch := s.epoch, historyHash := s.historyHash }).toList })
    | .error err, _ => some (.error ("start coordinator: " ++ err), m)
    | _, .error err => some (.error ("start coordinator: subscribe: " ++ err), m)
  | .listMemberIdentities groupState => some (w.listMemberIdentities groupState, m)
  | .getPeerIDByPublicKey identity => some (w.peerIDByPublicKey identity, m)
  | .getKnownGroupMembers =>
    some (m.query w
      (.ok ((m.db.storage.messages.map fun msg => node.peers.toString msg.senderID).dedup)))
  | .send frame =>
    some ((), { m with sent := m.sent ++ [{ frame with publishedAt := x.disk.nowMs }] })

-- -------- The roster

abbrev JoinM := Program JoinOp.Reply

open Program (forEach)

def ask (op : JoinOp) : JoinM op.Reply := Program.perform op

variable (node : Node) (storePeers : List String) (answer : Option (String × WelcomeFrame))
  (answers : List (String × WelcomeFrame))

def Node.me : String := node.peers.toString node.localID

def Node.isValidPeerID (peerID : String) : Bool :=
  trimSpace peerID ≠ "" ∧ (node.peers.decode peerID).isSome

/-- `upsertGroupMemberFromRosterEvidence`. A peer without a row is an error unless the roster of the
engine brings it. -/
def upsertGroupMemberFromRosterEvidence (peerID : String) (reactivateLeft : Bool) : JoinM Unit := do
  if node.isValidPeerID peerID = false then return
  if reactivateLeft = false then
    match ← ask (.getGroupMember peerID) with
    | .error _ => return
    | .ok rec => if rec.status = .left then return
  let role ← ask (.resolveGroupMemberRole peerID)
  ask (.upsertGroupMember true { peerID, role, status := .active })

def upsertGroupMemberFromRosterSync (peerID : String) : JoinM Unit :=
  upsertGroupMemberFromRosterEvidence node peerID false

def upsertGroupMemberFromMLSReconcile (peerID : String) : JoinM Unit :=
  upsertGroupMemberFromRosterEvidence node peerID true

def reconcileLeaves (node : Node) : List Bytes → JoinM (List String × Bool)
  | [] => return ([], true)
  | identity :: rest => do
    if identity = [] then reconcileLeaves node rest
    else if identity = node.localIdentity then
      if node.me ≠ "" then upsertGroupMemberFromMLSReconcile node node.me
      let (peers, resolved) ← reconcileLeaves node rest
      return (node.me :: peers, resolved)
    else
      match ← ask (.getPeerIDByPublicKey identity) with
      | .error _ =>
        let (peers, _) ← reconcileLeaves node rest
        return (peers, false)
      | .ok peerID =>
        if peerID = "" then
          let (peers, _) ← reconcileLeaves node rest
          return (peers, false)
        else
          upsertGroupMemberFromMLSReconcile node peerID
          let (peers, resolved) ← reconcileLeaves node rest
          return (peerID :: peers, resolved)

def reconcileGroupRosterWithMLS : JoinM Unit := do
  match ← ask .getGroupRecord with
  | .error _ => return
  | .ok rec =>
    match ← ask (.listMemberIdentities rec.groupState) with
    | .error _ => return
    | .ok identities =>
      if identities = [] then return
      let (currentPeers, resolved) ← reconcileLeaves node identities
      if resolved then
        match ← ask .listActiveMembers with
        | .error _ => return
        | .ok rows =>
          forEach (fun row : GroupMemberRecord =>
            if row.peerID ∈ currentPeers then pure ()
            else ask (.markGroupMemberLeft row.peerID)) rows

def ensureGroupRosterBackfilled : JoinM Unit := do
  upsertGroupMemberFromRosterSync node node.me
  match ← ask .getKnownGroupMembers with
  | .error _ => pure ()
  | .ok known =>
    forEach (fun peerID =>
      if node.isValidPeerID peerID then upsertGroupMemberFromRosterSync node peerID
        else pure ()) known
  reconcileGroupRosterWithMLS node

def getGroupMembers : JoinM Unit := do
  match ← ask .hasGroup with
  | .ok true => ensureGroupRosterBackfilled node
  | _ => return

-- -------- Joining

section

variable (groupType : String) (welcome : Bytes) (sourcePeerID : String) (inviterPeerID : String)
  (anchorEpoch : Nat) (anchorHistoryHash : Bytes)

def normalizeGroupTypeRuntime : Option String :=
  let normalized := trimSpace (toLower groupType)
  if normalized = "" then some "channel"
  else if normalized = "channel" ∨ normalized = "dm" ∨ normalized = "group" then some normalized
  else none

def resolveInviter : JoinM String := do
  if trimSpace inviterPeerID ≠ "" then return trimSpace inviterPeerID
  match ← ask (.getStoredWelcome node.me) with
  | .ok row => return row.sourcePeerID
  | .error _ => return ""

def recordInviter : JoinM Unit := do
  let inviter ← resolveInviter node inviterPeerID
  if inviter ≠ "" then ask (.setGroupCreatorPeerID inviter)

def usableAnchor : Option (Nat × Bytes) :=
  if anchorEpoch > 0 ∧ anchorHistoryHash ≠ [] then some (anchorEpoch, anchorHistoryHash) else none

def launchCoordinator (welcome : Option Bytes) (anchor : Option (Nat × Bytes)) :
    JoinM (Except String Unit) := do
  let boot ← ask (.newCoordinator anchor)
  ask (.startCoordinator welcome boot)

def startJoined (anchor : Option (Nat × Bytes)) : JoinM (Except String Unit) := do
  ask (.upsertGroupMember false { peerID := node.me, role := .member, status := .active })
  match ← launchCoordinator (some welcome) anchor with
  | .error err => return .error err
  | .ok () =>
  ask (.upsertGroupMember false { peerID := node.me, role := .member, status := .active })
  return .ok ()

def joinGroupLocked (welcome bundle : Bytes) (groupType inviterPeerID : String)
    (anchorEpoch : Nat) (anchorHistoryHash : Bytes) : JoinM (Except String Unit) := do
  match ← ask .runtimeReady with
  | .error err => return .error err
  | .ok () =>
  if ← ask (.coordinatorExists true) then return .error "already in group"
  match ← ask .getMLSIdentity with
  | .error err => return .error ("get MLS identity: " ++ err)
  | .ok () =>
  match ← ask (.processWelcome welcome bundle) with
  | .error err => return .error err
  | .ok (groupState, treeHash, epoch) =>
  match ← ask (.saveGroupRecord groupState treeHash epoch groupType) with
  | .error err => return .error ("save group record: " ++ err)
  | .ok () =>
  recordInviter node inviterPeerID
  startJoined node welcome (usableAnchor anchorEpoch anchorHistoryHash)

def joinGroupDecoded (welcome bundle : Bytes) (groupType inviterPeerID : String)
    (anchorEpoch : Nat) (anchorHistoryHash : Bytes) : JoinM (Except String Unit) := do
  ask .lock
  let result ← joinGroupLocked node welcome bundle groupType inviterPeerID anchorEpoch
    anchorHistoryHash
  ask .unlock
  match result with
  | .error err => return .error err
  | .ok () =>
  reconcileGroupRosterWithMLS node
  return .ok ()

def purgeIfLeft : JoinM Unit := do
  match ← ask .isGroupActive with
  | .ok false => let _ ← ask .purgeGroupMetadata
  | _ => pure ()

/-- `joinGroupWithWelcome`. The bundle comes as text, which may not decode; a group that was left is
purged before anything else is known of the join. -/
def joinGroupWithWelcome (bundle : Option Bytes)
    (groupType inviterPeerID : String) (anchorEpoch : Nat) (anchorHistoryHash : Bytes) :
    JoinM (Except String Unit) := do
  match normalizeGroupTypeRuntime groupType with
  | none => return .error "invalid group type"
  | some groupType =>
  if (← ask .ensureSessionActive) = false then return .error "session is not active"
  purgeIfLeft
  match bundle with
  | none => return .error "decode key package bundle hex"
  | some bundle =>
  joinGroupDecoded node welcome bundle groupType inviterPeerID anchorEpoch anchorHistoryHash

def Node.invite (sourcePeerID inviterPeerID : String)
    (status : PendingInviteStatus) : PendingInvite where
  id := node.pendingInviteID welcome
  groupType := groupType
  inviterPeerID := inviterPeerID
  welcomeHash := node.pendingInviteHash welcome
  welcomeBytes := welcome
  sourcePeerID := sourcePeerID
  status := status
  receivedAt := 0
  updatedAt := 0

def storedWelcome (inviteePeerID groupType : String) (welcome : Bytes) (sourcePeerID : String)
    (anchorEpoch : Nat) (anchorHistoryHash : Bytes) : StoredWelcome where
  inviteePeerID := inviteePeerID
  groupType := groupType
  welcomeBytes := welcome
  sourcePeerID := sourcePeerID
  anchorEpoch := anchorEpoch
  anchorHistoryHash := anchorHistoryHash
  createdAt := 0

def finalizeJoinedWelcome (persistInviteAudit : Bool) : JoinM Unit := do
  ask (.markWelcomeApplied welcome)
  if persistInviteAudit then
    ask (.saveStoredWelcome false
      (storedWelcome node.me groupType welcome (trimSpace sourcePeerID) 0 []))
    let _ ← ask (.savePendingInvite (node.invite groupType welcome (trimSpace sourcePeerID)
      (trimSpace sourcePeerID) .accepted))
    let _ ← ask (.markPendingInvite (node.pendingInviteID welcome) .accepted)

/-- `applyWelcome`. A group that has a coordinator counts as joined. -/
def applyWelcome : JoinM (Except String Unit) := do
  if ← ask (.coordinatorExists false) then return .ok ()
  match ← ask .getKPBundle with
  | .error err => return .error ("no local KeyPackage bundle found: " ++ err)
  | .ok bundle =>
  match ← joinGroupWithWelcome node welcome (some bundle) groupType inviterPeerID anchorEpoch
      anchorHistoryHash with
  | .error err => return .error err
  | .ok () =>
  finalizeJoinedWelcome node groupType welcome inviterPeerID false
  return .ok ()

def recordSource : JoinM Unit := do
  if trimSpace sourcePeerID = "" then return
  ask (.setGroupCreatorPeerID (trimSpace sourcePeerID))
  upsertGroupMemberFromRosterSync node sourcePeerID

def recordJoinedWelcome : JoinM Unit := do
  recordSource node sourcePeerID
  ask (.saveStoredWelcome false
    (storedWelcome node.me groupType welcome sourcePeerID anchorEpoch anchorHistoryHash))
  let _ ← ask
    (.savePendingInvite (node.invite groupType welcome sourcePeerID sourcePeerID .accepted))
  let _ ← ask (.markPendingInvite (node.pendingInviteID welcome) .accepted)

def savePendingRow : JoinM (Except String Unit) :=
  ask (.savePendingInvite (node.invite groupType welcome sourcePeerID "" .pending))

/-- What it writes about one that was not. A rejected invite stays rejected unless the Welcome came
from the inviter. -/
def deferWelcome (reopenRejected : Bool) (anchorEpoch : Nat) (anchorHistoryHash : Bytes) :
    JoinM (Except String Unit) := do
  ask (.saveStoredWelcome false
    (storedWelcome node.me groupType welcome sourcePeerID anchorEpoch anchorHistoryHash))
  match ← ask .getLatestPendingInvite with
  | .error _ => savePendingRow node groupType welcome sourcePeerID
  | .ok latest =>
  if latest.status = .accepted then return .ok ()
  else if latest.status = .rejected then
    if reopenRejected = false then return .ok ()
    match ← ask
      (.reopenRejectedInvite
        (node.invite groupType welcome sourcePeerID sourcePeerID .pending)) with
    | .ok () => return .ok ()
    | .error _ => savePendingRow node groupType welcome sourcePeerID
  else savePendingRow node groupType welcome sourcePeerID

/-- A Welcome that was tried and is still pending is not tried again. -/
def pendingAlready : JoinM (Option (Except String Unit)) := do
  match ← ask (.getPendingInvite (node.pendingInviteID welcome)) with
  | .ok existing => if existing.status = .pending then return some (.ok ()) else return none
  | .error _ => return none

def nothingToJoin : JoinM (Option (Except String Unit)) := do
  match ← ask .isGroupActive with
  | .ok true => return some (.ok ())
  | .ok false => pendingAlready node welcome
  | .error err => if err ≠ errNoRows then return some (.error err) else pendingAlready node welcome

def Node.sourceOf : String :=
  if trimSpace sourcePeerID = node.me then "" else trimSpace sourcePeerID

def savePendingInviteFromWelcome (reopenRejected : Bool) (anchorEpoch : Nat)
    (anchorHistoryHash : Bytes) : JoinM (Except String Unit) := do
  if welcome = [] then return .error "group ID and welcome are required"
  match normalizeGroupTypeRuntime groupType with
  | none => return .error "invalid group type"
  | some groupType =>
  let sourcePeerID := node.sourceOf sourcePeerID
  match ← nothingToJoin node welcome with
  | some result => return result
  | none =>
  match ← applyWelcome node groupType welcome sourcePeerID anchorEpoch anchorHistoryHash with
  | .ok () =>
    recordJoinedWelcome node groupType welcome sourcePeerID anchorEpoch anchorHistoryHash
    return .ok ()
  | .error _ =>
    deferWelcome node groupType welcome sourcePeerID reopenRejected anchorEpoch anchorHistoryHash

end

-- -------- The ways a Welcome comes in

def WelcomeFrame.source (frame : WelcomeFrame) (remote : String) : String :=
  if trimSpace frame.sourcePeerID ≠ "" then trimSpace frame.sourcePeerID else remote

def WelcomeFrame.row (frame : WelcomeFrame) (inviteePeerID sourcePeerID : String) : StoredWelcome :=
  { storedWelcome inviteePeerID frame.groupType frame.welcome sourcePeerID frame.anchorEpoch
      frame.anchorHistoryHash with
    createdAt := frame.publishedAt }

def offerFrame (sourcePeerID : String) (frame : WelcomeFrame) : JoinM Unit := do
  let _ ← savePendingInviteFromWelcome node frame.groupType frame.welcome sourcePeerID false
    frame.anchorEpoch frame.anchorHistoryHash

def handleWelcomeDelivery (remote : String) (frame : WelcomeFrame) : JoinM Unit := do
  let _ ← savePendingInviteFromWelcome node frame.groupType frame.welcome (frame.source remote) true
    frame.anchorEpoch frame.anchorHistoryHash

/-- `handleWelcomeStoreStream`, and the Welcome of the blind store with `ifNewer`. -/
def handleWelcomeStore (ifNewer : Bool) (remote : String) (frame : WelcomeFrame) : JoinM Unit := do
  if frame.inviteePeerID = "" ∨ frame.welcome = [] ∨ ifNewer ∧ frame.publishedAt ≤ 0 then return
  ask (.saveStoredWelcome ifNewer (frame.row frame.inviteePeerID (frame.source remote)))
  if frame.inviteePeerID = node.me then offerFrame node (frame.source remote) frame

def takeAnswer (sourcePeerID : String) (frame : WelcomeFrame) : JoinM Unit := do
  if frame.welcome = [] then return
  ask (.saveStoredWelcome false (frame.row node.me sourcePeerID))
  offerFrame node sourcePeerID frame

/-- An item of a list that a store peer answers with. Here a blank source counts as one. -/
def takeListed (answer : String × WelcomeFrame) : JoinM Unit :=
  takeAnswer node (if answer.2.sourcePeerID = "" then answer.1 else answer.2.sourcePeerID) answer.2

def refreshPendingInvites : JoinM Unit := do
  match ← ask (.getStoredWelcome node.me) with
  | .ok row =>
    let _ ← savePendingInviteFromWelcome node row.groupType row.welcomeBytes row.sourcePeerID false
      row.anchorEpoch row.anchorHistoryHash
  | .error err => if err ≠ errNoRows then return
  forEach (takeListed node) answers

def retryPendingInvite (inv : PendingInvite) : JoinM Unit := do
  if inv.status ≠ .pending then return
  match ← applyWelcome node inv.groupType inv.welcomeBytes inv.sourcePeerID 0 [] with
  | .error _ => return
  | .ok () =>
  recordSource node inv.sourcePeerID
  let _ ← ask (.markPendingInvite inv.id .accepted)

def processPendingWelcomesOnStartup : JoinM Unit := do
  refreshPendingInvites node answers
  match ← ask .listPendingInvites with
  | .error _ => return
  | .ok rows => forEach (retryPendingInvite node) rows

def fetchWelcomeFromStorePeers : JoinM (Option (Bytes × String × String)) := do
  match ← ask (.getStoredWelcome node.me) with
  | .ok row =>
    let _ ← savePendingInviteFromWelcome node row.groupType row.welcomeBytes row.sourcePeerID false
      row.anchorEpoch row.anchorHistoryHash
    return some (row.welcomeBytes, row.groupType, row.sourcePeerID)
  | .error _ =>
  match answer with
  | none => return none
  | some (remote, frame) =>
    if frame.welcome = [] then return none
    takeAnswer node (frame.source remote) frame
    return some (frame.welcome, frame.groupType, frame.source remote)

def checkStoredWelcomes : JoinM Unit := do
  if ← ask (.coordinatorExists false) then return
  match ← fetchWelcomeFromStorePeers node answer with
  | none => return
  | some (welcome, groupType, source) =>
    let _ ← savePendingInviteFromWelcome node groupType welcome source false 0 []

def checkDHTWelcome : JoinM Unit := do
  if (← ask .ensureSessionActive) = false then return
  match ← fetchWelcomeFromStorePeers node answer with
  | none => return
  | some (welcome, groupType, source) =>
  match ← applyWelcome node groupType welcome source 0 [] with
  | .error _ => return
  | .ok () => let _ ← ask (.markPendingInvite (node.pendingInviteID welcome) .accepted)

def joinGroupWithWelcomeCall (welcome : Bytes) (bundle : Option Bytes) : JoinM Unit := do
  match ← joinGroupWithWelcome node welcome bundle "" "" 0 [] with
  | .error _ => return
  | .ok () => finalizeJoinedWelcome node "channel" welcome "" true

-- -------- The user's decisions

def joinedAlready : JoinM (Except String Bool) := do
  match ← ask .hasGroup with
  | .error err => return .error err
  | .ok false => return .ok false
  | .ok true =>
  match ← ask .isGroupActive with
  | .ok false =>
    let _ ← ask .purgeGroupMetadata
    return .ok false
  | _ => return .ok true

def observeSource (sourcePeerID : String) : JoinM Unit := do
  if trimSpace sourcePeerID = "" then return
  upsertGroupMemberFromRosterSync node sourcePeerID

def acceptInvite (inviteID : String) : JoinM (Except String Unit) := do
  if trimSpace inviteID = "" then return .error "invite not found"
  if (← ask .ensureSessionActive) = false then return .error "session is not active"
  match ← ask (.getPendingInvite (trimSpace inviteID)) with
  | .error err => return .error err
  | .ok inv =>
  if inv.status = .rejected then return .error "invite already rejected"
  match ← joinedAlready with
  | .error err => return .error err
  | .ok true => ask (.markPendingInvite inv.id .accepted)
  | .ok false =>
  match ← applyWelcome node inv.groupType inv.welcomeBytes inv.sourcePeerID 0 [] with
  | .error err => return .error ("accept invite: " ++ err)
  | .ok () =>
  observeSource node inv.sourcePeerID
  ask (.markPendingInvite inv.id .accepted)

def rejectInvite (inviteID : String) : JoinM (Except String Unit) := do
  if trimSpace inviteID = "" then return .error "invite not found"
  match ← ask (.getPendingInvite (trimSpace inviteID)) with
  | .error err => return .error err
  | .ok _ =>
  match ← ask (.markPendingInvite (trimSpace inviteID) .rejected) with
  | .error err => return .error err
  | .ok () =>
  ask (.deleteStoredWelcome node.me)
  return .ok ()

def refusesLeave : JoinM (Option String) := do
  match ← ask .hasGroup with
  | .error err => return some err
  | .ok false => return some "group not found"
  | .ok true =>
  match ← ask (.getGroupMember node.me) with
  | .ok rec =>
    return if rec.role = .creator then some "group creator cannot leave the group" else none
  | .error _ => return none

def takeAndStop : JoinM Bool := do
  let taken ← ask .takeCoordinator
  if taken then ask .stopCoordinators
  return taken

def leaveLocally (active : Bool) : JoinM (Except String Unit) := do
  let taken ← takeAndStop
  if active = false ∧ taken = false then return .ok ()
  match ← ask .markGroupLeft with
  | .error err => return .error err
  | .ok () =>
  ask (.markGroupMemberLeft node.me)
  return .ok ()

def leaveGroup : JoinM (Except String Unit) := do
  if (← ask .ensureSessionActive) = false then return .error "session is not active"
  match ← refusesLeave node with
  | some err => return .error err
  | none =>
  match ← ask .isGroupActive with
  | .ok active => leaveLocally node active
  | .error err => if err ≠ errNoRows then return .error err else leaveLocally node false

def accessLost : JoinM Unit := do
  let _ ← takeAndStop
  ask .lock
  let _ ← ask .markGroupLeft
  ask (.markGroupMemberLeft node.me)
  ask .unlock

def storedAnchor : JoinM (Option (Nat × Bytes)) := do
  match ← ask (.getStoredWelcome node.me) with
  | .ok row => return usableAnchor row.anchorEpoch row.anchorHistoryHash
  | .error _ => return none

/-- A group without a stored history takes the anchor of the stored Welcome. -/
def restoredAnchor : JoinM (Option (Nat × Bytes)) := do
  match ← ask .getCoordState with
  | .ok coord => if coord.historyChain ≠ [] then return none else storedAnchor node
  | .error _ => storedAnchor node

def loadExistingGroup : JoinM Unit := do
  ask .lock
  match ← ask .isGroupActive with
  | .ok true =>
    let anchor ← restoredAnchor node
    let _ ← launchCoordinator none anchor
  | _ => pure ()
  ask .unlock

-- -------- The inviter's side

def welcomeSource : JoinM String := do
  match ← ask .getGroupCreatorPeerID with
  | .ok creator => return if creator ≠ "" then creator else node.me
  | .error _ => return node.me

def sendWelcome (inviteePeerID groupType : String) (welcome : Bytes) (anchorEpoch : Nat)
    (anchorHistoryHash : Bytes) : JoinM Unit := do
  let sourcePeerID ← welcomeSource node
  ask (.send
    { inviteePeerID
      groupType
      welcome
      sourcePeerID
      anchorEpoch
      anchorHistoryHash
      publishedAt := 0 })

def replicateWelcomeToStorePeers (inviteePeerID groupType : String) (welcome : Bytes)
    (anchorEpoch : Nat) (anchorHistoryHash : Bytes) : JoinM Unit := do
  if welcome = [] then return
  let creatorID ← welcomeSource node
  ask (.saveStoredWelcome false
    (storedWelcome inviteePeerID groupType welcome creatorID anchorEpoch anchorHistoryHash))
  sendWelcome node inviteePeerID groupType welcome anchorEpoch anchorHistoryHash
  forEach (fun pid =>
    if pid = inviteePeerID then pure ()
    else sendWelcome node inviteePeerID groupType welcome anchorEpoch anchorHistoryHash) storePeers

section

variable (targetPeerID groupType : String)

def dispatchWelcome (welcome : Bytes) (anchorEpoch : Nat)
    (anchorHistoryHash : Bytes) : JoinM Unit := do
  if welcome = [] ∨ node.isValidPeerID (trimSpace targetPeerID) = false then return
  let target := trimSpace targetPeerID
  ask (.savePendingWelcome
    { targetPeerID := target, welcomeBytes := welcome, delivered := false, anchorEpoch,
      anchorHistoryHash })
  replicateWelcomeToStorePeers node storePeers target groupType welcome anchorEpoch
    anchorHistoryHash
  sendWelcome node target groupType welcome anchorEpoch anchorHistoryHash

def redeliverWelcome (welcome : Bytes) (anchorEpoch : Nat) (anchorHistoryHash : Bytes) :
    JoinM Unit := do
  replicateWelcomeToStorePeers node storePeers targetPeerID groupType welcome anchorEpoch
    anchorHistoryHash
  sendWelcome node targetPeerID groupType welcome anchorEpoch anchorHistoryHash

/-- A Welcome that was delivered is sent again, without its anchor. -/
def resendArchivedWelcome : JoinM Unit := do
  match ← ask (.getAnyPendingWelcome targetPeerID) with
  | .error _ => return
  | .ok welcome => redeliverWelcome node storePeers targetPeerID groupType welcome 0 []

/-- `resendPendingWelcome`. It asks for the undelivered Welcomes of all groups, and gives up only if
there are none. -/
def resendPendingWelcome : JoinM Unit := do
  match ← ask (.getPendingWelcomes (some targetPeerID)) with
  | .error _ => return
  | .ok rows =>
  match rows.find? (·.welcomeBytes ≠ []) with
  | some row =>
    redeliverWelcome node storePeers targetPeerID groupType row.welcomeBytes row.anchorEpoch
      row.anchorHistoryHash
  | none =>
  let awaited ← ask (.awaitsOtherWelcome targetPeerID)
  if rows = [] ∧ awaited = false then return
  resendArchivedWelcome node storePeers targetPeerID groupType

end

def recordedGroupType : JoinM String := do
  match ← ask .getGroupRecord with
  | .error _ => return "channel"
  | .ok rec => return (normalizeGroupTypeRuntime rec.groupType).getD "channel"

def resendRow (row : OutgoingWelcome) : JoinM Unit := do
  let groupType ← recordedGroupType
  sendWelcome node row.targetPeerID groupType row.welcomeBytes row.anchorEpoch row.anchorHistoryHash

def retryPendingWelcomes (targetPeerID : String) : JoinM Unit := do
  ask .reopenUnacknowledged
  match ← ask (.getPendingWelcomes (some targetPeerID)) with
  | .error _ => return
  | .ok rows => forEach (resendRow node) rows

def replicatePendingWelcomesToStorePeer (storePeer : String) : JoinM Unit := do
  ask .reopenUnacknowledged
  match ← ask (.getPendingWelcomes none) with
  | .error _ => return
  | .ok rows =>
    forEach (fun row : OutgoingWelcome =>
      if row.targetPeerID = "" ∨ row.targetPeerID = storePeer ∨ row.welcomeBytes = [] then pure ()
      else resendRow node row) rows

def serveStoredWelcome (inviteePeerID : String) : JoinM Unit := do
  match ← ask (.getStoredWelcome inviteePeerID) with
  | .error _ => return
  | .ok row =>
    ask (.send
      { inviteePeerID
        groupType := row.groupType
        welcome := row.welcomeBytes
        sourcePeerID := row.sourcePeerID
        anchorEpoch := row.anchorEpoch
        anchorHistoryHash := row.anchorHistoryHash
        publishedAt := 0 })

end GroupCoordination
