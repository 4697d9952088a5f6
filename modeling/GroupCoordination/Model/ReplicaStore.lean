import GroupCoordination.Lib.Fallible
import GroupCoordination.Model.Directory
import GroupCoordination.Model.InviteStore

/-!
# Replicated records

The tables that replication works on, from `replicated_store.go`, `db_group_members.go` and
`db_group_metadata.go`: the latest record under each key, the cursors of the pulls, and the columns
of the groups and of the rosters that the records are about. References to blobs and the blobs
themselves are left out: only the garbage collection reads them.
-/

namespace GroupCoordination

open Fallible (require)

-- -------- Rows

inductive ReplicaNamespace
  | userProfile
  | groupAvatar
  | groupRole
  | groupInvitePolicy
  deriving DecidableEq

structure ReplicatedRecordRow where
  ns : ReplicaNamespace
  recordKey : String
  ownerPeerID : String
  revision : Int
  bodyJSON : String
  bodyHash : String
  signature : Bytes
  signingPublicKeyHex : String
  deriving DecidableEq

def ReplicatedRecordRow.key (row : ReplicatedRecordRow) : ReplicaNamespace × String :=
  (row.ns, row.recordKey)

inductive ReplicaError
  /-- `ErrReplicatedStaleRevision`, and what the handlers make of it. -/
  | stale
  /-- `ErrReplicatedConflict`. -/
  | conflict
  | unknownPublicKey
  | other (text : String)
  deriving DecidableEq

inductive GroupInvitePolicy
  | creatorApproval
  | anyMember
  deriving DecidableEq

structure ReplicaGroup where
  groupID : String
  groupType : String := "group"
  lifecycle : Lifecycle := .active
  creatorPeerID : String := ""
  invitePolicy : GroupInvitePolicy := .creatorApproval
  avatarHash : String := ""
  avatarMime : String := ""
  avatarUpdatedAt : Int := 0
  deriving DecidableEq

structure GroupMemberRow extends GroupMemberRecord where
  groupID : String
  deriving DecidableEq

structure ReplicatedPullCursor where
  remotePeerID : String
  ns : ReplicaNamespace
  recordKey : String
  lastRevision : Int
  deriving DecidableEq

def ReplicatedPullCursor.key (cursor : ReplicatedPullCursor) : String × ReplicaNamespace × String :=
  (cursor.remotePeerID, cursor.ns, cursor.recordKey)

-- -------- Records

def replicatedBodyHash (hash : Hash) (bodyJSON : String) : String :=
  hexEncode (hash.sum (stringBytes bodyJSON))

def ReplicatedRecordRow.normalize (row : ReplicatedRecordRow) : ReplicatedRecordRow :=
  { row with
    recordKey := trimSpace row.recordKey
    ownerPeerID := trimSpace row.ownerPeerID
    bodyHash := toLower (trimSpace row.bodyHash)
    signingPublicKeyHex := toLower (trimSpace row.signingPublicKeyHex) }

def ReplicatedRecordRow.validate (hash : Hash) (row : ReplicatedRecordRow) :
    Except ReplicaError Unit := do
  require (row.recordKey ≠ "" ∧ row.ownerPeerID ≠ "")
    (.other "replicated: namespace, record_key, owner_peer_id required")
  require (0 < row.revision) (.other "replicated: revision must be > 0")
  require (row.bodyHash ≠ "") (.other "replicated: body_hash required")
  require (replicatedBodyHash hash row.bodyJSON = row.bodyHash)
    (.other "replicated: body_hash mismatch")

def getReplicatedRecord (rows : List ReplicatedRecordRow) (ns : ReplicaNamespace)
    (recordKey : String) : Option ReplicatedRecordRow :=
  Table.get ReplicatedRecordRow.key rows (ns, trimSpace recordKey)

def putRecord (rows : List ReplicatedRecordRow) (row : ReplicatedRecordRow) :
    List ReplicatedRecordRow :=
  Table.upsert ReplicatedRecordRow.key (fun _ new => new) rows row

/-- `TryMergeReplicatedRecord`: a greater revision replaces the row, a smaller one is stale, and the
same one is a replay or a conflict. -/
def tryMergeReplicatedRecord (hash : Hash) (rows : List ReplicatedRecordRow)
    (row : ReplicatedRecordRow) : Except ReplicaError (List ReplicatedRecordRow) := do
  let row := row.normalize
  row.validate hash
  match getReplicatedRecord rows row.ns row.recordKey with
  | none => .ok (putRecord rows row)
  | some current =>
    if current.revision > row.revision then .error .stale
    else if current.revision = row.revision then
      if toLower (trimSpace current.bodyHash) = toLower row.bodyHash then .ok rows
        else .error .conflict
    else .ok (putRecord rows row)

def putReplicatedRecordForce (hash : Hash) (rows : List ReplicatedRecordRow)
    (row : ReplicatedRecordRow) : Except ReplicaError (List ReplicatedRecordRow) := do
  let row := row.normalize
  row.validate hash
  return putRecord rows row

-- -------- Groups and cursors

def normalizeGroupInvitePolicy (policy : String) : Except ReplicaError GroupInvitePolicy :=
  let policy := toLower (trimSpace policy)
  if policy = "" ∨ policy = "creator_approval" then .ok .creatorApproval
  else if policy = "any_member" then .ok .anyMember
  else .error (.other "invalid invite policy")

/-- `UpsertReplicatedPullCursor`: the cursor never goes back. -/
def upsertReplicatedPullCursor (cursors : List ReplicatedPullCursor)
    (cursor : ReplicatedPullCursor) : List ReplicatedPullCursor :=
  Table.upsert ReplicatedPullCursor.key
    (fun old new => { old with lastRevision := max old.lastRevision new.lastRevision }) cursors
    { cursor with
      remotePeerID := trimSpace cursor.remotePeerID
      recordKey := trimSpace cursor.recordKey }

def getReplicatedPullCursor (cursors : List ReplicatedPullCursor) (remotePeerID : String)
    (ns : ReplicaNamespace) (recordKey : String) : Int :=
  ((Table.get ReplicatedPullCursor.key cursors
    (trimSpace remotePeerID, ns, trimSpace recordKey)).map
    (·.lastRevision)).getD 0

structure ReplicaStore where
  directory : PeerDirectory := []
  records : List ReplicatedRecordRow := []
  cursors : List ReplicatedPullCursor := []
  groups : List ReplicaGroup := []
  members : List GroupMemberRow := []
  deriving DecidableEq

variable (db : ReplicaStore) (groupID peerID : String)

def ReplicaStore.group (groupID : String) : Option ReplicaGroup :=
  Table.get (·.groupID) db.groups groupID

def ReplicaStore.updateGroup (groupID : String) (f : ReplicaGroup → ReplicaGroup) : ReplicaStore :=
  { db with
    groups := db.groups.map fun group => if group.groupID = groupID then f group else group }

def ReplicaStore.member : Option GroupMemberRow :=
  Table.get (fun row => (row.groupID, row.peerID)) db.members (groupID, peerID)

def ReplicaStore.getGroupMember : Except ReplicaError GroupMemberRow :=
  match db.member (trimSpace groupID) (trimSpace peerID) with
  | some row => .ok row
  | none => .error (.other errNoRows)

/-- `SetGroupMemberRole`: the role of a creator cannot be changed, nor can anyone become one. -/
def ReplicaStore.setGroupMemberRole (role : GroupMemberRole) :
    Except ReplicaError ReplicaStore := do
  let groupID := trimSpace groupID
  let peerID := trimSpace peerID
  require (groupID ≠ "" ∧ peerID ≠ "")
    (.other "SetGroupMemberRole: group_id and peer_id are required")
  require (role ≠ .creator) (.other "SetGroupMemberRole: creator role is immutable")
  let row ← db.getGroupMember groupID peerID
  require (row.status = .active) (.other errNoRows)
  require (row.role ≠ .creator) (.other "SetGroupMemberRole: creator role is immutable")
  return { db with
    members := db.members.map fun row =>
      if row.groupID = groupID ∧ row.peerID = peerID ∧ row.status = .active ∧
        row.role ≠ .creator then
        { row with role }
      else row }

def ReplicaStore.setGroupInvitePolicy (groupID policy : String) :
    Except ReplicaError ReplicaStore := do
  let groupID := trimSpace groupID
  require (groupID ≠ "") (.other errNoRows)
  let invitePolicy ← normalizeGroupInvitePolicy policy
  require (db.group groupID).isSome (.other errNoRows)
  return db.updateGroup groupID fun group => { group with invitePolicy }

/-- `isActiveGroupCreatorPeer`; `hint` is what the stored Welcomes and invites say of a group that
has no creator on record. -/
def ReplicaStore.isActiveGroupCreatorPeer (hint : String → String)
    (groupID peerID : String) : Bool :=
  let groupID := trimSpace groupID
  let peerID := trimSpace peerID
  let creator := trimSpace ((db.group groupID).map (·.creatorPeerID) |>.getD "")
  if groupID = "" ∨ peerID = "" then false
  else if creator ≠ "" then creator = peerID
  else
    db.members.any (fun row =>
      row.groupID = groupID ∧ row.status = .active ∧ trimSpace row.peerID = peerID ∧
        row.role = .creator) ||
      trimSpace (hint groupID) = peerID

def ReplicaStore.isActiveGroupAuthorizedPeer (hint : String → String)
    (groupID peerID : String) : Except ReplicaError Bool := do
  let peerID := trimSpace peerID
  if groupID = "" ∨ peerID = "" then return false
  else
    let row ← db.getGroupMember groupID peerID
    if row.status = .active ∧ row.role ≠ .member then return true
    else return db.isActiveGroupCreatorPeer hint groupID peerID

end GroupCoordination
