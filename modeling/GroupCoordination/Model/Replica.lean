import GroupCoordination.Lib.Program
import GroupCoordination.Model.Handshake
import GroupCoordination.Model.ReplicaStore

/-!
# Replication of signed records

`replicated_sync.go`, `group_admins.go`, `group_invite_policy_replicate.go`,
`group_avatar_replicate.go` and the part of `profile.go` that signs and merges profiles. A record is
a JSON text and a signature of it. A call is a program that takes one call of the store at a time,
beside others.

The JSON texts are those of `encoding/json`; a text is what is signed, hashed and stored. Left out:
events, the requests that a switched invite policy approves, and the network, which may deliver a
record any number of times or never.
-/

namespace GroupCoordination

open Fallible (require)
open Program (Failing attempt observe check)

-- -------- Wires

structure ProfileWire extends ProfileUpdate where
  v : Int
  peerID : String
  displayName : String
  deriving DecidableEq

structure GroupAvatarWire where
  v : Int
  groupID : String
  actorPeerID : String
  creatorPeerID : String
  avatarHash : String
  avatarMime : String
  avatarUpdatedAt : Int
  revision : Int
  clearedFields : List String
  deriving DecidableEq

structure GroupRoleWire where
  v : Int
  eventID : String
  groupID : String
  targetPeerID : String
  newRole : String
  actorPeerID : String
  createdAt : Int
  revision : Int
  epoch : Nat
  deriving DecidableEq

structure GroupInvitePolicyWire where
  v : Int
  groupID : String
  policy : String
  actorPeerID : String
  createdAt : Int
  revision : Int
  deriving DecidableEq

def wireVersion : Int := 1

def GroupAvatarWire.signerPeerID (w : GroupAvatarWire) : String :=
  if trimSpace w.actorPeerID ≠ "" then trimSpace w.actorPeerID else trimSpace w.creatorPeerID

def groupRoleRecordKey (groupID targetPeerID : String) : String :=
  trimSpace groupID ++ "|" ++ trimSpace targetPeerID

structure WireCodec (α : Type) where
  encode : α → String
  decode : String → Option α

structure ReplicaCodec where
  profile : WireCodec ProfileWire
  groupAvatar : WireCodec GroupAvatarWire
  groupRole : WireCodec GroupRoleWire
  groupInvitePolicy : WireCodec GroupInvitePolicyWire
  sign : Bytes → String → Bytes
  verify : Bytes → String → Bytes → Bool

structure ReplicaNode where
  codec : ReplicaCodec
  hash : Hash
  me : String
  displayName : String
  publicKey : Bytes
  signingKey : Bytes

-- -------- Operations

structure ReplicaWorld where
  dbWorks : Bool := true
  /-- Do the statements on the references to blobs go through? -/
  refsWork : Bool := true
  sessionActive : Bool := true
  now : Int := 0
  /-- The epoch on the group's record. -/
  epoch : Nat := 0
  creatorHint : String → String := fun _ => ""

structure LocalProfileRow where
  email : Option String := none
  phone : Option String := none
  avatarHash : Option String := none
  avatarMime : Option String := none
  avatarUpdatedAt : Int := 0
  profileRevision : Int := 1
  deriving DecidableEq

structure SignedText where
  wireJSON : String
  signature : Bytes
  deriving DecidableEq

structure ReplicaState where
  db : ReplicaStore := {}
  localProfile : LocalProfileRow := {}
  verified : List (String × InvitationToken) := []
  annex : Option SignedText := none
  signed : List SignedText := []

inductive ReplicaOp
  | ensureSessionActive
  | getPeerDirectoryProfile (peerID : String)
  | getPeerDisplayName (peerID : String)
  | getPeerIDByPublicKeyHex (publicKeyHex : String)
  | savePeerProfile (peerID displayName : String)
  | upsertPeerProfileWithKey (peerID displayName publicKeyHex : String)
  /-- The same statement, for a peer that is only guessed to have the key. -/
  | inferPeerKey (peerID publicKeyHex : String)
  | upsertPeerDirectorySigned (row : PeerDirectoryRow)
  | upsertAvatarBlob (data : Bytes)
  | getReplicatedRecord (ns : ReplicaNamespace) (recordKey : String)
  | tryMergeReplicatedRecord (row : ReplicatedRecordRow)
  | putReplicatedRecordForce (row : ReplicatedRecordRow)
  | upsertReplicatedPullCursor (cursor : ReplicatedPullCursor)
  | isActiveGroupCreatorPeer (groupID peerID : String)
  | isActiveGroupAuthorizedPeer (groupID peerID : String)
  | hasGroup (groupID : String)
  | getGroupMember (groupID peerID : String)
  | setGroupMemberRole (groupID peerID : String) (role : GroupMemberRole)
  | setGroupInvitePolicy (groupID policy : String)
  | setGroupChatAvatar (groupID hash mime : String) (updatedAt : Int)
  | clearGroupChatAvatar (groupID : String)
  | getVerifiedToken (peerID : String)
  | getLocalProfile
  | saveLocalProfileContacts (email phone : Option String) (nextRevision : Int)
  | saveLocalProfileAvatar (hash mime : String) (nextRevision : Int)
  | clearLocalProfileAvatar (nextRevision : Int)
  | now
  | epoch
  | sign (wireJSON : String)
  | setLocalProfileAnnex (text : SignedText)

@[reducible] def ReplicaOp.Reply : ReplicaOp → Type
  | .ensureSessionActive => Except ReplicaError Unit
  | .getPeerDirectoryProfile _ => Except ReplicaError PeerDirectoryRow
  | .getPeerDisplayName _ => String
  | .getPeerIDByPublicKeyHex _ => Except ReplicaError String
  | .savePeerProfile _ _ => Unit
  | .upsertPeerProfileWithKey _ _ _ => Except ReplicaError Unit
  | .inferPeerKey _ _ => Except ReplicaError Unit
  | .upsertPeerDirectorySigned _ => Except ReplicaError Unit
  | .upsertAvatarBlob _ => Except ReplicaError Unit
  | .getReplicatedRecord _ _ => Except ReplicaError (Option ReplicatedRecordRow)
  | .tryMergeReplicatedRecord _ => Except ReplicaError Unit
  | .putReplicatedRecordForce _ => Except ReplicaError Unit
  | .upsertReplicatedPullCursor _ => Except ReplicaError Unit
  | .isActiveGroupCreatorPeer _ _ => Except ReplicaError Bool
  | .isActiveGroupAuthorizedPeer _ _ => Except ReplicaError Bool
  | .hasGroup _ => Except ReplicaError Bool
  | .getGroupMember _ _ => Except ReplicaError GroupMemberRow
  | .setGroupMemberRole _ _ _ => Except ReplicaError Unit
  | .setGroupInvitePolicy _ _ => Except ReplicaError Unit
  | .setGroupChatAvatar _ _ _ _ => Except ReplicaError Unit
  | .clearGroupChatAvatar _ => Except ReplicaError Unit
  | .getVerifiedToken _ => Option InvitationToken
  | .getLocalProfile => Except ReplicaError LocalProfileRow
  | .saveLocalProfileContacts _ _ _ => Except ReplicaError Unit
  | .saveLocalProfileAvatar _ _ _ => Except ReplicaError Unit
  | .clearLocalProfileAvatar _ => Except ReplicaError Unit
  | .now => Int
  | .epoch => Nat
  | .sign _ => Bytes
  | .setLocalProfileAnnex _ => Unit

def errDatabase : ReplicaError := .other "database"

def ReplicaState.query (s : ReplicaState) (w : ReplicaWorld) (r : Except ReplicaError α) :
    Except ReplicaError α × ReplicaState :=
  (if w.dbWorks then r else .error errDatabase, s)

def ReplicaState.tryWrite (s : ReplicaState) (w : ReplicaWorld)
    (db : Except ReplicaError ReplicaStore) : Except ReplicaError Unit × ReplicaState :=
  match w.dbWorks, db with
  | false, _ => (.error errDatabase, s)
  | true, .error err => (.error err, s)
  | true, .ok db => (.ok (), { s with db })

def ReplicaState.tryWriteRecord (s : ReplicaState) (w : ReplicaWorld)
    (records : Except ReplicaError (List ReplicatedRecordRow)) :
    Except ReplicaError Unit × ReplicaState :=
  match w.dbWorks, records with
  | false, _ => (.error errDatabase, s)
  | true, .error err => (.error err, s)
  | true, .ok records =>
    (if w.refsWork then .ok () else .error errDatabase, { s with db := { s.db with records } })

def ReplicaState.tryWriteProfile (s : ReplicaState) (w : ReplicaWorld)
    (localProfile : LocalProfileRow) : Except ReplicaError Unit × ReplicaState :=
  if w.dbWorks then (.ok (), { s with localProfile }) else (.error errDatabase, s)

variable (node : ReplicaNode)

def replicaMachine : Program.Machine ReplicaWorld ReplicaState ReplicaOp.Reply :=
  fun w op s =>
  match op with
  | .ensureSessionActive =>
    some (if w.sessionActive then .ok () else .error (.other "session replaced"), s)
  | .getPeerDirectoryProfile peerID =>
    some (s.query w (match s.db.directory.row (trimSpace peerID) with
      | some row => .ok row
      | none => .error (.other errNoRows)))
  | .getPeerDisplayName peerID =>
    some (if w.dbWorks then (s.db.directory.row peerID).elim "" (·.displayName) else "", s)
  | .getPeerIDByPublicKeyHex publicKeyHex =>
    some (s.query w (.ok (s.db.directory.getPeerIDByPublicKeyHex publicKeyHex)))
  | .savePeerProfile peerID displayName =>
    some ((), if w.dbWorks then
        { s with
          db := { s.db with directory := s.db.directory.savePeerProfile peerID displayName } }
      else s)
  | .upsertPeerProfileWithKey peerID displayName publicKeyHex =>
    some (s.tryWrite w (.ok { s.db with
      directory := s.db.directory.upsertPeerProfileWithKey peerID displayName publicKeyHex }))
  | .inferPeerKey peerID publicKeyHex =>
    some (s.tryWrite w (.ok { s.db with
      directory := s.db.directory.upsertPeerProfileWithKey peerID "" publicKeyHex }))
  | .upsertPeerDirectorySigned row =>
    some (s.tryWrite w
      (.ok { s.db with directory := s.db.directory.upsertPeerDirectorySigned row }))
  | .upsertAvatarBlob _ => some (s.query w (.ok ()))
  | .getReplicatedRecord ns recordKey =>
    some (s.query w (if trimSpace recordKey = "" then
        .error (.other "replicated: namespace and record_key required")
      else .ok (getReplicatedRecord s.db.records ns recordKey)))
  | .tryMergeReplicatedRecord row =>
    some (s.tryWriteRecord w (tryMergeReplicatedRecord node.hash s.db.records row))
  | .putReplicatedRecordForce row =>
    some (s.tryWriteRecord w (putReplicatedRecordForce node.hash s.db.records row))
  | .upsertReplicatedPullCursor cursor =>
    some (s.tryWrite w
      (.ok { s.db with cursors := upsertReplicatedPullCursor s.db.cursors cursor }))
  | .isActiveGroupCreatorPeer groupID peerID =>
    some (s.query w (.ok (s.db.isActiveGroupCreatorPeer w.creatorHint groupID peerID)))
  | .isActiveGroupAuthorizedPeer groupID peerID =>
    some (s.query w (s.db.isActiveGroupAuthorizedPeer w.creatorHint groupID peerID))
  | .hasGroup groupID => some (s.query w (.ok (s.db.group groupID).isSome))
  | .getGroupMember groupID peerID => some (s.query w (s.db.getGroupMember groupID peerID))
  | .setGroupMemberRole groupID peerID role =>
    some (s.tryWrite w (s.db.setGroupMemberRole groupID peerID role))
  | .setGroupInvitePolicy groupID policy =>
    some (s.tryWrite w (s.db.setGroupInvitePolicy groupID policy))
  | .setGroupChatAvatar groupID hash mime updatedAt =>
    some (s.tryWrite w (.ok (s.db.updateGroup (trimSpace groupID) fun group =>
      { group with
        avatarHash := trimSpace (toLower hash)
        avatarMime := trimSpace mime
        avatarUpdatedAt := updatedAt })))
  | .clearGroupChatAvatar groupID =>
    some (s.tryWrite w (.ok (s.db.updateGroup (trimSpace groupID) fun group =>
      { group with avatarHash := "", avatarMime := "", avatarUpdatedAt := 0 })))
  | .getVerifiedToken peerID => some ((s.verified.find? (·.1 = peerID)).map (·.2), s)
  | .getLocalProfile => some (s.query w (.ok s.localProfile))
  | .saveLocalProfileContacts email phone nextRevision =>
    some (s.tryWriteProfile w { s.localProfile with email, phone, profileRevision := nextRevision })
  | .saveLocalProfileAvatar hash mime nextRevision =>
    some (s.tryWriteProfile w
      { s.localProfile with
        avatarHash := some (trimSpace (toLower hash))
        avatarMime := some (trimSpace mime)
        avatarUpdatedAt := w.now
        profileRevision := nextRevision })
  | .clearLocalProfileAvatar nextRevision =>
    some (s.tryWriteProfile w
      { s.localProfile with
        avatarHash := none
        avatarMime := none
        avatarUpdatedAt := 0
        profileRevision := nextRevision })
  | .now => some (w.now, s)
  | .epoch => some (w.epoch, s)
  | .sign wireJSON =>
    let signature := node.codec.sign node.signingKey wireJSON
    some (signature, { s with signed := s.signed ++ [⟨wireJSON, signature⟩] })
  | .setLocalProfileAnnex text => some ((), { s with annex := some text })

abbrev ReplicaM := Program ReplicaOp.Reply
abbrev ReplicaF := Failing ReplicaOp.Reply ReplicaError

def request (op : ReplicaOp) : ReplicaM op.Reply := Program.perform op

-- -------- Checks of a record

def ed25519SignatureSize : Nat := 64

def hexDigit (c : Char) : Option Nat := "0123456789abcdef".toList.idxOf? c.toLower

def hexDecode : List Char → Option Bytes
  | [] => some []
  | [_] => none
  | a :: b :: rest => do
    let high ← hexDigit a
    let low ← hexDigit b
    let bytes ← hexDecode rest
    return Fin.ofNat 256 (16 * high + low) :: bytes

def signerKey (existing : PeerDirectoryRow) : Except ReplicaError Bytes :=
  match hexDecode (trimSpace existing.publicKeyHex).toList with
  | some key =>
    if key.length = ed25519PublicKeySize then .ok key
      else .error (.other "invalid stored public key")
  | none => .error (.other "invalid stored public key")

def ReplicaNode.verifyProfileWire (key : Bytes) (text : SignedText) : Except ReplicaError Unit := do
  require (text.signature.length = ed25519SignatureSize) (.other "invalid signature length")
  require (node.codec.verify key text.wireJSON text.signature) (.other "invalid profile signature")

def ReplicaNode.readSigned (codec : WireCodec α) (version : α → Int) (key : Bytes)
    (text : SignedText) : Except ReplicaError α := do
  node.verifyProfileWire key text
  let w ← (codec.decode text.wireJSON).elim (.error (.other "wire")) .ok
  require (version w = wireVersion) (.other "unsupported wire version")
  return w

def maxAvatarBytes : Nat := 256 * 1024

def validateAvatarImageBytes (data : Bytes) : Except ReplicaError String := do
  require (data ≠ []) (.other "empty image")
  require (data.length ≤ maxAvatarBytes) (.other "avatar image exceeds storage/sync limit")
  if data.take 4 = [0x89, 0x50, 0x4E, 0x47] ∧
      ((data.drop 4).take 4 = [0x0D, 0x0A, 0x1A, 0x0A] ∨
        (data.drop 4).take 3 = [0x0A, 0x1A, 0x0A]) then
    return "image/png"
  else if data.take 3 = [0xFF, 0xD8, 0xFF] then return "image/jpeg"
  else if data.take 4 = [0x52, 0x49, 0x46, 0x46] ∧
    (data.drop 8).take 4 = [0x57, 0x45, 0x42, 0x50] then
    return "image/webp"
  else .error (.other "unsupported image format (allowed: png, jpeg, webp)")

def ReplicaNode.checkAvatarBlob (avatarHash avatarMime : String) (avatarBlob : Bytes) :
    Except ReplicaError Unit :=
  if avatarBlob = [] then .ok ()
  else do
    require (trimSpace avatarHash ≠ "") (.other "unexpected avatar blob without hash in wire")
    require (hexEncode (node.hash.sum avatarBlob) = toLower (trimSpace avatarHash))
      (.other "avatar content hash mismatch")
    let mime ← validateAvatarImageBytes avatarBlob
    require (trimSpace avatarMime = "" ∨ trimSpace avatarMime = mime)
      (.other "avatar mime mismatch")

def ReplicaNode.checkProfile (existing : PeerDirectoryRow) (key : Bytes)
    (peerID : String) (text : SignedText) (avatarBlob : Bytes) :
    Except ReplicaError ProfileWire := do
  let w ← node.readSigned node.codec.profile (·.v) key text
  require (trimSpace w.peerID = peerID) (.other "peer_id mismatch in wire payload")
  require (trimSpace w.displayName = trimSpace existing.displayName)
    (.other "display_name mismatch in signed profile")
  node.checkAvatarBlob w.avatarHash w.avatarMime avatarBlob
  return w

def ReplicaNode.checkGroupRole (key : Bytes) (actorPeerID : String)
    (text : SignedText) : Except ReplicaError GroupRoleWire := do
  let w ← node.readSigned node.codec.groupRole (·.v) key text
  require (trimSpace w.actorPeerID = actorPeerID) (.other "actor peer mismatch")
  return w

def ReplicaNode.checkGroupInvitePolicy (key : Bytes) (actorPeerID : String)
    (text : SignedText) : Except ReplicaError GroupInvitePolicyWire := do
  let w ← node.readSigned node.codec.groupInvitePolicy (·.v) key text
  require (trimSpace w.actorPeerID = actorPeerID) (.other "actor peer mismatch")
  let _ ← normalizeGroupInvitePolicy w.policy
  return w

def ReplicaNode.checkGroupAvatar (key : Bytes) (signerPeerID : String)
    (text : SignedText) : Except ReplicaError GroupAvatarWire := do
  let w ← node.readSigned node.codec.groupAvatar (·.v) key text
  require (trimSpace w.groupID ≠ "") (.other "group_id required in wire")
  require (w.signerPeerID = signerPeerID) (.other "actor peer mismatch in signed payload")
  return w

def ReplicaNode.record (ns : ReplicaNamespace) (recordKey ownerPeerID : String)
    (revision : Int) (text : SignedText) (signingPublicKeyHex : String) : ReplicatedRecordRow :=
  { ns, recordKey, ownerPeerID, revision, signingPublicKeyHex
    bodyJSON := text.wireJSON
    bodyHash := replicatedBodyHash node.hash text.wireJSON
    signature := text.signature }

-- -------- Records from others

def mergePeerDirectoryProfile (peerID : String) (u : ProfileUpdate) (signature : Bytes) :
    ReplicaF Unit := do
  let peerID := trimSpace peerID
  check (peerID ≠ "") (.other "peer_id is required")
  check (0 < u.revision) (.other "invalid profile revision")
  let existing ← attempt (request (.getPeerDirectoryProfile peerID))
  check (existing.profileRevision ≤ u.revision) (.other "stale profile revision")
  if existing.profileRevision = u.revision then pure ()
  else attempt (request (.upsertPeerDirectorySigned (existing.merged u (hexEncode signature))))

def saveAvatarBlob (avatarBlob : Bytes) : ReplicaF Unit :=
  if avatarBlob = [] then pure () else attempt (request (.upsertAvatarBlob avatarBlob))

def applySignedRemoteProfilePush (peerID : String) (text : SignedText)
    (avatarBlob : Bytes) : ReplicaF Unit := do
  attempt (request .ensureSessionActive)
  let peerID := trimSpace peerID
  check (peerID ≠ "") (.other "peer_id is required")
  let existing ← attempt (request (.getPeerDirectoryProfile peerID))
  let pubHex := trimSpace existing.publicKeyHex
  check (pubHex ≠ "") .unknownPublicKey
  let key ← attempt (pure (signerKey existing))
  let w ← attempt (pure (node.checkProfile existing key peerID text avatarBlob))
  saveAvatarBlob avatarBlob
  attempt (request (.tryMergeReplicatedRecord
    (node.record .userProfile peerID peerID w.revision text pubHex)))
  mergePeerDirectoryProfile peerID w.toProfileUpdate text.signature

def activeRole (target : Except ReplicaError GroupMemberRow) : Option GroupMemberRole :=
  (target.toOption.filter (·.status = .active)).map (·.role)

def parseGroupMemberRole (newRole : String) : GroupMemberRole :=
  let role := toLower (trimSpace newRole)
  if role = "creator" then .creator else if role = "admin" then .admin else .member

def ReplicaNode.resolveGroupMemberRole (db : ReplicaStore) (groupID peerID : String) :
    GroupMemberRole :=
  let groupID := trimSpace groupID
  let peerID := trimSpace peerID
  let creator := trimSpace ((db.group groupID).map (·.creatorPeerID) |>.getD "")
  if groupID = "" ∨ peerID = "" then .member
  else if creator ≠ "" ∧ peerID = creator then .creator
  else
    match getReplicatedRecord db.records .groupRole (groupRoleRecordKey groupID peerID) with
    | some row =>
      if row.bodyJSON = "" then .member
      else ((node.codec.groupRole.decode row.bodyJSON).map fun w =>
        parseGroupMemberRole w.newRole).getD .member
    | none => .member

/-- `applySignedRemoteGroupRolePush`. The record is merged whether or not the target has a row
yet. -/
def applySignedRemoteGroupRolePush (actorPeerID : String) (text : SignedText) : ReplicaF Unit := do
  let actorPeerID := trimSpace actorPeerID
  check (actorPeerID ≠ "") (.other "actor peer id required")
  let profile ← attempt (request (.getPeerDirectoryProfile actorPeerID))
  let key ← attempt (pure (signerKey profile))
  let w ← attempt (pure (node.checkGroupRole key actorPeerID text))
  let creator ← attempt (request (.isActiveGroupCreatorPeer w.groupID actorPeerID))
  check (creator = true) (.other "group role push: actor is not creator")
  let target ← observe (request (.getGroupMember w.groupID w.targetPeerID))
  let memberRole := activeRole target
  check (memberRole ≠ some .creator) (.other "group role push: creator role immutable")
  attempt (request (.tryMergeReplicatedRecord
    (node.record .groupRole (groupRoleRecordKey w.groupID w.targetPeerID) actorPeerID
      w.revision text (hexEncode key))))
  if memberRole.isSome then
    attempt (request (.setGroupMemberRole w.groupID w.targetPeerID
      (if toLower (trimSpace w.newRole) = "admin" then .admin else .member)))
  else pure ()

def applySignedRemoteGroupInvitePolicyPush (actorPeerID : String)
    (text : SignedText) : ReplicaF Unit := do
  let actorPeerID := trimSpace actorPeerID
  check (actorPeerID ≠ "") (.other "actor peer id required")
  let profile ← attempt (request (.getPeerDirectoryProfile actorPeerID))
  let key ← attempt (pure (signerKey profile))
  let w ← attempt (pure (node.checkGroupInvitePolicy key actorPeerID text))
  let authorized ← attempt (request (.isActiveGroupAuthorizedPeer w.groupID actorPeerID))
  check (authorized = true) (.other "group invite policy push: actor is not an active admin")
  attempt (request (.tryMergeReplicatedRecord
    (node.record .groupInvitePolicy (trimSpace w.groupID) actorPeerID w.revision text
      (hexEncode key))))
  attempt (request (.setGroupInvitePolicy w.groupID w.policy))

def applySignedRemoteGroupAvatarPush (signerPeerID : String) (text : SignedText)
    (avatarBlob : Bytes) : ReplicaF Unit := do
  attempt (request .ensureSessionActive)
  let signerPeerID := trimSpace signerPeerID
  check (signerPeerID ≠ "") (.other "actor_peer_id is required")
  let existing ← attempt (request (.getPeerDirectoryProfile signerPeerID))
  check (trimSpace existing.publicKeyHex ≠ "") .unknownPublicKey
  let key ← attempt (pure (signerKey existing))
  let w ← attempt (pure (node.checkGroupAvatar key signerPeerID text))
  let groupID := trimSpace w.groupID
  let has ← attempt (request (.hasGroup groupID))
  check (has = true) (.other "group avatar push: not a member of group")
  let authorized ← attempt (request (.isActiveGroupAuthorizedPeer groupID signerPeerID))
  check (authorized = true) (.other "group avatar push: peer is not an active admin for group")
  attempt (pure (node.checkAvatarBlob w.avatarHash w.avatarMime avatarBlob))
  saveAvatarBlob avatarBlob
  attempt (request (.tryMergeReplicatedRecord
    (node.record .groupAvatar groupID signerPeerID w.revision text (hexEncode key))))
  if w.clearedFields.any fun field => toLower (trimSpace field) = "avatar" then
    attempt (request (.clearGroupChatAvatar groupID))
  else do
    let hash := trimSpace (toLower w.avatarHash)
    let mime := trimSpace w.avatarMime
    check (hash ≠ "" ∧ mime ≠ "") (.other "avatar hash and mime required when not clearing")
    attempt (request (.setGroupChatAvatar groupID hash mime w.avatarUpdatedAt))

-- -------- Pulls

/-- One record on a sync stream. Nothing vouches for the header. -/
structure ReplicaFrame where
  key : String
  revision : Int
  text : SignedText
  blob : Bytes := []
  deriving DecidableEq

/-- The apply function of a namespace, for a record from a replica. A record whose signer cannot be
told is skipped, which is `none`. -/
def applyPulled (frame : ReplicaFrame) : ReplicaNamespace → Option (ReplicaF Unit)
  | .userProfile => some (applySignedRemoteProfilePush node frame.key frame.text frame.blob)
  | .groupAvatar => do
    let w ← node.codec.groupAvatar.decode frame.text.wireJSON
    if trimSpace w.creatorPeerID = "" then none
    else
      some (applySignedRemoteGroupAvatarPush node (trimSpace w.creatorPeerID) frame.text frame.blob)
  | .groupRole => do
    let w ← node.codec.groupRole.decode frame.text.wireJSON
    if trimSpace w.actorPeerID = "" then none
    else some (applySignedRemoteGroupRolePush node (trimSpace w.actorPeerID) frame.text)
  | .groupInvitePolicy => do
    let w ← node.codec.groupInvitePolicy.decode frame.text.wireJSON
    if trimSpace w.actorPeerID = "" then none
    else some (applySignedRemoteGroupInvitePolicyPush node (trimSpace w.actorPeerID) frame.text)

/-- What `pullReplicatedProfilesFromPeerOnce` does with a record: the cursor moves on if the record
was applied or was stale, and other errors are passed over. -/
def pullRecord (remotePeerID : String) (ns : ReplicaNamespace) (frame : ReplicaFrame) :
    ReplicaM (Except ReplicaError Unit) :=
  match applyPulled node frame ns with
  | none => pure (.ok ())
  | some apply => do
    let r ← apply.run
    match r with
    | .ok () | .error .stale =>
      request (.upsertReplicatedPullCursor
        { remotePeerID, ns, recordKey := frame.key, lastRevision := frame.revision })
    | .error _ => pure (.ok ())

end GroupCoordination
