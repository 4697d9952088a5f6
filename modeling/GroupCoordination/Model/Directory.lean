import GroupCoordination.Model.Storage

/-!
# The peer directory

The table `peer_directory` and the four statements that write it, from `db_peer_directory.go` and
`profile.go` of the store. Each of them knows some columns of a row and treats the others in its own
way. The time of the last update is left out: it only orders the rows.
-/

namespace GroupCoordination

structure PeerDirectoryRow where
  peerID : String
  displayName : String
  publicKeyHex : String := ""
  email : Option String := none
  phone : Option String := none
  avatarHash : Option String := none
  avatarMime : Option String := none
  avatarUpdatedAt : Int := 0
  profileRevision : Int := 0
  profileSignature : Option String := none
  deriving DecidableEq

abbrev PeerDirectory := List PeerDirectoryRow

def PeerDirectory.row (rows : PeerDirectory) (peerID : String) : Option PeerDirectoryRow :=
  Table.get (·.peerID) rows peerID

-- -------- Writes

/-- `SavePeerProfile`: `INSERT OR REPLACE` of two columns, so the others get their defaults. -/
def PeerDirectory.savePeerProfile (rows : PeerDirectory) (peerID displayName : String) :
    PeerDirectory :=
  if peerID = "" ∨ displayName = "" then rows
  else Table.upsert (·.peerID) (fun _ new => new) rows { peerID, displayName }

def PeerDirectoryRow.mergeKey (old new : PeerDirectoryRow) : PeerDirectoryRow :=
  { old with
    displayName := if new.displayName ≠ "" then new.displayName else old.displayName
    publicKeyHex := if new.publicKeyHex ≠ "" then new.publicKeyHex else old.publicKeyHex }

def PeerDirectory.upsertPeerProfileWithKey (rows : PeerDirectory)
    (peerID displayName publicKeyHex : String) : PeerDirectory :=
  let peerID := trimSpace peerID
  if peerID = "" then rows
  else Table.upsert (·.peerID) PeerDirectoryRow.mergeKey rows
    { peerID, displayName := trimSpace displayName,
      publicKeyHex := toLower (trimSpace publicKeyHex) }

def PeerDirectoryRow.mergeSigned (old new : PeerDirectoryRow) : PeerDirectoryRow :=
  { new with
    publicKeyHex := if hasText new.publicKeyHex then new.publicKeyHex else old.publicKeyHex }

def PeerDirectory.upsertPeerDirectorySigned (rows : PeerDirectory) (row : PeerDirectoryRow) :
    PeerDirectory :=
  let peerID := trimSpace row.peerID
  if peerID = "" then rows
  else Table.upsert (·.peerID) PeerDirectoryRow.mergeSigned rows
    { row with
      peerID
      displayName := trimSpace row.displayName
      publicKeyHex := toLower (trimSpace row.publicKeyHex) }

inductive ProfileField
  | email
  | phone
  | avatar
  deriving DecidableEq

def ProfileField.parse (name : String) : Option ProfileField :=
  let name := toLower (trimSpace name)
  if name = "email" then some .email
  else if name = "phone" then some .phone
  else if name = "avatar" then some .avatar
  else none

structure ProfileUpdate where
  revision : Int
  email : String := ""
  phone : String := ""
  avatarHash : String := ""
  avatarMime : String := ""
  avatarUpdatedAt : Int := 0
  clearedFields : List String := []
  deriving DecidableEq

def ProfileUpdate.clears (u : ProfileUpdate) (field : ProfileField) : Bool :=
  field ∈ u.clearedFields.filterMap ProfileField.parse

def mergeField (cleared : Bool) (current : Option String) (incoming : String) : Option String :=
  if cleared then none else if incoming = "" then current else some incoming

def PeerDirectoryRow.merged (existing : PeerDirectoryRow) (u : ProfileUpdate)
    (signatureHex : String) : PeerDirectoryRow :=
  { existing with
    email := mergeField (u.clears .email) existing.email (trimSpace u.email)
    phone := mergeField (u.clears .phone) existing.phone (trimSpace u.phone)
    avatarHash := mergeField (u.clears .avatar) existing.avatarHash
      (trimSpace (toLower u.avatarHash))
    avatarMime := mergeField (u.clears .avatar) existing.avatarMime (trimSpace u.avatarMime)
    avatarUpdatedAt :=
      if u.clears .avatar then 0
      else if trimSpace u.avatarHash ≠ "" then u.avatarUpdatedAt
      else existing.avatarUpdatedAt
    profileRevision := u.revision
    profileSignature := some signatureHex }

-- -------- Reads

def PeerDirectory.getPeerIDByPublicKeyHex (rows : PeerDirectory) (publicKeyHex : String) : String :=
  let publicKeyHex := toLower (trimSpace publicKeyHex)
  if publicKeyHex = "" then ""
  else ((rows.find? (·.publicKeyHex = publicKeyHex)).map fun row => trimSpace row.peerID).getD ""

def PeerDirectory.listKnownProfilePeerIDs (rows : PeerDirectory) (excludePeerID : String)
    (limit : Nat) : List String :=
  let listed :=
    (rows.filter fun row => hasText row.peerID ∧ row.peerID ≠ trimSpace excludePeerID).take limit
  (listed.map fun row => trimSpace row.peerID).filter (· ≠ "")

end GroupCoordination
