import GroupCoordination.Model.Welcome

/-!
# The tables of a membership

What a node stores about one group besides the coordinator's own tables: the lifecycle and the
creator on the group's row, the roster, the Welcomes that the node keeps for others and for itself,
and the invites it was sent. From `db_invite_assets.go`, `db_group_metadata.go` and
`db_group_members.go`, one function to a statement.

Left out are the columns that nothing here reads: categories, display names, avatars, DM
counterparties and the times on member rows.
-/

namespace GroupCoordination

-- -------- Rows

inductive Lifecycle
  | active
  | left
  deriving DecidableEq

inductive GroupMemberRole
  | creator
  | admin
  | member
  deriving DecidableEq

structure GroupMemberRecord where
  peerID : String
  role : GroupMemberRole
  status : Lifecycle
  deriving DecidableEq

structure StoredWelcome where
  inviteePeerID : String
  groupType : String
  welcomeBytes : Bytes
  sourcePeerID : String
  anchorEpoch : Nat
  anchorHistoryHash : Bytes
  createdAt : Int
  deriving DecidableEq

inductive PendingInviteStatus
  | pending
  | accepted
  | rejected
  | invalid
  | expired
  deriving DecidableEq

structure PendingInvite where
  id : String
  groupType : String
  inviterPeerID : String
  welcomeHash : Bytes
  welcomeBytes : Bytes
  sourcePeerID : String
  status : PendingInviteStatus
  receivedAt : Int
  updatedAt : Int
  deriving DecidableEq

structure OutgoingWelcome where
  targetPeerID : String
  welcomeBytes : Bytes
  delivered : Bool
  anchorEpoch : Nat
  anchorHistoryHash : Bytes
  deriving DecidableEq

/-- What a node stores about the group. The lifecycle and the creator are columns of the group's
row, which is `storage.group`. -/
structure MembershipStore where
  storage : Storage := {}
  lifecycle : Lifecycle := .active
  groupCreatorPeerID : String := ""
  members : List GroupMemberRecord := []
  storedWelcomes : List StoredWelcome := []
  pendingInvites : List PendingInvite := []
  pendingWelcomesOut : List OutgoingWelcome := []
  appliedWelcomes : List Bytes := []
  deriving DecidableEq

-- -------- The group's row

def errNoRows : String := "sql: no rows in result set"

variable (db : MembershipStore)

def MembershipStore.isGroupActive : Except String Bool :=
  if db.storage.group.isSome then .ok (db.lifecycle = .active) else .error errNoRows

def MembershipStore.markGroupLeft : MembershipStore :=
  { db with lifecycle := .left }

/-- `SetGroupCreatorPeerID`: the first value that is not blank stays. -/
def MembershipStore.setGroupCreatorPeerID (creatorPeerID : String) : MembershipStore :=
  if db.storage.group.isSome ∧ hasText db.groupCreatorPeerID = false then
    { db with groupCreatorPeerID := trimSpace creatorPeerID }
  else db

theorem MembershipStore.setGroupCreatorPeerID_cases (creatorPeerID : String) :
    db.setGroupCreatorPeerID creatorPeerID = db ∨
      hasText db.groupCreatorPeerID = false ∧
        db.setGroupCreatorPeerID creatorPeerID =
          { db with groupCreatorPeerID := trimSpace creatorPeerID } := by
  unfold setGroupCreatorPeerID
  split
  · exact .inr ⟨‹_ ∧ _›.2, rfl⟩
  · exact .inl rfl

def Storage.purge (db : Storage) : Storage :=
  { db with group := none, coord := none, applied := [], dedup := [], envelopeLog := [] }

def MembershipStore.purgeGroupMetadata : MembershipStore :=
  { storage := db.storage.purge }

def StorageOp.writesGroup : StorageOp → Bool
  | .saveGroupRecord | .applyCommit | .applyApplication | .applyBatchedApplication => true
  | _ => false

/-- The coordinator's tables after writes of its own. Writing the group's row makes the group active
again, even if it was left. -/
def MembershipStore.written (storage : Storage) : MembershipStore :=
  let fresh := storage.log.take (storage.writes - db.storage.writes)
  { db with
    storage
    lifecycle := if fresh.any StorageOp.writesGroup then .active else db.lifecycle }

-- -------- The roster

def MembershipStore.getGroupMember (peerID : String) : Except String GroupMemberRecord :=
  match Table.get GroupMemberRecord.peerID db.members peerID with
  | some rec => .ok rec
  | none => .error errNoRows

def GroupMemberRecord.merge (old new : GroupMemberRecord) : GroupMemberRecord :=
  { old with role := if old.role = .creator then .creator else new.role, status := new.status }

def GroupMemberRecord.mergePreservingRole (old new : GroupMemberRecord) : GroupMemberRecord :=
  { old with status := new.status }

def MembershipStore.upsertGroupMember (merge : GroupMemberRecord → GroupMemberRecord →
    GroupMemberRecord) (rec : GroupMemberRecord) : MembershipStore :=
  { db with members := Table.upsert GroupMemberRecord.peerID merge db.members rec }

def MembershipStore.markGroupMemberLeft (peerID : String) : MembershipStore :=
  { db with
    members := db.members.map fun rec => if rec.peerID = peerID then { rec with status := .left }
      else rec }

-- -------- Stored Welcomes

def normalizeGroupType (groupType : String) : String :=
  let groupType := trimSpace groupType
  if groupType = "dm" ∨ groupType = "group" then groupType else "channel"

def StoredWelcome.merge (old new : StoredWelcome) : StoredWelcome :=
  { new with
    sourcePeerID := if hasText new.sourcePeerID then new.sourcePeerID else old.sourcePeerID
    anchorEpoch := if new.anchorEpoch > old.anchorEpoch then new.anchorEpoch else old.anchorEpoch
    anchorHistoryHash :=
      if new.anchorEpoch > old.anchorEpoch then new.anchorHistoryHash else old.anchorHistoryHash }

def StoredWelcome.mergeIfNewer (old new : StoredWelcome) : StoredWelcome :=
  let newer : Bool := new.createdAt ≥ old.createdAt
  { inviteePeerID := old.inviteePeerID
    groupType := if newer then new.groupType else old.groupType
    welcomeBytes := if newer then new.welcomeBytes else old.welcomeBytes
    sourcePeerID :=
      if hasText new.sourcePeerID ∧ newer then new.sourcePeerID else old.sourcePeerID
    anchorEpoch := if new.anchorEpoch > old.anchorEpoch then new.anchorEpoch else old.anchorEpoch
    anchorHistoryHash :=
      if new.anchorEpoch > old.anchorEpoch then new.anchorHistoryHash else old.anchorHistoryHash
    createdAt := if newer then new.createdAt else old.createdAt }

def MembershipStore.getStoredWelcome (inviteePeerID : String) : Except String StoredWelcome :=
  match Table.get StoredWelcome.inviteePeerID db.storedWelcomes inviteePeerID with
  | some row => .ok row
  | none => .error errNoRows

theorem MembershipStore.getStoredWelcome_ok {db : MembershipStore}
    (h : db.getStoredWelcome inviteePeerID = .ok row) :
    row ∈ db.storedWelcomes ∧ row.inviteePeerID = inviteePeerID := by
  unfold getStoredWelcome at h
  split at h
  · cases h
    exact Table.mem_of_get ‹_›
  · cases h

def MembershipStore.saveStoredWelcome (merge : StoredWelcome → StoredWelcome → StoredWelcome)
    (row : StoredWelcome) : MembershipStore :=
  let row := { row with
    groupType := normalizeGroupType row.groupType, sourcePeerID := trimSpace row.sourcePeerID }
  { db with storedWelcomes := Table.upsert StoredWelcome.inviteePeerID merge db.storedWelcomes row }

def MembershipStore.deleteStoredWelcome (inviteePeerID : String) : MembershipStore :=
  { db with storedWelcomes := db.storedWelcomes.filter (·.inviteePeerID ≠ inviteePeerID) }

-- -------- Welcomes to deliver

def MembershipStore.savePendingWelcome (row : OutgoingWelcome) : MembershipStore :=
  { db with
    pendingWelcomesOut :=
      db.pendingWelcomesOut.filter (·.targetPeerID ≠ row.targetPeerID) ++ [row] }

def MembershipStore.setDelivered (delivered : Bool) (which : String → Bool) : MembershipStore :=
  { db with
    pendingWelcomesOut := db.pendingWelcomesOut.map fun row =>
      if which row.targetPeerID then { row with delivered } else row }

-- -------- Invites

def Node.pendingInviteID (node : Node) (welcome : Bytes) : String :=
  hexEncode (node.hash.sum (stringBytes node.groupID ++ 0 :: welcome))

def Node.pendingInviteHash (node : Node) (welcome : Bytes) : Bytes := node.hash.sum welcome

def MembershipStore.getPendingInvite (id : String) : Except String PendingInvite :=
  match Table.get PendingInvite.id db.pendingInvites id with
  | some inv => .ok inv
  | none => .error errNoRows

theorem MembershipStore.getPendingInvite_ok {db : MembershipStore} {inviteID : String}
    (h : db.getPendingInvite inviteID = .ok inv) : inv ∈ db.pendingInvites ∧ inv.id = inviteID := by
  unfold getPendingInvite at h
  split at h
  · cases h
    exact Table.mem_of_get ‹_›
  · cases h

def newerBy (a b : Int × Int) : Bool := b.1 < a.1 ∨ b.1 = a.1 ∧ b.2 < a.2

/-- `GetLatestPendingInviteByGroup`: `ORDER BY updated_at DESC, received_at DESC LIMIT 1`. Rows of
the same times come in any order. -/
def MembershipStore.getLatestPendingInvite (pick : Nat) : Except String PendingInvite :=
  let latest := db.pendingInvites.filter fun inv =>
    db.pendingInvites.all fun other =>
      newerBy (other.updatedAt, other.receivedAt) (inv.updatedAt, inv.receivedAt) = false
  match (latest.rotate pick).head? with
  | some inv => .ok inv
  | none => .error errNoRows

def MembershipStore.listPendingInvites : List PendingInvite :=
  (db.pendingInvites.filter (·.status = .pending)).mergeSort fun a b =>
    newerBy (b.receivedAt, b.updatedAt) (a.receivedAt, a.updatedAt) = false

theorem MembershipStore.mem_listPendingInvites {db : MembershipStore} :
    inv ∈ db.listPendingInvites ↔ inv ∈ db.pendingInvites ∧ inv.status = .pending := by
  simp [listPendingInvites]

def PendingInvite.merge (old new : PendingInvite) : PendingInvite :=
  { old with
    groupType := new.groupType
    inviterPeerID := if old.inviterPeerID = "" then new.inviterPeerID else old.inviterPeerID
    welcomeBytes := new.welcomeBytes
    sourcePeerID := if new.sourcePeerID ≠ "" then new.sourcePeerID else old.sourcePeerID
    status := if old.status = .accepted ∨ old.status = .rejected then old.status else new.status
    updatedAt := new.updatedAt }

/-- `SavePendingInvite`. The conflict clause is for the Welcome's hash; a row of another hash under
the same id makes the statement fail. -/
def MembershipStore.savePendingInvite (inv : PendingInvite) : Except String MembershipStore :=
  let inv := { inv with groupType := normalizeGroupType inv.groupType }
  if inv.welcomeHash ∉ db.pendingInvites.map (·.welcomeHash) ∧
    inv.id ∈ db.pendingInvites.map (·.id) then
    .error "SavePendingInvite"
  else
    .ok { db with
      pendingInvites :=
        Table.upsert PendingInvite.welcomeHash PendingInvite.merge db.pendingInvites inv }

theorem MembershipStore.savePendingInvite_ok {db : MembershipStore}
    (h : db.savePendingInvite inv = .ok db') :
    db' = { db with
      pendingInvites := Table.upsert PendingInvite.welcomeHash PendingInvite.merge db.pendingInvites
        { inv with groupType := normalizeGroupType inv.groupType } } := by
  unfold savePendingInvite at h
  dsimp only at h
  split at h
  · cases h
  · cases h
    rfl

def MembershipStore.markPendingInviteStatus (now : Int) (id : String)
    (status : PendingInviteStatus) : Except String MembershipStore :=
  if id ∈ db.pendingInvites.map (·.id) then
    .ok { db with
      pendingInvites := db.pendingInvites.map fun inv =>
        if inv.id = id then { inv with status, updatedAt := now } else inv }
  else .error errNoRows

theorem MembershipStore.markPendingInviteStatus_ok {db : MembershipStore} {id : String}
    (h : db.markPendingInviteStatus now id status = .ok db') :
    db' = { db with
      pendingInvites := db.pendingInvites.map fun inv =>
        if inv.id = id then { inv with status, updatedAt := now } else inv } := by
  unfold markPendingInviteStatus at h
  split at h
  · cases h
    rfl
  · cases h

def PendingInvite.reopen (now : Int) (inv row : PendingInvite) : PendingInvite where
  id := inv.id
  groupType := normalizeGroupType inv.groupType
  inviterPeerID :=
    if trimSpace inv.inviterPeerID ≠ "" then trimSpace inv.inviterPeerID else row.inviterPeerID
  welcomeHash := inv.welcomeHash
  welcomeBytes := inv.welcomeBytes
  sourcePeerID :=
    if trimSpace inv.sourcePeerID ≠ "" then trimSpace inv.sourcePeerID else row.sourcePeerID
  status := .pending
  receivedAt := now
  updatedAt := now

def MembershipStore.reopened (now : Int) (inv : PendingInvite) : List PendingInvite :=
  let rejected := db.pendingInvites.filter (·.status = .rejected)
  db.pendingInvites.map fun row =>
    if row.status = .rejected ∧ rejected.all (·.updatedAt ≤ row.updatedAt) then
      PendingInvite.reopen now inv row
    else row

/-- `ReopenRejectedInvite`. The primary key and the Welcome's hash stay unique. -/
def MembershipStore.reopenRejectedInvite (now : Int) (inv : PendingInvite) :
    Except String MembershipStore :=
  let rows := db.reopened now inv
  if db.pendingInvites.all (·.status ≠ .rejected) then .error errNoRows
  else if (rows.map (·.id)).Nodup ∧ (rows.map (·.welcomeHash)).Nodup then
    .ok { db with pendingInvites := rows }
  else .error "ReopenRejectedInvite"

theorem MembershipStore.reopenRejectedInvite_ok {db : MembershipStore}
    (h : db.reopenRejectedInvite now inv = .ok db') :
    db' = { db with pendingInvites := db.reopened now inv } := by
  unfold reopenRejectedInvite at h
  dsimp only at h
  split at h
  · cases h
  split at h
  · cases h
    rfl
  · cases h

def MembershipStore.markWelcomeApplied (welcome : Bytes) : MembershipStore :=
  { db with appliedWelcomes := Table.insertOrIgnore id db.appliedWelcomes welcome }

end GroupCoordination
