import GroupCoordination.Model.FileTransfer
import GroupCoordination.Model.State

/-!
# Exports of a group

What `group_info_sync.go` and `file_transfer.go` read of a coordinator. Every value is read under a
lock of its own, and the coordinator may take any number of steps between two reads: a read is from
the state of its moment. The engine's `ExportGroupInfo` and `ExportSecret` are parameters.
-/

namespace GroupCoordination

open Fallible (require)

structure GroupInfoResponse where
  v : Nat := 1
  groupID : String
  epoch : Nat
  treeHash : Bytes
  groupInfo : Bytes
  deriving DecidableEq

/-- The states in which `GetGroupState`, `GetTreeHash` and `CurrentEpoch` are called, in this
order. -/
structure ExportReads where
  groupState : State
  treeHash : State
  epoch : State

structure GroupInfoExportSnapshot where
  groupState : Bytes
  treeHash : Bytes
  epoch : Nat

def snapshotGroupForExport (groupID : String) (coord : Option ExportReads) (hasEngine : Bool) :
    Except String GroupInfoExportSnapshot := do
  require (trimSpace groupID ≠ "") "group_id is required"
  match coord with
  | none => .error "ERR_GROUP_NOT_FOUND: group not found"
  | some reads => do
    require hasEngine "mls engine not ready"
    return {
      groupState := reads.groupState.groupState
      treeHash := reads.treeHash.treeHash
      epoch := reads.epoch.epoch }

def exportLocalGroupInfo (exportGroupInfo : Bytes → Bool → Except String Bytes) (groupID : String)
    (withRatchetTree : Bool) (coord : Option ExportReads) (hasEngine : Bool) :
    Except String GroupInfoResponse := do
  let snap ← snapshotGroupForExport groupID coord hasEngine
  let groupInfo ← (exportGroupInfo snap.groupState withRatchetTree).mapError
    ("ExportGroupInfo: " ++ ·)
  return { groupID, epoch := snap.epoch, treeHash := snap.treeHash, groupInfo }

abbrev SecretExporter := Bytes → String → Bytes → Nat → Except String Bytes

def PrepareCall.reading (call : PrepareCall) (exportSecret : SecretExporter)
    (stateAt epochAt : State) : PrepareCall :=
  { call with exportSecret := exportSecret stateAt.groupState, exportEpoch := epochAt.epoch }

/-- The secret of `PullFileTransferFromPeer` for a manifest: the epoch is compared first, the engine
state is read afterwards. `sum` is the digest that `plaintext_sha256_hex` decodes to. -/
def pullSecret (exportSecret : SecretExporter) (manifestEpoch : Nat) (sum : Option Bytes)
    (epochAt stateAt : State) : Except String Bytes := do
  let localEpoch := epochAt.epoch
  require (manifestEpoch = localEpoch)
    s!"epoch mismatch: local={localEpoch} manifest={manifestEpoch} (wait for MLS group sync)"
  match sum with
  | none => .error "invalid manifest plaintext_sha256_hex"
  | some sum =>
    (exportSecret stateAt.groupState fileTransferLabel sum exportSecretLen).mapError
      ("ExportSecret: " ++ ·)

end GroupCoordination
