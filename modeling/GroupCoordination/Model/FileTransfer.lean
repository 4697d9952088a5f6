import GroupCoordination.Lib.Fallible
import GroupCoordination.Model.Types

/-!
# Outgoing file transfers

`PrepareOutgoingFileTransfer` of `file_transfer.go` and the chunk encryption of
`pkg/filetransfer/crypto.go`. A call reads its source three times: `os.Stat` gives the size, a first
open gives what is hashed, a second open gives what is encrypted. Each may answer differently, so
each is an input of its own. What a call has sealed is kept also when it fails afterwards.

Left out: the name, the extension and the MIME type of the file, which only the chat message uses,
and the events.
-/

namespace GroupCoordination

open Fallible (require)

-- -------- crypto.go

def fileTransferLabel : String := "file-transfer"

def exportSecretLen : Nat := 44

def aesKeyLen : Nat := 32

def gcmNonceLen : Nat := 12

def defaultChunkBytes : Nat := 2 ^ 20

def splitExporterMaterial (secret : Bytes) : Except String (Bytes × Bytes) :=
  if secret.length = exportSecretLen then
    .ok (secret.take aesKeyLen, (secret.drop aesKeyLen).take gcmNonceLen)
  else .error s!"filetransfer: exporter secret must be 44 bytes: got {secret.length}"

def indexByte (x i : Nat) : Byte := ⟨x / 256 ^ i % 256, Nat.mod_lt _ (by decide)⟩

/-- `NonceForChunk`: the index is XORed into the first eight bytes. -/
def nonceForChunk (baseNonce : Bytes) (chunkIndex : Nat) : Except String Bytes :=
  if baseNonce.length = gcmNonceLen then
    .ok (baseNonce.mapIdx fun i b => if i < 8 then b ^^^ indexByte chunkIndex i else b)
  else .error "filetransfer: base nonce must be 12 bytes"

structure SealedChunk where
  aesKey : Bytes
  nonce : Bytes
  plaintext : Bytes
  deriving DecidableEq

/-- `EncryptChunk`, up to the ciphertext that `gcm.Seal` makes of its arguments. -/
def encryptChunk (aesKey baseNonce : Bytes) (chunkIndex : Nat) (plaintext : Bytes) :
    Except String SealedChunk := do
  require (aesKey.length = aesKeyLen) "filetransfer: AES key must be 32 bytes"
  let nonce ← nonceForChunk baseNonce chunkIndex
  return { aesKey, nonce, plaintext }

/-- `ChunkCount`: the sum is an `int64`, so for a chunk size near the top the count is not
positive. -/
def chunkCount (fileSize chunkBytes : Nat) : Int :=
  if chunkBytes = 0 then 0 else (int64 (fileSize + chunkBytes - 1)).tdiv chunkBytes

-- -------- file_transfer.go

def maxFileTransferBytes : Nat := 100 * 1024 * 1024

structure FileInfo where
  size : Nat
  isDir : Bool := false
  deriving DecidableEq

structure PrepareCall where
  sessionActive : Bool := true
  groupID : String
  stat : Except String FileInfo
  hasCoordinator : Bool := true
  hasEngine : Bool := true
  chunkBytes : Int
  /-- What the first open reads, and is hashed. -/
  hashed : Except String Bytes
  /-- `ExportSecret` of the engine for the group's state: label, context, length. -/
  exportSecret : String → Bytes → Nat → Except String Bytes
  exportEpoch : Nat := 0
  fileID : Except String String
  mkdirWorks : Bool := true
  /-- What the second open can read. -/
  reopened : Except String Bytes
  writes : Nat → Bool := fun _ => true
  senderPeerID : String := ""
  recordWorks : Bool := true

def PrepareCall.chunkSize (call : PrepareCall) : Nat :=
  if call.chunkBytes ≤ 0 then defaultChunkBytes else call.chunkBytes.toNat

structure ChunkSource where
  size : Nat
  chunkBytes : Nat
  chunks : Nat
  fileSum : Bytes
  aesKey : Bytes
  baseNonce : Bytes
  fileID : String
  /-- The rest of the second open. -/
  source : Bytes
  deriving DecidableEq

def PrepareCall.begin (sha256 : Bytes → Bytes) (call : PrepareCall) :
    Except String ChunkSource := do
  require call.sessionActive "session has been replaced by a newer device"
  require (trimSpace call.groupID ≠ "") "group_id is required"
  let fi ← call.stat
  require (fi.isDir = false) "source path is a directory"
  require (fi.size ≠ 0) "empty file"
  require (fi.size ≤ maxFileTransferBytes)
    s!"ERR_FILE_TOO_LARGE: file exceeds {maxFileTransferBytes} bytes"
  require call.hasCoordinator "ERR_GROUP_NOT_FOUND: group not found"
  require call.hasEngine "crypto engine not available"
  let chunks := chunkCount fi.size call.chunkSize
  require (chunks > 0) "invalid chunking"
  let fileSum := sha256 (← call.hashed)
  let rawSecret ←
    (call.exportSecret fileTransferLabel fileSum exportSecretLen).mapError ("ExportSecret: " ++ ·)
  let (aesKey, baseNonce) ← splitExporterMaterial rawSecret
  let fileID ← call.fileID
  require call.mkdirWorks "mkdir staging"
  let source ← call.reopened
  return {
    size := fi.size
    chunkBytes := call.chunkSize
    chunks := chunks.toNat
    fileSum, aesKey, baseNonce, fileID, source }

/-- The loop: `chunks` more chunks from number `i` on, of which `remaining` bytes are to come. What
was sealed stays sealed when the loop fails. -/
def ChunkSource.sealChunks (src : ChunkSource) (writes : Nat → Bool) :
    (chunks i remaining : Nat) → Bytes → List SealedChunk × Except String Unit
  | 0, _, _, _ => ([], .ok ())
  | chunks + 1, i, remaining, source =>
    let n := min src.chunkBytes remaining
    if n = 0 then ([], .ok ())
    else if source.length < n then ([], .error s!"read plaintext chunk {i}")
    else
      match encryptChunk src.aesKey src.baseNonce i (source.take n) with
      | .error err => ([], .error s!"encrypt chunk {i}: {err}")
      | .ok sealed =>
        if writes i = false then ([sealed], .error "write ciphertext chunk")
        else
          let (rest, result) := src.sealChunks writes chunks (i + 1) (remaining - n) (source.drop n)
          (sealed :: rest, result)

structure FileTransferRecord where
  fileID : String
  groupID : String
  plaintextSHA256 : Bytes
  plaintextSize : Nat
  chunkSize : Nat
  chunkCount : Nat
  exportEpoch : Nat
  senderPeerID : String
  deriving DecidableEq

structure PrepareOutcome where
  sealed : List SealedChunk
  result : Except String FileTransferRecord

def prepareOutgoingFileTransfer (sha256 : Bytes → Bytes) (call : PrepareCall) : PrepareOutcome :=
  match call.begin sha256 with
  | .error err => ⟨[], .error err⟩
  | .ok src =>
    let (sealed, done) := src.sealChunks call.writes src.chunks 0 src.size src.source
    { sealed
      result := do
        done
        require call.recordWorks "UpsertFileTransfer"
        return {
          fileID := src.fileID
          groupID := trimSpace call.groupID
          plaintextSHA256 := src.fileSum
          plaintextSize := src.size
          chunkSize := src.chunkBytes
          chunkCount := src.chunks
          exportEpoch := call.exportEpoch
          senderPeerID := call.senderPeerID } }

end GroupCoordination
