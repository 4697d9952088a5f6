import GroupCoordination.Model.Texts
import Mathlib.Algebra.Ring.Int.Defs
import Mathlib.Algebra.Ring.Nat
import Mathlib.Data.Fin.Basic
import Mathlib.Data.List.Lex
import Mathlib.Data.List.MinMax
import Mathlib.Data.List.Sort

/-!
# Wire and persistence types

The messages of `types.go`, as decoded values. A byte slice is a list of bytes;
a nil slice and an empty one are the same list, except for the history hash, the
content of a message and the tree hash of an announcement, where the code or the
schema distinguishes them. Identifiers are strings as in the source, and a peer is
its raw `peer.ID` bytes: its printed form is a different string.

An envelope arrives as a `Wire`. Two byte strings may decode to one envelope
(JSON has many spellings), so a wire is an envelope together with its spelling,
or bytes that are no envelope at all. A payload is kept as what it decodes to for
the handler its envelope's type selects.

The engine is the Rust sidecar over OpenMLS; the coordinator sees a function from a serialized group
state to a result or an error. A deadline of `mlsOperationContext` is one more error.
-/

namespace GroupCoordination

-- -------- Messages

abbrev Byte := Fin 256

/-- Byte strings, ordered lexicographically as `bytes.Compare` orders them. -/
abbrev Bytes := List Byte

-- named, so that literals and membership tests mention the same proofs in every module
instance Byte.neZero : NeZero (256 : Nat) := ⟨by decide⟩

instance Bytes.lawfulBEq : LawfulBEq Bytes := inferInstance

abbrev PeerID := Bytes

/-- Comparison is lexicographic: wall time, counter, node. -/
structure HLCTimestamp where
  wallTimeMs : Int := 0
  counter : Nat := 0
  nodeID : String := ""
  deriving DecidableEq

inductive MessageType
  | proposal
  | commit
  | heartbeat
  | announce
  | epochNotify
  | application
  | applicationBatched
  | deliveryAck
  | historyQuery
  | historyReply
  | other (name : String)
  deriving DecidableEq

def MessageType.name : MessageType → String
  | .proposal => "proposal"
  | .commit => "commit"
  | .heartbeat => "heartbeat"
  | .announce => "announce"
  | .epochNotify => "epoch_notify"
  | .application => "application"
  | .applicationBatched => "application_batched"
  | .deliveryAck => "delivery_ack"
  | .historyQuery => "history_query"
  | .historyReply => "history_reply"
  | .other name => name

inductive ProposalType
  | add
  | remove
  | update
  | join
  | other (code : Nat)
  deriving DecidableEq

def ProposalType.code : ProposalType → Nat
  | .add => 0
  | .remove => 1
  | .update => 2
  | .join => 3
  | .other code => code

structure ProposalMsg where
  proposalType : ProposalType
  data : Bytes := []
  proposalRef : Bytes := []
  operationID : String := ""
  targetPeerID : String := ""
  targetIdentity : Bytes := []
  requestID : String := ""
  groupType : String := ""
  categoryID : String := ""
  keyPackageHash : Bytes := []
  deriving DecidableEq

structure AddCommitDelivery where
  operationID : String := ""
  targetPeerID : String := ""
  requestID : String := ""
  groupType : String := ""
  categoryID : String := ""
  keyPackageHash : Bytes := []
  welcomeHash : Bytes := []
  deriving DecidableEq

structure CommitMsg where
  commitData : Bytes := []
  newTreeHash : Bytes := []
  addDeliveries : List AddCommitDelivery := []
  includedProposals : List ProposalMsg := []
  committedProposalRefs : List Bytes := []
  deriving DecidableEq

structure BufferedProposal where
  type : ProposalType := .add
  data : Bytes := []
  proposalRef : Bytes := []
  operationID : String := ""
  targetPeerID : String := ""
  requestID : String := ""
  groupType : String := ""
  categoryID : String := ""
  keyPackageHash : Bytes := []
  deriving DecidableEq

structure GroupStateAnnouncement where
  /-- A JSON `null` decodes to nil, an empty text does not. -/
  treeHash? : Option Bytes := none
  memberCount : Int := 0
  epoch : Nat := 0
  commitHash : Bytes := []
  historyHash : Bytes := []
  deriving DecidableEq

def GroupStateAnnouncement.treeHash (ann : GroupStateAnnouncement) : Bytes := ann.treeHash?.getD []

/-- One event inside a decrypted batch. A JSON `null` decodes to no content. -/
structure ApplicationEventPayload where
  eventID : String
  plaintext : Option Bytes
  hlc : HLCTimestamp := {}
  deriving DecidableEq

structure HistoryReplyMsg where
  epoch : Nat
  historyHash : Bytes := []
  known : Bool
  deriving DecidableEq

/-- What a payload decodes to. For an envelope of a given type every other
constructor is a payload that type's handler fails to decode. -/
inductive Payload
  | proposal (msg : ProposalMsg)
  | commit (msg : CommitMsg)
  | heartbeat
  | announce (msg : GroupStateAnnouncement)
  | application (ciphertext : Bytes)
  | applicationBatched (ciphertext : Bytes)
  | deliveryAck (envelopeHash : Bytes)
  | historyQuery (epoch : Nat)
  | historyReply (msg : HistoryReplyMsg)
  | undecodable (raw : Bytes)
  deriving DecidableEq

/-- What an announcement or a history reply says about its sender's branch: an epoch and
the history hash in it. -/
def Payload.claim : Payload → Option (Nat × Bytes)
  | .announce msg => some (msg.epoch, msg.historyHash)
  | .historyReply msg => if msg.known then some (msg.epoch, msg.historyHash) else none
  | _ => none

structure Envelope where
  type : MessageType
  groupID : String
  epoch : Nat
  «from» : String
  timestamp : HLCTimestamp
  payload : Payload
  deriving DecidableEq

inductive Wire
  | json (env : Envelope) (spelling : Nat)
  | raw (bytes : Bytes)
  deriving DecidableEq

def Wire.isEmpty : Wire → Bool
  | .raw [] => true
  | _ => false

def Wire.unmarshal : Wire → Option Envelope
  | .json env _ => some env
  | .raw _ => none

def Envelope.marshal (env : Envelope) : Wire := .json env 0

@[simp] theorem Envelope.unmarshal_marshal (env : Envelope) :
    env.marshal.unmarshal = some env := rfl

-- -------- Hashes and peer names

/-- SHA-256 as the code uses it: a function to 32 bytes. -/
structure Hash where
  sum : Bytes → Bytes
  size : ∀ input, (sum input).length = 32

theorem Hash.sum_ne_nil (H : Hash) (input : Bytes) : H.sum input ≠ [] := by
  intro h
  have := H.size input
  simp [h] at this

/-- What the engine's protocol and the cipher return for no bytes is a nil slice. -/
def nilIfEmpty (bytes : Bytes) : Option Bytes := if bytes = [] then none else some bytes

def stringBytes (s : String) : Bytes := s.toUTF8.data.toList.map UInt8.toFin

def hexEncode (bytes : Bytes) : String :=
  String.ofList (bytes.flatMap fun b => [Nat.digitChar (b / 16), Nat.digitChar (b % 16)])

theorem hexEncode_ne_empty {bytes : Bytes} (h : bytes ≠ []) : hexEncode bytes ≠ "" := by
  cases bytes with
  | nil => exact absurd rfl h
  | cons b rest =>
    intro he
    have := congrArg String.toList he
    simp [hexEncode] at this

def le64 (n : Nat) : Bytes := (List.range 8).map fun i => Fin.ofNat 256 (n / 256 ^ i)

/-- The JSON encodings whose bytes matter: a wire's bytes are what is hashed, and
a batch's bytes are what is encrypted. -/
structure Codec where
  wireBytes : Wire → Bytes
  encodeBatch : List ApplicationEventPayload → Bytes
  decodeBatch : Bytes → Option (List ApplicationEventPayload)

structure PeerCodec where
  toString : PeerID → String
  decode : String → Option PeerID

/-- What libp2p documents about the codec: a peer has a printed form that decodes to it,
and the empty peer is never decoded. -/
structure PeerCodec.Lawful (C : PeerCodec) : Prop where
  toString_ne : ∀ pid, pid ≠ [] → C.toString pid ≠ ""
  decode_toString : ∀ pid, pid ≠ [] → C.decode (C.toString pid) = some pid
  decode_ne_nil : ∀ name pid, C.decode name = some pid → pid ≠ []

/-- `decodeEnvelopePeerID`: an empty or malformed name gives the fallback. -/
def decodeEnvelopePeerID (C : PeerCodec) (name : String) (fallback : PeerID) : PeerID :=
  if name = "" then fallback else (C.decode name).getD fallback

-- -------- Epochs and modes

inductive GroupOperationalMode
  | live
  | catchingUp
  | frozen
  | frozenForApply
  deriving DecidableEq

inductive EpochAction
  | process
  | rejectStale
  | bufferFuture
  deriving DecidableEq

inductive BranchResult
  | «local»
  | remote
  | equal
  deriving DecidableEq

def addUInt64 (a b : Nat) : Nat := (a + b) % 2 ^ 64

def int64 (x : Int) : Int := (x + 2 ^ 63) % 2 ^ 64 - 2 ^ 63

theorem int64_of_fits (lo : -2 ^ 63 ≤ x) (hi : x < 2 ^ 63) : int64 x = x := by
  unfold int64
  omega

-- -------- The MLS engine

structure CreateProposalResult where
  proposalBytes : Bytes
  proposalRef : Bytes
  newGroupState : Bytes

structure ProcessProposalResult where
  proposalRef : Bytes
  newGroupState : Bytes

structure CreateCommitResult where
  commitBytes : Bytes
  welcomeBytes : Bytes
  committedProposalRefs : List Bytes
  newGroupState : Bytes
  newTreeHash : Bytes

structure MLSEngine where
  createGroup : String → Bytes → Nat → Except String (Bytes × Bytes)
  createProposal : Bytes → ProposalType → Bytes → Except String CreateProposalResult
  processProposal : Bytes → Bytes → Except String ProcessProposalResult
  createCommit : Bytes → List Bytes → Except String CreateCommitResult
  /-- The refs of the proposals the staged commit covers. -/
  stageCommit : Bytes → Bytes → List Bytes → Except String (List Bytes)
  processCommit : Bytes → Bytes → List Bytes → Except String (Bytes × Bytes)
  processWelcome : Bytes → Bytes → Bytes → Nat → Except String (Bytes × Bytes × Nat)
  generateKeyPackage : Bytes → Except String (Bytes × Bytes)
  hasMember : Bytes → Bytes → Except String Bool
  encryptMessage : Bytes → Bytes → Except String (Bytes × Bytes)
  decryptMessage : Bytes → Bytes → Except String (Bytes × Bytes)

/-- `AuthorizedCommittersProvider`, called with the group, the epoch and the
candidate batch. -/
abbrev AuthorizedCommittersProvider :=
  String → Nat → List BufferedProposal → Except String (List PeerID)

end GroupCoordination
