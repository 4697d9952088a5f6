import GroupCoordination.Model.Trackers
import GroupCoordination.Model.Clock
import GroupCoordination.Model.SingleWriter
import GroupCoordination.Model.Storage

/-!
# The coordinator's state

`Node` is what a `Coordinator` never changes after construction, `World` what it
reads from outside in one step (the clock, the engine, the policy, the network,
the disk) and `State` what it guards with its mutex. A step of the system is one
critical section of the source, run in one `World`.

The callbacks are taken to be set, as the service sets them; `onSyncRequired` is
the one whose absence changes what the coordinator does.
-/

namespace GroupCoordination

/-- Immutable after construction. -/
structure Node where
  cfg : CoordinatorConfig
  valid : cfg.validate = .ok ()
  localID : PeerID
  groupID : String
  signingKey : Bytes
  /-- `deriveIdentityFromSigningKey`: the Ed25519 public key, empty for a malformed key. -/
  localIdentity : Bytes
  hash : Hash
  codec : Codec
  peers : PeerCodec
  onSyncRequired : Bool

/-- AES-GCM under the node's storage key. Every call draws a nonce of its own; the calls of a step
are told apart by the number of transactions committed before them. -/
structure Sealer where
  sealPayload : Nat → Bytes → Except String (Bytes × Bytes)
  openPayload : Bytes → Bytes → Except String Bytes

/-- What one step reads from outside. Times are nanoseconds. -/
structure World where
  now : Int
  engine : MLSEngine
  authorized : Option AuthorizedCommittersProvider
  works : Nat → StorageOp → Bool
  connectedPeers : List PeerID
  sealer : Sealer
  freshID : String
  /-- Where an iteration over a Go map begins. -/
  rotation : Nat

def World.WritesSucceed (w : World) : Prop :=
  ∀ n, ∀ op : StorageOp, op.isWrite = true → w.works n op = true

/-- A world in which a group record can be stored and the coordination state after it lost,
by an error or by the end of the process. -/
def World.LosesCoordState (w : World) : Prop :=
  ∃ n, w.works n .saveGroupRecord = true ∧ w.works (n + 1) .saveCoordState = false

structure Ctx extends Node, World

namespace Ctx

def nowMs (x : Ctx) : Int := x.now / 1000000

def nowSec (x : Ctx) : Int := x.now / 1000000000

def disk (x : Ctx) : Disk where
  hash wire := x.hash.sum (x.codec.wireBytes wire)
  nowMs := x.nowMs
  works := x.works

def hashEnvelope (x : Ctx) (wire : Wire) : Bytes :=
  if wire.isEmpty then [] else x.hash.sum (x.codec.wireBytes wire)

def hashCommitData (x : Ctx) (commitData : Bytes) : Bytes :=
  if commitData = [] then [] else x.hash.sum commitData

def initialHistoryHash (x : Ctx) : Bytes :=
  x.hash.sum (stringBytes "phoenix/history/v1" ++ stringBytes x.groupID)

/-- `computeHistoryHash`: `R(E) = H(R(E-1) ∥ CommitHash(E))`. -/
def computeHistoryHash (x : Ctx) (prevHistoryHash commitHash : Bytes) : Bytes :=
  x.hash.sum (prevHistoryHash ++ commitHash)

theorem hashEnvelope_eq (x : Ctx) {wire : Wire} (h : wire.isEmpty = false) :
    x.hashEnvelope wire = x.disk.hash wire := by
  simp [hashEnvelope, disk, h]

end Ctx

-- -------- What the coordinator emits

structure ProposalAuditSummary where
  epoch : Nat
  actorPeerID : String
  proposalType : ProposalType
  operationID : String := ""
  targetPeerID : String := ""
  requestID : String := ""
  groupType : String := ""
  categoryID : String := ""
  keyPackageHash : Bytes := []
  deriving DecidableEq

structure PendingOperationAuditSummary where
  operationID : String
  opType : OpType
  targetPeerID : String
  stage : String
  retryCount : Int := 0
  currentEpoch : Nat
  preconditionEpoch : Nat := 0
  lastError : String := ""
  deriving DecidableEq

/-- The callbacks other than `OnMessage`, in the order they are started. -/
inductive Callback
  | epochChange (epoch : Nat)
  | accessLost (epoch : Nat) (reason : String)
  | envelopeBroadcast (msgType : MessageType) (wire : Wire)
  | addCommitted (delivery : AddCommitDelivery) (epoch : Nat) (welcome : Bytes)
  | peerObserved (pid : PeerID)
  | proposalObserved (summary : ProposalAuditSummary)
  | commitIssued (prevEpoch newEpoch : Nat) (batch : List BufferedProposal)
  | pendingOperation (summary : PendingOperationAuditSummary)
  | forkHeal (stage traceID : String) (newEpoch : Nat)
  | syncRequired (remote : PeerID)
  deriving DecidableEq

-- -------- Deliveries and heals in flight

structure PendingAppDelivery where
  peerID : PeerID
  envelopeHash : Bytes
  envelope : Wire
  attempts : Int
  deriving DecidableEq

structure ReplayItem where
  event : ApplicationEvent
  payload : ApplicationEventPayload
  deriving DecidableEq

/-- Where a heal goroutine stands between two critical sections, with the local
variables it still needs. -/
inductive HealPhase
  | queued
  | snapshot (job : ForkHealingJob)
  | join (job : ForkHealingJob)
  | awaiting (job : ForkHealingJob) (attempt : Nat) (msg : ProposalMsg)
  | swap (job : ForkHealingJob)
  | replay (job : ForkHealingJob)
  | encrypt (job : ForkHealingJob) (index : Nat) (chunks : List (List ReplayItem))
  | assign (job : ForkHealingJob) (index : Nat) (chunk : List ReplayItem)
      (ciphertext newState : Bytes) (rest : List (List ReplayItem))
  | clean (job : ForkHealingJob)
  | thaw
  | restore
  | release
  deriving DecidableEq

structure HealRun where
  traceID : String
  event : ForkEvent
  phase : HealPhase
  deriving DecidableEq

-- -------- State

/-- A commit received and applied, with what decided about it: the message, the engine
state, the electorate and the single writer before it was applied. -/
structure AppliedCommit where
  env : Envelope
  commit : CommitMsg
  groupState : Bytes
  electorate : Electorate
  singleWriter : SingleWriter

inductive IssuePath
  | batch
  | addMember
  | removeMember
  deriving DecidableEq

/-- A commit issued here: the batch the local node was elected for, the batch the
commit carries, and what the election read. -/
structure IssuedCommit where
  path : IssuePath
  env : Envelope
  commit : CommitMsg
  electedFor : List BufferedProposal
  electorate : Electorate
  singleWriter : SingleWriter

structure Delivery where
  wire : Wire
  message : StoredMessage
  deriving DecidableEq

/-- A buffered message taken out of the future buffer: the epoch it was kept for
and the local epoch at its dispatch. -/
structure Dispatched where
  key : Nat
  wire : Wire
  epoch : Nat
  deriving DecidableEq

inductive OperationEvent
  | stored (op : PendingOperation)
  | proposed (operationID : String)
  deriving DecidableEq

/-- What a history hash stands for: the hash a chain of commits starts from, the epoch it
starts in, and the hashes of the commits since. -/
@[ext] structure Lineage where
  root : Bytes := []
  base : Nat := 0
  commits : List Bytes := []
  deriving DecidableEq

def Lineage.extend (l : Lineage) (commitHash : Bytes) : Lineage :=
  { l with commits := l.commits ++ [commitHash] }

structure State where
  groupState : Bytes
  treeHash : Bytes
  lastCommitHash : Bytes := []
  historyHash : Option Bytes := none
  historyChain : HistoryChain := []
  epoch : Nat
  activeView : ActiveView
  singleWriter : SingleWriter
  epochTracker : EpochTracker
  forkDetector : ForkDetector := {}
  /-- A timer is a number; the channel of the source that is compared with it. -/
  proposalTimer : Option Nat := none
  failoverTimer : Option Nat := none
  timerSeq : Nat := 0
  lastTokenHolder : PeerID := []
  startedAt : Int := 0
  started : Bool := true
  healing : Bool := false
  accessRevoked : Bool := false
  pendingAppDeliveries : List PendingAppDelivery := []
  syncRetryAttempts : Nat := 0
  deferredForkEvent : Option ForkEvent := none
  operationalMode : GroupOperationalMode := .live
  welcomeReceived : Bool := false
  hlc : HLC
  storage : Storage
  heal : Option HealRun := none
  /-- A resumed job whose goroutine has not claimed `healing` yet. -/
  resuming : Option ForkHealingJob := none
  published : List Wire := []
  sentDirect : List (PeerID × Wire) := []
  callbacks : List Callback := []
  delivered : List Delivery := []
  -- History variables: nothing the coordinator does depends on the fields below.
  /-- The envelopes the current event brought in, and the peer that sent them. -/
  arriving : List Wire := []
  arrivedFrom : PeerID := []
  /-- The commits the engine state comes from. -/
  lineage : Lineage := {}
  told : List (Nat × Bytes) := []
  /-- The forks a heal was scheduled for, with the commits taken by then. -/
  suspected : List (ForkEvent × Lineage) := []
  appliedCommits : List AppliedCommit := []
  issuedCommits : List IssuedCommit := []
  retained : List (Nat × Wire) := []
  inflight : List (Nat × Wire) := []
  dispatched : List Dispatched := []
  dropped : Nat := 0
  operationTrace : List OperationEvent := []
  exhausted : Bool := false

namespace State

def electorate (x : Ctx) (s : State) : Electorate where
  hash := x.hash
  codec := x.peers
  groupID := x.groupID
  members := s.activeView.sortedMembers
  authorized := x.authorized

def currentTokenHolder (x : Ctx) (s : State) : Except String PeerID :=
  s.singleWriter.currentTokenHolder (s.electorate x) x.cfg

def isTokenHolder (x : Ctx) (s : State) : Bool :=
  s.singleWriter.isTokenHolder (s.electorate x) x.cfg x.localID

def holderForBatch (x : Ctx) (s : State) (batch : List BufferedProposal) : Except String PeerID :=
  s.singleWriter.holderForBatch (s.electorate x) batch

def announcement (s : State) : GroupStateAnnouncement where
  treeHash? := nilIfEmpty s.treeHash
  memberCount := s.activeView.size
  epoch := s.epoch
  commitHash := s.lastCommitHash
  historyHash := s.historyHash.getD []

def stamp (x : Ctx) (s : State) : State × HLCTimestamp :=
  let (hlc, ts) := s.hlc.now x.nowMs
  ({ s with hlc }, ts)

def emit (s : State) (cb : Callback) : State := { s with callbacks := s.callbacks ++ [cb] }

def newTimer (s : State) : State × Nat := ({ s with timerSeq := s.timerSeq + 1 }, s.timerSeq)

end State

end GroupCoordination
