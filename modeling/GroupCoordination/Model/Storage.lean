import GroupCoordination.Lib.Table
import GroupCoordination.Model.Types

/-!
# Coordination storage

`coordination_storage.go` over the schema of `db.go`, for the rows of one group.
A table is the list of its rows in insertion order. A slice that is empty binds
as `NULL`, so a `NOT NULL` column rejects it. Every statement may fail: `Disk`
says which ones work in a step, and a statement that fails changes nothing. A
database logs its transactions, so a process that dies between two of them is a
disk on which nothing works from there on.

Rows the coordinator never reads back (diagnostics of a heal, the active view and
the token holder beside the history chain) are left out.
-/

namespace GroupCoordination

inductive GroupRole
  | creator
  | member
  deriving DecidableEq

structure GroupRecord where
  groupState : Bytes
  epoch : Nat
  treeHash : Bytes
  myRole : Option GroupRole := none
  groupType : String := ""
  categoryID : String := ""
  dmCounterpartyPeerID : String := ""
  createdAt : Int := 0
  updatedAt : Int := 0
  deriving DecidableEq

abbrev HistoryChain := List (Nat × Option Bytes)

def HistoryChain.get (chain : HistoryChain) (epoch : Nat) : Option (Option Bytes) :=
  (chain.find? (·.1 = epoch)).map Prod.snd

def HistoryChain.set (chain : HistoryChain) (epoch : Nat) (h : Option Bytes) : HistoryChain :=
  (epoch, h) :: chain.filter (·.1 ≠ epoch)

@[simp] theorem HistoryChain.get_set_self (chain : HistoryChain) :
    (chain.set epoch h).get epoch = some h := by
  simp [HistoryChain.get, HistoryChain.set]

theorem HistoryChain.get_set_of_ne (chain : HistoryChain) (hne : e ≠ epoch) :
    (chain.set epoch h).get e = chain.get e := by
  unfold HistoryChain.get HistoryChain.set
  rw [List.find?_cons_of_neg (by simpa using hne.symm), List.find?_filter]
  congr 2
  funext entry
  by_cases heq : entry.1 = e <;> simp [heq, hne]

structure CoordState where
  lastCommitHash : Bytes
  historyChain : HistoryChain
  deriving DecidableEq

structure StoredMessage where
  /-- The canonical identifier: the envelope hash, empty until it is stored. -/
  messageID : Bytes := []
  epoch : Nat
  senderID : PeerID
  /-- Without content the row violates `NOT NULL`; empty content is a blob of no bytes. -/
  content : Option Bytes
  timestamp : HLCTimestamp
  localEchoToken : String := ""
  envelopeHash : Bytes
  replayedAt : Option Int := none
  deriving DecidableEq

inductive ReplayEnvelopeState
  | received
  | ready
  | applied
  | duplicateApplied
  | futureEpoch
  | staleEpoch
  | decryptFailed
  | persistFailed
  | invalid
  | blockedMissingPriorEpoch
  | blockedMissingCommit
  | blockedStaleRequiresSnapshot
  | blockedDecryptFailed
  | forkConflict
  | waitingSync
  | terminalDroppedWithReason
  deriving DecidableEq

def ReplayEnvelopeState.name : ReplayEnvelopeState → String
  | .received => "RECEIVED"
  | .ready => "READY"
  | .applied => "APPLIED"
  | .duplicateApplied => "DUPLICATE"
  | .futureEpoch => "FUTURE_EPOCH"
  | .staleEpoch => "STALE_EPOCH"
  | .decryptFailed => "DECRYPT_FAILED"
  | .persistFailed => "PERSIST_FAILED"
  | .invalid => "INVALID"
  | .blockedMissingPriorEpoch => "BLOCKED_MISSING_PRIOR_EPOCH"
  | .blockedMissingCommit => "BLOCKED_MISSING_COMMIT"
  | .blockedStaleRequiresSnapshot => "BLOCKED_STALE_REQUIRES_SNAPSHOT"
  | .blockedDecryptFailed => "BLOCKED_DECRYPT_FAILED"
  | .forkConflict => "FORK_CONFLICT"
  | .waitingSync => "WAITING_SYNC"
  | .terminalDroppedWithReason => "TERMINAL_DROPPED_WITH_REASON"

/-- The `apply_state` column: the two values the insert statements write, or the
outcome of a replay attempt. -/
inductive ApplyState
  | pending
  | applied
  | replay (state : ReplayEnvelopeState)
  deriving DecidableEq

def ApplyState.isPending : ApplyState → Bool
  | .pending => true
  | .applied => false
  | .replay state => state ∈ [.received, .ready, .futureEpoch, .persistFailed,
      .blockedMissingPriorEpoch, .blockedMissingCommit, .forkConflict, .waitingSync]

structure EnvelopeRecord where
  seq : Nat
  msgType : MessageType
  epoch : Nat
  envelope : Wire
  timestamp : HLCTimestamp
  envelopeHash : Bytes
  sourcePath : String
  applyState : ApplyState
  lastApplyError : String := ""
  lastApplyAttemptAt : Int := 0
  appliedAt : Int := 0
  firstSeenAtMs : Int
  receivedAtMs : Int
  deriving DecidableEq

structure AppliedEnvelope where
  envelopeHash : Bytes
  msgType : MessageType
  epoch : Nat
  deriving DecidableEq

inductive OpType
  | addMember
  | removeMember
  deriving DecidableEq

inductive OpStatus
  | pending
  | proposed
  | committed
  | satisfiedByOther
  | superseded
  | failedPrecondition
  | failedExpired
  | failedRetryExhausted
  deriving DecidableEq

structure PendingOperation where
  operationID : String
  opType : OpType
  idempotencyKey : Option String
  operationHash : Bytes := []
  preconditionEpoch : Option Nat
  targetMemberID : Option String
  semanticPayload : Bytes
  latestProposalHash : Bytes := []
  status : OpStatus
  retryCount : Int := 0
  expiresAt : Option Int := none
  lastError : Option String := none
  createdAt : Int := 0
  updatedAt : Int := 0
  deriving DecidableEq

def PendingOperation.isOpen (op : PendingOperation) : Bool :=
  op.status = .pending ∨ op.status = .proposed

def PendingOperation.isReached (op : PendingOperation) : Bool :=
  op.status = .committed ∨ op.status = .satisfiedByOther

inductive JobStatus
  | initiated
  | snapshotCreated
  | proposalSent
  | externalJoined
  | stateSwapped
  | localComplete
  | cleaned
  | failedTerminal
  deriving DecidableEq

structure ForkHealingJob where
  jobID : String
  traceID : String
  status : JobStatus
  losingBranchID : Bytes := []
  winningBranchID : Bytes := []
  forkBaseEpoch : Nat := 0
  losingEpoch : Nat := 0
  winningEpoch : Nat := 0
  losingTreeHash : Bytes := []
  winningTreeHash : Option Bytes := none
  winningCommitHash : Bytes := []
  winnerPeerID : String := ""
  pendingGroupState : Bytes := []
  pendingEpoch : Nat := 0
  pendingTreeHash : Bytes := []
  pendingBundlePrivate : Bytes := []
  createdAtMs : Int := 0
  updatedAtMs : Int := 0
  completedAtMs : Int := 0
  deriving DecidableEq

def ForkHealingJob.isActive (job : ForkHealingJob) : Bool :=
  job.status ≠ .cleaned ∧ job.status ≠ .failedTerminal

inductive EventStatus
  | orphanedOwn
  | delivered
  | replayPending
  | replayEnqueued
  | replayed
  | replayFailed
  | waitingAuthorReplay
  | unrecoverable
  deriving DecidableEq

structure ApplicationEvent where
  eventID : String
  jobID : String := ""
  originalBranchID : Bytes := []
  originalEpoch : Nat
  authorID : String
  envelopeHash : Bytes := []
  payloadSealed : Bytes := []
  payloadHash : Bytes := []
  sealKeyID : String := ""
  sealNonce : Bytes := []
  hlc : HLCTimestamp := {}
  status : EventStatus
  replayOperationID : String := ""
  replayedEnvelopeHash : Bytes := []
  replayedAtMs : Int := 0
  replayAttemptCount : Int := 0
  lastError : String := ""
  createdAtMs : Int := 0
  updatedAtMs : Int := 0
  deriving DecidableEq

inductive OutboundStatus
  | enqueued
  | broadcasted
  | failed
  deriving DecidableEq

structure OutboundReplay where
  replayOperationID : String
  eventID : String
  jobID : String
  replayEnvelope : Wire
  replayedEnvelopeHash : Bytes
  status : OutboundStatus
  attemptCount : Int := 1
  createdAtMs : Int := 0
  updatedAtMs : Int := 0
  deriving DecidableEq

inductive StorageOp
  | getGroupRecord
  | saveGroupRecord
  | getCoordState
  | saveCoordState
  | applyCommit
  | applyApplication
  | applyBatchedApplication
  | hasAppliedEnvelope
  | markEnvelopeApplied
  | markEnvelopeReplayState
  | appendEnvelope
  | getEnvelope
  | getPendingEnvelopes
  | getMessagesByOwnerInRange
  | savePendingOperation
  | getPendingOperation
  | listPendingOperations
  | getPendingOperationByIdempotencyKey
  | saveForkHealingJob
  | getForkHealingJob
  | saveApplicationEvent
  | listApplicationEvents
  | clearSealedPayloads
  | saveOutboundReplay
  | listOutboundReplays
  deriving DecidableEq

structure Storage where
  group : Option GroupRecord := none
  coord : Option CoordState := none
  messages : List StoredMessage := []
  applied : List AppliedEnvelope := []
  dedup : List Bytes := []
  envelopeLog : List EnvelopeRecord := []
  pendingOperations : List PendingOperation := []
  jobs : List ForkHealingJob := []
  applicationEvents : List ApplicationEvent := []
  outboundReplays : List OutboundReplay := []
  /-- The transactions that were committed, newest first. -/
  log : List StorageOp := []
  deriving DecidableEq

def Storage.writes (db : Storage) : Nat := db.log.length

def Storage.written (db : Storage) (op : StorageOp) : Storage := { db with log := op :: db.log }

/-- Whether the coordination state was stored after the last commit. -/
def historySaved : List StorageOp → Bool
  | [] => true
  | .saveCoordState :: _ => true
  | .applyCommit :: _ => false
  | _ :: log => historySaved log

-- -------- Statements that may fail

def StorageOp.isWrite : StorageOp → Bool
  | .saveGroupRecord | .saveCoordState | .applyCommit | .applyApplication
  | .applyBatchedApplication | .markEnvelopeApplied | .markEnvelopeReplayState | .appendEnvelope
  | .savePendingOperation | .saveForkHealingJob | .saveApplicationEvent | .clearSealedPayloads
  | .saveOutboundReplay => true
  | _ => false

/-- The database in one step: its clock, the hash of an envelope's bytes, and
which statements work after how many transactions. -/
structure Disk where
  hash : Wire → Bytes
  nowMs : Int
  works : Nat → StorageOp → Bool

def Disk.exec (d : Disk) (db : Storage) (op : StorageOp) (name : String) (ok : Bool) (result : α) :
    Except String α :=
  if d.works db.writes op ∧ ok then .ok result else .error name

theorem Disk.exec_ok {d : Disk} (h : d.exec db op name ok result = .ok r) :
    d.works db.writes op = true ∧ ok = true ∧ r = result := by
  unfold Disk.exec at h
  split at h
  next hw =>
    cases h
    exact ⟨hw.1, hw.2, rfl⟩
  · cases h

def Disk.write (d : Disk) (db : Storage) (op : StorageOp) (name : String) (ok : Bool)
    (db' : Storage) : Except String Storage :=
  d.exec db op name ok (db'.written op)

/-- `database/sql` refuses a `uint64` parameter with its high bit set. -/
def bindable (n : Nat) : Bool := n < 2 ^ 63

-- -------- Group record and coordination state

def errGroupNotFound : String := "coordination: group not found"

def hasText (s : String) : Bool := s.toList.any (· ≠ ' ')

def GroupRecord.merge (old new : GroupRecord) : GroupRecord :=
  let groupType := if new.groupType ≠ "" then new.groupType else old.groupType
  { groupState := new.groupState
    epoch := new.epoch
    treeHash := new.treeHash
    myRole := if new.myRole.isSome then new.myRole else old.myRole
    groupType
    dmCounterpartyPeerID :=
      if groupType = "dm" then
        if hasText new.dmCounterpartyPeerID then new.dmCounterpartyPeerID
        else old.dmCounterpartyPeerID
      else ""
    categoryID :=
      if groupType = "channel" then
        if hasText new.categoryID then new.categoryID else old.categoryID
      else ""
    createdAt := old.createdAt
    updatedAt := new.updatedAt }

def GroupRecord.savable (rec : GroupRecord) : Bool := rec.groupState ≠ [] ∧ bindable rec.epoch

def Storage.putGroupRecord (db : Storage) (rec : GroupRecord) : Storage :=
  { db with group := some ((db.group.map (·.merge rec)).getD rec) }

theorem Storage.putGroupRecord_group (db : Storage) (rec : GroupRecord) :
    ∃ stored, (db.putGroupRecord rec).group = some stored ∧ stored.groupState = rec.groupState ∧
      stored.epoch = rec.epoch ∧ stored.treeHash = rec.treeHash := by
  unfold putGroupRecord
  cases db.group with
  | none => exact ⟨rec, rfl, rfl, rfl, rfl⟩
  | some old => exact ⟨old.merge rec, rfl, rfl, rfl, rfl⟩

def Storage.saveGroupRecord (d : Disk) (db : Storage) (rec : GroupRecord) : Except String Storage :=
  d.write db .saveGroupRecord "SaveGroupRecord" rec.savable (db.putGroupRecord rec)

def Storage.getGroupRecord (d : Disk) (db : Storage) : Except String GroupRecord :=
  match db.group with
  | none => .error errGroupNotFound
  | some rec => d.exec db .getGroupRecord "GetGroupRecord" true rec

def Storage.saveCoordState (d : Disk) (db : Storage) (coord : CoordState) : Except String Storage :=
  -- The chain is stored as hex strings: a nil hash comes back as an empty one.
  let chain := coord.historyChain.map fun (epoch, h) => (epoch, some (h.getD []))
  d.write db .saveCoordState "SaveCoordState" true
    { db with coord := some { coord with historyChain := chain } }

def Storage.getCoordState (d : Disk) (db : Storage) : Except String CoordState :=
  match db.coord with
  | none => .error errGroupNotFound
  | some coord => d.exec db .getCoordState "GetCoordState" true coord

-- -------- Envelope log

def Storage.hasApplied (db : Storage) (envelopeHash : Bytes) : Bool :=
  envelopeHash ∈ db.applied.map (·.envelopeHash)

def Storage.hasAppliedEnvelope (d : Disk) (db : Storage) (envelopeHash : Bytes) :
    Except String Bool :=
  if envelopeHash = [] then .ok false
  else d.exec db .hasAppliedEnvelope "HasAppliedEnvelope" true (db.hasApplied envelopeHash)

def Storage.setReplayState (db : Storage) (now : Int) (envelopeHash : Bytes)
    (state : ReplayEnvelopeState) (lastErr : String) : Storage :=
  { db with
    envelopeLog := db.envelopeLog.map fun row =>
      if row.envelopeHash = envelopeHash then
        { row with
          applyState := .replay state
          lastApplyError := lastErr
          lastApplyAttemptAt := now
          appliedAt := if state = .applied ∨ state = .duplicateApplied then now else row.appliedAt }
      else row }

def Storage.markEnvelopeReplayState (d : Disk) (db : Storage) (envelopeHash : Bytes)
    (state : ReplayEnvelopeState) (lastErr : String) : Except String Storage :=
  if envelopeHash = [] then .ok db
  else d.write db .markEnvelopeReplayState "MarkEnvelopeReplayState" true
    (db.setReplayState (d.nowMs / 1000) envelopeHash state lastErr)

theorem Storage.markEnvelopeReplayState_ok
    (h : markEnvelopeReplayState d db envelopeHash state err = .ok db') :
    db' = db ∨ db' = (db.setReplayState (d.nowMs / 1000) envelopeHash state err).written
      .markEnvelopeReplayState := by
  unfold markEnvelopeReplayState at h
  split at h
  · exact .inl (Except.ok.inj h).symm
  · exact .inr (Disk.exec_ok h).2.2

def Storage.putApplied (db : Storage) (now : Int) (row : AppliedEnvelope) : Storage :=
  { db with
    applied := Table.insertOrIgnore AppliedEnvelope.envelopeHash db.applied row }.setReplayState
      now row.envelopeHash .applied ""

def Storage.nextSeq (db : Storage) : Nat := (db.envelopeLog.map (·.seq)).foldl max 0 + 1

/-- The two insert statements of the log, which differ in source and state. A known
envelope only gets a new arrival time. -/
def Storage.putEnvelope (db : Storage) (d : Disk) (msgType : MessageType) (epoch : Nat)
    (ts : HLCTimestamp) (envelope : Wire) (sourcePath : String) (applyState : ApplyState)
    (appliedAt : Int) : Storage :=
  let envelopeHash := d.hash envelope
  if envelopeHash ∈ db.dedup then
    { db with
      envelopeLog := db.envelopeLog.map fun row =>
        if row.envelopeHash = envelopeHash then { row with receivedAtMs := d.nowMs } else row }
  else
    { db with
      dedup := db.dedup ++ [envelopeHash]
      envelopeLog := db.envelopeLog ++
        [{ seq := db.nextSeq, msgType, epoch, envelope, timestamp := ts, envelopeHash, sourcePath,
           applyState, appliedAt, firstSeenAtMs := d.nowMs, receivedAtMs := d.nowMs }] }

theorem Storage.putEnvelope_eq (db : Storage) :
    db.putEnvelope d msgType epoch ts wire source applyState appliedAt = { db with
      dedup := (db.putEnvelope d msgType epoch ts wire source applyState appliedAt).dedup
      envelopeLog :=
        (db.putEnvelope d msgType epoch ts wire source applyState appliedAt).envelopeLog } := by
  unfold putEnvelope
  dsimp only
  split <;> rfl

/-- `AppendEnvelopeWithSource`: a duplicate rolls back, so its row keeps its arrival time. -/
def Storage.appendEnvelopeWithSource (d : Disk) (db : Storage) (msgType : MessageType)
    (epoch : Nat) (ts : HLCTimestamp) (envelope : Wire) (sourcePath : String) :
    Except String Storage :=
  if d.hash envelope ∈ db.dedup then d.exec db .appendEnvelope "AppendEnvelope" true db
  else
    let source := if sourcePath = "" then "local" else sourcePath
    d.write db .appendEnvelope "AppendEnvelope" (bindable epoch)
      (db.putEnvelope d msgType epoch ts envelope source .pending 0)

theorem Storage.appendEnvelopeWithSource_ok
    (h : appendEnvelopeWithSource d db msgType epoch ts wire source = .ok db') :
    db' = db ∨ ∃ source, db' =
      (db.putEnvelope d msgType epoch ts wire source .pending 0).written .appendEnvelope := by
  unfold appendEnvelopeWithSource at h
  split at h
  · exact .inl (Disk.exec_ok h).2.2
  · exact .inr ⟨_, (Disk.exec_ok h).2.2⟩

theorem Storage.appendEnvelopeWithSource_writes
    (h : appendEnvelopeWithSource d db msgType epoch ts wire source = .ok db') :
    db' = db ∨ ∃ dedup envelopeLog, db' = Storage.written
      { db with dedup, envelopeLog } .appendEnvelope := by
  obtain rfl | ⟨_, rfl⟩ := appendEnvelopeWithSource_ok h
  · exact .inl rfl
  · exact .inr ⟨_, _, congrArg (written · _) (putEnvelope_eq db)⟩

def Storage.appendEnvelope (d : Disk) (db : Storage) (msgType : MessageType) (epoch : Nat)
    (ts : HLCTimestamp) (envelope : Wire) : Except String Storage :=
  Storage.appendEnvelopeWithSource d db msgType epoch ts envelope "local"

def Storage.getEnvelope (d : Disk) (db : Storage) (envelopeHash : Bytes) :
    Except String (Option EnvelopeRecord) :=
  d.exec db .getEnvelope "GetEnvelope" true (db.envelopeLog.find? (·.envelopeHash = envelopeHash))

def HLCTimestamp.le (a b : HLCTimestamp) : Bool :=
  if a.wallTimeMs ≠ b.wallTimeMs then a.wallTimeMs < b.wallTimeMs
  else if a.counter ≠ b.counter then a.counter < b.counter
  else stringBytes a.nodeID ≤ stringBytes b.nodeID

def Storage.getPendingEnvelopes (d : Disk) (db : Storage) (maxCount : Int) :
    Except String (List EnvelopeRecord) :=
  let limit := if maxCount < 1 then 100 else maxCount.toNat
  let le (a b : EnvelopeRecord) : Bool :=
    if a.epoch ≠ b.epoch then a.epoch < b.epoch else a.timestamp.le b.timestamp
  d.exec db .getPendingEnvelopes "GetPendingEnvelopes" true
    (((db.envelopeLog.filter (·.applyState.isPending)).insertionSort (le · ·)).take limit)

-- -------- Apply transactions

/-- `saveMessageTx`: `OR IGNORE` covers both the unique index on the envelope hash
and the `NOT NULL` content. -/
def Storage.putMessage (db : Storage) (msg : StoredMessage) : Storage :=
  if msg.content.isNone then db
  else { db with messages := Table.insertOrIgnore StoredMessage.envelopeHash db.messages msg }

theorem Storage.foldl_putMessage_eq (msgs : List StoredMessage) (db : Storage) :
    msgs.foldl putMessage db = { db with messages := (msgs.foldl putMessage db).messages } := by
  induction msgs generalizing db with
  | nil => rfl
  | cons msg msgs ih =>
    refine (ih (db.putMessage msg)).trans ?_
    rw [List.foldl_cons]
    generalize (msgs.foldl putMessage (db.putMessage msg)).messages = messages
    unfold putMessage
    split <;> rfl

/-- What the three apply transactions share: nothing happens to an envelope already
applied; otherwise the record, the messages, the applied mark and the log row go
in together, or not at all. -/
def Storage.applyEnvelope (d : Disk) (op : StorageOp) (name : String) (db : Storage)
    (rec : GroupRecord) (msgs : List StoredMessage) (msgType : MessageType) (envelope : Wire)
    (ts : HLCTimestamp) (envEpoch : Nat) : Except String (Bool × Storage) :=
  let envelopeHash := d.hash envelope
  if envelope.isEmpty then .error (name ++ ": invalid input")
  else if db.hasApplied envelopeHash then d.exec db op name true (false, db)
  else
    let stored := msgs.map fun msg => { msg with envelopeHash, messageID := envelopeHash }
    let logged := (stored.foldl putMessage (db.putGroupRecord rec)).putApplied (d.nowMs / 1000)
      { envelopeHash, msgType, epoch := rec.epoch }
    let fresh := envelopeHash ∉ db.dedup
    let bound := rec.savable ∧ stored.all (bindable ·.epoch) ∧ (fresh → bindable envEpoch)
    d.exec db op name bound
      (true, (logged.putEnvelope d msgType envEpoch ts envelope "local" .applied
        (d.nowMs / 1000)).written op)

/-- Either the envelope was applied before and nothing changes, or everything goes in. -/
theorem Storage.applyEnvelope_ok
    (h : applyEnvelope d op name db record msgs msgType wire ts epoch = .ok (fresh, db')) :
    fresh = false ∧ db' = db ∨
    fresh = true ∧ ¬ db.hasApplied (d.hash wire) ∧ db' =
      ((((msgs.map fun msg =>
        { msg with envelopeHash := d.hash wire, messageID := d.hash wire }).foldl
        putMessage (db.putGroupRecord record)).putApplied (d.nowMs / 1000)
          { envelopeHash := d.hash wire, msgType,
            epoch := record.epoch }).putEnvelope d msgType epoch ts wire
            "local" .applied (d.nowMs / 1000)).written op := by
  unfold applyEnvelope at h
  dsimp only at h
  split at h
  · cases h
  split at h
  · obtain ⟨-, -, heq⟩ := Disk.exec_ok h
    exact .inl (Prod.mk.inj heq)
  next hfresh =>
    obtain ⟨-, -, heq⟩ := Disk.exec_ok h
    exact .inr ⟨(Prod.mk.inj heq).1, hfresh, (Prod.mk.inj heq).2⟩

theorem Storage.applyEnvelope_writes
    (h : applyEnvelope d op name db record msgs msgType wire ts epoch = .ok (fresh, db')) :
    db' = db ∨ ∃ group messages applied dedup envelopeLog, db' = Storage.written { db with
      group, messages, applied, dedup, envelopeLog } op := by
  obtain ⟨-, rfl⟩ | ⟨-, -, rfl⟩ := applyEnvelope_ok h
  · exact .inl rfl
  · rw [putEnvelope_eq, foldl_putMessage_eq]
    exact .inr ⟨_, _, _, _, _, rfl⟩

def Storage.applyCommit (d : Disk) (db : Storage) (rec : GroupRecord) (msgType : MessageType)
    (envelope : Wire) (ts : HLCTimestamp) (envEpoch : Nat) : Except String (Bool × Storage) :=
  Storage.applyEnvelope d .applyCommit "ApplyCommit" db rec [] msgType envelope ts envEpoch

def Storage.applyApplication (d : Disk) (db : Storage) (rec : GroupRecord) (msg : StoredMessage)
    (msgType : MessageType) (envelope : Wire) (ts : HLCTimestamp) (envEpoch : Nat) :
    Except String (Bool × Storage) :=
  Storage.applyEnvelope d .applyApplication "ApplyApplication" db rec
    [msg] msgType envelope ts envEpoch

def Storage.applyBatchedApplication (d : Disk) (db : Storage) (rec : GroupRecord)
    (msgs : List StoredMessage) (msgType : MessageType) (envelope : Wire) (ts : HLCTimestamp)
    (envEpoch : Nat) : Except String (Bool × Storage) :=
  if msgs = [] then .error "ApplyBatchedApplication: invalid input"
  else Storage.applyEnvelope d .applyBatchedApplication "ApplyBatchedApplication" db
    rec msgs msgType
    envelope ts envEpoch

def Storage.getMessagesByOwnerInRange (d : Disk) (db : Storage) (sender : PeerID)
    (startMs endMs : Int) : Except String (List StoredMessage) :=
  let inRange (msg : StoredMessage) : Bool :=
    msg.senderID = sender ∧ startMs ≤ msg.timestamp.wallTimeMs ∧ msg.timestamp.wallTimeMs ≤ endMs
  d.exec db .getMessagesByOwnerInRange "GetMessagesByOwnerInRange" true
    ((db.messages.filter inRange).insertionSort (·.timestamp.le ·.timestamp))

-- -------- Pending operations

/-- The partial unique index: two open operations never share a key. -/
def Storage.keyTaken (db : Storage) (op : PendingOperation) : Bool :=
  op.isOpen ∧ op.idempotencyKey.isSome ∧
    db.pendingOperations.any fun other =>
      other.operationID ≠ op.operationID ∧ other.isOpen ∧ other.idempotencyKey = op.idempotencyKey

def Storage.savePendingOperation (d : Disk) (db : Storage) (op : PendingOperation) :
    Except String Storage :=
  let row := { op with idempotencyKey := op.idempotencyKey.filter (· ≠ "") }
  let ok := row.semanticPayload ≠ [] ∧ (row.preconditionEpoch.all bindable) ∧ !db.keyTaken row
  d.write db .savePendingOperation "SavePendingOperation" ok
    { db with
      pendingOperations := Table.upsert PendingOperation.operationID
        (fun old new => { new with createdAt := old.createdAt }) db.pendingOperations row }

def Storage.getPendingOperation (d : Disk) (db : Storage) (opID : String) :
    Except String PendingOperation :=
  match Table.get PendingOperation.operationID db.pendingOperations opID with
  | none => .error "sql: no rows in result set"
  | some op => d.exec db .getPendingOperation "GetPendingOperation" true op

/-- Statuses other than the open ones may repeat a key: the oldest row is read. -/
def Storage.getPendingOperationByIdempotencyKey (d : Disk) (db : Storage) (key : String) :
    Except String PendingOperation :=
  match db.pendingOperations.find? (·.idempotencyKey = some key) with
  | none => .error "sql: no rows in result set"
  | some op =>
    d.exec db .getPendingOperationByIdempotencyKey "GetPendingOperationByIdempotencyKey" true op

def Storage.listPendingOperations (d : Disk) (db : Storage) :
    Except String (List PendingOperation) :=
  d.exec db .listPendingOperations "ListPendingOperations" true
    (db.pendingOperations.insertionSort (·.createdAt ≤ ·.createdAt))

-- -------- Fork healing

/-- `SaveForkHealingJob`: the private bundle has no column, and at most one job of a
group is active. -/
def Storage.saveForkHealingJob (d : Disk) (db : Storage) (job : ForkHealingJob) :
    Except String Storage :=
  let row := { job with pendingBundlePrivate := [] }
  let epochs := bindable row.forkBaseEpoch ∧ bindable row.losingEpoch ∧
    bindable row.winningEpoch ∧ bindable row.pendingEpoch
  let clash := row.isActive ∧ db.jobs.any fun other => other.jobID ≠ row.jobID ∧ other.isActive
  d.write db .saveForkHealingJob "SaveForkHealingJob" (row.winningTreeHash ≠ none ∧ epochs ∧ ¬clash)
    { db with
      jobs := Table.upsert ForkHealingJob.jobID
        (fun old new => { new with createdAtMs := old.createdAtMs }) db.jobs row }

def Storage.getActiveForkHealingJob (d : Disk) (db : Storage) :
    Except String (Option ForkHealingJob) :=
  d.exec db .getForkHealingJob "GetActiveForkHealingJob" true (db.jobs.find? (·.isActive))

def ApplicationEvent.merge (old new : ApplicationEvent) : ApplicationEvent :=
  { old with
    payloadSealed := new.payloadSealed
    status := new.status
    replayOperationID := new.replayOperationID
    replayedEnvelopeHash := new.replayedEnvelopeHash
    replayedAtMs := new.replayedAtMs
    replayAttemptCount := new.replayAttemptCount
    lastError := new.lastError
    updatedAtMs := new.updatedAtMs }

/-- `envelope_hash` and `payload_hash` are `NOT NULL`. -/
def Storage.saveApplicationEvent (d : Disk) (db : Storage) (ev : ApplicationEvent) :
    Except String Storage :=
  d.write db .saveApplicationEvent "SaveApplicationEvent"
    (ev.envelopeHash ≠ [] ∧ ev.payloadHash ≠ [] ∧ bindable ev.originalEpoch)
    { db with
      applicationEvents := Table.upsert ApplicationEvent.eventID ApplicationEvent.merge
        db.applicationEvents ev }

theorem Storage.saveApplicationEvent_nil (h : ev.envelopeHash = []) :
    Storage.saveApplicationEvent d db ev = .error "SaveApplicationEvent" := by
  simp [saveApplicationEvent, Disk.write, Disk.exec, h]

def Storage.listApplicationEvents (d : Disk) (db : Storage) (jobID : String) :
    Except String (List ApplicationEvent) :=
  let le (a b : ApplicationEvent) : Bool :=
    if a.hlc.wallTimeMs ≠ b.hlc.wallTimeMs then a.hlc.wallTimeMs < b.hlc.wallTimeMs
    else a.hlc.counter ≤ b.hlc.counter
  d.exec db .listApplicationEvents "ListApplicationEvents" true
    ((db.applicationEvents.filter (·.jobID = jobID)).insertionSort (le · ·))

def Storage.clearSealedPayloads (d : Disk) (db : Storage) (jobID : String) :
    Except String Storage :=
  let settled (ev : ApplicationEvent) : Bool :=
    ev.jobID = jobID ∧ ev.status ∈ [.replayed, .waitingAuthorReplay, .unrecoverable]
  d.write db .clearSealedPayloads "ClearSealedPayloads" true
    { db with
      applicationEvents := db.applicationEvents.map fun ev =>
        if settled ev then { ev with payloadSealed := [], sealNonce := [], sealKeyID := "" }
        else ev }

def Storage.saveOutboundReplay (d : Disk) (db : Storage) (req : OutboundReplay) :
    Except String Storage :=
  d.write db .saveOutboundReplay "SaveOutboundReplay"
    (!req.replayEnvelope.isEmpty ∧ req.replayedEnvelopeHash ≠ [])
    { db with
      outboundReplays := Table.upsert OutboundReplay.replayOperationID
        (fun old new => { old with
          status := new.status, attemptCount := new.attemptCount, updatedAtMs := new.updatedAtMs })
        db.outboundReplays req }

def Storage.listOutboundReplays (d : Disk) (db : Storage) (jobID : String) :
    Except String (List OutboundReplay) :=
  d.exec db .listOutboundReplays "ListOutboundReplays" true
    (db.outboundReplays.filter (·.jobID = jobID))

def Storage.markMessageReplayed (d : Disk) (db : Storage) (envelopeHash : Bytes) : Storage :=
  if envelopeHash = [] ∨ !d.works db.writes .markEnvelopeReplayState then db
  else
    { db with
      messages := db.messages.map fun msg =>
        if msg.envelopeHash = envelopeHash then { msg with replayedAt := some d.nowMs } else msg
      log := .markEnvelopeReplayState :: db.log }

end GroupCoordination
