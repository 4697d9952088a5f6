import GroupCoordination.Model.Proposal

/-!
# Application messages

`coordinator_application.go`, the receiving half of `coordinator_batch.go`, and the
helpers of `coordinator_replay.go` that report what happened to an envelope. An
application message is decrypted, stored and delivered in one transaction per
envelope; a batch carries several events in one envelope.
-/

namespace GroupCoordination

-- -------- Replay results

structure ReplayEnvelopeResult where
  groupID : String := ""
  msgType : Option MessageType := none
  envelopeHash : Bytes := []
  state : Option ReplayEnvelopeState := none
  msgEpoch : Nat := 0
  localEpoch : Nat := 0
  error : String := ""
  terminal : Bool := false
  cursorSafe : Bool := false
  applied : Bool := false
  alreadyApplied : Bool := false
  deriving DecidableEq

namespace ReplayEnvelopeResult

variable (r : ReplayEnvelopeResult)

def asDuplicate : ReplayEnvelopeResult :=
  { r with
    state := some .duplicateApplied, alreadyApplied := true, cursorSafe := true, terminal := true }

def asApplied : ReplayEnvelopeResult :=
  { r with state := some .applied, applied := true, cursorSafe := true, terminal := true }

def asStale : ReplayEnvelopeResult :=
  { r with state := some .staleEpoch, cursorSafe := true, terminal := true }

def asFuture : ReplayEnvelopeResult :=
  { r with state := some .futureEpoch }

def asFailed (state : ReplayEnvelopeState) (error : String) : ReplayEnvelopeResult :=
  { r with state := some state, error, terminal := true }

def asPersistFailed (error : String) : ReplayEnvelopeResult :=
  { r with state := some .persistFailed, error }

end ReplayEnvelopeResult

variable (x : Ctx)

def newReplayResultLocked (env : Envelope) (wire : Wire) (s : State) :
    ReplayEnvelopeResult where
  groupID := env.groupID
  msgType := some env.type
  envelopeHash := x.hashEnvelope wire
  msgEpoch := env.epoch
  localEpoch := s.epoch

def markReplayResultLocked (result : ReplayEnvelopeResult) (s : State) : State :=
  match result.state with
  | none => s
  | some state =>
    s.storeOrWarn (Storage.markEnvelopeReplayState x.disk s.storage result.envelopeHash state
      result.error)

def conclude (result : ReplayEnvelopeResult) (s : State) : ReplayEnvelopeResult × State :=
  (result, markReplayResultLocked x result s)

/-- `checkAppliedEnvelopeLocked`: only commits and single messages are looked up, and a
failed query counts as not applied. -/
def checkAppliedEnvelopeLocked (env : Envelope) (wire : Wire) (s : State) : Bytes × Bool :=
  if wire.isEmpty ∨ (env.type ≠ .commit ∧ env.type ≠ .application) then ([], false)
  else
    let envelopeHash := x.hashEnvelope wire
    match Storage.hasAppliedEnvelope x.disk s.storage envelopeHash with
    | .ok applied => (envelopeHash, applied)
    | .error _ => (envelopeHash, false)

-- -------- Direct deliveries

def sendDirectEnvelope (target : PeerID) (wire : Wire) (s : State) : State :=
  { s with sentDirect := s.sentDirect ++ [(target, wire)] }

def sendDeliveryAckLocked (target : PeerID) (envelopeHash : Bytes) (s : State) : State :=
  if target = [] ∨ target = x.localID ∨ envelopeHash = [] then s
  else
    let (s, ts) := s.stamp x
    sendDirectEnvelope target (buildEnvelopeWithEpochAndTimestampLocked x .deliveryAck
      (.deliveryAck envelopeHash) s.epoch ts) s

def applicationRecipientsLocked (s : State) : List PeerID :=
  let others (ids : List PeerID) := (ids.filter fun pid => pid ≠ [] ∧ pid ≠ x.localID).dedup
  if others s.activeView.sortedMembers = [] then others x.connectedPeers
  else others s.activeView.sortedMembers

def trackPendingApplicationDeliveriesLocked (wire : Wire) (envelopeHash : Bytes)
    (s : State) : State :=
  if x.cfg.applicationDirectRetryLimit = 0 then s
  else
    let isTracked (pid : PeerID) : Bool :=
      s.pendingAppDeliveries.any fun d => d.peerID = pid ∧ d.envelopeHash = envelopeHash
    let fresh := (applicationRecipientsLocked x s).filter (!isTracked ·)
    { s with
      pendingAppDeliveries := s.pendingAppDeliveries ++
        fresh.map fun pid => { peerID := pid, envelopeHash, envelope := wire, attempts := 0 } }

section

variable («from» : PeerID)

section

variable (env : Envelope)

def handleDeliveryAckLocked (s : State) : State :=
  match env.payload with
  | .deliveryAck envelopeHash =>
    if envelopeHash = [] then s
    else
      { s with
        pendingAppDeliveries := s.pendingAppDeliveries.filter fun d =>
          ¬ (d.peerID = «from» ∧ d.envelopeHash = envelopeHash) }
  | _ => s

/-- One turn of `applicationAckWatchLoop` after its timeout. -/
def applicationAckTimeout (pid : PeerID) (envelopeHash : Bytes) (s : State) : State :=
  match s.pendingAppDeliveries.find? fun d => d.peerID = pid ∧ d.envelopeHash = envelopeHash with
  | none => s
  | some pending =>
    if pending.attempts ≥ x.cfg.applicationDirectRetryLimit then s
    else
      sendDirectEnvelope pid pending.envelope
        { s with
          pendingAppDeliveries := s.pendingAppDeliveries.map fun d =>
            if d.peerID = pid ∧ d.envelopeHash = envelopeHash then
              { d with attempts := d.attempts + 1 }
            else d }

def retryOutstandingDeliveriesTo (pid : PeerID) (s : State) : State :=
  if pid = [] ∨ pid = x.localID then s
  else
    let wires := (s.pendingAppDeliveries.filter (·.peerID = pid)).map (·.envelope)
    { s with sentDirect := s.sentDirect ++ wires.map fun wire => (pid, wire) }

-- -------- Receiving

def firstSeenMs (envelopeHash : Bytes) (s : State) : Int :=
  match Storage.getEnvelope x.disk s.storage envelopeHash with
  | .ok (some row) => if row.firstSeenAtMs > 0 then row.firstSeenAtMs else x.nowMs
  | _ => x.nowMs

/-- Whether an envelope is recent enough. The age is measured from the local first sight,
not from the sender's clock. -/
def recentlySeen (envelopeHash : Bytes) (s : State) : Bool :=
  let ageSeconds := max 0 ((x.nowMs - firstSeenMs x envelopeHash s) / 1000)
  ¬ (x.cfg.getMaxPastAgeSeconds > 0 ∧ ageSeconds > x.cfg.getMaxPastAgeSeconds)

/-- The epoch check of both application handlers: a stale message is still processed
if the engine keeps its epoch's secrets and it was seen recently. -/
def applicationAction (envelopeHash : Bytes) (s : State) : EpochAction :=
  let action := s.epochTracker.validate env.epoch
  if action = .rejectStale ∧ addUInt64 env.epoch x.cfg.getMaxPastEpochs ≥ s.epoch ∧
      recentlySeen x envelopeHash s then .process
  else action

def sameEpochRecord (newState : Bytes) (s : State) : GroupRecord :=
  { groupState := newState, epoch := s.epoch, treeHash := s.treeHash, updatedAt := x.now }

def StoredMessage.identified (wire : Wire) (msg : StoredMessage) : StoredMessage :=
  { msg with envelopeHash := x.disk.hash wire, messageID := x.disk.hash wire }

def deliverLocked (msg : StoredMessage) (newState : Bytes) (env : Envelope) (wire : Wire)
    (s : State) : Except String (Bool × State) := do
  let (applied, db) ← Storage.applyApplication x.disk s.storage (sameEpochRecord x newState s) msg
    env.type wire env.timestamp env.epoch
  if !applied then .ok (false, s)
  else
    .ok (true, { s with
      storage := db
      groupState := newState
      delivered := s.delivered ++ [{ wire, message := msg.identified x wire }] })

def processApplicationLocked (wire : Wire)
    (result : ReplayEnvelopeResult) (s : State) : ReplayEnvelopeResult × State :=
  match env.payload with
  | .application ciphertext =>
    match s.hlc.update x.nowMs env.timestamp with
    | .error err => conclude x (result.asFailed .invalid ("hlc: " ++ err)) s
    | .ok (hlc, ts) =>
      let s := { s with hlc }
      let localTs :=
        if ts.nodeID = "" then { ts with nodeID := x.peers.toString x.localID } else ts
      match x.engine.decryptMessage s.groupState ciphertext with
      | .error err => conclude x (result.asFailed .decryptFailed err) s
      | .ok (plaintext, newState) =>
        let sender := decodeEnvelopePeerID x.peers env.from «from»
        let msg : StoredMessage :=
          { epoch := env.epoch, senderID := sender, content := nilIfEmpty plaintext,
            timestamp := localTs,
            envelopeHash := result.envelopeHash }
        match deliverLocked x msg newState env wire s with
        | .error err => conclude x (result.asPersistFailed err) s
        | .ok (false, s) => conclude x result.asDuplicate s
        | .ok (true, s) =>
          conclude x result.asApplied (sendDeliveryAckLocked x sender result.envelopeHash s)
  | _ => conclude x (result.asFailed .invalid "invalid application payload") s

def handleApplicationDetailedLocked (wire : Wire) (s : State) : ReplayEnvelopeResult × State :=
  let (envelopeHash, alreadyApplied) := checkAppliedEnvelopeLocked x env wire s
  let result := { newReplayResultLocked x env wire s with envelopeHash }
  if alreadyApplied then conclude x result.asDuplicate s
  else
    match applicationAction x env envelopeHash s with
    | .rejectStale => conclude x result.asStale s
    | .bufferFuture => conclude x result.asFuture (s.retain env.epoch wire)
    | .process => processApplicationLocked x «from» env wire result s

def handleApplicationLocked (wire : Wire) (s : State) : State :=
  (handleApplicationDetailedLocked x «from» env wire s).2

-- -------- Receiving a batch

def ApplicationEventPayload.message (sender : PeerID) (envelopeHash : Bytes)
    (ev : ApplicationEventPayload) : StoredMessage where
  epoch := env.epoch
  senderID := sender
  content := ev.plaintext
  timestamp := ev.hlc
  envelopeHash := envelopeHash

/-- The event row of one event of a batch. The source leaves its envelope hash unset. -/
def ApplicationEventPayload.deliveredEvent (draw : Nat) (env : Envelope) (sender : PeerID)
    (ev : ApplicationEventPayload) : ApplicationEvent :=
  let plaintext := ev.plaintext.getD []
  let sealed := x.sealer.sealPayload draw plaintext
  { eventID := ev.eventID
    originalEpoch := env.epoch
    authorID := x.peers.toString sender
    hlc := ev.hlc
    payloadSealed := match sealed with | .ok (payload, _) => payload | .error _ => []
    payloadHash := match sealed with | .ok _ => x.hash.sum plaintext | .error _ => []
    sealKeyID := "local_node_key"
    sealNonce := match sealed with | .ok (_, nonce) => nonce | .error _ => []
    status := .delivered
    createdAtMs := x.nowMs }

def deliverBatchedEvent (wire : Wire) (sender : PeerID)
    (envelopeHash : Bytes) (s : State) (ev : ApplicationEventPayload) : State :=
  match Storage.saveApplicationEvent x.disk s.storage
      (ev.deliveredEvent x s.storage.writes env sender) with
  | .error _ => s
  | .ok db =>
    { s with
      storage := db
      delivered := s.delivered ++ [{ wire, message := ev.message env sender envelopeHash }] }

end

/-- The envelope hash of the event rows is empty and its column is `NOT NULL`, so no
event of a batch is ever delivered. -/
theorem deliverBatchedEvent_eq (s : State) :
    deliverBatchedEvent x env wire sender envelopeHash s ev = s := by
  unfold deliverBatchedEvent
  rw [Storage.saveApplicationEvent_nil rfl]

theorem foldl_deliverBatchedEvent (events : List ApplicationEventPayload) (s : State) :
    events.foldl (deliverBatchedEvent x env wire sender envelopeHash) s = s :=
  List.foldl_fixed' (fun _ => deliverBatchedEvent_eq x s) events

/-- The writes at the end of a batch. Both errors are only logged. -/
def storeBatchLocked (msgs : List StoredMessage) (newState : Bytes) (env : Envelope)
    (wire : Wire) (s : State) : State :=
  let s := { s with groupState := newState }
  let s := s.unlessError (saveCurrentGroupStateLocked x s)
  s.storeOrWarn ((Storage.applyBatchedApplication x.disk s.storage (sameEpochRecord x newState s)
    msgs env.type wire env.timestamp env.epoch).map Prod.snd)

def handleApplicationBatchedLocked (env : Envelope) (wire : Wire) (s : State) : State :=
  let (envelopeHash, alreadyApplied) := checkAppliedEnvelopeLocked x env wire s
  if alreadyApplied then
    markReplayResultLocked x
      { newReplayResultLocked x env wire s with envelopeHash }.asDuplicate s
  -- A batch of a later epoch is not kept: anything but `process` ends here.
  else if applicationAction x env envelopeHash s ≠ .process then s
  else
    match env.payload with
    | .applicationBatched ciphertext =>
      match x.engine.decryptMessage s.groupState ciphertext with
      | .error _ => s
      | .ok (plaintext, newState) =>
        match x.codec.decodeBatch plaintext with
        | none => s
        | some events =>
          let sender := decodeEnvelopePeerID x.peers env.from «from»
          let s := events.foldl (deliverBatchedEvent x env wire sender envelopeHash) s
          storeBatchLocked x (events.map (·.message env sender envelopeHash)) newState env wire s
    | _ => s

end

-- -------- Sending

def sendMessage (plaintext : Bytes) (localEchoToken : String) (s : State) :
    Except String HLCTimestamp × State :=
  if s.healing then
    (.error "fork healing in progress: message rejected to avoid cross-epoch state corruption", s)
  else if !s.started then (.error "coordinator not started", s)
  else
    let s := updateLocalAccessRevocationLocked x s.groupState s.epoch s
    if s.accessRevoked then (.error errAccessRevoked, s)
    else
      let (s, stamped) := s.stamp x
      let ts := if stamped.nodeID = "" then
        { stamped with nodeID := x.peers.toString x.localID } else stamped
      match x.engine.encryptMessage s.groupState plaintext with
      | .error err => (.error ("encrypt: " ++ err), s)
      | .ok (ciphertext, newState) =>
        let env : Envelope :=
          { type := .application, groupID := x.groupID, epoch := s.epoch,
            «from» := x.peers.toString x.localID, timestamp := ts,
            payload := .application ciphertext }
        let envelopeHash := x.hashEnvelope env.marshal
        let msg : StoredMessage :=
          { epoch := s.epoch, senderID := x.localID, content := some plaintext, timestamp := ts,
            localEchoToken, envelopeHash }
        match deliverLocked x msg newState env env.marshal s with
        | .error err => (.error ("persist application: " ++ err), s)
        | .ok (false, s) => (.error "application envelope already applied", s)
        | .ok (true, s) =>
          let s := publishPreparedEnvelopeLocked .application env.marshal s
          (.ok ts, trackPendingApplicationDeliveriesLocked x env.marshal envelopeHash s)

end GroupCoordination
