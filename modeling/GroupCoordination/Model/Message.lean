import GroupCoordination.Model.Commit
import GroupCoordination.Model.Heal

/-!
# Receiving

`coordinator_message.go` and `ReplayEnvelopesDetailed`: the two ways envelopes come
in. A live message passes the receive checks and then the operational mode decides:
while the coordinator catches up or heals, commits and application messages only go
to the envelope log, and of everything else only control messages are handled.
-/

namespace GroupCoordination

def validateSenderTimestamp (nowMs senderMs : Int) : Except String Unit :=
  let maxFutureSkewMs : Int := 5 * 60 * 1000
  if senderMs > nowMs + maxFutureSkewMs then
    .error ("sender timestamp too far in future: received " ++ toString senderMs ++
      " is more than " ++ toString maxFutureSkewMs ++ "ms ahead of physical " ++ toString nowMs)
  else .ok ()

-- -------- Control messages

variable (x : Ctx) (call : Call → State → State) («from» : PeerID)

def observePeerAliveLocked (s : State) : State :=
  if «from» = [] ∨ «from» = x.localID then s
  else
    let (activeView, fresh) := s.activeView.recordHeartbeat «from»
    let s := { s with activeView }
    if fresh then s.emit (.peerObserved «from») else s

def sendControl (target : PeerID) (msgType : MessageType) (payload : Payload) (s : State) : State :=
  let (s, ts) := s.stamp x
  sendDirectEnvelope target (buildEnvelopeWithTimestampLocked x s msgType payload ts) s

def recordAnnouncement (env : Envelope) (ann : GroupStateAnnouncement)
    (s : State) : State × Option ForkEvent :=
  let (forkDetector, event) := s.forkDetector.processRemote x.now «from» env.epoch ann
  ({ s with forkDetector }, event)

/-- `handleAnnounceLocked`: in the same epoch another history is a fork; a peer ahead is asked
for the history of the local epoch. -/
def handleAnnounceLocked (env : Envelope) (s : State) : State :=
  match env.payload with
  | .announce ann =>
    if ann.epoch = s.epoch then
      let local' : GroupStateAnnouncement :=
        { historyHash := s.historyHash.getD [], epoch := s.epoch }
      match recordAnnouncement x «from» env ann s with
      | (s, some event) =>
        if !sameBranch ann local' ∧ event.needExternalJoin then
          scheduleHeal x { event with groupID := x.groupID } s
        else s
      | (s, none) => s
    else if ann.epoch > s.epoch then
      let s := sendControl x «from» .historyQuery (.historyQuery s.epoch) s
      (recordAnnouncement x «from» env ann s).1
    else (recordAnnouncement x «from» env ann s).1
  | _ => s

def handleHistoryQueryLocked (env : Envelope) (s : State) : State :=
  match env.payload with
  | .historyQuery epoch =>
    let reply : HistoryReplyMsg := match s.historyChain.get epoch with
      | some h => { epoch, historyHash := h.getD [], known := true }
      | none => { epoch, known := false }
    let s := { s with told := s.told ++ (Payload.historyReply reply).claim.toList }
    sendControl x «from» .historyReply (.historyReply reply) s
  | _ => s

def confirmFork (reply : HistoryReplyMsg) (s : State) : State :=
  let (result, remoteAnn, _) := s.forkDetector.compareWithPeer x.rotation «from»
  if result ≠ .remote then s
  else
    scheduleHeal x
      { groupID := x.groupID
        remotePeer := «from»
        localAnnounce := s.announcement
        remoteAnnounce := remoteAnn
        remoteEpoch := if remoteAnn.epoch = 0 then reply.epoch else remoteAnn.epoch
        result := result
        needExternalJoin := true } s

/-- `handleHistoryReplyLocked`: the same history means a sync, another one a fork. -/
def handleHistoryReplyLocked (env : Envelope) (s : State) : State :=
  match env.payload with
  | .historyReply reply =>
    if !reply.known then s
    else
      match s.historyChain.get reply.epoch with
      | none => s
      | some localHash =>
        if localHash.getD [] = reply.historyHash ∧ x.onSyncRequired then
          s.emit (.syncRequired «from»)
        else confirmFork x «from» reply s
  | _ => s

/-- `handleControlMessageLocked`: what is still handled while commits and messages are not. -/
def handleControlMessageLocked (env : Envelope) (s : State) : State :=
  match env.type with
  | .heartbeat => observePeerAliveLocked x «from» s
  | .announce => handleAnnounceLocked x «from» env s
  | .deliveryAck => handleDeliveryAckLocked «from» env s
  | .historyQuery => handleHistoryQueryLocked x «from» env s
  | .historyReply => handleHistoryReplyLocked x «from» env s
  | _ => s

-- -------- Live messages

def acceptsRaw (data : Wire) : Option Envelope :=
  match data.unmarshal with
  | none => none
  | some env =>
    let checked : Bool := env.type = .commit ∨ env.type = .application ∨ env.type = .proposal
    if «from» = x.localID ∨ env.groupID ≠ x.groupID then none
    else if checked ∧ (validateSenderTimestamp x.nowMs env.timestamp.wallTimeMs).isOk = false then
      none
    else some env

def handleLiveLocked (env : Envelope) (data : Wire) (s : State) : State :=
  match env.type with
  | .proposal => handleProposalLocked x call «from» env s
  | .commit => (handleCommitLocked x call env data s).2
  | .application => handleApplicationLocked x «from» env data s
  | .applicationBatched => handleApplicationBatchedLocked x «from» env data s
  | _ => handleControlMessageLocked x «from» env s

def handleAcceptedLocked (env : Envelope) (data : Wire) (s : State) : State :=
  match s.operationalMode with
  | .catchingUp =>
    if env.type = .commit ∨ env.type = .application then
      if x.cfg.offlineSyncEnabled then
        s.storeOrWarn (Storage.appendEnvelopeWithSource x.disk s.storage env.type env.epoch
          env.timestamp data "gossip_catchup")
      else s
    else handleControlMessageLocked x «from» env s
  | .frozenForApply =>
    if env.type = .commit ∨ env.type = .application then
      s.storeOrWarn (Storage.appendEnvelope x.disk s.storage env.type env.epoch env.timestamp data)
    else handleControlMessageLocked x «from» env s
  | _ => handleLiveLocked x call «from» env data s

def handleRawMessage (data : Wire) (s : State) : State :=
  match acceptsRaw x «from» data with
  | none => s
  | some env => handleAcceptedLocked x call «from» env data s

-- -------- Replayed envelopes

/-- One envelope of `ReplayEnvelopesDetailed`. An empty one is skipped without a result. -/
def replayEnvelope (raw : Wire) (s : State) : Option ReplayEnvelopeResult × State :=
  if raw.isEmpty then (none, s)
  else
    match raw.unmarshal with
    | none =>
      (some (({ envelopeHash := x.hashEnvelope raw } : ReplayEnvelopeResult).asFailed .invalid
        "invalid envelope"), s)
    | some env =>
      let result := newReplayResultLocked x env raw s
      if env.groupID ≠ x.groupID then
        (some (result.asFailed .invalid ("envelope group \"" ++ env.groupID ++
          "\" does not match coordinator group \"" ++ x.groupID ++ "\"")), s)
      else
        match validateSenderTimestamp x.nowMs env.timestamp.wallTimeMs with
        | .error err => (some (result.asFailed .invalid err), s)
        | .ok () =>
          match env.type with
          | .commit =>
            let (result, s) := handleCommitDetailedLocked x call env raw s
            (some result, s)
          | .application =>
            let (result, s) := handleApplicationDetailedLocked x
              (decodeEnvelopePeerID x.peers env.from []) env raw s
            (some result, s)
          | _ =>
            (some (result.asFailed .invalid
              ("unsupported envelope type \"" ++ env.type.name ++ "\"")),
              s)

def replayEnvelopes (x : Ctx) (call : Call → State → State) :
    List Wire → State → List ReplayEnvelopeResult × State
  | [], s => ([], s)
  | raw :: rest, s =>
    let (result, s) := replayEnvelope x call raw s
    let (results, s) := replayEnvelopes x call rest s
    (result.toList ++ results, s)

/-- `ReplayEnvelopesDetailed`: envelopes from offline sync, whatever the mode. -/
def replayEnvelopesDetailed (blobs : List Wire)
    (s : State) : Except String (List ReplayEnvelopeResult) × State :=
  if !s.started then (.error "coordinator not started", s)
  else
    let (results, s) := replayEnvelopes x call blobs s
    (.ok results, s)

end GroupCoordination
