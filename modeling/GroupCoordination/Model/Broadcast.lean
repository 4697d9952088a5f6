import GroupCoordination.Model.State

/-!
# Publishing, persisting and timers

`coordinator_broadcast.go`: envelopes built from the local state, published and
appended to the log, and the writes of the group record and of the coordination
state.

The timers of `coordinator_commit.go`. A timer goroutine waits, takes the lock and
acts only if its channel is still the one in the state; here a timer is a fresh
number, and a firing that finds another number there does nothing. A timer may
fire in any later step: the delays themselves are not modelled.

With no batching delay a commit is attempted on the spot, from inside whatever
handler asked for it. Those calls back into the coordinator go through `call`,
which `run` closes over at the end of the model.
-/

namespace GroupCoordination

section

def State.storeOrWarn (s : State) (result : Except String Storage) : State :=
  match result with
  | .ok db => { s with storage := db }
  | .error _ => s

def State.unlessError (s : State) (result : Except String State) : State :=
  match result with
  | .ok s' => s'
  | .error _ => s

def State.store (s : State) (result : Except String Storage) : Except String State :=
  result.map fun db => { s with storage := db }

theorem State.store_ok {s s' : State} (h : s.store result = .ok s') :
    ∃ db, result = .ok db ∧ s' = { s with storage := db } := by
  cases result with
  | error => cases h
  | ok db => exact ⟨db, rfl, (Except.ok.inj h).symm⟩

-- -------- Envelopes

variable (x : Ctx) (msgType : MessageType) (payload : Payload)

def buildEnvelopeWithEpochAndTimestampLocked (epoch : Nat) (ts : HLCTimestamp) : Wire :=
  { type := msgType, groupID := x.groupID, epoch, «from» := x.peers.toString x.localID,
    timestamp := ts, payload : Envelope }.marshal

def buildEnvelopeWithTimestampLocked (s : State) (msgType : MessageType)
    (payload : Payload) (ts : HLCTimestamp) : Wire :=
  buildEnvelopeWithEpochAndTimestampLocked x msgType payload s.epoch ts

def publishPreparedEnvelopeLocked (wire : Wire) (s : State) : State :=
  let s := { s with published := s.published ++ [wire] }
  if msgType = .commit ∨ msgType = .application then s.emit (.envelopeBroadcast msgType wire) else s

def broadcastWithTimestampLocked (ts : HLCTimestamp) (s : State) : State :=
  publishPreparedEnvelopeLocked msgType (buildEnvelopeWithTimestampLocked x s msgType payload ts) s

def broadcastLocked (s : State) : State :=
  let (s, ts) := s.stamp x
  broadcastWithTimestampLocked x msgType payload ts s

def appendOfflineEnvelopeLocked (wire : Wire) (s : State) : State :=
  match wire.unmarshal with
  | none => s
  | some env =>
    if x.cfg.offlineSyncEnabled ∧ (env.type = .commit ∨ env.type = .application) then
      s.storeOrWarn (Storage.appendEnvelope x.disk s.storage env.type env.epoch env.timestamp wire)
    else s

-- -------- Persistence

def persistCoordStateLocked (s : State) : Except String State :=
  s.store (Storage.saveCoordState x.disk s.storage
    { lastCommitHash := s.lastCommitHash, historyChain := s.historyChain })

def withStoredFields (s : State) (record : GroupRecord) : GroupRecord :=
  match Storage.getGroupRecord x.disk s.storage with
  | .error _ => record
  | .ok prev =>
    { record with
      myRole := prev.myRole
      groupType := prev.groupType
      categoryID := prev.categoryID
      dmCounterpartyPeerID := prev.dmCounterpartyPeerID
      createdAt := prev.createdAt }

def persistCurrentEpochStateLocked (newState : Bytes) (s : State) : Except String State :=
  let record := withStoredFields x s
    { groupState := newState, epoch := s.epoch, treeHash := s.treeHash, updatedAt := x.now }
  s.store (Storage.saveGroupRecord x.disk s.storage
    { record with createdAt := if record.createdAt = 0 then x.now else record.createdAt })

/-- `saveCurrentGroupStateLocked`. A record that cannot be read is an error, one
that does not exist is not. -/
def saveCurrentGroupStateLocked (s : State) : Except String State :=
  let record : GroupRecord :=
    { groupState := s.groupState, epoch := s.epoch, treeHash := s.treeHash,
      myRole := some .member, createdAt := x.now, updatedAt := x.now }
  match Storage.getGroupRecord x.disk s.storage with
  | .error err =>
    if err ≠ errGroupNotFound then .error err
    else s.store (Storage.saveGroupRecord x.disk s.storage record)
  | .ok prev =>
    s.store (Storage.saveGroupRecord x.disk s.storage
      { record with
        myRole := if prev.myRole.isSome then prev.myRole else some .member
        groupType := prev.groupType
        categoryID := prev.categoryID
        createdAt := if prev.createdAt ≠ 0 then prev.createdAt else x.now })

theorem saveCurrentGroupStateLocked_stores {x : Ctx} {s s' : State}
    (h : saveCurrentGroupStateLocked x s = .ok s') : ∃ record : GroupRecord,
      record.groupState = s.groupState ∧ record.epoch = s.epoch ∧
        s.store (Storage.saveGroupRecord x.disk s.storage record) = .ok s' := by
  unfold saveCurrentGroupStateLocked at h
  dsimp only at h
  split at h
  · split at h
    · cases h
    · exact ⟨_, rfl, rfl, h⟩
  · exact ⟨_, rfl, rfl, h⟩

def updateLocalAccessRevocationLocked (groupState : Bytes) (epoch : Nat) (s : State) : State :=
  if s.accessRevoked ∨ x.localIdentity = [] then s
  else
    match x.engine.hasMember groupState x.localIdentity with
    | .ok false => { s with accessRevoked := true }.emit (.accessLost epoch "removed")
    | _ => s

end

-- -------- Commit and failover timers

inductive Call
  | tryCommit
  | dispatch (raw : Wire)
  deriving DecidableEq

def bootstrapGraceRemainingLocked (x : Ctx) (s : State) : Int :=
  if x.cfg.viewBootstrapGrace ≤ 0 ∨ s.startedAt = 0 then 0
  else
    let elapsed := x.now - s.startedAt
    if elapsed ≥ x.cfg.viewBootstrapGrace then 0 else x.cfg.viewBootstrapGrace - elapsed

def removedTargets (x : Ctx) (batch : List BufferedProposal) : List PeerID :=
  (removedByBatch batch).filterMap x.peers.decode

/-- `commitViewReadyLocked`: early after start, a view with only the local peer is
not trusted while policy names another committer. -/
def commitViewReadyLocked (x : Ctx) (batch : List BufferedProposal) (s : State) : Bool :=
  if bootstrapGraceRemainingLocked x s ≤ 0 ∨ s.activeView.size > 1 then true
  else
    match x.authorized with
    | none => true
    | some provider =>
      match provider x.groupID s.epoch batch with
      | .error _ => true
      | .ok authorized =>
        authorized.all fun pid => pid = [] ∨ pid = x.localID ∨ pid ∈ removedTargets x batch

def armProposalTimer (s : State) : State :=
  if s.proposalTimer.isSome then s
  else
    let (s, timer) := s.newTimer
    { s with proposalTimer := some timer }

def deferCommitUntilViewReadyLocked (s : State) : State := armProposalTimer s

/-- `scheduleBatchCommitLocked`: later commits join a scheduled one; without a delay the
commit happens now. -/
def scheduleBatchCommitLocked (x : Ctx) (call : Call → State → State) (s : State) : State :=
  if s.proposalTimer.isSome then s
  else if x.cfg.batchingDelay ≤ 0 then call .tryCommit s
  else armProposalTimer s

def scheduleFailoverTimerLocked (x : Ctx) (s : State) : State :=
  if s.failoverTimer.isSome then s
  else if s.singleWriter.proposalCount = 0 ∨ s.isTokenHolder x then s
  else
    let (s, timer) := s.newTimer
    { s with failoverTimer := some timer }

def proposalTimerFires (x : Ctx) (call : Call → State → State) (timer : Nat) (s : State) : State :=
  if s.proposalTimer = some timer then
    let s := { s with proposalTimer := none }
    if s.isTokenHolder x ∧ s.singleWriter.proposalCount > 0 then call .tryCommit s else s
  else s

/-- What a firing failover timer does: the holder that let the time pass is
suspended; the next one is the local node or is waited for in turn. -/
def suspendHolder (x : Ctx) (call : Call → State → State) (s : State) : State :=
  match s.currentTokenHolder x with
  | .error _ => s
  | .ok holder =>
    if holder = [] then s
    else
      let s := { s with singleWriter := s.singleWriter.suspend holder }
      if s.isTokenHolder x then scheduleBatchCommitLocked x call s
      else scheduleFailoverTimerLocked x s

def failoverTimerFires (x : Ctx) (call : Call → State → State) (timer : Nat) (s : State) : State :=
  if s.failoverTimer = some timer then
    let s := { s with failoverTimer := none }
    if s.singleWriter.proposalCount > 0 ∧ !s.isTokenHolder x then suspendHolder x call s else s
  else s

end GroupCoordination
