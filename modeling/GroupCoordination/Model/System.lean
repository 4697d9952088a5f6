import GroupCoordination.Lib.Run
import GroupCoordination.Model.Members
import GroupCoordination.Model.Message

/-!
# The coordinator as a system

The lifecycle of `coordinator.go` and everything that can happen to a started
coordinator: messages, requests of the service, timers, the goroutines it left behind,
and a restart of the process. An action is one such event together with the world it
happens in and the recursion depth it is given.
-/

namespace GroupCoordination

-- -------- Lifecycle

structure Boot where
  groupState : Bytes := []
  treeHash : Bytes := []
  epoch : Nat := 0
  historyHash : Option Bytes := none
  historyChain : HistoryChain := []
  activeView : ActiveView
  hlc : HLC
  storage : Storage

variable (x : Ctx)

def newCoordinator (initialActiveView : List PeerID) (storage : Storage) : Boot where
  activeView := (ActiveView.new x.localID).seed initialActiveView
  hlc := { id := x.peers.toString x.localID }
  storage := storage

def createGroup (x : Ctx) (b : Boot) : Except String Boot := do
  let (groupState, treeHash) ← (x.engine.createGroup x.groupID x.signingKey
    x.cfg.getMaxPastEpochs).mapError ("CreateGroup: " ++ ·)
  let storage ← Storage.saveGroupRecord x.disk b.storage
    { groupState, epoch := 0, treeHash, myRole := some .creator, createdAt := x.now,
      updatedAt := x.now }
  let storage ← Storage.saveCoordState x.disk storage
    { lastCommitHash := [], historyChain := b.historyChain }
  return { b with groupState, treeHash, epoch := 0, storage }

def seedHistoryAnchor (epoch : Nat) (anchor : Option Bytes) (b : Boot) : Boot :=
  let historyChain := b.historyChain.set epoch anchor
  let storage := match Storage.saveCoordState x.disk b.storage
      { lastCommitHash := [], historyChain } with
    | .ok storage => storage
    | .error _ => b.storage
  { b with epoch, historyHash := anchor, historyChain, storage }

def loadGroup (b : Boot) : Except String Boot :=
  if b.groupState ≠ [] then .ok b
  else
    match Storage.getGroupRecord x.disk b.storage with
    | .error err =>
      .error ("no group state — call CreateGroup or InitializeGroup first: " ++ err)
    | .ok stored =>
      .ok { b with
        groupState := stored.groupState, epoch := stored.epoch, treeHash := stored.treeHash }

def loadHistory (b : Boot) : Except String (Bytes × Boot) :=
  match Storage.getCoordState x.disk b.storage with
  | .error err =>
    if err ≠ errGroupNotFound then .error ("load coordination state: " ++ err) else .ok ([], b)
  | .ok coord =>
    if coord.historyChain = [] then .ok (coord.lastCommitHash, b)
    else
      let historyHash := match coord.historyChain.get b.epoch with
        | some h => h
        | none => b.historyHash
      .ok (coord.lastCommitHash, { b with historyChain := coord.historyChain, historyHash })

def rootHistory (b : Boot) : Boot :=
  match b.historyHash with
  | some _ => b
  | none =>
    { b with
      historyHash := some x.initialHistoryHash
      historyChain := b.historyChain.set b.epoch (some x.initialHistoryHash) }

def State.ofBoot (lastCommitHash : Bytes) (b : Boot) : State :=
  let s : State :=
    { groupState := b.groupState
      treeHash := b.treeHash
      lastCommitHash
      historyHash := b.historyHash
      historyChain := b.historyChain
      epoch := b.epoch
      activeView := b.activeView
      singleWriter := SingleWriter.new b.epoch
      epochTracker := EpochTracker.new b.epoch b.treeHash
      startedAt := x.now
      hlc := b.hlc
      storage := b.storage
      lineage := { root := b.historyHash.getD [], base := b.epoch } }
  let s := { s with
    lastTokenHolder := (s.currentTokenHolder x).toOption.getD []
    forkDetector := s.forkDetector.updateLocal s.announcement }
  match Storage.getActiveForkHealingJob x.disk s.storage with
  | .ok job => { s with resuming := job }
  | .error _ => s

def start (b : Boot) : Except String State := do
  let b ← loadGroup x b
  let (lastCommitHash, b) ← loadHistory x b
  return State.ofBoot x lastCommitHash (rootHistory x b)

def stop (s : State) : State := { s with failoverTimer := none, started := false }

/-- What a new process boots from: the database, and an anchor for the stored epoch. -/
def rebooted (initialActiveView : List PeerID) (anchor : Option (Option Bytes))
    (storage : Storage) : Boot :=
  let b := newCoordinator x initialActiveView storage
  match anchor, storage.group with
  | some hash, some stored => seedHistoryAnchor x stored.epoch hash b
  | _, _ => b

def restart (initialActiveView : List PeerID) (anchor : Option (Option Bytes))
    (s : State) : Except String State := do
  let s' ← start x (rebooted x initialActiveView anchor s.storage)
  return { s' with
    published := s.published
    sentDirect := s.sentDirect
    callbacks := s.callbacks
    delivered := s.delivered
    lineage := s.lineage
    told := s.told
    suspected := s.suspected
    appliedCommits := s.appliedCommits
    issuedCommits := s.issuedCommits
    retained := s.retained
    dispatched := s.dispatched
    dropped := s.dropped
    operationTrace := s.operationTrace
    exhausted := s.exhausted }

-- -------- Periodic work

def broadcastAnnounceLocked (s : State) : State :=
  if s.groupState = [] ∨ s.healing then s
  else
    let s := { s with
      forkDetector := s.forkDetector.updateLocal s.announcement
      told := s.told ++ (Payload.announce s.announcement).claim.toList }
    broadcastLocked x .announce (.announce s.announcement) s

def checkLiveness (x : Ctx) (s : State) : State :=
  { s with activeView := s.activeView.checkLiveness x.cfg }

/-- `handleActiveViewChange`: a node just promoted to token holder commits what is buffered. -/
def handleActiveViewChange (call : Call → State → State) (s : State) : State :=
  if !s.started then s
  else
    match s.currentTokenHolder x with
    | .error _ => s
    | .ok newHolder =>
      let promoted : Bool := newHolder = x.localID ∧ s.lastTokenHolder ≠ x.localID
      let s := { s with lastTokenHolder := newHolder }
      let s := s.unlessError (persistCoordStateLocked x s)
      if promoted ∧ s.singleWriter.proposalCount > 0 then call .tryCommit s else s

-- -------- Actions

inductive Op
  | receive (hop : PeerID) (data : Wire)
  | replay (blobs : List Wire)
  | send (plaintext : Bytes) (localEchoToken : String)
  | propose (pType : ProposalType) (data : Bytes)
  | addMember (req : AddMemberRequest)
  | removeMember (req : RemoveMemberRequest)
  | proposalTimer (timer : Nat)
  | failoverTimer (timer : Nat)
  | activeViewChange
  | heartbeat
  | announce
  | liveness
  | observePeer (pid : PeerID)
  | ackTimeout (pid : PeerID) (envelopeHash : Bytes)
  | retryDeliveries (pid : PeerID)
  | setMode (mode : GroupOperationalMode)
  | resetSync
  | incrementSync
  | deferredHeal
  | resumeHeal
  | heal (wake : HealWake)
  | welcome (bytes : Bytes)
  | stop
  | restart (initialActiveView : List PeerID) (anchor : Option (Option Bytes))
  deriving DecidableEq

structure Action where
  world : World
  fuel : Nat
  op : Op

def Action.ctx (node : Node) (a : Action) : Ctx := { node, a.world with }

def perform (call : Call → State → State) (op : Op) (s : State) : State :=
  match op with
  | .receive hop data => handleRawMessage x call hop data s
  | .replay blobs => (replayEnvelopesDetailed x call blobs s).2
  | .send plaintext token => (sendMessage x plaintext token s).2
  | .propose pType data => s.unlessError (proposeLocked x call pType data s)
  | .addMember req => (addMember x call req s).2
  | .removeMember req => (removeMemberWithPeer x call req s).2
  | .proposalTimer timer => proposalTimerFires x call timer s
  | .failoverTimer timer => failoverTimerFires x call timer s
  | .activeViewChange => handleActiveViewChange x call s
  | .heartbeat => broadcastLocked x .heartbeat .heartbeat (checkLiveness x s)
  | .announce => broadcastAnnounceLocked x s
  | .liveness => checkLiveness x s
  | .observePeer pid => observePeerAliveLocked x pid s
  | .ackTimeout pid envelopeHash => applicationAckTimeout x pid envelopeHash s
  | .retryDeliveries pid => retryOutstandingDeliveriesTo x pid s
  | .setMode mode => setOperationalMode mode s
  | .resetSync => resetSyncRetryAttempts s
  | .incrementSync => incrementSyncRetryAttempts s
  | .deferredHeal => triggerDeferredHeal x s
  | .resumeHeal => resumeForkHealingJob x s
  | .heal wake => healStep x wake s
  | .welcome bytes => (processWelcomeIfWaiting x bytes s).2
  | .stop => stop s
  | .restart _ _ => s

def Op.arriving : Op → List Wire
  | .receive _ data => [data]
  | .replay blobs => blobs
  | _ => []

/-- The peer that handed a message over: the transport gives `ReceivedFrom`, the last hop. -/
def Op.hop : Op → PeerID
  | .receive hop _ => hop
  | _ => []

def State.arrive (op : Op) (s : State) : State :=
  { s with arriving := op.arriving, arrivedFrom := op.hop }

def step (node : Node) (a : Action) (s : State) : Option State :=
  match a.op with
  | .restart view anchor => (restart (a.ctx node) view anchor s).toOption
  | op => some (perform (a.ctx node) (run (a.ctx node) a.fuel) op (s.arrive op))

/-- The states a boot can leave, in a world of the given kind: over any database, a created
group or a stored one, with or without an anchor. -/
inductive Booted (node : Node) (allowed : World → Prop) : State → Prop
  | created (w : World) (ok : allowed w) (view : List PeerID) (storage : Storage)
      (hcreate : createGroup { node, w with }
        (newCoordinator { node, w with } view storage) = .ok b)
      (hstart : start { node, w with } b = .ok s) : Booted node allowed s
  | stored (w : World) (ok : allowed w) (view : List PeerID) (anchor : Option (Option Bytes))
      (storage : Storage)
      (hstart : start { node, w with } (rebooted { node, w with } view anchor storage) = .ok s) :
      Booted node allowed s

end GroupCoordination
