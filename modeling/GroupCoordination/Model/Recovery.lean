import GroupCoordination.Model.OfflineSync
import GroupCoordination.Model.System

/-!
# Replaying what a peer served

The loops of the service that hand envelopes of the log to a coordinator: the end of
`pullOfflineSyncFromPeerOnce` in `offline_sync.go` and `replayPendingEnvelopesForGroup` in
`recovery_replay.go`. The coordinator's lock is free between two envelopes, so it may be in any
state when the next one comes. Besides the coordinator and the pull, the blind store of
`blind_store.go` writes to the log.
-/

namespace GroupCoordination

/-- One turn of the loop of `pullOfflineSyncFromPeerOnce`. Without a result the loop ends there. -/
def pullEntry (x : Ctx) (call : Call → State → State) (raw : Wire) (s : State) :
    Option ReplayEnvelopeResult × State :=
  match raw.unmarshal with
  | none => (none, s)
  | some env =>
    if env.groupID ≠ x.groupID ∨ (env.type ≠ .commit ∧ env.type ≠ .application) then (none, s)
    else
      match s.store (Storage.appendEnvelopeWithSource x.disk s.storage env.type env.epoch
          env.timestamp raw "offline_sync") with
      | .error _ => (none, s)
      | .ok s =>
        match replayEnvelopesDetailed x call [raw] s with
        | (.error _, s) => (none, s)
        | (.ok results, s) => (results.head?, s)

structure PullTurn where
  world : World
  fuel : Nat
  state : State

def PullTurn.result (node : Node) (raw : Wire) (t : PullTurn) : Option ReplayEnvelopeResult :=
  (pullEntry { node, t.world with } (run { node, t.world with } t.fuel) raw t.state).1

def pullEnds (node : Node) (pull : Nat) (turns : Nat × Wire → PullTurn) (saved : Bool) : SyncOp :=
  .finish pull (fun e => ((turns e).result node e.2).bind (·.state)) saved

/-- The envelope branch of `handleInbound`. The row goes to the log of the group that the
envelope names. -/
def blindStoreEnvelope (x : Ctx) (groupID : String) (raw : Wire) (s : State) : State :=
  match raw.unmarshal with
  | none => s
  | some env =>
    if groupID = "" ∨ env.groupID ≠ groupID ∨ (env.type ≠ .application ∧ env.type ≠ .commit) then s
    else if env.groupID ≠ x.groupID then s
    else s.storeOrWarn (Storage.appendEnvelopeWithSource x.disk s.storage env.type env.epoch
      env.timestamp raw "blind_store")

inductive LogOp
  | coordinator (a : Action)
  | pull (w : World) (fuel : Nat) (raw : Wire)
  | blindStore (w : World) (groupID : String) (raw : Wire)

def logStep (node : Node) (op : LogOp) (s : State) : Option State :=
  match op with
  | .coordinator a => step node a s
  | .pull w fuel raw => some (pullEntry { node, w with } (run { node, w with } fuel) raw s).2
  | .blindStore w groupID raw => some (blindStoreEnvelope { node, w with } groupID raw s)

-- -------- Replaying what is still pending

/-- The state the service marks on the row for a replay's answer, with the reason, and whether the
loop over the page goes on. -/
def ReplayEnvelopeResult.verdict (result : ReplayEnvelopeResult) :
    Option (ReplayEnvelopeState × String) × Bool :=
  match result.state with
  | some .applied => (none, true)
  | some .duplicateApplied => (none, true)
  | some .staleEpoch =>
    (some (.blockedStaleRequiresSnapshot, "stale_epoch_requires_recovery_snapshot"), true)
  | some .decryptFailed =>
    (some (.blockedDecryptFailed, "decrypt_failed_or_missing_past_key"), true)
  | some .futureEpoch =>
    (some (.blockedMissingPriorEpoch, "future_epoch_missing_prior_commit"), false)
  | state => (some (.blockedDecryptFailed, (state.map (·.name)).getD ""), false)

def markVerdict (d : Disk) (row : EnvelopeRecord) (result : ReplayEnvelopeResult) (s : State) :
    State :=
  match result.verdict.1 with
  | none => s
  | some (state, reason) =>
    s.storeOrWarn (Storage.markEnvelopeReplayState d s.storage row.envelopeHash state reason)

inductive ReplayPhase
  | load
  | turn (row : EnvelopeRecord) (rest : List EnvelopeRecord) (progressed : Bool)
  | over
  deriving DecidableEq

def ReplayPhase.afterPage (progressed : Bool) : ReplayPhase := if progressed then .load else .over

def ReplayPhase.next : List EnvelopeRecord → ReplayPhase
  | [] => .afterPage true
  | row :: rest => .turn row rest true

structure RecoveryReplay where
  coordinator : State
  phase : ReplayPhase

def RecoveryReplay.start (s : State) : RecoveryReplay :=
  { coordinator := setOperationalMode .catchingUp s, phase := .load }

/-- The deferred statement restores the mode at the end. -/
def RecoveryReplay.proceed (phase : ReplayPhase) (s : State) : RecoveryReplay :=
  match phase with
  | .over => { coordinator := setOperationalMode .live s, phase }
  | _ => { coordinator := s, phase }

def loadPending (d : Disk) (s : State) : RecoveryReplay :=
  match Storage.getPendingEnvelopes d s.storage 100 with
  | .error _ => .proceed .over s
  | .ok [] => .proceed .over s
  | .ok (row :: rest) => .proceed (.turn row rest false) s

/-- One turn of the loop over a page. The coordinator replays the row in a world of its own; `d` is
the disk by the time the service marks the row. -/
def replayTurn (x : Ctx) (call : Call → State → State) (d : Disk) (row : EnvelopeRecord)
    (rest : List EnvelopeRecord) (progressed : Bool) (s : State) : RecoveryReplay :=
  match replayEnvelopesDetailed x call [row.envelope] s with
  | (.error _, s) => .proceed (.afterPage progressed) s
  | (.ok [], s) => .proceed (.afterPage progressed) s
  | (.ok (result :: _), s) =>
    .proceed (if result.verdict.2 then .next rest else .over) (markVerdict d row result s)

inductive RecoveryOp
  | load (d : Disk)
  | turn (w : World) (fuel : Nat) (d : Disk)
  | other (a : Action)

def recoveryStep (node : Node) (op : RecoveryOp) (p : RecoveryReplay) : Option RecoveryReplay :=
  match op, p.phase with
  | .load d, .load => some (loadPending d p.coordinator)
  | .turn w fuel d, .turn row rest progressed =>
    some (replayTurn { node, w with } (run { node, w with } fuel) d row rest progressed
      p.coordinator)
  | .other a, phase => (step node a p.coordinator).map fun s => { coordinator := s, phase }
  | _, _ => none

end GroupCoordination
