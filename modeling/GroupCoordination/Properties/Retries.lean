import GroupCoordination.Model.Recovery
import GroupCoordination.Model.Reference

/-!
# Failures that a later attempt could mend

An envelope of the log can fail for a reason that has nothing to do with it: the disk, the engine or
the sender's clock. Of these only a storage error is reported as one to try again, and only for a
message. The service that replays the pending rows then marks every failed row as blocked, and a
blocked row is not pending.
-/

namespace GroupCoordination

open Disk

-- -------- Rows still pending

/-- `GetPendingEnvelopes` returns a row of this hash when it is asked for enough of them. -/
def Storage.Awaits (db : Storage) (envelopeHash : Bytes) : Prop :=
  ∃ (d : Disk) (maxCount : Int) (rows : List EnvelopeRecord),
    Storage.getPendingEnvelopes d db maxCount = .ok rows ∧ ∃ row ∈ rows,
    row.envelopeHash = envelopeHash

def Storage.Logged (db : Storage) (envelopeHash : Bytes) : Prop :=
  ∃ row ∈ db.envelopeLog, row.envelopeHash = envelopeHash

section Rows

variable {db : Storage} {d : Disk} {s : State} {envelopeHash : Bytes} {state : ReplayEnvelopeState}

theorem Storage.awaits_iff : db.Awaits envelopeHash ↔
    ∃ row ∈ db.envelopeLog, row.envelopeHash = envelopeHash ∧ row.applyState.isPending = true := by
  constructor
  · rintro ⟨d, maxCount, rows, hrows, row, hrow, hhash⟩
    obtain ⟨-, -, rfl⟩ := exec_ok hrows
    have hmem := (List.perm_insertionSort _ _).mem_iff.mp (List.mem_of_mem_take hrow)
    obtain ⟨hlog, hpending⟩ := List.mem_filter.mp hmem
    exact ⟨row, hlog, hhash, hpending⟩
  rintro ⟨row, hlog, hhash, hpending⟩
  have hmem : row ∈ db.envelopeLog.filter (·.applyState.isPending) :=
    List.mem_filter.mpr ⟨hlog, hpending⟩
  refine ⟨⟨fun _ => [], 0, fun _ _ => true⟩, (db.envelopeLog.length + 1 : Nat), _,
    rfl, row, ?_, hhash⟩
  rw [List.take_of_length_le]
  · exact (List.perm_insertionSort _ _).mem_iff.mpr hmem
  have hle := List.length_filter_le (fun r : EnvelopeRecord => r.applyState.isPending)
    db.envelopeLog
  rw [(List.perm_insertionSort _ _).length_eq, if_neg (by omega)]
  omega

def State.mark (d : Disk) (envelopeHash : Bytes) (state : ReplayEnvelopeState) (err : String)
    (s : State) : State :=
  s.storeOrWarn (Storage.markEnvelopeReplayState d s.storage envelopeHash state err)

section

variable (hne : envelopeHash ≠ [])

include hne

theorem State.mark_failed (hdisk : d.works s.storage.writes .markEnvelopeReplayState = false) :
    s.mark d envelopeHash state err = s := by
  simp [State.mark, Storage.markEnvelopeReplayState, write, exec, State.storeOrWarn, hne, hdisk]

theorem State.mark_stored (hdisk : d.works s.storage.writes .markEnvelopeReplayState = true) :
    (s.mark d envelopeHash state err).storage =
      (s.storage.setReplayState (d.nowMs / 1000) envelopeHash state err).written
        .markEnvelopeReplayState := by
  simp [State.mark, Storage.markEnvelopeReplayState, write, exec, State.storeOrWarn, hne, hdisk]

theorem State.mark_logged (hlogged : s.storage.Logged envelopeHash) :
    (s.mark d envelopeHash state err).storage.Logged envelopeHash := by
  cases hdisk : d.works s.storage.writes .markEnvelopeReplayState with
  | false => rwa [State.mark_failed hne hdisk]
  | true =>
    obtain ⟨row, hrow, hhash⟩ := hlogged
    rw [State.mark_stored hne hdisk]
    refine ⟨_, List.mem_map_of_mem hrow, ?_⟩
    simp [hhash]

theorem State.mark_awaits (hlogged : s.storage.Logged envelopeHash) :
    (s.mark d envelopeHash state err).storage.Awaits envelopeHash ↔
      if d.works s.storage.writes .markEnvelopeReplayState = true then
        (ApplyState.replay state).isPending = true
      else s.storage.Awaits envelopeHash := by
  cases hdisk : d.works s.storage.writes .markEnvelopeReplayState with
  | false => rw [State.mark_failed hne hdisk, if_neg (by simp)]
  | true =>
    rw [State.mark_stored hne hdisk, if_pos rfl, Storage.awaits_iff]
    constructor
    · rintro ⟨row, hrow, hhash, hpending⟩
      obtain ⟨old, -, rfl⟩ := List.mem_map.mp hrow
      by_cases hold : old.envelopeHash = envelopeHash
      · simpa [hold] using hpending
      · rw [if_neg hold] at hhash
        exact absurd hhash hold
    · intro hpending
      obtain ⟨row, hrow, hhash⟩ := hlogged
      refine ⟨_, List.mem_map_of_mem hrow, ?_⟩
      simpa [hhash] using hpending

theorem State.mark_writes :
    (s.mark d envelopeHash state err).storage.writes = s.storage.writes +
      if d.works s.storage.writes .markEnvelopeReplayState = true then 1 else 0 := by
  cases hdisk : d.works s.storage.writes .markEnvelopeReplayState with
  | false => rw [State.mark_failed hne hdisk]; rfl
  | true => rw [State.mark_stored hne hdisk]; rfl

end

end Rows

-- -------- Causes

/-- What may keep a sound envelope from being applied. -/
inductive TransientCause
  | storage
  | engine
  | clock
  deriving DecidableEq

/-- The envelope is this group's, was not applied before, and its sender's clock is within the
accepted skew. -/
structure Applicable (x : Ctx) (env : Envelope) (wire : Wire) (s : State) : Prop where
  started : s.started = true
  parsed : wire.unmarshal = some env
  group : env.groupID = x.groupID
  skew : validateSenderTimestamp x.nowMs env.timestamp.wallTimeMs = .ok ()
  fresh : s.storage.hasApplied (x.hashEnvelope wire) = false

/-- The engine fails on a commit that passes the coordinator's own checks. It does so when its
deadline passes, when it is missing, and when a heal has dropped the group state. -/
def EngineFails (x : Ctx) (env : Envelope) (commit : CommitMsg) (s : State) : Prop :=
  let included := proposalBytesFromMsgs commit.includedProposals
  (∃ err, x.engine.stageCommit s.groupState commit.commitData included = .error err) ∨
  (∃ refs, x.engine.stageCommit s.groupState commit.commitData included = .ok refs ∧
    (commit.committedProposalRefs ≠ [] →
      proposalRefSetsEqual refs commit.committedProposalRefs = true) ∧
    checkCommitter x env (bufferedBatchFromProposalMsgs commit.includedProposals) s = .ok () ∧
    ∃ err, x.engine.processCommit s.groupState commit.commitData included = .error err)

/-- An envelope of the epoch that is processed now fails for this cause alone. -/
inductive FailsFor (x : Ctx) (env : Envelope) (wire : Wire) (s : State) : TransientCause → Prop
  | applyCommit (htype : env.type = .commit) (hpayload : env.payload = .commit commit)
      (hepoch : s.epochTracker.validate env.epoch = .process)
      (hvalid : validateCommitLocked x env commit s = .ok (newState, newTreeHash))
      (hdisk : x.works s.storage.writes .applyCommit = false) : FailsFor x env wire s .storage
  | commitEngine (htype : env.type = .commit) (hpayload : env.payload = .commit commit)
      (hepoch : s.epochTracker.validate env.epoch = .process)
      (hengine : EngineFails x env commit s) : FailsFor x env wire s .engine
  | applyApplication (htype : env.type = .application)
      (hpayload : env.payload = .application ciphertext)
      (hepoch : applicationAction x env (x.hashEnvelope wire) s = .process)
      (hclock : env.timestamp.wallTimeMs - x.nowMs ≤ maxClockDriftMs)
      (hopen : x.engine.decryptMessage s.groupState ciphertext = .ok (plaintext, newState))
      (hdisk : x.works s.storage.writes .applyApplication = false) : FailsFor x env wire s .storage
  | decryptMessage (htype : env.type = .application)
      (hpayload : env.payload = .application ciphertext)
      (hepoch : applicationAction x env (x.hashEnvelope wire) s = .process)
      (hclock : env.timestamp.wallTimeMs - x.nowMs ≤ maxClockDriftMs)
      (hengine : x.engine.decryptMessage s.groupState ciphertext = .error err) :
      FailsFor x env wire s .engine
  | clock (htype : env.type = .application) (hpayload : env.payload = .application ciphertext)
      (hepoch : applicationAction x env (x.hashEnvelope wire) s = .process)
      (hclock : maxClockDriftMs < env.timestamp.wallTimeMs - x.nowMs) : FailsFor x env wire s .clock

def TransientCause.reported (x : Ctx) (env : Envelope) (s : State) (cause : TransientCause) :
    ReplayEnvelopeState :=
  if env.type = .commit then
    if x.works s.storage.writes .hasAppliedEnvelope then .invalid else .persistFailed
  else
    match cause with
    | .storage => .persistFailed
    | .engine => .decryptFailed
    | .clock => .invalid

section Causes

variable {x : Ctx} {call : Call → State → State} {env : Envelope} {wire : Wire} {s : State}
  {cause : TransientCause}

theorem Applicable.nonempty (h : Applicable x env wire s) : wire.isEmpty = false := by
  cases wire with
  | json => rfl
  | raw bytes => exact absurd h.parsed (by simp [Wire.unmarshal])

theorem Applicable.hash_ne (h : Applicable x env wire s) : x.hashEnvelope wire ≠ [] := by
  rw [Ctx.hashEnvelope_eq x h.nonempty]
  exact x.hash.sum_ne_nil _

/-- A query for a fresh envelope that works says so, and one that fails is taken to say so. -/
theorem Applicable.unapplied (h : Applicable x env wire s)
    (htype : env.type = .commit ∨ env.type = .application) :
    checkAppliedEnvelopeLocked x env wire s = (x.hashEnvelope wire, false) := by
  have hread : ¬ (wire.isEmpty = true ∨ (env.type ≠ .commit ∧ env.type ≠ .application)) := by
    rintro (hempty | ⟨hcommit, happ⟩)
    · rw [h.nonempty] at hempty
      cases hempty
    · exact htype.elim hcommit happ
  simp only [checkAppliedEnvelopeLocked, if_neg hread]
  split
  next applied hok =>
    simp only [Storage.hasAppliedEnvelope, if_neg h.hash_ne] at hok
    obtain ⟨-, -, rfl⟩ := exec_ok hok
    rw [h.fresh]
  · rfl

theorem EngineFails.invalid (h : EngineFails x env commit s) :
    ∃ err, validateCommitLocked x env commit s = .error err := by
  rcases h with ⟨err, hstage⟩ | ⟨refs, hstage, hrefs, hcommitter, err, hprocess⟩
  · exact ⟨err, by simp [validateCommitLocked, hstage, bind, Except.bind]⟩
  have hpass : ¬ (commit.committedProposalRefs ≠ [] ∧
      (!proposalRefSetsEqual refs commit.committedProposalRefs) = true) :=
    fun ⟨hne, hdiffer⟩ => by simp [hrefs hne] at hdiffer
  refine ⟨err, ?_⟩
  simp only [validateCommitLocked, hstage, bind, Except.bind, if_neg hpass, hcommitter, hprocess]

theorem Storage.applyEnvelope_fails {d : Disk} (hdisk : d.works db.writes op = false)
    (hwire : wire.isEmpty = false) (record : GroupRecord) :
    Storage.applyEnvelope d op name db record msgs msgType wire ts epoch = .error name := by
  simp [Storage.applyEnvelope, exec, hdisk, hwire]

-- -------- What the coordinator answers

def Reports (x : Ctx) (envelopeHash : Bytes) (state : ReplayEnvelopeState) (s : State)
    (answer : ReplayEnvelopeResult × State) : Prop :=
  answer.1.state = some state ∧ ∃ (s' : State) (err : String), s'.storage = s.storage ∧
    answer.2 = s'.mark x.disk envelopeHash state err

theorem conclude_reports {r : ReplayEnvelopeResult} {s' : State} (hstate : r.state = some state)
    (hstorage : s'.storage = s.storage) : Reports x r.envelopeHash state s (conclude x r s') := by
  refine ⟨hstate, s', r.error, hstorage, ?_⟩
  simp only [conclude, markReplayResultLocked, hstate]
  rfl

theorem HLC.update_ok (hlc : HLC) (h : ts.wallTimeMs - pt ≤ maxClockDriftMs) :
    ∃ hlc' ts', hlc.update pt ts = .ok (hlc', ts') := by
  unfold HLC.update
  rw [if_neg (by omega)]
  exact ⟨_, _, rfl⟩

theorem HLC.update_error (hlc : HLC) (h : maxClockDriftMs < ts.wallTimeMs - pt) :
    ∃ err, hlc.update pt ts = .error err := by
  unfold HLC.update
  rw [if_pos h]
  exact ⟨_, rfl⟩

section

variable (h : FailsFor x env wire s cause)

include h

theorem FailsFor.commit_refused
    (call : Call → State → State) (hsound : Applicable x env wire s) (htype : env.type = .commit) :
    s.epochTracker.validate env.epoch = .process ∧
      ∃ s', handleCommitLocked x call env wire s = (false, s') ∧ s'.storage = s.storage := by
  have hfresh := hsound.unapplied (.inl htype)
  cases h with
  | applyCommit _ hpayload hepoch hvalid hdisk =>
    refine ⟨hepoch, s, ?_, rfl⟩
    simp [handleCommitLocked, hepoch, hpayload, hfresh, processCommitLocked, hvalid,
      Storage.applyCommit, Storage.applyEnvelope_fails (d := x.disk) hdisk hsound.nonempty]
  | @commitEngine commit _ hpayload hepoch hengine =>
    obtain ⟨err, hinvalid⟩ := hengine.invalid
    refine ⟨hepoch, markInvalidCommitLocked (x.hashCommitData commit.commitData) s, ?_, ?_⟩
    · simp [handleCommitLocked, hepoch, hpayload, hfresh, processCommitLocked, hinvalid]
    · rfl
  | applyApplication happ | decryptMessage happ | clock happ => rw [htype] at happ; cases happ

theorem FailsFor.commit_reports (hsound : Applicable x env wire s) (htype : env.type = .commit) :
    Reports x (x.hashEnvelope wire) (cause.reported x env s) s
      (handleCommitDetailedLocked x call env wire s) := by
  obtain ⟨hepoch, s', hrefused, hstorage⟩ := h.commit_refused call hsound htype
  have hquery : Storage.hasAppliedEnvelope x.disk s'.storage (x.hashEnvelope wire) =
      if x.works s.storage.writes .hasAppliedEnvelope then .ok false
      else .error "HasAppliedEnvelope" := by
    rw [hstorage, Storage.hasAppliedEnvelope, if_neg hsound.hash_ne, hsound.fresh]
    simp [exec, Ctx.disk]
  simp only [handleCommitDetailedLocked, hsound.unapplied (.inl htype), hepoch, hrefused, hquery,
    TransientCause.reported, htype]
  cases x.works s.storage.writes .hasAppliedEnvelope with
  | true | false => exact conclude_reports rfl hstorage

theorem FailsFor.application_reports
    (hsound : Applicable x env wire s) (htype : env.type = .application) :
    Reports x (x.hashEnvelope wire) (cause.reported x env s) s
      (handleApplicationDetailedLocked x pid env wire s) := by
  have hfresh := hsound.unapplied (.inr htype)
  cases h with
  | applyCommit hcommit | commitEngine hcommit => rw [htype] at hcommit; cases hcommit
  | applyApplication _ hpayload hepoch hclock hopen hdisk =>
    obtain ⟨hlc, ts, hupdate⟩ := HLC.update_ok s.hlc hclock
    simp only [handleApplicationDetailedLocked, hfresh, hepoch, processApplicationLocked, hpayload,
      hupdate, hopen, deliverLocked, Storage.applyApplication,
      Storage.applyEnvelope_fails (d := x.disk) hdisk hsound.nonempty,
      TransientCause.reported, htype]
    exact conclude_reports rfl rfl
  | decryptMessage _ hpayload hepoch hclock hengine =>
    obtain ⟨hlc, ts, hupdate⟩ := HLC.update_ok s.hlc hclock
    simp only [handleApplicationDetailedLocked, hfresh, hepoch, processApplicationLocked, hpayload,
      hupdate, hengine, TransientCause.reported, htype]
    exact conclude_reports rfl rfl
  | clock _ hpayload hepoch hclock =>
    obtain ⟨err, hupdate⟩ := HLC.update_error s.hlc hclock
    simp only [handleApplicationDetailedLocked, hfresh, hepoch, processApplicationLocked, hpayload,
      hupdate, TransientCause.reported, htype]
    exact conclude_reports rfl rfl

theorem FailsFor.type : env.type = .commit ∨ env.type = .application := by
  cases h with
  | applyCommit htype | commitEngine htype => exact .inl htype
  | applyApplication htype | decryptMessage htype | clock htype => exact .inr htype

theorem FailsFor.replayed (call : Call → State → State) (hsound : Applicable x env wire s) :
    ∃ r s', replayEnvelopesDetailed x call [wire] s = (.ok [r], s') ∧
      Reports x (x.hashEnvelope wire) (cause.reported x env s) s (r, s') := by
  have hone : replayEnvelopesDetailed x call [wire] s =
      (.ok (replayEnvelope x call wire s).1.toList, (replayEnvelope x call wire s).2) := by
    simp [replayEnvelopesDetailed, hsound.started, replayEnvelopes]
  rcases h.type with htype | htype
  · have hreplay : replayEnvelope x call wire s =
        (some (handleCommitDetailedLocked x call env wire s).1,
          (handleCommitDetailedLocked x call env wire s).2) := by
      simp [replayEnvelope, hsound.nonempty, hsound.parsed, hsound.group, hsound.skew, htype]
    rw [hreplay] at hone
    exact ⟨_, _, hone, h.commit_reports hsound htype⟩
  have hreplay : replayEnvelope x call wire s =
      (some (handleApplicationDetailedLocked x (decodeEnvelopePeerID x.peers env.from []) env wire
          s).1,
        (handleApplicationDetailedLocked x (decodeEnvelopePeerID x.peers env.from []) env wire
          s).2) := by
    simp [replayEnvelope, hsound.nonempty, hsound.parsed, hsound.group, hsound.skew, htype]
  rw [hreplay] at hone
  exact ⟨_, _, hone, h.application_reports hsound htype⟩

end

-- -------- What becomes of the row

/-- The coordinator's own mark fails, or it says that storage failed. -/
def CoordinatorKeepsPending (x : Ctx) (env : Envelope) (s : State) (cause : TransientCause) :
    Prop :=
  x.works s.storage.writes .markEnvelopeReplayState = true →
    (env.type = .application ∧ cause = .storage) ∨
      (env.type = .commit ∧ x.works s.storage.writes .hasAppliedEnvelope = false)

/-- The service's mark fails. The coordinator's, if it is stored, is one more transaction. -/
def ServiceMarkFails (x : Ctx) (d : Disk) (s : State) : Prop :=
  d.works (s.storage.writes +
    if x.works s.storage.writes .markEnvelopeReplayState = true then 1 else 0)
      .markEnvelopeReplayState = false

theorem TransientCause.reported_pending (h : FailsFor x env wire s cause) :
    (ApplyState.replay (cause.reported x env s)).isPending = true ↔
      (env.type = .application ∧ cause = .storage) ∨
        (env.type = .commit ∧ x.works s.storage.writes .hasAppliedEnvelope = false) := by
  rcases h.type with htype | htype
  · cases hworks : x.works s.storage.writes .hasAppliedEnvelope <;>
      simp [TransientCause.reported, htype, hworks, ApplyState.isPending]
  · cases cause <;> simp [TransientCause.reported, htype, ApplyState.isPending]

theorem TransientCause.reported_blocked {r : ReplayEnvelopeResult}
    (hstate : r.state = some (cause.reported x env s)) :
    ∃ reason, r.verdict.1 = some (.blockedDecryptFailed, reason) := by
  unfold TransientCause.reported at hstate
  split at hstate
  · split at hstate <;> exact ⟨_, by simp [ReplayEnvelopeResult.verdict, hstate]; rfl⟩
  · cases cause <;> exact ⟨_, by simp [ReplayEnvelopeResult.verdict, hstate]; rfl⟩

@[simp] theorem RecoveryReplay.proceed_storage (phase : ReplayPhase) (s : State) :
    (RecoveryReplay.proceed phase s).coordinator.storage = s.storage := by
  cases phase <;> rfl

theorem FailsFor.kept_iff {p' : RecoveryReplay} (h : FailsFor x env wire s cause)
    (hsound : Applicable x env wire s) (hlogged : s.storage.Awaits (x.hashEnvelope wire))
    (hrow : row.envelope = wire) (hhash : row.envelopeHash = x.hashEnvelope wire)
    (hturn : replayTurn x call d row rest progressed s = p') :
    ((replayEnvelopesDetailed x call [wire] s).2.storage.Awaits (x.hashEnvelope wire) ↔
      CoordinatorKeepsPending x env s cause) ∧
    (p'.coordinator.storage.Awaits (x.hashEnvelope wire) ↔
      CoordinatorKeepsPending x env s cause ∧ ServiceMarkFails x d s) := by
  have hne := hsound.hash_ne
  obtain ⟨r, s₂, hreplay, hstate, s₁, err, hstorage, rfl⟩ := h.replayed call hsound
  obtain ⟨reason, hverdict⟩ := TransientCause.reported_blocked hstate
  obtain ⟨logged, hmem, hself, -⟩ := Storage.awaits_iff.mp hlogged
  have hkept : s₁.storage.Logged (x.hashEnvelope wire) := by
    rw [hstorage]
    exact ⟨logged, hmem, hself⟩
  have hpass : (s₁.mark x.disk (x.hashEnvelope wire) (cause.reported x env s) err).storage.Awaits
      (x.hashEnvelope wire) ↔ CoordinatorKeepsPending x env s cause := by
    rw [State.mark_awaits hne hkept, hstorage, TransientCause.reported_pending h]
    unfold CoordinatorKeepsPending
    show (if x.works s.storage.writes .markEnvelopeReplayState = true then _ else _) ↔ _
    split
    next hworks =>
      simp [hworks]
    next hworks =>
      simp [hworks, hlogged]
  refine ⟨by rw [hreplay]; exact hpass, ?_⟩
  have hmarked : p'.coordinator.storage = ((s₁.mark x.disk (x.hashEnvelope wire)
      (cause.reported x env s) err).mark d
        (x.hashEnvelope wire) .blockedDecryptFailed reason).storage := by
    rw [← hturn, replayTurn, hrow, hreplay]
    simp [markVerdict, hverdict, hhash, State.mark]
  rw [hmarked, State.mark_awaits hne (State.mark_logged hne hkept), State.mark_writes hne, hstorage,
    hpass]
  show (if d.works (s.storage.writes + if x.works s.storage.writes .markEnvelopeReplayState = true
    then 1 else 0) .markEnvelopeReplayState = true then _ else _) ↔ _ ∧ ServiceMarkFails x d s
  unfold ServiceMarkFails
  cases d.works (s.storage.writes + _) .markEnvelopeReplayState <;> simp [ApplyState.isPending]

end Causes

/-- A row whose replay fails for a passing reason is still pending afterwards exactly if the
coordinator's mark leaves it so and the service's is lost. -/
theorem transient_failure_stays_pending_iff (node : Node) (w : World) (fuel : Nat) (d : Disk)
    (p p' : RecoveryReplay) (row : EnvelopeRecord) (rest : List EnvelopeRecord) (progressed : Bool)
    (env : Envelope) (cause : TransientCause) (hphase : p.phase = .turn row rest progressed)
    (hhash : row.envelopeHash = Ctx.hashEnvelope { node, w with } row.envelope)
    (hawaits : p.coordinator.storage.Awaits row.envelopeHash)
    (hsound : Applicable { node, w with } env row.envelope p.coordinator)
    (hfails : FailsFor { node, w with } env row.envelope p.coordinator cause)
    (hstep : recoveryStep node (.turn w fuel d) p = some p') :
    (replayEnvelopesDetailed { node, w with } (run { node, w with } fuel) [row.envelope]
        p.coordinator).2.storage.Awaits row.envelopeHash ∧
      p'.coordinator.storage.Awaits row.envelopeHash ↔
    CoordinatorKeepsPending { node, w with } env p.coordinator cause ∧
      ServiceMarkFails { node, w with } d p.coordinator := by
  simp only [recoveryStep, hphase, Option.some.injEq] at hstep
  rw [hhash] at hawaits ⊢
  obtain ⟨hpass, hturn⟩ := hfails.kept_iff hsound hawaits rfl hhash hstep
  rw [hpass, hturn]
  exact ⟨fun h => h.2, fun h => ⟨h.1, h⟩⟩

namespace Reference

def pendingEnvelope : Envelope where
  type := .application
  groupID := "g"
  epoch := 0
  «from» := peers.toString [66]
  timestamp := {}
  payload := .application [9, 0, 70]

def pendingMessage : Wire := pendingEnvelope.marshal

/-- A blind store puts a message into the log, and the service goes on to replay what is pending. -/
def recovering : Option RecoveryReplay :=
  (boot (member [65]) [[65], [66]]).map fun s =>
    loadPending receiver.disk
      (RecoveryReplay.start (blindStoreEnvelope receiver "g" pendingMessage s)).coordinator

def faulty (ops : List StorageOp) : World := { world with works := fun _ op => op ∉ ops }

/-- The turn of the message has come, and the database is about to refuse it. -/
def unstorable : Ctx := { member [65], faulty [.applyApplication] with }

/-- All but the transaction would go well. -/
structure AtMessage (p : RecoveryReplay) (row : EnvelopeRecord) : Prop where
  phase : p.phase = .turn row [] false
  hash : row.envelopeHash = unstorable.hashEnvelope row.envelope
  awaits : p.coordinator.storage.Awaits row.envelopeHash
  applicable : Applicable unstorable pendingEnvelope row.envelope p.coordinator
  fails : FailsFor unstorable pendingEnvelope row.envelope p.coordinator .storage

theorem recovering_at_message : ∃ p row, recovering = some p ∧ AtMessage p row := by
  obtain ⟨p, hp, row, -, hphase, henvelope, hhash, hpending, hlog, hstarted, hgroup,
    hepoch, hfresh⟩ :
      ∃ p, recovering = some p ∧ ∃ row, p.coordinator.storage.envelopeLog.head? = some row ∧
        p.phase = .turn row [] false ∧ row.envelope = pendingMessage ∧
        row.envelopeHash = unstorable.hashEnvelope pendingMessage ∧
        row.applyState = .pending ∧ row ∈ p.coordinator.storage.envelopeLog ∧
        p.coordinator.started = true ∧ p.coordinator.groupState = [1, 0] ∧
        applicationAction unstorable pendingEnvelope (unstorable.hashEnvelope pendingMessage)
          p.coordinator = .process ∧
        p.coordinator.storage.hasApplied (unstorable.hashEnvelope pendingMessage) = false := by
    decide +kernel
  refine ⟨p, row, hp, hphase, by rw [henvelope, hhash],
    Storage.awaits_iff.mpr ⟨row, hlog, rfl, by rw [hpending]; rfl⟩, ?_, ?_⟩
  · rw [henvelope]
    exact ⟨hstarted, rfl, rfl, rfl, hfresh⟩
  have hopen : unstorable.engine.decryptMessage p.coordinator.groupState [9, 0, 70] =
      .ok ([70], [1, 0]) := by
    rw [hgroup]
    rfl
  rw [henvelope]
  exact .applyApplication rfl rfl hepoch (by decide) hopen rfl

end Reference

open Reference in
/-- A message that the database refused stays pending when the service cannot mark it either. -/
theorem unmarked_message_stays_pending : ∃ p p' row, recovering = some p ∧
    AtMessage p row ∧
    recoveryStep (member [65]) (.turn (faulty [.applyApplication]) 4
      { receiver.disk with works := fun _ _ => false }) p = some p' ∧
    p'.coordinator.storage.Awaits row.envelopeHash := by
  obtain ⟨p, row, hp, h⟩ := recovering_at_message
  obtain ⟨p', hstep⟩ : ∃ p', recoveryStep (member [65])
      (.turn (faulty [.applyApplication]) 4
        { receiver.disk with works := fun _ _ => false }) p = some p' := by
    simp [recoveryStep, h.phase]
  have hkept := transient_failure_stays_pending_iff _ _ _ _ p p' row [] false _ _ h.phase h.hash
    h.awaits h.applicable h.fails hstep
  exact ⟨p, p', row, hp, h, hstep, (hkept.mpr ⟨fun _ => .inl ⟨rfl, rfl⟩, rfl⟩).2⟩

open Reference in
/-- With a working disk the service blocks a message that the database refused once. -/
theorem refused_message_is_blocked : ∃ p p' row, recovering = some p ∧
    AtMessage p row ∧
    recoveryStep (member [65]) (.turn (faulty [.applyApplication]) 4
      receiver.disk) p = some p' ∧
    (p'.coordinator.storage.envelopeLog.map fun row => (row.envelope, row.applyState)) =
      [(pendingMessage, .replay .blockedDecryptFailed)] ∧
    ¬ p'.coordinator.storage.Awaits row.envelopeHash := by
  obtain ⟨p, row, hp, h⟩ := recovering_at_message
  have hreached : (recovering.bind (recoveryStep (member [65])
      (.turn (faulty [.applyApplication]) 4 receiver.disk))).map
        (·.coordinator.storage.envelopeLog.map fun row => (row.envelope, row.applyState)) =
      some [(pendingMessage, .replay .blockedDecryptFailed)] := by
    decide +kernel
  rw [hp] at hreached
  obtain ⟨p', hstep, hlog⟩ := Option.map_eq_some_iff.mp hreached
  refine ⟨p, p', row, hp, h, hstep, hlog, fun hawaits => ?_⟩
  obtain ⟨row', hrow', -, hpending⟩ := Storage.awaits_iff.mp hawaits
  have hblocked := List.mem_map_of_mem
    (f := fun row : EnvelopeRecord => (row.envelope, row.applyState)) hrow'
  rw [hlog, List.mem_singleton] at hblocked
  rw [(Prod.mk.inj hblocked).2] at hpending
  cases hpending

end GroupCoordination
