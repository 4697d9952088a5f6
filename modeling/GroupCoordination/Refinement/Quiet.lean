import GroupCoordination.Abstract.Core

/-!
# What leaves the core alone

The core of a state, and the operations that do not touch it: publishing, callbacks, timers, the
tables of pending operations and heals, the log of envelopes. A successful apply transaction leaves
the new record, one more applied envelope, and at most one more message in the ledger, all under the
envelope's hash.
-/

namespace GroupCoordination

section

open Storage Disk

def Storage.ledger (db : Storage) : Ledger where
  record := db.group
  coord := db.coord
  saved := historySaved db.log
  applied := db.applied.map (·.envelopeHash)
  messages := db.messages.map (·.envelopeHash)

def State.core (s : State) : Core where
  groupState := s.groupState
  treeHash := s.treeHash
  epoch := s.epoch
  lastCommitHash := s.lastCommitHash
  historyHash := s.historyHash
  historyChain := s.historyChain
  members := s.activeView.sortedMembers
  singleWriter := s.singleWriter
  epochTracker := s.epochTracker
  ledger := s.storage.ledger
  delivered := s.delivered.map (·.wire)
  invalid := s.forkDetector.invalidCommits
  arriving := s.arriving
  arrivedFrom := s.arrivedFrom
  lineage := s.lineage
  told := s.told
  suspected := s.suspected
  appliedCommits := s.appliedCommits
  issuedCommits := s.issuedCommits
  retained := s.retained
  inflight := s.inflight
  dispatched := s.dispatched
  dropped := s.dropped

-- -------- Statements that leave the ledger alone

section Statements

variable {d : Disk} {db db' : Storage}

@[simp] theorem Storage.putEnvelope_ledger (db : Storage) :
    (db.putEnvelope d msgType epoch ts wire source applyState appliedAt).ledger = db.ledger := by
  rw [putEnvelope_eq]
  rfl

theorem Storage.markEnvelopeReplayState_ledger
    (h : markEnvelopeReplayState d db envelopeHash state err = .ok db') :
    db'.ledger = db.ledger := by
  obtain rfl | rfl := markEnvelopeReplayState_ok h
  · rfl
  · rfl

theorem Storage.appendEnvelopeWithSource_ledger
    (h : appendEnvelopeWithSource d db msgType epoch ts wire source = .ok db') :
    db'.ledger = db.ledger := by
  obtain rfl | ⟨_, rfl⟩ := appendEnvelopeWithSource_ok h
  · rfl
  · exact putEnvelope_ledger db

theorem Disk.exec_ledger {next : Storage} (h : d.exec db op name ok next = .ok db')
    (hnext : next.ledger = db.ledger) : db'.ledger = db.ledger := by
  obtain ⟨-, -, rfl⟩ := exec_ok h
  exact hnext

@[simp] theorem Storage.markMessageReplayed_ledger (d : Disk) (db : Storage) :
    (markMessageReplayed d db envelopeHash).ledger = db.ledger := by
  unfold markMessageReplayed
  split
  · rfl
  unfold ledger
  simp only [List.map_map, Ledger.mk.injEq, true_and]
  refine ⟨rfl, List.map_congr_left fun msg _ => ?_⟩
  by_cases h : msg.envelopeHash = envelopeHash <;> simp [h]

end Statements

-- -------- Operations that leave the core alone

section Operations

variable {x : Ctx} {s s' : State}

theorem State.core_storage (s : State) (h : db.ledger = s.storage.ledger) :
    { s with storage := db }.core = s.core := by
  simp [core, h]

theorem State.storeOrWarn_core (h : ∀ db, result = .ok db → db.ledger = s.storage.ledger) :
    (s.storeOrWarn result).core = s.core := by
  cases result with
  | error => rfl
  | ok db => exact s.core_storage (h db rfl)

@[simp] theorem State.stamp_core (s : State) : (s.stamp x).1.core = s.core := rfl

@[simp] theorem State.emit_core (s : State) : (s.emit cb).core = s.core := rfl

theorem State.foldl_core (f : State → α → State) (h : ∀ s a, (f s a).core = s.core) (l : List α)
    (s : State) : (l.foldl f s).core = s.core := by
  induction l generalizing s with
  | nil => rfl
  | cons a l ih => exact (ih _).trans (h s a)

@[simp] theorem publishPreparedEnvelopeLocked_core (s : State) :
    (publishPreparedEnvelopeLocked msgType wire s).core = s.core := by
  unfold publishPreparedEnvelopeLocked
  split <;> rfl

theorem publishPreparedEnvelopeLocked_storage (s : State) :
    (publishPreparedEnvelopeLocked msgType wire s).storage = s.storage := by
  unfold publishPreparedEnvelopeLocked
  split <;> rfl

@[simp] theorem broadcastLocked_core (s : State) :
    (broadcastLocked x msgType payload s).core = s.core := by
  unfold broadcastLocked broadcastWithTimestampLocked
  simp

theorem persistCoordStateLocked_core (h : persistCoordStateLocked x s = .ok s') :
    s'.core = { s.core with
      ledger := { s.core.ledger with coord := some s.core.coordState, saved := true } } := by
  obtain ⟨db, hr, rfl⟩ := State.store_ok h
  obtain ⟨-, -, rfl⟩ := exec_ok hr
  rfl

theorem persistCoordStateLocked_fails (h : persistCoordStateLocked x s = .error err) :
    x.works s.storage.writes .saveCoordState = false := by
  cases hw : x.works s.storage.writes .saveCoordState with
  | false => rfl
  | true => simp [persistCoordStateLocked, State.store, saveCoordState, write,
      exec, Ctx.disk, hw, Except.map] at h

theorem State.unlessError_core (h : ∀ s', result = .ok s' → s'.core = s.core) :
    (s.unlessError result).core = s.core := by
  cases result with
  | error => rfl
  | ok s' => exact h s' rfl

theorem persistCoord_core (x : Ctx) (s : State) :
    (s.unlessError (persistCoordStateLocked x s)).core = s.core ∨
      (s.unlessError (persistCoordStateLocked x s)).core = { s.core with
        ledger := { s.core.ledger with coord := some s.core.coordState, saved := true } } := by
  cases h : persistCoordStateLocked x s with
  | ok s' => exact .inr (persistCoordStateLocked_core h)
  | error => exact .inl rfl

section

variable (s)

@[simp] theorem updateLocalAccessRevocationLocked_core :
    (updateLocalAccessRevocationLocked x groupState epoch s).core = s.core := by
  unfold updateLocalAccessRevocationLocked
  split
  · rfl
  · split <;> rfl

@[simp] theorem armProposalTimer_core : (armProposalTimer s).core = s.core := by
  unfold armProposalTimer
  split <;> rfl

@[simp] theorem deferCommitUntilViewReadyLocked_core :
    (deferCommitUntilViewReadyLocked s).core = s.core := armProposalTimer_core s

@[simp] theorem scheduleFailoverTimerLocked_core :
    (scheduleFailoverTimerLocked x s).core = s.core := by
  unfold scheduleFailoverTimerLocked
  split
  · rfl
  · split <;> rfl

@[simp] theorem saveOperation_core : (s.saveOperation x op).core = s.core := by
  unfold State.saveOperation
  split
  · rfl
  next hsave =>
    exact s.core_storage (exec_ledger hsave rfl)

@[simp] theorem saveJob_core : (s.saveJob x job).core = s.core :=
  State.storeOrWarn_core fun _ h => exec_ledger h rfl

@[simp] theorem saveEvent_core : (s.saveEvent x ev).core = s.core :=
  State.storeOrWarn_core fun _ h => exec_ledger h rfl

@[simp] theorem setHealPhase_core : (s.setHealPhase phase).core = s.core := rfl

@[simp] theorem sendDeliveryAckLocked_core :
    (sendDeliveryAckLocked x target envelopeHash s).core = s.core := by
  unfold sendDeliveryAckLocked
  split <;> rfl

@[simp] theorem markReplayResultLocked_core :
    (markReplayResultLocked x result s).core = s.core := by
  unfold markReplayResultLocked
  split
  · rfl
  · exact State.storeOrWarn_core fun _ h => markEnvelopeReplayState_ledger h

@[simp] theorem conclude_core : (conclude x result s).2.core = s.core :=
  markReplayResultLocked_core s

theorem markInvalidCommitLocked_core :
    (markInvalidCommitLocked commitHash s).core =
      { s.core with invalid := refuseCommit commitHash s.core.invalid } := by
  by_cases h : commitHash = [] ∨ commitHash ∈ s.forkDetector.invalidCommits
  all_goals simp [State.core, markInvalidCommitLocked, ForkDetector.markInvalidCommit,
    refuseCommit, h]

end

@[simp] theorem ForkDetector.processRemote_invalidCommits (fd : ForkDetector) :
    (fd.processRemote observedAt peer remoteEpoch ann).1.invalidCommits = fd.invalidCommits := by
  have hrecord : (fd.record observedAt peer ann).1.invalidCommits = fd.invalidCommits := by
    unfold record
    split <;> rfl
  unfold processRemote
  split
  · rfl
  · dsimp only
    split <;> exact hrecord

@[simp] theorem trackPending_core (s : State) :
    (trackPendingApplicationDeliveriesLocked x wire envelopeHash s).core = s.core := by
  unfold trackPendingApplicationDeliveriesLocked
  split <;> rfl

@[simp] theorem reconcileOperationsAfterCommitLocked_core (s : State) :
    (reconcileOperationsAfterCommitLocked x commit s).core = s.core := by
  have hsettle : ∀ s op, (settleOperation x commit s op).core = s.core := by
    intro s op
    unfold settleOperation
    split
    · split
      · exact saveOperation_core s
      · rfl
    · rfl
  have hsupersede : ∀ s op, (supersedeOperation x commit s op).core = s.core := by
    intro s op
    unfold supersedeOperation
    split
    · exact saveOperation_core s
    · rfl
  have horphan : ∀ s msg, (orphanOwnMessage x s msg).core = s.core := by
    intro s msg
    unfold orphanOwnMessage
    split
    · dsimp only
      split
      · rfl
      · exact State.storeOrWarn_core fun _ h => exec_ledger h rfl
    · rfl
  have hstale : ∀ s, (supersedeStaleMembershipOpsLocked x commit s).core = s.core := by
    intro s
    unfold supersedeStaleMembershipOpsLocked
    split
    · rfl
    split
    · rfl
    · exact State.foldl_core _ hsupersede _ s
  unfold reconcileOperationsAfterCommitLocked
  split
  · rfl
  dsimp only
  split
  · exact (hstale _).trans (State.foldl_core _ hsettle _ s)
  · exact (State.foldl_core _ horphan _ _).trans
      ((hstale _).trans (State.foldl_core _ hsettle _ s))

@[simp] theorem finishRebase_core (s : State) : (finishRebase x op prevEpoch s).core = s.core := by
  unfold finishRebase
  dsimp only
  split <;> simp

end Operations

theorem acceptsRaw_unmarshal (h : acceptsRaw x pid data = some env) :
    data.unmarshal = some env := by
  unfold acceptsRaw at h
  split at h
  · cases h
  rename_i env' henv
  dsimp only at h
  split at h
  · cases h
  split at h
  · cases h
  · cases h
    exact henv

end

-- -------- The apply transactions

open Table

namespace Storage

variable {d : Disk} {db db' : Storage}

@[simp] theorem written_ledger (db : Storage) : (db.written op).ledger =
    { db.ledger with saved := historySaved (op :: db.log) } := rfl

theorem saveGroupRecord_ok (h : saveGroupRecord d db record = .ok db') :
    db'.ledger = { db.ledger with record := db'.group } ∧
      ∃ stored, db'.group = some stored ∧ stored.groupState = record.groupState ∧
        stored.epoch = record.epoch := by
  obtain ⟨-, -, rfl⟩ := Disk.exec_ok h
  obtain ⟨stored, hg, hs, he, -⟩ := db.putGroupRecord_group record
  exact ⟨rfl, stored, hg, hs, he⟩

theorem getGroupRecord_ok (h : getGroupRecord d db = .ok stored) : db.group = some stored := by
  unfold getGroupRecord at h
  split at h
  · cases h
  next hg =>
    obtain ⟨-, -, rfl⟩ := Disk.exec_ok h
    exact hg

theorem getCoordState_ok (h : getCoordState d db = .ok st) : db.coord = some st := by
  unfold getCoordState at h
  split at h
  · cases h
  next hc =>
    obtain ⟨-, -, rfl⟩ := Disk.exec_ok h
    exact hc

theorem saveCoordState_works (db : Storage) (hw : d.works db.writes .saveCoordState = true)
    (st : CoordState) :
    saveCoordState d db st = .ok (Storage.written { db with coord := some { st with
      historyChain := st.historyChain.map fun (epoch, h) => (epoch, some (h.getD [])) } }
      .saveCoordState) := by
  simp [saveCoordState, Disk.write, Disk.exec, hw]

theorem putMessage_messages (db : Storage) (msg : StoredMessage) :
    (db.putMessage msg).ledger.messages = db.ledger.messages ∨
      (db.putMessage msg).ledger.messages =
        insertOrIgnore (fun h => h) db.ledger.messages msg.envelopeHash := by
  unfold putMessage
  split
  · exact .inl rfl
  right
  simp only [ledger, insertOrIgnore, List.map_id']
  split <;> simp

theorem foldl_putMessage (envelopeHash : Bytes) (msgs : List StoredMessage) (db : Storage)
    (h : ∀ msg ∈ msgs, msg.envelopeHash = envelopeHash) :
    (msgs.foldl putMessage db).ledger.messages = db.ledger.messages ∨
      (msgs.foldl putMessage db).ledger.messages =
        insertOrIgnore (fun h => h) db.ledger.messages envelopeHash := by
  induction msgs generalizing db with
  | nil => exact .inl rfl
  | cons msg msgs ih =>
    have ihm := ih (db.putMessage msg) fun m hm => h m (List.mem_cons_of_mem msg hm)
    have hmsg := db.putMessage_messages msg
    rw [h msg List.mem_cons_self] at hmsg
    simp only [List.foldl_cons]
    rcases hmsg with hmsg | hmsg <;> rcases ihm with ihm | ihm <;> rw [ihm, hmsg]
    · exact .inl rfl
    · exact .inr rfl
    · exact .inr rfl
    · refine .inr (insertOrIgnore_known ?_)
      exact mem_insertOrIgnore_key.mpr (.inr rfl)

theorem applyEnvelope_false
    (h : applyEnvelope d op name db record msgs msgType wire ts epoch = .ok (false, db')) :
    db' = db := by
  obtain ⟨-, rfl⟩ | ⟨htrue, -⟩ := applyEnvelope_ok h
  · rfl
  · cases htrue

/-- A transaction that succeeds applies the envelope, writes the record and leaves the
coordination state alone. -/
theorem applyEnvelope_true
    (h : applyEnvelope d op name db record msgs msgType wire ts epoch = .ok (true, db')) :
    Applies db.ledger (d.hash wire) db'.ledger ∧
      (∃ stored, db'.ledger.record = some stored ∧ stored.groupState = record.groupState ∧
        stored.epoch = record.epoch) ∧
      db'.ledger.coord = db.ledger.coord ∧ db'.ledger.saved = historySaved (op :: db.log) := by
  obtain ⟨hfalse, -⟩ | ⟨-, hfresh, rfl⟩ := applyEnvelope_ok h
  · cases hfalse
  have hmsgs := foldl_putMessage (d.hash wire)
    (msgs.map fun msg => { msg with envelopeHash := d.hash wire, messageID := d.hash wire })
    (db.putGroupRecord record) (by simp)
  have hnot : d.hash wire ∉ db.applied.map (·.envelopeHash) := by
    simpa [hasApplied] using hfresh
  obtain ⟨stored, hg, hs, he, -⟩ := db.putGroupRecord_group record
  rw [written_ledger, putEnvelope_ledger, putEnvelope_eq]
  rw [foldl_putMessage_eq] at hmsgs ⊢
  refine ⟨⟨hnot, ?_, hmsgs⟩, ⟨stored, hg, hs, he⟩, rfl, rfl⟩
  refine (congrArg _ (insertOrIgnore_fresh hnot)).trans ?_
  simp [ledger, putGroupRecord]

end Storage

end GroupCoordination
