import GroupCoordination.Model.BatchReplay
import GroupCoordination.Refinement.Desk

/-!
# What a heal leaves alone

The critical sections of a heal, and what else only a heal is concerned with, never touch the stored
operations, and replicate commits and messages only. Most of them leave the core as it is, and those
before the replay write no events.
-/

namespace GroupCoordination

open Storage Disk

-- -------- The log

def Storage.LogsOnly (P : Wire → Prop) (db db' : Storage) : Prop :=
  ∀ row ∈ db'.envelopeLog, (∃ old ∈ db.envelopeLog, old.envelope = row.envelope) ∨ P row.envelope

section LogsOnly

variable {d : Disk} {P Q : Wire → Prop} {db db' db'' : Storage}

theorem Storage.LogsOnly.same (h : db'.envelopeLog = db.envelopeLog) : db.LogsOnly P db' := by
  intro row hrow
  exact .inl ⟨row, h ▸ hrow, rfl⟩

theorem Storage.LogsOnly.trans (h : db.LogsOnly P db') (h' : db'.LogsOnly P db'') :
    db.LogsOnly P db'' := by
  intro row hrow
  rcases h' row hrow with ⟨old, hold, henv⟩ | hnew
  · exact henv ▸ h old hold
  · exact .inr hnew

theorem Storage.LogsOnly.mono (h : db.LogsOnly P db') (hmono : ∀ wire, P wire → Q wire) :
    db.LogsOnly Q db' := fun row hrow => (h row hrow).imp_right (hmono _)

theorem Storage.logsOnly_map (db : Storage) (f : EnvelopeRecord → EnvelopeRecord)
    (hf : ∀ row, (f row).envelope = row.envelope) :
    db.LogsOnly P { db with envelopeLog := db.envelopeLog.map f } := by
  intro row hrow
  obtain ⟨old, hold, rfl⟩ := List.mem_map.mp hrow
  exact .inl ⟨old, hold, (hf old).symm⟩

theorem Storage.putEnvelope_logs (db : Storage) (h : P wire) :
    db.LogsOnly P (db.putEnvelope d msgType epoch ts wire source applyState appliedAt) := by
  unfold putEnvelope
  dsimp only
  split
  · exact db.logsOnly_map _ fun row => by split <;> rfl
  intro row hrow
  rcases List.mem_append.mp hrow with hold | hnew
  · exact .inl ⟨row, hold, rfl⟩
  · rw [List.mem_singleton.mp hnew]
    exact .inr h

theorem Storage.setReplayState_logs (db : Storage) :
    db.LogsOnly P (db.setReplayState now envelopeHash state lastErr) :=
  db.logsOnly_map _ fun row => by split <;> rfl

theorem Storage.appendEnvelopeWithSource_logs (hwire : P wire)
    (h : appendEnvelopeWithSource d db msgType epoch ts wire source = .ok db') :
    db.LogsOnly P db' := by
  obtain rfl | ⟨_, rfl⟩ := appendEnvelopeWithSource_ok h
  · exact .same rfl
  · exact putEnvelope_logs db hwire

theorem Storage.applyEnvelope_logs (hwire : P wire)
    (h : applyEnvelope d op name db record msgs msgType wire ts epoch = .ok (fresh, db')) :
    db.LogsOnly P db' := by
  obtain ⟨-, rfl⟩ | ⟨-, -, rfl⟩ := applyEnvelope_ok h
  · exact .same rfl
  refine Storage.LogsOnly.trans ?_ (putEnvelope_logs _ hwire)
  have hmsgs := foldl_putMessage_eq (msgs.map fun msg =>
    { msg with envelopeHash := d.hash wire, messageID := d.hash wire }) (db.putGroupRecord record)
  exact (LogsOnly.same (congrArg envelopeLog hmsgs)).trans (setReplayState_logs _)

theorem Storage.markEnvelopeReplayState_logs
    (h : markEnvelopeReplayState d db envelopeHash state err = .ok db') : db.LogsOnly P db' := by
  obtain rfl | rfl := markEnvelopeReplayState_ok h
  · exact .same rfl
  · exact setReplayState_logs db

theorem Transaction.logs (h : Transaction x S db db') : db.LogsOnly S.Logs db' := by
  cases h with
  | groupRecord h | coordState h | operation h | orphan _ _ _ h =>
    obtain ⟨-, -, rfl⟩ := exec_ok h
    exact .same rfl
  | apply h hlog => exact applyEnvelope_logs hlog h
  | append h hlog => exact appendEnvelopeWithSource_logs hlog h
  | replayState h => exact markEnvelopeReplayState_logs h

theorem Transacts.logs (h : Transacts x S db db') : db.LogsOnly S.Logs db' := by
  induction h with
  | refl => exact .same rfl
  | tail _ h ih => exact ih.trans h.logs

end LogsOnly

-- -------- Statements of a heal

def Wire.Replicated (wire : Wire) : Prop :=
  ∃ env, wire.unmarshal = some env ∧ (env.type = .commit ∨ env.type = .application)

structure Storage.KeepsEvents (db db' : Storage) : Prop where
  events : db'.applicationEvents = db.applicationEvents
  outbound : db'.outboundReplays = db.outboundReplays
  writes : db.writes ≤ db'.writes

section Skirts

variable {x : Ctx} {w : Bool} {db db' db'' : Storage} {s s' s'' : State} {f : State → α}

theorem Storage.KeepsEvents.refl (db : Storage) : db.KeepsEvents db := ⟨rfl, rfl, le_rfl⟩

theorem Storage.KeepsEvents.trans (h : db.KeepsEvents db') (h' : db'.KeepsEvents db'') :
    db.KeepsEvents db'' :=
  ⟨h'.events.trans h.events, h'.outbound.trans h.outbound, h.writes.trans h'.writes⟩

theorem Storage.Spares.keepsEvents (h : db.Spares db') : db.KeepsEvents db' :=
  ⟨h.events, h.outbound, h.writes⟩

structure Storage.Apart (writing : Bool) (db db' : Storage) : Prop where
  operations : db'.pendingOperations = db.pendingOperations
  log : db.LogsOnly Wire.Replicated db'
  events : writing = false → db.KeepsEvents db'

/-- A part of a heal that changes nothing of what `f` shows; one that is writing may write
events. -/
structure Skirts (writing : Bool) (f : State → α) (s s' : State) : Prop where
  same : f s' = f s
  trace : s'.operationTrace = s.operationTrace
  apart : s.storage.Apart writing s'.storage

def State.still (s : State) : Core × Desk := (s.core, s.desk)

def State.buffers (s : State) : EpochTracker × List BufferedProposal × List IssuedCommit :=
  (s.epochTracker, s.singleWriter.proposals, s.issuedCommits)

theorem Storage.Apart.trans (h : db.Apart w db') (h' : db'.Apart w db'') : db.Apart w db'' :=
  ⟨h'.operations.trans h.operations, h.log.trans h'.log, fun hw => (h.events hw).trans
    (h'.events hw)⟩

theorem Storage.Apart.refl (db : Storage) : db.Apart w db := ⟨rfl, .same rfl, fun _ => .refl db⟩

namespace Skirts

theorem trans (h : Skirts w f s s') (h' : Skirts w f s' s'') : Skirts w f s s'' :=
  ⟨h'.same.trans h.same, h'.trace.trans h.trace, h.apart.trans h'.apart⟩

theorem memory (hsame : f s' = f s)
    (h : (s'.operationTrace, s'.storage) = (s.operationTrace, s.storage)) : Skirts w f s s' := by
  obtain ⟨htrace, hstorage⟩ := Prod.mk.inj h
  exact ⟨hsame, htrace, hstorage ▸ .refl _⟩

theorem refl (s : State) : Skirts w f s s := .memory rfl rfl

theorem proj (h : Skirts w f s s') (g : α → β) : Skirts w (g ∘ f) s s' :=
  ⟨congrArg g h.same, h.trace, h.apart⟩

theorem core (h : Skirts w State.still s s') : Skirts w State.core s s' := h.proj Prod.fst

theorem buffers (h : Skirts w State.core s s') : Skirts w State.buffers s s' :=
  h.proj fun c => (c.epochTracker, c.singleWriter.proposals, c.issuedCommits)

theorem store (hs : s.store result = .ok s') (h : ∀ db, result = .ok db →
    f { s with storage := db } = f s ∧ s.storage.Apart w db) : Skirts w f s s' := by
  obtain ⟨db, hr, rfl⟩ := State.store_ok hs
  exact ⟨(h db hr).1, rfl, (h db hr).2⟩

theorem storeOrWarn (h : ∀ db, result = .ok db →
    f { s with storage := db } = f s ∧ s.storage.Apart w db) :
    Skirts w f s (s.storeOrWarn result) := by
  cases result with
  | error => exact .refl s
  | ok db => exact .store rfl h

theorem foldl (g : State → β → State) (h : ∀ s a, Skirts w f s (g s a)) (l : List β) (s : State) :
    Skirts w f s (l.foldl g s) := by
  induction l generalizing s with
  | nil => exact .refl s
  | cons a l ih => exact (h s a).trans (ih _)

end Skirts

theorem publishPreparedEnvelopeLocked_skirts (msgType : MessageType) (wire : Wire) (s : State) :
    Skirts w State.still s (publishPreparedEnvelopeLocked msgType wire s) := by
  unfold publishPreparedEnvelopeLocked
  split <;> exact .memory rfl rfl

theorem publishJoin_skirts (msg : ProposalMsg) (s : State) :
    Skirts w State.still s (publishJoin x msg s) := by
  have hstamp : Skirts w State.still s (s.stamp x).1 := .memory rfl rfl
  exact hstamp.trans (publishPreparedEnvelopeLocked_skirts .proposal _ _)

theorem appendOfflineEnvelopeLocked_skirts (wire : Wire) (s : State) :
    Skirts w State.still s (appendOfflineEnvelopeLocked x wire s) := by
  unfold appendOfflineEnvelopeLocked
  split
  · exact .refl s
  rename_i env hwire
  split
  next htype =>
    refine .storeOrWarn fun db h => ?_
    have hspares := appendEnvelopeWithSource_spares h
    refine ⟨?_, appendEnvelopeWithSource_operations h,
      appendEnvelopeWithSource_logs ⟨env, hwire, htype.2⟩ h, fun _ => hspares.keepsEvents⟩
    exact congrArg₂ Prod.mk (s.core_storage (appendEnvelopeWithSource_ledger h))
      (s.desk_storage hspares.jobs)
  · exact .refl s

theorem saveEvent_skirts (ev : ApplicationEvent) (s : State) :
    Skirts true State.still s (s.saveEvent x ev) :=
  .storeOrWarn fun _ h => by
    obtain ⟨-, -, rfl⟩ := exec_ok h
    exact ⟨rfl, rfl, .same rfl, nofun⟩

theorem saveOutboundReplay_skirts (h : saveOutboundReplay x.disk s.storage outbound = .ok db) :
    { s with storage := db }.still = s.still ∧ s.storage.Apart true db := by
  obtain ⟨-, -, rfl⟩ := exec_ok h
  exact ⟨rfl, rfl, .same rfl, nofun⟩

theorem markReplayed_skirts (s : State) (ev : ApplicationEvent) :
    Skirts true State.still s (markReplayed x s ev) := by
  have hmark : ∀ s : State, Skirts true State.still s
      { s with storage := s.storage.markMessageReplayed x.disk ev.envelopeHash } := by
    intro s
    refine ⟨congrArg₂ Prod.mk (s.core_storage (markMessageReplayed_ledger _ _)) (s.desk_storage ?_),
      rfl, ?_⟩
    all_goals
      unfold markMessageReplayed
      split
    · rfl
    · rfl
    · exact .refl _
    · exact ⟨rfl, .same rfl, nofun⟩
  exact (saveEvent_skirts _ s).trans (hmark _)

theorem broadcastBatchedOutboundReplay_skirts (outbound : OutboundReplay)
    (evs : List ApplicationEvent)
    (s : State) : Skirts true State.still s (broadcastBatchedOutboundReplay x outbound evs s) := by
  have hsent :=
    (appendOfflineEnvelopeLocked_skirts (x := x) (w := true) outbound.replayEnvelope s).trans
    (publishPreparedEnvelopeLocked_skirts .applicationBatched outbound.replayEnvelope _)
  unfold broadcastBatchedOutboundReplay
  dsimp only
  split
  · exact hsent
  next hstore =>
    exact (hsent.trans (.store hstore fun _ h => saveOutboundReplay_skirts h)).trans
      (.foldl _ markReplayed_skirts _ _)

theorem resendQueue_skirts (s : State) : Skirts true State.still s (resendQueue x jobID s) := by
  unfold resendQueue
  split
  · exact .refl s
  refine .foldl _ (fun s outbound => ?_) _ s
  unfold resendOutbound
  split
  · exact .refl s
  split
  · exact .refl s
  dsimp only
  split
  · exact .refl s
  · exact broadcastBatchedOutboundReplay_skirts outbound _ s

theorem foldl_openOrphan_skirts (events : List ApplicationEvent) (acc : List ReplayItem × State) :
    Skirts true State.still acc.2 (events.foldl (openOrphan x) acc).2 := by
  have hopen : ∀ (acc : List ReplayItem × State) ev,
      Skirts true State.still acc.2 (openOrphan x acc ev).2 := by
    rintro ⟨items, s⟩ ev
    unfold openOrphan
    dsimp only
    split
    · exact saveEvent_skirts _ s
    split
    · exact .refl s
    split
    · exact saveEvent_skirts _ s
    split
    · exact (saveEvent_skirts _ s).trans (saveEvent_skirts _ _)
    · exact saveEvent_skirts _ s
  induction events generalizing acc with
  | nil => exact .refl acc.2
  | cons ev events ih => exact (hopen acc ev).trans (ih _)

theorem snapshotOwnMessage_skirts (s : State) (msg : StoredMessage) :
    Skirts true State.still s (snapshotOwnMessage x job s msg) := by
  unfold snapshotOwnMessage
  dsimp only
  split
  · exact .refl s
  · exact saveEvent_skirts _ s

theorem snapshotPendingEnvelope_skirts (s : State) (row : EnvelopeRecord) :
    Skirts true State.still s (snapshotPendingEnvelope x job s row) := by
  unfold snapshotPendingEnvelope
  dsimp only
  repeat' split
  all_goals first
    | exact .refl s
    | exact saveEvent_skirts _ s

-- -------- Critical sections

theorem saveJob_skirts (job : ForkHealingJob) (s : State) :
    Skirts w State.core s (s.saveJob x job) :=
  .storeOrWarn fun _ h => by
    obtain ⟨-, -, rfl⟩ := exec_ok h
    exact ⟨rfl, rfl, .same rfl, fun _ => ⟨rfl, rfl, Nat.le_succ _⟩⟩

theorem beginHeal_skirts (r : HealRun) (s : State) : Skirts w State.core s (beginHeal x r s) := by
  unfold beginHeal
  split
  · exact .memory rfl rfl
  dsimp only
  split
  · exact .memory rfl rfl
  · exact (saveJob_skirts _ s).trans (.memory rfl rfl)

theorem snapshotHeal_initiated (h : job.status = .initiated) (s : State) :
    ∃ s₁, Skirts true State.still s s₁ ∧ snapshotHeal x job s =
      (s₁.saveJob x { job with status := .snapshotCreated, updatedAtMs := x.nowMs }).setHealPhase
        (.join { job with status := .snapshotCreated, updatedAtMs := x.nowMs }) := by
  unfold snapshotHeal
  rw [if_neg (not_not.mpr h)]
  refine ⟨_, ?_, rfl⟩
  split <;> split
  · exact .refl s
  · exact .foldl _ snapshotOwnMessage_skirts _ s
  · exact .foldl _ snapshotPendingEnvelope_skirts _ s
  · exact (Skirts.foldl _ snapshotOwnMessage_skirts _ s).trans
      (.foldl _ snapshotPendingEnvelope_skirts _ _)

theorem snapshotHeal_skirts (s : State) : Skirts true State.core s (snapshotHeal x job s) := by
  by_cases h : job.status = .initiated
  · obtain ⟨s₁, hs₁, heq⟩ := snapshotHeal_initiated (x := x) h s
    exact heq ▸ hs₁.core.trans ((saveJob_skirts _ _).trans (.memory rfl rfl))
  · rw [snapshotHeal, if_pos h]
    exact .memory rfl rfl

theorem joinHeal_skirts (s : State) : Skirts w State.buffers s (joinHeal x job s) := by
  unfold joinHeal
  split
  · exact .memory rfl rfl
  split
  · exact .memory rfl rfl
  have hdrop : Skirts w State.buffers s { s with groupState := [], treeHash := [] } :=
    .memory rfl rfl
  exact (hdrop.trans (publishJoin_skirts _ _).core.buffers).trans
    ((saveJob_skirts _ _).buffers.trans (.memory rfl rfl))

theorem awaitWelcome_skirts (wake : HealWake) (s : State) :
    Skirts w State.core s (awaitWelcome x job attempt msg wake s) := by
  have hreload : Skirts w State.core s (reloadJob x s) := by
    unfold reloadJob
    dsimp only
    split <;> exact .memory rfl rfl
  unfold awaitWelcome
  split
  · split
    · exact hreload
    · exact .refl s
  · exact .memory rfl rfl
  split
  · exact hreload
  split
  · exact (publishJoin_skirts (x := x) msg s).core.trans (.memory rfl rfl)
  · exact .memory rfl rfl

theorem replayHeal_skirts (s : State) : Skirts true State.core s (replayHeal x job s) := by
  unfold replayHeal
  split
  · exact .memory rfl rfl
  dsimp only
  split
  · exact (resendQueue_skirts s).core.trans (.memory rfl rfl)
  · exact ((resendQueue_skirts s).trans (foldl_openOrphan_skirts _ ([], _))).core.trans
      (.memory rfl rfl)

theorem encryptHeal_skirts (s : State) :
    Skirts true State.core s (encryptHeal x job index chunks s) := by
  unfold encryptHeal
  split
  · exact (saveJob_skirts _ s).trans (.memory rfl rfl)
  split
  · exact (Skirts.foldl _ (fun s _ => saveEvent_skirts _ s) _ s).core.trans (.memory rfl rfl)
  · exact .memory rfl rfl

def batchOutbound (x : Ctx) (job : ForkHealingJob) (index : Nat) (ciphertext : Bytes) (s : State) :
    OutboundReplay where
  replayOperationID := hexEncode (x.disk.hash (batchEnvelope x ciphertext s))
  eventID := "BATCH-" ++ toString index
  jobID := job.jobID
  replayEnvelope := batchEnvelope x ciphertext s
  replayedEnvelopeHash := x.disk.hash (batchEnvelope x ciphertext s)
  status := .enqueued
  createdAtMs := x.nowMs
  updatedAtMs := x.nowMs

def ReplayItem.enqueued (outbound : OutboundReplay) (item : ReplayItem) : ApplicationEvent :=
  { item.event with
    replayOperationID := outbound.replayOperationID
    replayedEnvelopeHash := outbound.replayedEnvelopeHash
    status := .replayEnqueued }

def keepBatchState (x : Ctx) (newState : Bytes) (s : State) : State :=
  let s := { (s.stamp x).1 with groupState := newState }
  s.unlessError (saveCurrentGroupStateLocked x s)

def State.enqueue (x : Ctx) (outbound : OutboundReplay) (evs : List ApplicationEvent) (s : State) :
    State :=
  evs.foldl (fun s ev => s.saveEvent x ev)
    (s.storeOrWarn (Storage.saveOutboundReplay x.disk s.storage outbound))

theorem assignHeal_eq (x : Ctx) (job : ForkHealingJob) (index : Nat) (chunk : List ReplayItem)
    (ciphertext newState : Bytes) (rest : List (List ReplayItem)) (s : State) :
    assignHeal x job index chunk ciphertext newState rest s =
      let outbound := batchOutbound x job index ciphertext s
      let evs := chunk.map (·.enqueued outbound)
      (broadcastBatchedOutboundReplay x outbound evs
        ((keepBatchState x newState s).enqueue x outbound evs)).setHealPhase
          (.encrypt job (index + 1) rest) :=
  rfl

theorem saveGroupRecord_skirts (h : s.store (saveGroupRecord x.disk s.storage record) = .ok s') :
    Skirts w State.buffers s s' :=
  .store h fun _ h => by
    obtain ⟨-, -, rfl⟩ := exec_ok h
    exact ⟨rfl, rfl, .same rfl, fun _ => ⟨rfl, rfl, Nat.le_succ _⟩⟩

theorem persistCoordStateLocked_skirts (h : persistCoordStateLocked x s = .ok s') :
    Skirts w State.buffers s s' :=
  .store h fun _ h => by
    obtain ⟨-, -, rfl⟩ := exec_ok h
    exact ⟨rfl, rfl, .same rfl, fun _ => ⟨rfl, rfl, Nat.le_succ _⟩⟩

theorem enqueue_skirts (outbound : OutboundReplay) (evs : List ApplicationEvent) (s : State) :
    Skirts true State.still s (s.enqueue x outbound evs) :=
  .trans (.storeOrWarn fun _ h => saveOutboundReplay_skirts h)
    (.foldl _ (fun s ev => saveEvent_skirts ev s) _ _)

theorem assignHeal_skirts (s : State) :
    Skirts true State.buffers s (assignHeal x job index chunk ciphertext newState rest s) := by
  have hkeep : Skirts true State.buffers s (keepBatchState x newState s) := by
    have hstate : Skirts true State.buffers s { (s.stamp x).1 with groupState := newState } :=
      .memory rfl rfl
    unfold keepBatchState State.unlessError
    dsimp only
    split
    next hsave =>
      obtain ⟨record, -, -, hstore⟩ := saveCurrentGroupStateLocked_stores hsave
      exact hstate.trans (saveGroupRecord_skirts hstore)
    · exact hstate
  rw [assignHeal_eq]
  exact hkeep.trans (((enqueue_skirts _ _ _).trans
    (broadcastBatchedOutboundReplay_skirts _ _ _)).core.buffers.trans (.memory rfl rfl))

theorem cleanHeal_skirts (s : State) : Skirts true State.core s (cleanHeal x r job s) := by
  unfold cleanHeal
  split
  · exact .memory rfl rfl
  have hclear : Skirts true State.core s
      (s.storeOrWarn (clearSealedPayloads x.disk s.storage job.jobID)) := by
    refine .storeOrWarn fun _ h => ⟨s.core_storage (exec_ledger h rfl), ?_⟩
    obtain ⟨-, -, rfl⟩ := exec_ok h
    exact ⟨rfl, .same rfl, nofun⟩
  have hdone : ∀ s : State, Skirts true State.core s
      ((s.emit (.forkHeal "fork_heal_completed" r.traceID job.pendingEpoch)).setHealPhase .thaw) :=
    fun s => .memory rfl rfl
  exact (hclear.trans (saveJob_skirts _ _)).trans (hdone _)

theorem restoreHeal_skirts (s : State) : Skirts w State.buffers s (restoreHeal x s) := by
  unfold restoreHeal
  dsimp only
  split
  · exact .memory rfl rfl
  · split <;> exact .memory rfl rfl

theorem processWelcomeIfWaiting_skirts (s : State) :
    Skirts w State.core s (processWelcomeIfWaiting x bytes s).2 := by
  unfold processWelcomeIfWaiting
  split
  · split
    · exact .refl s
    split
    · exact .refl s
    · exact (saveJob_skirts _ s).trans (.memory rfl rfl)
  · exact .refl s

theorem resumeForkHealingJob_skirts (s : State) :
    Skirts w State.core s (resumeForkHealingJob x s) := by
  have hstart : Skirts w State.core s { s with resuming := none } := .memory rfl rfl
  have hskip : ∀ job, Skirts w State.core s (skipSwap x job { s with resuming := none }) := by
    intro job
    unfold skipSwap
    split
    · exact hstart.trans (saveJob_skirts _ _)
    · exact hstart
  unfold resumeForkHealingJob
  split
  · exact .refl s
  dsimp only
  split
  · exact hskip _
  · exact (hskip _).trans (.memory rfl rfl)

-- -------- Every step of a heal

/-- A swap of the branch empties the buffers as well. -/
structure Beside (writing : Bool) (s s' : State) : Prop where
  buffer : ∀ e, ∀ raw ∈ s'.epochTracker.futureBuffer e, raw ∈ s.epochTracker.futureBuffer e
  proposals : ∀ p ∈ s'.singleWriter.proposals, p ∈ s.singleWriter.proposals
  issued : s'.issuedCommits = s.issuedCommits
  trace : s'.operationTrace = s.operationTrace
  apart : s.storage.Apart writing s'.storage

theorem Beside.trans (h : Beside w s s') (h' : Beside w s' s'') : Beside w s s'' :=
  ⟨fun e raw hraw => h.buffer e raw (h'.buffer e raw hraw),
    fun p hp => h.proposals p (h'.proposals p hp), h'.issued.trans h.issued, h'.trace.trans h.trace,
    h.apart.trans h'.apart⟩

theorem Skirts.beside (h : Skirts w State.buffers s s') : Beside w s s' := by
  obtain ⟨htracker, hrest⟩ := Prod.mk.inj h.same
  obtain ⟨hproposals, hissued⟩ := Prod.mk.inj hrest
  exact ⟨fun _ _ hraw => htracker ▸ hraw, fun _ hp => hproposals ▸ hp, hissued, h.trace, h.apart⟩

theorem Beside.memory (hsame : s'.buffers = s.buffers)
    (h : (s'.operationTrace, s'.storage) = (s.operationTrace, s.storage)) : Beside w s s' :=
  (Skirts.memory hsame h).beside

theorem swapHeal_beside (s : State) : Beside w s (swapHeal x job s) := by
  have happly : Beside w s
      (applyHealedState x job.pendingGroupState job.pendingTreeHash job.pendingEpoch s).2 := by
    unfold applyHealedState
    split
    · exact .memory rfl rfl
    split
    · exact .memory rfl rfl
    rename_i s₁ hstore
    have hswap : Beside w s₁
        (swapState x job.pendingGroupState job.pendingTreeHash job.pendingEpoch s₁) :=
      ⟨nofun, nofun, rfl, rfl, .refl _⟩
    have hswapped := (saveGroupRecord_skirts hstore).beside.trans hswap
    dsimp only
    split
    · exact hswapped
    next hpersist =>
      exact (hswapped.trans (persistCoordStateLocked_skirts hpersist).beside).trans
        (.memory rfl rfl)
  unfold swapHeal
  split
  · exact .memory rfl rfl
  split
  · exact .memory rfl rfl
  split
  next heq =>
    rw [heq] at happly
    exact happly.trans (.memory rfl rfl)
  next heq =>
    rw [heq] at happly
    exact (happly.trans (saveJob_skirts _ _).buffers.beside).trans (.memory rfl rfl)

theorem healStep_beside (wake : HealWake) (s : State) : Beside true s (healStep x wake s) := by
  unfold healStep
  split
  · exact .memory rfl rfl
  split
  · exact (beginHeal_skirts _ s).buffers.beside
  · exact (snapshotHeal_skirts s).buffers.beside
  · exact (joinHeal_skirts s).beside
  · exact (awaitWelcome_skirts wake s).buffers.beside
  · exact swapHeal_beside s
  · exact (replayHeal_skirts s).buffers.beside
  · exact (encryptHeal_skirts s).buffers.beside
  · exact (assignHeal_skirts s).beside
  · exact (cleanHeal_skirts s).buffers.beside
  · exact .memory rfl rfl
  · exact (restoreHeal_skirts s).beside
  · exact .memory rfl rfl

end Skirts

end GroupCoordination
