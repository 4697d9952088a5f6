import GroupCoordination.Refinement.Skirts

/-!
# A heal as a state machine

What each critical section of a heal does to the desk. The phase says which statement of
`runHeal` comes next; the job in it is the local variable of the goroutine, which is a copy of
a row and not the row.
-/

namespace GroupCoordination

open Storage Disk

def Desk.enter (d : Desk) (phase : HealPhase) : Desk :=
  { d with heal := d.heal.map ({ · with phase }) }

def Ctx.DiskWorks (x : Ctx) : Prop := ∀ n op, x.works n op = true

theorem Ctx.DiskWorks.exec {x : Ctx} (h : x.DiskWorks) (hok : ok = true) :
    x.disk.exec db op name ok result = .ok result :=
  if_pos ⟨h _ _, hok⟩

inductive Desk.Saves (x : Ctx) (job : ForkHealingJob) (d : Desk) : Desk → Prop
  | failed (db : Storage) (jobs : db.jobs = d.jobs)
      (h : ∀ db', saveForkHealingJob x.disk db job ≠ .ok db') : Saves x job d d
  | stored (db db' : Storage) (jobs : db.jobs = d.jobs)
      (h : saveForkHealingJob x.disk db job = .ok db') :
      Saves x job d { d with jobs := db'.jobs }

theorem Desk.Saves.rows {d d' : Desk} (h : Desk.Saves x job d d') :
    ∃ jobs, d' = { d with jobs } := by
  cases h with
  | failed => exact ⟨d.jobs, rfl⟩
  | stored db db' => exact ⟨db'.jobs, rfl⟩

inductive Heals (x : Ctx) (wake : HealWake) (d : Desk) : HealPhase → Desk → Prop
  | abort (stopped : d.started = false) : Heals x wake d .queued (d.enter .restore)
  | find (job : ForkHealingJob) (found : d.jobs.find? (·.isActive) = some job) :
      Heals x wake d .queued ({ d with mode := .frozenForApply }.enter (.snapshot job))
  | create (job : ForkHealingJob) (status : job.status = .initiated)
      (missing : x.DiskWorks → d.jobs.find? (·.isActive) = none) (saved : d.Saves x job d') :
      Heals x wake d .queued ({ d' with mode := .frozenForApply }.enter (.snapshot job))
  | skipSnapshot (status : job.status ≠ .initiated) :
      Heals x wake d (.snapshot job) (d.enter (.join job))
  | snapshot (status : job.status = .initiated)
      (saved : d.Saves x { job with status := .snapshotCreated, updatedAtMs := x.nowMs } d') :
      Heals x wake d (.snapshot job)
        (d'.enter (.join { job with status := .snapshotCreated, updatedAtMs := x.nowMs }))
  | skipJoin (status : job.status ≠ .snapshotCreated) :
      Heals x wake d (.join job) (d.enter (.swap job))
  | joinFails (status : job.status = .snapshotCreated) : Heals x wake d (.join job) (d.enter .thaw)
  | join (status : job.status = .snapshotCreated) (bundle : Bytes) (msg : ProposalMsg)
      (saved : d.Saves x { job with
        status := .proposalSent, pendingBundlePrivate := bundle, updatedAtMs := x.nowMs } d')
      (joins : msg.proposalType = .join) :
      Heals x wake d (.join job) (d'.enter (.awaiting { job with
        status := .proposalSent, pendingBundlePrivate := bundle, updatedAtMs := x.nowMs } 1 msg))
  | wait (idle : wake = .signal) : Heals x wake d (.awaiting job attempt msg) d
  | retry (attempts : attempt < 3) :
      Heals x wake d (.awaiting job attempt msg) (d.enter (.awaiting job (attempt + 1) msg))
  | giveUp : Heals x wake d (.awaiting job attempt msg) (d.enter .thaw)
  | reload (row : ForkHealingJob) (found : d.jobs.find? (·.isActive) = some row) :
      Heals x wake d (.awaiting job attempt msg)
        ({ d with welcomeReceived := false }.enter (.swap row))
  | reloadFails :
      Heals x wake d (.awaiting job attempt msg) ({ d with welcomeReceived := false }.enter .thaw)
  | skipSwap (status : job.status ≠ .externalJoined) :
      Heals x wake d (.swap job) (d.enter (.replay job))
  | swapFails (reason : job.status = .externalJoined)
      (cause : x.DiskWorks → bindable job.pendingEpoch = true → job.pendingGroupState = []) :
      Heals x wake d (.swap job) (d.enter .thaw)
  | swap (status : job.status = .externalJoined) (pending : job.pendingGroupState ≠ [])
      (saved : d.Saves x { job with status := .stateSwapped, updatedAtMs := x.nowMs } d') :
      Heals x wake d (.swap job)
        (d'.enter (.replay { job with status := .stateSwapped, updatedAtMs := x.nowMs }))
  | skipReplay (status : job.status ≠ .stateSwapped) :
      Heals x wake d (.replay job) (d.enter (.clean job))
  | replay (status : job.status = .stateSwapped) (chunks : List (List ReplayItem)) :
      Heals x wake d (.replay job) (d.enter (.encrypt job 0 chunks))
  | encrypted (saved : d.Saves x { job with status := .localComplete, updatedAtMs := x.nowMs } d') :
      Heals x wake d (.encrypt job index [])
        (d'.enter (.clean { job with status := .localComplete, updatedAtMs := x.nowMs }))
  | encryptFails :
      Heals x wake d (.encrypt job index (chunk :: rest)) (d.enter (.encrypt job (index + 1) rest))
  | encrypt (ciphertext newState : Bytes) :
      Heals x wake d (.encrypt job index (chunk :: rest))
        (d.enter (.assign job index chunk ciphertext newState rest))
  | assign :
      Heals x wake d (.assign job index chunk ciphertext newState rest)
        (d.enter (.encrypt job (index + 1) rest))
  | skipClean (status : job.status ≠ .localComplete) : Heals x wake d (.clean job) (d.enter .thaw)
  | clean (status : job.status = .localComplete)
      (saved : d.Saves x { job with
        status := .cleaned, completedAtMs := x.nowMs, updatedAtMs := x.nowMs } d') :
      Heals x wake d (.clean job) (d'.enter .thaw)
  | thaw : Heals x wake d .thaw ({ d with mode := .live }.enter .restore)
  | restore : Heals x wake d .restore (d.enter .release)
  | release : Heals x wake d .release { d with heal := none, healing := false }

-- -------- The phases of `runHeal`

section Phases

variable {x : Ctx} {s s' : State} {job : ForkHealingJob}

@[simp] theorem setHealPhase_desk (s : State) : (s.setHealPhase phase).desk = s.desk.enter phase :=
  rfl

theorem saveJob_saves (job : ForkHealingJob) (hdesk : s.desk = d) :
    d.Saves x job (s.saveJob x job).desk := by
  subst hdesk
  unfold State.saveJob State.storeOrWarn
  cases h : saveForkHealingJob x.disk s.storage job with
  | ok db => exact .stored s.storage db rfl h
  | error err => exact .failed s.storage rfl fun db' => by simp [h]

theorem getActiveForkHealingJob_ok {d : Disk} {db : Storage}
    (h : getActiveForkHealingJob d db = .ok found) : found = db.jobs.find? (·.isActive) :=
  (exec_ok h).2.2

theorem getActiveForkHealingJob_none (hworks : x.DiskWorks)
    (h : ∀ job, getActiveForkHealingJob x.disk s.storage ≠ .ok (some job)) :
    s.storage.jobs.find? (·.isActive) = none := by
  cases hfind : s.storage.jobs.find? (·.isActive) with
  | none => rfl
  | some job =>
    refine absurd ?_ (h job)
    rw [← hfind]
    exact if_pos ⟨hworks _ _, rfl⟩

theorem beginHeal_heals (r : HealRun) (s : State) :
    Heals x wake s.desk .queued (beginHeal x r s).desk := by
  unfold beginHeal
  split
  next h =>
    have hstopped : s.started = false := by simpa using h
    exact .abort hstopped
  split
  rename_i job s₁ heq
  split at heq
  next hget =>
    cases heq
    exact .find _ (getActiveForkHealingJob_ok hget).symm
  rename_i hget
  cases heq
  exact .create _ rfl (fun hworks => getActiveForkHealingJob_none hworks hget)
    (saveJob_saves _ rfl)

theorem snapshotHeal_heals (s : State) :
    Heals x wake s.desk (.snapshot job) (snapshotHeal x job s).desk := by
  by_cases h : job.status = .initiated
  · obtain ⟨s₁, hs₁, heq⟩ := snapshotHeal_initiated (x := x) h s
    rw [heq]
    exact .snapshot h (saveJob_saves _ (congrArg Prod.snd hs₁.same))
  · rw [snapshotHeal, if_pos h]
    exact .skipSnapshot h

theorem joinHeal_heals (s : State) : Heals x wake s.desk (.join job) (joinHeal x job s).desk := by
  unfold joinHeal
  split
  next h =>
    exact .skipJoin h
  rename_i h
  split
  · exact .joinFails (not_not.mp h)
  refine .join (not_not.mp h) _ _ (saveJob_saves _ ?_) rfl
  unfold publishJoin
  exact publishPreparedEnvelopeLocked_desk _

theorem reloadJob_heals (s : State) :
    Heals x wake s.desk (.awaiting job attempt msg) (reloadJob x s).desk := by
  unfold reloadJob
  dsimp only
  split
  next row hget =>
    exact .reload row (getActiveForkHealingJob_ok hget).symm
  · exact .reloadFails

theorem awaitWelcome_heals (wake : HealWake) (s : State) :
    Heals x wake s.desk (.awaiting job attempt msg)
      (awaitWelcome x job attempt msg wake s).desk := by
  cases wake with
  | signal =>
    unfold awaitWelcome
    dsimp only
    split
    · exact reloadJob_heals s
    · exact .wait rfl
  | cancelled => exact .giveUp
  | timeout =>
    unfold awaitWelcome
    dsimp only
    split
    · exact reloadJob_heals s
    split
    next h =>
      have hdesk : (publishJoin x msg s).desk = s.desk := publishPreparedEnvelopeLocked_desk _
      rw [setHealPhase_desk, hdesk]
      exact .retry h
    · exact .giveUp

theorem applyHealedState_desk (x : Ctx) (newState newTreeHash : Bytes)
    (newEpoch : Nat) (s : State) :
    (applyHealedState x newState newTreeHash newEpoch s).2.desk = s.desk := by
  unfold applyHealedState
  split
  · rfl
  split
  · rfl
  rename_i hstore
  have hdesk := State.store_desk hstore fun _ h => (saveGroupRecord_spares h).jobs
  dsimp only
  split
  · exact hdesk
  next hpersist =>
    have hcoord := State.store_desk hpersist fun _ h => (saveCoordState_spares h).jobs
    exact hcoord.trans hdesk

theorem applyHealedState_works (hworks : x.DiskWorks) (hepoch : bindable newEpoch = true)
    (hstate : newState ≠ []) (newTreeHash : Bytes) (s : State) :
    (applyHealedState x newState newTreeHash newEpoch s).1 = .ok () := by
  have hget : ∀ err, getGroupRecord x.disk s.storage = .error err → err = errGroupNotFound := by
    intro err h
    unfold getGroupRecord at h
    split at h
    · exact (Except.error.inj h).symm
    · simp [exec, Ctx.disk, hworks _ _] at h
  have hrecord : ∃ record, healedRecord x newState newTreeHash newEpoch s = .ok record ∧
      record.savable = true := by
    unfold healedRecord
    split
    next err h =>
      rw [if_neg (not_not.mpr (hget err h))]
      exact ⟨_, rfl, by simp [GroupRecord.savable, hstate, hepoch]⟩
    · exact ⟨_, rfl, by simp [GroupRecord.savable, hstate, hepoch]⟩
  obtain ⟨record, hok, hsavable⟩ := hrecord
  simp [applyHealedState, hok, State.store, saveGroupRecord, write, exec,
    Ctx.disk, hworks _ _, hsavable, Except.map, persistCoordStateLocked, saveCoordState]

theorem swapHeal_heals (s : State) : Heals x wake s.desk (.swap job) (swapHeal x job s).desk := by
  unfold swapHeal
  split
  next h =>
    exact .skipSwap h
  rename_i h
  split
  next hempty =>
    exact .swapFails (not_not.mp h) fun _ _ => hempty
  rename_i hpending
  have hdesk := applyHealedState_desk x job.pendingGroupState job.pendingTreeHash
    job.pendingEpoch s
  split
  next heq =>
    rw [setHealPhase_desk, show _ = s.desk from (congrArg (State.desk ·.2) heq).symm.trans hdesk]
    refine .swapFails (not_not.mp h) fun hworks hepoch => ?_
    have hok := applyHealedState_works hworks hepoch hpending job.pendingTreeHash s
    rw [heq] at hok
    cases hok
  next heq =>
    exact .swap (not_not.mp h) hpending
      (saveJob_saves _ ((congrArg (State.desk ·.2) heq).symm.trans hdesk))

theorem replayHeal_heals (s : State) :
    Heals x wake s.desk (.replay job) (replayHeal x job s).desk := by
  have hresend : (resendQueue x job.jobID s).desk = s.desk :=
    congrArg Prod.snd (resendQueue_skirts s).same
  unfold replayHeal
  split
  next h =>
    exact .skipReplay h
  rename_i h
  dsimp only
  split
  · rw [setHealPhase_desk, hresend]
    exact .replay (not_not.mp h) []
  · rename_i evs _
    have horphan : (evs.foldl (openOrphan x) ([], resendQueue x job.jobID s)).2.desk =
        (resendQueue x job.jobID s).desk := congrArg Prod.snd (foldl_openOrphan_skirts evs _).same
    rw [setHealPhase_desk, horphan, hresend]
    exact .replay (not_not.mp h) _

theorem encryptHeal_heals (s : State) :
    Heals x wake s.desk (.encrypt job index chunks) (encryptHeal x job index chunks s).desk := by
  unfold encryptHeal
  split
  · exact .encrypted (saveJob_saves _ rfl)
  split
  · rw [setHealPhase_desk, State.foldl_desk _ (fun s _ => saveEvent_desk s)]
    exact .encryptFails
  · exact .encrypt _ _

theorem assignHeal_desk (job : ForkHealingJob) (index : Nat) (chunk : List ReplayItem)
    (ciphertext newState : Bytes) (rest : List (List ReplayItem)) (s : State) :
    (assignHeal x job index chunk ciphertext newState rest s).desk =
      s.desk.enter (.encrypt job (index + 1) rest) := by
  have hsent : ∀ (s : State) outbound evs, (broadcastBatchedOutboundReplay x outbound evs
      (s.enqueue x outbound evs)).desk = s.desk := fun s outbound evs => congrArg Prod.snd
    ((enqueue_skirts outbound evs s).trans
      (broadcastBatchedOutboundReplay_skirts outbound evs _)).same
  rw [assignHeal_eq, setHealPhase_desk, hsent, keepBatchState,
    State.unlessError_desk fun _ h => (saveCurrentGroupStateLocked_outside h).untouched]
  rfl

theorem assignHeal_heals (s : State) :
    Heals x wake s.desk (.assign job index chunk ciphertext newState rest)
      (assignHeal x job index chunk ciphertext newState rest s).desk := by
  rw [assignHeal_desk]
  exact .assign

theorem cleanHeal_heals (r : HealRun) (s : State) :
    Heals x wake s.desk (.clean job) (cleanHeal x r job s).desk := by
  unfold cleanHeal
  split
  next h =>
    exact .skipClean h
  rename_i h
  refine .clean (not_not.mp h) (saveJob_saves _ (State.storeOrWarn_desk fun _ h => ?_))
  obtain ⟨-, -, rfl⟩ := exec_ok h
  rfl

theorem restoreHeal_heals (s : State) : Heals x wake s.desk .restore (restoreHeal x s).desk := by
  unfold restoreHeal
  dsimp only
  split
  · exact .restore
  · split <;> exact .restore

theorem healStep_heals (h : s.heal = some r) (wake : HealWake) :
    Heals x wake s.desk r.phase (healStep x wake s).desk := by
  unfold healStep
  rw [h]
  dsimp only
  split
  next hphase =>
    exact hphase ▸ beginHeal_heals r s
  next hphase =>
    exact hphase ▸ snapshotHeal_heals s
  next hphase =>
    exact hphase ▸ joinHeal_heals s
  next hphase =>
    exact hphase ▸ awaitWelcome_heals wake s
  next hphase =>
    exact hphase ▸ swapHeal_heals s
  next hphase =>
    exact hphase ▸ replayHeal_heals s
  next hphase =>
    exact hphase ▸ encryptHeal_heals s
  next hphase =>
    exact hphase ▸ assignHeal_heals s
  next hphase =>
    exact hphase ▸ cleanHeal_heals r s
  next hphase =>
    exact hphase ▸ .thaw
  next hphase =>
    exact hphase ▸ restoreHeal_heals s
  next hphase =>
    exact hphase ▸ .release

theorem Heals.started (h : Heals x wake d p d') (hhealing : d'.healing = true) :
    d.healing = true := by
  cases h with
  | create _ _ _ saved | snapshot _ saved | join _ _ _ saved | swap _ _ saved | encrypted saved
  | clean _ saved =>
    obtain ⟨jobs, rfl⟩ := saved.rows
    exact hhealing
  | release => cases hhealing
  | _ => exact hhealing

theorem healStep_healing (wake : HealWake) (h : (healStep x wake s).healing = true) :
    s.healing = true := by
  cases hheal : s.heal with
  | none =>
    rw [healStep, hheal] at h
    exact h
  | some r => exact (healStep_heals hheal wake).started h

-- -------- Beside a heal

theorem processWelcomeIfWaiting_desk (x : Ctx) (bytes : Bytes) (s : State) :
    ∃ jobs got, (processWelcomeIfWaiting x bytes s).2.desk =
      { s.desk with jobs, welcomeReceived := got } := by
  unfold processWelcomeIfWaiting
  split
  next job _ =>
    split
    · exact ⟨_, _, rfl⟩
    split
    · exact ⟨_, _, rfl⟩
    rename_i groupState treeHash epoch _
    obtain ⟨jobs, hjobs⟩ := (saveJob_saves (x := x) (s := s) { job with
      status := .externalJoined, winningEpoch := epoch, winningTreeHash := nilIfEmpty treeHash,
      pendingGroupState := groupState, pendingEpoch := epoch, pendingTreeHash := treeHash,
      updatedAtMs := x.nowMs } rfl).rows
    exact ⟨jobs, true, congrArg (fun d : Desk => { d with welcomeReceived := true }) hjobs⟩
  · exact ⟨_, _, rfl⟩

theorem resumeForkHealingJob_desk (s : State) :
    ∃ jobs resuming, (resumeForkHealingJob x s).desk = { s.desk with jobs, resuming } ∨
      s.healing = false ∧ ∃ r : HealRun, r.phase = .queued ∧ (resumeForkHealingJob x s).desk =
        { s.desk with jobs, resuming, healing := true, heal := some r } := by
  unfold resumeForkHealingJob
  split
  · exact ⟨_, _, .inl rfl⟩
  rename_i job _
  have hskip : ∃ jobs, (skipSwap x job { s with resuming := none }).desk =
      { s.desk with jobs, resuming := none } := by
    unfold skipSwap
    split
    · obtain ⟨jobs, hjobs⟩ := (saveJob_saves (x := x) (s := { s with resuming := none })
        { job with status := .stateSwapped, updatedAtMs := x.nowMs } rfl).rows
      exact ⟨jobs, hjobs⟩
    · exact ⟨_, rfl⟩
  obtain ⟨jobs, hskip⟩ := hskip
  have hhealing : (skipSwap x job { s with resuming := none }).healing = s.healing :=
    congrArg Desk.healing hskip
  refine ⟨jobs, none, ?_⟩
  dsimp only
  split
  · exact .inl hskip
  rename_i hidle
  have hopened (r : HealRun) :=
    congrArg (fun d : Desk => { d with healing := true, heal := some r })
    hskip
  exact .inr ⟨by simpa [hhealing] using hidle, _, by rfl, hopened _⟩

/-- Apart from its own steps and a restart a heal stays as it is, and one is opened only where
none is running; the mode stays unless the step sets it. -/
theorem step_desk_kept (hheal : ∀ wake, a.op ≠ .heal wake)
    (hrestart : ∀ view anchor, a.op ≠ .restart view anchor) (h : step node a s = some s') :
    (s'.heal = s.heal ∧ s'.healing = s.healing ∨
      s.healing = false ∧ s'.healing = true ∧ ∃ r, s'.heal = some r ∧ r.phase = .queued) ∧
    ((∀ mode, a.op ≠ .setMode mode) → s'.operationalMode = s.operationalMode) := by
  by_cases hop : a.op.tendsHeal = false
  · rcases step_tends hop h with hsame | ⟨hidle, traceID, event, hopened⟩
    · exact ⟨.inl ⟨congrArg Desk.heal hsame, congrArg Desk.healing hsame⟩,
        fun _ => congrArg Desk.mode hsame⟩
    · exact ⟨.inr ⟨hidle, congrArg Desk.healing hopened, _, congrArg Desk.heal hopened, rfl⟩,
        fun _ => congrArg Desk.mode hopened⟩
  obtain ⟨w, fuel, op⟩ := a
  cases op with
  | restart view anchor => exact absurd rfl (hrestart view anchor)
  | heal wake => exact absurd rfl (hheal wake)
  | welcome bytes =>
    cases h
    obtain ⟨jobs, got, hwoken⟩ := processWelcomeIfWaiting_desk { node, w with } bytes
      (s.arrive (.welcome bytes))
    exact ⟨.inl ⟨congrArg Desk.heal hwoken, congrArg Desk.healing hwoken⟩,
      fun _ => congrArg Desk.mode hwoken⟩
  | resumeHeal =>
    cases h
    obtain ⟨jobs, resuming, hsame | ⟨hidle, r, hqueued, hopened⟩⟩ :=
      resumeForkHealingJob_desk (x := { node, w with }) (s.arrive .resumeHeal)
    · exact ⟨.inl ⟨congrArg Desk.heal hsame, congrArg Desk.healing hsame⟩,
        fun _ => congrArg Desk.mode hsame⟩
    · exact ⟨.inr ⟨hidle, congrArg Desk.healing hopened, r, congrArg Desk.heal hopened, hqueued⟩,
        fun _ => congrArg Desk.mode hopened⟩
  | setMode mode =>
    cases h
    exact ⟨.inl ⟨rfl, rfl⟩, fun hmode => absurd rfl (hmode mode)⟩
  | stop =>
    cases h
    exact ⟨.inl ⟨rfl, rfl⟩, fun _ => rfl⟩
  | _ => exact absurd rfl hop

end Phases

end GroupCoordination
