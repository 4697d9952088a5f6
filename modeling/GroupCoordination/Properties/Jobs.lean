import GroupCoordination.Model.Reference
import GroupCoordination.Refinement.Quiet

/-!
# The table of heal jobs

What `SaveForkHealingJob` leaves for `GetActiveForkHealingJob` to find. The table has no
column for the private bundle of the join request, so a job that waits for its Welcome comes
back without the key the Welcome is opened with.
-/

namespace GroupCoordination

open Storage Table ForkHealingJob

variable {d : Disk} {db db' : Storage} {jobs : List ForkHealingJob} {job row : ForkHealingJob}

/-- The keys of the schema: the primary key, and the unique index over active jobs. -/
structure JobTable (jobs : List ForkHealingJob) : Prop where
  keyed : Table.Keyed jobID jobs
  single : ∀ a ∈ jobs, ∀ b ∈ jobs, a.isActive = true → b.isActive = true → a = b

theorem jobTable_singleton (row : ForkHealingJob) : JobTable [row] where
  keyed := List.nodup_singleton _
  single a ha b hb _ _ := by rw [List.mem_singleton.mp ha, List.mem_singleton.mp hb]

theorem JobTable.find_active (h : JobTable jobs) (hrow : row ∈ jobs)
    (hactive : row.isActive = true) : jobs.find? (·.isActive) = some row := by
  cases hfind : jobs.find? (·.isActive) with
  | none => exact absurd hactive (List.find?_eq_none.mp hfind row hrow)
  | some other =>
    rw [h.single other (List.mem_of_find?_eq_some hfind) row hrow (List.find?_some hfind) hactive]

-- -------- The row of a saved job

def jobRow (jobs : List ForkHealingJob) (job : ForkHealingJob) : ForkHealingJob :=
  upserted jobID (fun old new => { new with createdAtMs := old.createdAtMs })
    jobs { job with pendingBundlePrivate := [] }

section

variable (jobs : List ForkHealingJob)

theorem jobRow_eq (job : ForkHealingJob) :
    ∃ createdAtMs, jobRow jobs job = { job with pendingBundlePrivate := [], createdAtMs } := by
  unfold jobRow upserted
  split
  · exact ⟨_, rfl⟩
  · exact ⟨job.createdAtMs, rfl⟩

@[simp] theorem jobRow_jobID : (jobRow jobs job).jobID = job.jobID := by
  obtain ⟨_, h⟩ := jobRow_eq jobs job
  rw [h]

@[simp] theorem jobRow_status : (jobRow jobs job).status = job.status := by
  obtain ⟨_, h⟩ := jobRow_eq jobs job
  rw [h]

@[simp] theorem jobRow_isActive (job : ForkHealingJob) :
    (jobRow jobs job).isActive = job.isActive := by
  simp [isActive]

end

theorem jobRow_eq_iff (h : JobTable jobs) :
    jobRow jobs job = job ↔ job.pendingBundlePrivate = [] ∧
      ∀ old ∈ jobs, old.jobID = job.jobID → old.createdAtMs = job.createdAtMs := by
  unfold jobRow upserted
  split
  next old hget =>
    have hold : old ∈ jobs := List.mem_of_find?_eq_some hget
    have hid : old.jobID = job.jobID := by simpa using List.find?_some hget
    constructor
    · intro heq
      refine ⟨congrArg pendingBundlePrivate heq.symm, fun other hother hoid => ?_⟩
      rw [List.inj_on_of_nodup_map h.keyed hother hold (hoid.trans hid.symm)]
      have hcreated := congrArg createdAtMs heq
      exact hcreated
    · rintro ⟨hbundle, hcreated⟩
      dsimp only
      rw [hcreated old hold hid, ← hbundle]
  next hget =>
    have hfresh : job.jobID ∉ jobs.map jobID := get_eq_none.mp hget
    constructor
    · intro heq
      refine ⟨congrArg pendingBundlePrivate heq.symm, fun old hold hid => ?_⟩
      exact absurd (hid ▸ List.mem_map_of_mem hold) hfresh
    · rintro ⟨hbundle, -⟩
      rw [← hbundle]

-- -------- Saving and reading back

def ForkHealingJob.savable (job : ForkHealingJob) : Bool :=
  job.winningTreeHash ≠ none ∧ bindable job.forkBaseEpoch ∧ bindable job.losingEpoch ∧
    bindable job.winningEpoch ∧ bindable job.pendingEpoch

def ForkHealingJob.Unrivalled (job : ForkHealingJob) (jobs : List ForkHealingJob) : Prop :=
  job.isActive = true → ∀ other ∈ jobs, other.isActive = true → other.jobID = job.jobID

theorem Storage.saveForkHealingJob_ok_iff (d : Disk) (db : Storage) (job : ForkHealingJob) :
    (∃ db', saveForkHealingJob d db job = .ok db') ↔
      d.works db.writes .saveForkHealingJob = true ∧ job.savable = true ∧
        job.Unrivalled db.jobs := by
  constructor
  · rintro ⟨db', h⟩
    obtain ⟨hworks, hok, -⟩ := Disk.exec_ok h
    obtain ⟨htree, hepochs, hclash⟩ := of_decide_eq_true hok
    refine ⟨hworks, decide_eq_true ⟨htree, hepochs⟩, fun hactive other hother hoa => ?_⟩
    by_contra hid
    exact hclash ⟨hactive, List.any_eq_true.mpr ⟨other, hother, decide_eq_true ⟨hid, hoa⟩⟩⟩
  rintro ⟨hworks, hsavable, hfree⟩
  obtain ⟨htree, hepochs⟩ := of_decide_eq_true hsavable
  refine ⟨_, if_pos ⟨hworks, decide_eq_true ⟨htree, hepochs, ?_⟩⟩⟩
  rintro ⟨hactive, hany⟩
  obtain ⟨other, hother, hrival⟩ := List.any_eq_true.mp hany
  obtain ⟨hid, hoa⟩ := of_decide_eq_true hrival
  exact hid (hfree hactive other hother hoa)

theorem Storage.saveForkHealingJob_jobs (h : saveForkHealingJob d db job = .ok db') :
    db'.jobs = upsert jobID
      (fun old new => { new with createdAtMs := old.createdAtMs }) db.jobs
      { job with pendingBundlePrivate := [] } := by
  obtain ⟨-, -, rfl⟩ := Disk.exec_ok h
  rfl

theorem JobTable.mem_saved (htable : JobTable db.jobs) (h : saveForkHealingJob d db job = .ok db') :
    row ∈ db'.jobs ↔ row = jobRow db.jobs job ∨ row ∈ db.jobs ∧ row.jobID ≠ job.jobID := by
  rw [saveForkHealingJob_jobs h]
  exact mem_upsert htable.keyed

theorem JobTable.saved (htable : JobTable db.jobs)
    (h : saveForkHealingJob d db job = .ok db') : JobTable db'.jobs where
  keyed := by
    rw [saveForkHealingJob_jobs h]
    exact htable.keyed.upsert fun _ _ => rfl
  single := by
    have hclash := ((saveForkHealingJob_ok_iff d db job).mp ⟨db', h⟩).2.2
    rintro a ha b hb haa hba
    rw [htable.mem_saved h] at ha hb
    rcases ha with rfl | ⟨ha, haid⟩ <;> rcases hb with rfl | ⟨hb, hbid⟩
    · rfl
    · exact absurd (hclash ((jobRow_isActive _ job).symm.trans haa) b hb hba) hbid
    · exact absurd (hclash ((jobRow_isActive _ job).symm.trans hba) a ha haa) haid
    · exact htable.single a ha b hb haa hba

theorem getActiveForkHealingJob_saved (hworks : ∀ n op, d.works n op = true)
    (htable : JobTable db.jobs) (hactive : job.isActive = true)
    (h : saveForkHealingJob d db job = .ok db') :
    getActiveForkHealingJob d db' = .ok (some (jobRow db.jobs job)) := by
  have hrow := (htable.mem_saved h).mpr (.inl rfl)
  have hfind := (htable.saved h).find_active hrow ((jobRow_isActive _ job).trans hactive)
  simp [getActiveForkHealingJob, Disk.exec, hworks, hfind]

-- -------- A saved job and its Welcome

theorem processWelcomeIfWaiting_bundle {x : Ctx} {s : State}
    (h : getActiveForkHealingJob x.disk s.storage = .ok (some row))
    (hbundle : row.pendingBundlePrivate = []) :
    processWelcomeIfWaiting x welcome s = (false, s) := by
  simp [processWelcomeIfWaiting, h, hbundle]

/-- The engine opens this Welcome with the private bundle of the job. -/
def ForkHealingJob.Opens (x : Ctx) (job : ForkHealingJob) (welcome : Bytes) : Prop :=
  ∃ joined, x.engine.processWelcome welcome x.signingKey job.pendingBundlePrivate
    x.cfg.getMaxPastEpochs = .ok joined

/-- What a heal needs of a saved job: it is read as it was, and a Welcome it can open while it
waits moves it on. -/
structure ForkHealingJob.Survives (x : Ctx) (job : ForkHealingJob) (s : State) : Prop where
  read : getActiveForkHealingJob x.disk s.storage = .ok (some job)
  joins : job.status = .proposalSent → ∀ welcome, job.Opens x welcome →
    ∃ joined, getActiveForkHealingJob x.disk
        (processWelcomeIfWaiting x welcome s).2.storage = .ok (some joined) ∧
      joined.status = .externalJoined

/-- A saved job survives if there is no bundle to lose, and so nothing to wait for. -/
theorem saved_job_survives_iff (x : Ctx) (s : State) (job : ForkHealingJob)
    (hworks : ∀ n op, x.works n op = true) (htable : JobTable s.storage.jobs)
    (hactive : job.isActive = true) (hsave : saveForkHealingJob x.disk s.storage job = .ok db') :
    job.Survives x { s with storage := db' } ↔
      job.pendingBundlePrivate = [] ∧
      (∀ old ∈ s.storage.jobs, old.jobID = job.jobID → old.createdAtMs = job.createdAtMs) ∧
      (job.status = .proposalSent → ∀ welcome, ¬ job.Opens x welcome) := by
  have hread := getActiveForkHealingJob_saved hworks htable hactive hsave
  have hrow : jobRow s.storage.jobs job = job ↔ _ := jobRow_eq_iff htable
  constructor
  · rintro ⟨hsame, hjoins⟩
    have heq : jobRow s.storage.jobs job = job :=
      Option.some.inj (Except.ok.inj (hread.symm.trans hsame))
    obtain ⟨hbundle, hcreated⟩ := hrow.mp heq
    refine ⟨hbundle, hcreated, fun hstatus welcome hopens => ?_⟩
    obtain ⟨joined, hget, hjoined⟩ := hjoins hstatus welcome hopens
    rw [processWelcomeIfWaiting_bundle hsame hbundle] at hget
    have : joined = job := (Option.some.inj (Except.ok.inj (hsame.symm.trans hget))).symm
    rw [this, hstatus] at hjoined
    cases hjoined
  · rintro ⟨hbundle, hcreated, hclosed⟩
    have hsame := hrow.mpr ⟨hbundle, hcreated⟩
    exact ⟨hsame ▸ hread, fun hstatus welcome hopens => absurd hopens (hclosed hstatus welcome)⟩

namespace Reference

def waitingJob : ForkHealingJob where
  jobID := "job"
  traceID := "trace"
  status := .proposalSent
  winningTreeHash := some [1]
  winnerPeerID := "A"
  pendingBundlePrivate := [6]

def joinedJob : ForkHealingJob where
  jobID := "job"
  traceID := "trace"
  status := .externalJoined
  winningTreeHash := some [1]
  winnerPeerID := "A"
  pendingGroupState := [1]
  pendingEpoch := 1
  pendingTreeHash := [1]

def foundsOverJob (pid : PeerID) : Option State :=
  let x : Ctx := { member pid, world with }
  (createGroup x (newCoordinator x [pid] { jobs := [joinedJob] })).toOption.bind fun b =>
    (start x b).toOption

end Reference

open Reference in
/-- A job that has not asked to join yet is read as it was saved. -/
theorem snapshot_job_survives :
    ∃ s db, boot (member [66]) [[66]] = some s ∧
      ({ waitingJob with status := .snapshotCreated, pendingBundlePrivate := [] } :
        ForkHealingJob).Survives { member [66], world with } { s with storage := db } := by
  let x : Ctx := { member [66], world with }
  let job : ForkHealingJob :=
    { waitingJob with status := .snapshotCreated, pendingBundlePrivate := [] }
  obtain ⟨s, hs, hjobs, db, hsave, -⟩ : ∃ s, boot (member [66]) [[66]] = some s ∧
      s.storage.jobs = [] ∧
      ∃ db, (saveForkHealingJob x.disk s.storage job).toOption = some db ∧ True := by
    decide +kernel
  have htable : JobTable s.storage.jobs :=
    ⟨by rw [hjobs]; exact keyed_nil, by rw [hjobs]; exact nofun⟩
  exact ⟨s, db, hs, (saved_job_survives_iff x s job (fun _ _ => rfl) htable rfl
    (Fallible.toOption_eq_some hsave)).mpr ⟨rfl, by rw [hjobs]; exact nofun, nofun⟩⟩

open Reference in
/-- A job that waits for its Welcome is read without its bundle, and the Welcome leaves it
where it was. -/
theorem waiting_job_loses_bundle :
    ∃ s db job, boot (member [66]) [[66]] = some s ∧
      saveForkHealingJob ({ member [66], world with } : Ctx).disk
        s.storage waitingJob = .ok db ∧
      waitingJob.Opens { member [66], world with } [8, 1] ∧
      getActiveForkHealingJob ({ member [66], world with } : Ctx).disk
        (processWelcomeIfWaiting { member [66], world with } [8, 1]
          { s with storage := db }).2.storage = .ok (some job) ∧
      job.pendingBundlePrivate = [] ∧ job.status = .proposalSent := by
  let x : Ctx := { member [66], world with }
  obtain ⟨s, hs, db, hsave, found, hget, job, hjob, hread⟩ : ∃ s, boot (member [66])
    [[66]] = some s ∧
      ∃ db, (saveForkHealingJob x.disk s.storage waitingJob).toOption = some db ∧
      ∃ found, (getActiveForkHealingJob x.disk (processWelcomeIfWaiting x [8, 1]
        { s with storage := db }).2.storage).toOption = some found ∧
      ∃ job, found = some job ∧ job.pendingBundlePrivate = [] ∧ job.status = .proposalSent := by
    decide +kernel
  exact ⟨s, db, job, hs, Fallible.toOption_eq_some hsave, ⟨_, rfl⟩,
    Fallible.toOption_eq_some (hjob ▸ hget), hread⟩

end GroupCoordination
