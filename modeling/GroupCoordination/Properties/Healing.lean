import GroupCoordination.Properties.Jobs
import GroupCoordination.Refinement.Boot
import GroupCoordination.Refinement.Heal

/-!
# Whether a heal comes to its end

A heal that a crash or a timeout interrupted leaves its job in the database, and the next
one goes on with it. It goes on from a joined state and from any later point. It does not go
on from an earlier one: the Welcome it would need is not opened, and once the join request is
out no phase of a heal takes the job up again.
-/

namespace GroupCoordination

open Fallible

-- -------- Every heal ends

def HealPhase.rank : HealPhase → Nat × Nat
  | .queued => (10, 0)
  | .snapshot _ => (9, 0)
  | .join _ => (8, 0)
  | .awaiting _ attempt _ => (7, 3 - attempt)
  | .swap _ => (6, 0)
  | .replay _ => (5, 0)
  | .encrypt _ _ chunks => (4, 2 * chunks.length)
  | .assign _ _ _ _ _ rest => (4, 2 * rest.length + 1)
  | .clean _ => (3, 0)
  | .thaw => (2, 0)
  | .restore => (1, 0)
  | .release => (0, 0)

def HealPhase.Nearer (p q : HealPhase) : Prop := Prod.Lex (· < ·) (· < ·) p.rank q.rank

theorem HealPhase.nearer_wf : WellFounded HealPhase.Nearer :=
  InvImage.wf rank (WellFounded.prod_lex Nat.lt_wfRel.wf Nat.lt_wfRel.wf)

theorem Desk.Saves.heal (h : Desk.Saves x job d d') : d'.heal = d.heal := by
  cases h <;> rfl

theorem Heals.nearer {d d' : Desk} (h : Heals x wake d phase d') (hwake : wake ≠ .signal) :
    d'.heal = none ∨ ∃ next, next.Nearer phase ∧
    d'.heal = d.heal.map ({ · with phase := next }) := by
  cases h with
  | wait idle => exact absurd idle hwake
  | release => exact .inl rfl
  | retry attempts | encrypt =>
    refine .inr ⟨_, ?_, rfl⟩
    simp [HealPhase.Nearer, HealPhase.rank, Prod.lex_def]
    omega
  | create _ _ _ saved | snapshot _ saved | join _ _ _ saved | swap _ _ saved | encrypted saved
  | clean _ saved =>
    refine .inr ⟨_, ?_, congrArg (Option.map _) saved.heal⟩
    simp [HealPhase.Nearer, HealPhase.rank, Prod.lex_def]
  | _ =>
    refine .inr ⟨_, ?_, rfl⟩
    simp [HealPhase.Nearer, HealPhase.rank, Prod.lex_def]

-- -------- A heal that nothing gets in the way of

def State.awaited (s : State) : Option ForkHealingJob :=
  match s.heal.map HealRun.phase with
  | some (.awaiting job _ _) => some job
  | _ => none

/-- A Welcome that the engine opens with the bundle the waiting heal holds. -/
def delivers (node : Node) (a : Action) (s : State) : Bool :=
  match s.awaited, a.op with
  | some job, .welcome bytes => (a.world.engine.processWelcome bytes node.signingKey
      job.pendingBundlePrivate node.cfg.getMaxPastEpochs).isOk
  | _, _ => false

def watched (node : Node) (a : Action) (p : State × Bool) : Option (State × Bool) :=
  (step node a p.1).map fun s' => (s', p.2 || delivers node a p.1)

def Answers (node : Node) (engine : MLSEngine) (s : State) : Prop :=
  match s.heal.map HealRun.phase with
  | some (.snapshot job) => job.status = .initiated →
      ∀ ciphertext, ∃ r, engine.decryptMessage s.groupState ciphertext = .ok r
  | some (.join job) => job.status = .snapshotCreated →
      ∃ r, engine.generateKeyPackage node.signingKey = .ok r
  | some (.encrypt _ _ (chunk :: _)) =>
      ∃ r, engine.encryptMessage s.groupState
        (node.codec.encodeBatch (chunk.map (·.payload))) = .ok r
  | _ => True

/-- A step while the heal runs in which every call of it succeeds. It may be a step of the
heal or of anything else but the end of the process, and a wait ends after the Welcome. -/
structure Assisted (node : Node) (p : State × Bool) (a : Action) : Prop where
  running : p.1.heal.isSome = true
  disk : ∀ n op, a.world.works n op = true
  engine : Answers node a.world.engine p.1
  stays : a.op ≠ .stop ∧ ∀ view anchor, a.op ≠ .restart view anchor
  wakes : ∀ wake, a.op = .heal wake →
    wake ≠ .cancelled ∧ (p.1.awaited.isSome = true → p.2 = true)

def CleanedJob (jobs : List ForkHealingJob) (jobID : String) : Prop :=
  ∃ row ∈ jobs, row.jobID = jobID ∧ row.status = .cleaned

/-- Whatever happens meanwhile, the heal runs to its end and the job is `CLEANED` there. -/
structure HealCompletes (node : Node) (s : State) (jobID : String) : Prop where
  cleaned : ∀ p, Transition.Run (watched node) (Assisted node) (s, false) p → p.1.heal = none →
    CleanedJob p.1.storage.jobs jobID
  ends : ∀ p, Transition.Run (watched node) (Assisted node) (s, false) p →
    ∃ q, Transition.Run (watched node) (Assisted node) p q ∧ q.1.heal = none

structure World.Obliges (node : Node) (w : World) : Prop where
  disk : ∀ n op, w.works n op = true
  decrypts : ∀ groupState ciphertext, ∃ r, w.engine.decryptMessage groupState ciphertext = .ok r
  keyPackage : ∃ r, w.engine.generateKeyPackage node.signingKey = .ok r
  encrypts : ∀ groupState plaintext, ∃ r, w.engine.encryptMessage groupState plaintext = .ok r
  welcome : ∀ bundle, ∃ bytes, (w.engine.processWelcome bytes node.signingKey bundle
    node.cfg.getMaxPastEpochs).isOk = true

theorem World.Obliges.answers {w : World} (hw : w.Obliges node) (s : State) :
    Answers node w.engine s := by
  unfold Answers
  split
  · exact fun _ => hw.decrypts _
  · exact fun _ => hw.keyPackage
  · exact hw.encrypts _ _
  · trivial

theorem processWelcomeIfWaiting_closed {s : State}
    (h : ∀ row ∈ s.storage.jobs, row.pendingBundlePrivate = []) :
    processWelcomeIfWaiting x bytes s = (false, s) := by
  cases hget : Storage.getActiveForkHealingJob x.disk s.storage with
  | error err => simp [processWelcomeIfWaiting, hget]
  | ok found =>
    cases found with
    | none => simp [processWelcomeIfWaiting, hget]
    | some row =>
      have hfind := (getActiveForkHealingJob_ok hget).symm
      exact processWelcomeIfWaiting_bundle hget (h row (List.mem_of_find?_eq_some hfind))

theorem heal_steps {w : World} (hw : w.Obliges node) (hr : s.heal = some r)
    (htold : s.awaited.isSome = true → got = true)
    (hrest : ∀ next : HealPhase, next.Nearer r.phase →
      ∀ s', s'.heal = some { r with phase := next } →
      ∃ q, Transition.Run (watched node) (Assisted node) (s', got) q ∧ q.1.heal = none) :
    ∃ q, Transition.Run (watched node) (Assisted node) (s, got) q ∧ q.1.heal = none := by
  let a : Action := { world := w, fuel := 0, op := .heal .timeout }
  let s' := healStep (a.ctx node) .timeout (s.arrive (.heal .timeout))
  have hnext : watched node a (s, got) = some (s', got) := by
    have hquiet : delivers node a s = false := by
      unfold delivers
      cases s.awaited <;> rfl
    simp only [watched, hquiet, Bool.or_false]
    rfl
  have hok : Assisted node (s, got) a := {
    running := by rw [hr]; rfl
    disk := hw.disk
    engine := hw.answers s
    stays := ⟨nofun, nofun⟩
    wakes := fun wake hwake => by cases hwake; exact ⟨nofun, htold⟩ }
  have hheals : Heals (a.ctx node) .timeout s.desk r.phase s'.desk :=
    healStep_heals (s := s.arrive (.heal .timeout)) hr .timeout
  rcases hheals.nearer nofun with hdone | ⟨next, hnearer, hheal⟩
  · exact ⟨_, .snoc a .refl hok hnext, hdone⟩
  have hs' : s'.heal = some { r with phase := next } := by
    rw [show s'.heal = s'.desk.heal from rfl, hheal, show s.desk.heal = s.heal from rfl, hr]
    rfl
  obtain ⟨q, hrun, hq⟩ := hrest next hnearer s' hs'
  exact ⟨q, .head hok hnext hrun, hq⟩

/-- A heal can always be brought to its end: deliver the Welcome if it waits for one, then let
it run. -/
theorem heal_ends {w : World} (hw : w.Obliges node) (p : State × Bool) :
    ∃ q, Transition.Run (watched node) (Assisted node) p q ∧ q.1.heal = none := by
  obtain ⟨s, got⟩ := p
  cases hr : s.heal with
  | none => exact ⟨_, .refl, hr⟩
  | some r =>
    have htold : ∀ phase : HealPhase, ∀ s r, s.heal = some r → r.phase = phase →
        ∃ q, Transition.Run (watched node) (Assisted node) (s, true) q ∧ q.1.heal = none := by
      intro phase
      induction phase using HealPhase.nearer_wf.induction with
      | _ phase ih =>
        rintro s r hr rfl
        exact heal_steps hw hr (fun _ => rfl) fun next hnearer s' hs' =>
          ih next hnearer s' _ hs' rfl
    generalize hphase : r.phase = phase
    induction phase using HealPhase.nearer_wf.induction generalizing s r with
    | _ phase ih =>
      subst hphase
      by_cases hwaits : s.awaited.isSome = true ∧ got = false
      · -- The goroutine waits and the Welcome is still to come.
        obtain ⟨hawaited, rfl⟩ := hwaits
        obtain ⟨job, hjob⟩ := Option.isSome_iff_exists.mp hawaited
        obtain ⟨bytes, hopens⟩ := hw.welcome job.pendingBundlePrivate
        let a : Action := { world := w, fuel := 0, op := .welcome bytes }
        let s' := (processWelcomeIfWaiting (a.ctx node) bytes (s.arrive (.welcome bytes))).2
        have hnext : watched node a (s, false) = some (s', true) := by
          have hdelivers : delivers node a s = true := by
            unfold delivers
            rw [hjob]
            exact hopens
          simp only [watched, hdelivers, Bool.or_true]
          rfl
        have hok : Assisted node (s, false) a :=
          ⟨by rw [hr]; rfl, hw.disk, hw.answers s, ⟨nofun, nofun⟩, nofun⟩
        obtain ⟨jobs, got', hwoken⟩ := processWelcomeIfWaiting_desk { node, w with } bytes
          (s.arrive (.welcome bytes))
        have hs' : s'.heal = some r := (congrArg Desk.heal hwoken).trans hr
        obtain ⟨q, hrun, hq⟩ := htold r.phase s' r hs' rfl
        exact ⟨q, .head hok hnext hrun, hq⟩
      · refine heal_steps hw hr (fun hawaited => ?_) fun next hnearer s' hs' =>
          ih next hnearer s' _ hs' rfl
        by_contra hgot
        exact hwaits ⟨hawaited, by simpa using hgot⟩

-- -------- Jobs that no heal brings to an end

theorem start_desk {s : State} (h : start x b = .ok s) :
    s.desk.jobs = b.storage.jobs ∧ s.desk.heal = none ∧
      ∀ job, s.desk.resuming = some job → b.storage.jobs.find? (·.isActive) = some job := by
  obtain ⟨b₁, hload, h⟩ := bind_ok h
  obtain ⟨⟨lastCommitHash, b₂⟩, hhist, h⟩ := bind_ok h
  have hjobs : (rootHistory x b₂).storage.jobs = b.storage.jobs := by
    rw [rootHistory_rest.1, (loadHistory_rest hhist).1, loadGroup_storage hload]
  cases h
  unfold State.ofBoot
  dsimp only
  split
  next job hget =>
    refine ⟨hjobs, rfl, fun row hrow => ?_⟩
    have hfind := (getActiveForkHealingJob_ok hget).symm.trans hrow
    change (rootHistory x b₂).storage.jobs.find? _ = some row at hfind
    rwa [hjobs] at hfind
  · exact ⟨hjobs, rfl, nofun⟩

theorem restart_desk {s s' : State} (h : restart x view anchor s = .ok s') :
    s'.desk.jobs = s.desk.jobs ∧ s'.desk.heal = none ∧
      ∀ job, s'.desk.resuming = some job → s.desk.jobs.find? (·.isActive) = some job := by
  have hrebooted : (rebooted x view anchor s.storage).storage.jobs = s.storage.jobs := by
    unfold rebooted
    dsimp only
    split
    · unfold seedHistoryAnchor
      dsimp only
      split
      next hsave =>
        exact (Storage.saveCoordState_spares hsave).jobs
      · rfl
    · rfl
  obtain ⟨s₁, hstart, h⟩ := bind_ok h
  have hdesk := start_desk hstart
  rw [hrebooted] at hdesk
  cases h
  exact hdesk

def JobStatus.unjoined : JobStatus → Bool
  | .initiated | .snapshotCreated | .proposalSent => true
  | _ => false

def ForkHealingJob.Stuck (restarts : Bool) (job : ForkHealingJob) : Prop :=
  job.status.unjoined = true ∨
    restarts = false ∧ job.status = .externalJoined ∧ job.pendingGroupState = []

theorem ForkHealingJob.Stuck.isActive {job : ForkHealingJob} (h : job.Stuck restarts) :
    job.isActive = true := by
  rcases h with h | ⟨-, h, -⟩
  · revert h
    unfold ForkHealingJob.isActive JobStatus.unjoined
    cases job.status <;> decide
  · simp [ForkHealingJob.isActive, h]

def HealPhase.Stuck (restarts : Bool) : HealPhase → Prop
  | .snapshot job | .join job | .awaiting job _ _ | .swap job | .replay job | .clean job =>
    job.Stuck restarts
  | .encrypt .. | .assign .. => False
  | _ => True

structure Stalled (restarts : Bool) (jobID : String) (d : Desk) : Prop where
  table : JobTable d.jobs
  present : ∃ row ∈ d.jobs, row.jobID = jobID ∧ row.isActive = true
  bundles : ∀ row ∈ d.jobs, row.pendingBundlePrivate = []
  active : ∀ row ∈ d.jobs, row.isActive = true → row.Stuck restarts
  resuming : ∀ job, d.resuming = some job → job.status.unjoined = true
  phase : ∀ r, d.heal = some r → r.phase.Stuck restarts

namespace Stalled

variable {d d' : Desk} {x : Ctx} {s s' : State} {job : ForkHealingJob} {p : HealPhase}

section

variable (h : Stalled restarts jobID d)

include h

theorem enter (hphase : p.Stuck restarts) : Stalled restarts jobID (d.enter p) := by
  refine { h with phase := fun r hr => ?_ }
  obtain ⟨r', -, rfl⟩ := Option.map_eq_some_iff.mp hr
  exact hphase

theorem saves (hjob : job.Stuck restarts) (hs : d.Saves x job d') : Stalled restarts jobID d' := by
  cases hs with
  | failed => exact h
  | stored db db' hjobs hsave =>
    have htable : JobTable db.jobs := hjobs ▸ h.table
    have hrow : jobRow db.jobs job ∈ db'.jobs := (htable.mem_saved hsave).mpr (.inl rfl)
    obtain ⟨created, hcreated⟩ := jobRow_eq db.jobs job
    refine ⟨htable.saved hsave, ?_, fun row hmem => ?_, fun row hmem hactive => ?_, h.resuming,
      h.phase⟩
    · obtain ⟨old, hold, hid, hactive⟩ := h.present
      by_cases heq : old.jobID = job.jobID
      · exact ⟨_, hrow, by rw [jobRow_jobID, ← heq, hid], (jobRow_isActive _ _).trans hjob.isActive⟩
      · exact ⟨old, (htable.mem_saved hsave).mpr (.inr ⟨hjobs ▸ hold, heq⟩), hid, hactive⟩
    · rcases (htable.mem_saved hsave).mp hmem with rfl | ⟨hold, -⟩
      · rw [hcreated]
      · exact h.bundles row (hjobs ▸ hold)
    rcases (htable.mem_saved hsave).mp hmem with rfl | ⟨hold, -⟩
    · rw [hcreated]
      exact hjob
    · exact h.active row (hjobs ▸ hold) hactive

theorem found (hfind : d.jobs.find? (·.isActive) = some row) : row.Stuck restarts :=
  h.active row (List.mem_of_find?_eq_some hfind) (List.find?_some hfind)

theorem heals (hphase : p.Stuck restarts)
    (hh : Heals x wake d p d') : Stalled restarts jobID d' := by
  have hmode : ∀ {d : Desk} {mode}, Stalled restarts jobID d →
      Stalled restarts jobID { d with mode } := fun h => { h with }
  have hwelcome : ∀ {d : Desk} {b}, Stalled restarts jobID d →
      Stalled restarts jobID { d with welcomeReceived := b } := fun h => { h with }
  cases hh with
  | abort => exact h.enter trivial
  | find job found => exact (hmode h).enter (h.found found)
  | create job status missing saved =>
    have hjob : job.Stuck restarts := .inl (by rw [status]; rfl)
    exact (hmode (h.saves hjob saved)).enter hjob
  | skipSnapshot | skipJoin | skipSwap | skipReplay => exact h.enter hphase
  | snapshot status saved | join status bundle msg saved =>
    exact (h.saves (.inl rfl) saved).enter (.inl rfl)
  | wait => exact h
  | retry => exact h.enter hphase
  | reload row found => exact (hwelcome h).enter (h.found found)
  | reloadFails => exact (hwelcome h).enter trivial
  | joinFails | giveUp | swapFails | skipClean | restore => exact h.enter trivial
  | swap status pending =>
    rcases hphase with hunjoined | ⟨-, -, hempty⟩
    · rw [status] at hunjoined
      cases hunjoined
    · exact absurd hempty pending
  | replay status | clean status =>
    rcases hphase with hunjoined | ⟨-, hjoined, -⟩
    · rw [status] at hunjoined
      cases hunjoined
    · rw [status] at hjoined
      cases hjoined
  | encrypted | encryptFails | encrypt | assign => exact hphase.elim
  | thaw => exact (hmode h).enter trivial
  | release => exact ⟨h.table, h.present, h.bundles, h.active, h.resuming, fun _ hr => nomatch hr⟩

end

section

variable (h : Stalled restarts jobID s.desk)

include h

theorem tends (ht : Tends s s') : Stalled restarts jobID s'.desk := by
  rcases ht with heq | ⟨-, traceID, event, heq⟩
  · exact heq ▸ h
  rw [heq]
  refine ⟨h.table, h.present, h.bundles, h.active, h.resuming, fun r hr => ?_⟩
  cases hr
  trivial

theorem resume : Stalled restarts jobID (resumeForkHealingJob x s).desk := by
  unfold resumeForkHealingJob
  split
  · exact h
  rename_i job hresuming
  have hskip : skipSwap x job { s with resuming := none } = { s with resuming := none } := by
    refine if_neg ?_
    have hunjoined := h.resuming job hresuming
    revert hunjoined
    unfold isAlreadyOnWinningBranch JobStatus.unjoined JobStatus.beforeStateSwapped
    cases job.status <;> simp
  dsimp only
  rw [hskip]
  have hnone : Stalled restarts jobID { s.desk with resuming := none } :=
    { h with resuming := nofun }
  split
  · exact hnone
  refine { hnone with phase := fun r hr => ?_ }
  cases hr
  trivial

theorem heal : Stalled restarts jobID (healStep x wake s).desk := by
  cases hr : s.heal with
  | none =>
    unfold healStep
    rw [hr]
    exact h
  | some r => exact h.heals (h.phase r hr) (healStep_heals hr wake)

theorem setMode : Stalled restarts jobID (setOperationalMode mode s).desk :=
  ⟨h.table, h.present, h.bundles, h.active, h.resuming, h.phase⟩

theorem stopped : Stalled restarts jobID (stop s).desk :=
  ⟨h.table, h.present, h.bundles, h.active, h.resuming, h.phase⟩

end

theorem restarted (h : Stalled true jobID s.desk) (hrestart : restart x view anchor s = .ok s') :
    Stalled true jobID s'.desk := by
  obtain ⟨hjobs, hheal, hresuming⟩ := restart_desk hrestart
  refine ⟨hjobs ▸ h.table, hjobs ▸ h.present, hjobs ▸ h.bundles, hjobs ▸ h.active,
    fun job hjob => ?_,
    fun r hr => absurd (hheal.symm.trans hr) nofun⟩
  rcases h.found (hresuming job hjob) with hunjoined | ⟨hfalse, -⟩
  · exact hunjoined
  · cases hfalse

theorem step (h : Stalled restarts jobID s.desk)
    (hrestart : ∀ view anchor, a.op = .restart view anchor → restarts = true)
    (hstep : step node a s = some s') : Stalled restarts jobID s'.desk := by
  have harrive : Stalled restarts jobID (s.arrive a.op).desk := h
  by_cases hop : a.op.tendsHeal = false
  · exact h.tends (step_tends hop hstep)
  obtain ⟨w, fuel, op⟩ := a
  cases op with
  | restart view anchor =>
    obtain rfl := hrestart view anchor rfl
    exact h.restarted (toOption_eq_some hstep)
  | heal wake =>
    cases hstep
    exact harrive.heal
  | welcome bytes =>
    cases hstep
    change Stalled restarts jobID
      (processWelcomeIfWaiting _ bytes (s.arrive (.welcome bytes))).2.desk
    rw [processWelcomeIfWaiting_closed harrive.bundles]
    exact harrive
  | resumeHeal =>
    cases hstep
    exact harrive.resume
  | setMode mode =>
    cases hstep
    exact harrive.setMode
  | stop =>
    cases hstep
    exact harrive.stopped
  | _ => exact absurd rfl hop

theorem not_cleaned (h : Stalled restarts jobID s.desk) : ¬ CleanedJob s.storage.jobs jobID := by
  rintro ⟨row, hrow, hid, hstatus⟩
  obtain ⟨other, hother, hoid, hactive⟩ := h.present
  have : row = other := List.inj_on_of_nodup_map h.table.keyed hrow hother (hid.trans hoid.symm)
  rw [← this] at hactive
  simp [ForkHealingJob.isActive, hstatus] at hactive

end Stalled

-- -------- Jobs that a heal brings to an end

def ForkHealingJob.Resumable (job : ForkHealingJob) : Prop :=
  job.status = .externalJoined ∧ job.pendingGroupState ≠ [] ∨
    job.status = .stateSwapped ∨ job.status = .localComplete

theorem ForkHealingJob.stuck_or_resumable (job : ForkHealingJob) (h : job.isActive = true) :
    job.Stuck false ∨ job.Resumable := by
  unfold Stuck Resumable JobStatus.unjoined
  cases hstatus : job.status <;> simp_all [isActive, em]

structure HoldsJob (jobs : List ForkHealingJob) (jobID : String) (job : ForkHealingJob) : Prop where
  row : job ∈ jobs
  id : job.jobID = jobID
  active : job.isActive = true
  savable : job.savable = true

theorem HoldsJob.saves {d d' : Desk} {job job' : ForkHealingJob} (h : HoldsJob d.jobs jobID job)
    (htable : JobTable d.jobs) (hbundles : ∀ row ∈ d.jobs, row.pendingBundlePrivate = [])
    (hworks : x.DiskWorks) (hs : d.Saves x job' d') (hid : job'.jobID = job.jobID)
    (hsavable : job'.savable = job.savable)
    (hbundle : job'.pendingBundlePrivate = job.pendingBundlePrivate)
    (hcreated : job'.createdAtMs = job.createdAtMs) :
    JobTable d'.jobs ∧ (∀ row ∈ d'.jobs, row.pendingBundlePrivate = []) ∧ job' ∈ d'.jobs ∧
      d' = { d with jobs := d'.jobs } := by
  have honly : ∀ other ∈ d.jobs, other.jobID = job.jobID → other = job := fun other hother heq =>
    List.inj_on_of_nodup_map htable.keyed hother h.row heq
  cases hs with
  | failed db hjobs hfails =>
    have hfree : job'.Unrivalled db.jobs := by
      intro _ other hother hactive
      rw [hjobs] at hother
      rw [htable.single other hother job h.row hactive h.active, hid]
    obtain ⟨db', hok⟩ := (Storage.saveForkHealingJob_ok_iff x.disk db job').mpr
      ⟨hworks _ _, hsavable.trans h.savable, hfree⟩
    exact absurd hok (hfails db')
  | stored db db' hjobs hsave =>
    have htable' : JobTable db.jobs := hjobs ▸ htable
    have hbare : job'.pendingBundlePrivate = [] := hbundle.trans (hbundles job h.row)
    have hrow : jobRow db.jobs job' = job' := (jobRow_eq_iff htable').mpr
      ⟨hbare, fun old hold heq => by rw [honly old (hjobs ▸ hold) (heq.trans hid), hcreated]⟩
    refine ⟨htable'.saved hsave, fun row hmem => ?_, ?_, rfl⟩
    · rcases (htable'.mem_saved hsave).mp hmem with rfl | ⟨hold, -⟩
      · rw [hrow, hbare]
      · exact hbundles row (hjobs ▸ hold)
    · exact (htable'.mem_saved hsave).mpr (.inl hrow.symm)

def HealPhase.Mends (jobID : String) (d : Desk) : HealPhase → Prop
  | .queued => d.started = true ∧ ∃ job, HoldsJob d.jobs jobID job ∧ job.Resumable
  | .snapshot job | .join job | .swap job => HoldsJob d.jobs jobID job ∧ job.Resumable
  | .awaiting .. => False
  | .replay job =>
    HoldsJob d.jobs jobID job ∧ (job.status = .stateSwapped ∨ job.status = .localComplete)
  | .encrypt job _ _ | .assign job _ _ _ _ _ =>
    HoldsJob d.jobs jobID job ∧ job.status = .stateSwapped
  | .clean job => HoldsJob d.jobs jobID job ∧ job.status = .localComplete
  | .thaw | .restore | .release => CleanedJob d.jobs jobID

structure Mending (jobID : String) (d : Desk) : Prop where
  table : JobTable d.jobs
  bundles : ∀ row ∈ d.jobs, row.pendingBundlePrivate = []
  resuming : d.resuming = none
  running : ∀ r, d.heal = some r → d.healing = true ∧ r.phase.Mends jobID d
  ended : d.heal = none → CleanedJob d.jobs jobID

namespace Mending

variable {d d' : Desk} {x : Ctx} {s s' : State} {job job' : ForkHealingJob} {p : HealPhase}

theorem enter (htable : JobTable d.jobs) (hbundles : ∀ row ∈ d.jobs, row.pendingBundlePrivate = [])
    (hresuming : d.resuming = none) (hhealing : d.healing = true) (hheal : d.heal = some r)
    (hphase : p.Mends jobID (d.enter p)) : Mending jobID (d.enter p) := by
  refine ⟨htable, hbundles, hresuming, fun r' hr' => ⟨hhealing, ?_⟩, fun hnone => ?_⟩
  · obtain ⟨r'', -, rfl⟩ := Option.map_eq_some_iff.mp hr'
    exact hphase
  · rw [show (d.enter p).heal = d.heal.map _ from rfl, hheal] at hnone
    cases hnone

theorem heals (h : Mending jobID d) (hr : d.heal = some r) (hworks : x.DiskWorks)
    (hh : Heals x wake d r.phase d') : Mending jobID d' := by
  obtain ⟨hhealing, hphase⟩ := h.running r hr
  have hgo : ∀ {p : HealPhase}, p.Mends jobID (d.enter p) → Mending jobID (d.enter p) :=
    enter h.table h.bundles h.resuming hhealing hr
  -- A save of the held job in a later status.
  have hsave : ∀ {job job' : ForkHealingJob} {d' : Desk} {p : HealPhase}, d.Saves x job' d' →
      HoldsJob d.jobs jobID job → job'.jobID = job.jobID → job'.savable = job.savable →
      job'.pendingBundlePrivate = job.pendingBundlePrivate → job'.createdAtMs = job.createdAtMs →
      (job' ∈ d'.jobs → p.Mends jobID (d'.enter p)) → Mending jobID (d'.enter p) := by
    intro job job' d' p hs hheld hid hsavable hbundle hcreated hp
    obtain ⟨htable, hbundles, hmem, hrest⟩ :=
      hheld.saves h.table h.bundles hworks hs hid hsavable hbundle hcreated
    refine enter htable hbundles ?_ ?_ (r := r) ?_ (hp hmem)
    · rw [hrest]
      exact h.resuming
    · rw [hrest]
      exact hhealing
    · rw [hrest]
      exact hr
  generalize r.phase = phase at hh hphase
  cases hh with
  | abort stopped =>
    rw [hphase.1] at stopped
    cases stopped
  | find job found =>
    obtain ⟨-, held, hheld, hresumable⟩ := hphase
    obtain rfl : held = job :=
      Option.some.inj ((h.table.find_active hheld.row hheld.active).symm.trans found)
    refine enter (d := { d with mode := .frozenForApply }) h.table h.bundles h.resuming
      hhealing hr ?_
    exact ⟨hheld, hresumable⟩
  | create job status missing saved =>
    obtain ⟨-, held, hheld, -⟩ := hphase
    have hfind := h.table.find_active hheld.row hheld.active
    rw [missing hworks] at hfind
    cases hfind
  | skipSnapshot | skipJoin =>
    obtain ⟨hheld, hresumable⟩ := hphase
    exact hgo ⟨hheld, hresumable⟩
  | snapshot status | joinFails status | join status =>
    rcases hphase.2 with ⟨hjob, -⟩ | hjob | hjob <;> rw [status] at hjob <;> cases hjob
  | wait | retry | giveUp | reload | reloadFails => exact hphase.elim
  | skipSwap status =>
    obtain ⟨hheld, hresumable⟩ := hphase
    refine hgo ⟨hheld, ?_⟩
    exact hresumable.resolve_left fun hjob => status hjob.1
  | swapFails status cause =>
    obtain ⟨hheld, hresumable⟩ := hphase
    have hepoch := (of_decide_eq_true hheld.savable).2.2.2.2
    rcases hresumable with ⟨-, hpending⟩ | hjob | hjob
    · exact absurd (cause hworks hepoch) hpending
    all_goals
      rw [status] at hjob
      cases hjob
  | swap status pending saved =>
    obtain ⟨hheld, -⟩ := hphase
    refine hsave saved hheld rfl rfl rfl rfl fun hmem => ⟨⟨hmem, hheld.id, rfl, hheld.savable⟩, ?_⟩
    exact .inl rfl
  | skipReplay status =>
    obtain ⟨hheld, hjob⟩ := hphase
    exact hgo ⟨hheld, hjob.resolve_left status⟩
  | replay status =>
    obtain ⟨hheld, -⟩ := hphase
    exact hgo ⟨hheld, status⟩
  | encrypted saved =>
    obtain ⟨hheld, -⟩ := hphase
    exact hsave saved hheld rfl rfl rfl rfl fun hmem => ⟨⟨hmem, hheld.id, rfl, hheld.savable⟩, rfl⟩
  | encryptFails | encrypt | assign =>
    obtain ⟨hheld, hjob⟩ := hphase
    exact hgo ⟨hheld, hjob⟩
  | skipClean status => exact absurd hphase.2 status
  | clean status saved =>
    obtain ⟨hheld, -⟩ := hphase
    exact hsave saved hheld rfl rfl rfl rfl fun hmem => ⟨_, hmem, hheld.id, rfl⟩
  | thaw =>
    exact enter (d := { d with mode := .live }) h.table h.bundles h.resuming hhealing hr hphase
  | restore => exact hgo hphase
  | release => exact ⟨h.table, h.bundles, h.resuming, fun _ hr => (nomatch hr), fun _ => hphase⟩

theorem step (h : Mending jobID s.desk) (hok : Assisted node (s, got) a)
    (hstep : step node a s = some s') : Mending jobID s'.desk := by
  obtain ⟨r, hr⟩ := Option.isSome_iff_exists.mp hok.running
  have harrive : Mending jobID (s.arrive a.op).desk := h
  by_cases hop : a.op.tendsHeal = false
  · rcases step_tends hop hstep with heq | ⟨hidle, -⟩
    · exact heq ▸ h
    · rw [show s.healing = true from (h.running r hr).1] at hidle
      cases hidle
  obtain ⟨w, fuel, op⟩ := a
  cases op with
  | restart view anchor => exact absurd rfl (hok.stays.2 view anchor)
  | stop => exact absurd rfl hok.stays.1
  | heal wake =>
    cases hstep
    exact harrive.heals hr
      (x := ({ world := w, fuel, op := .heal wake } : Action).ctx node) hok.disk
      (healStep_heals (s := s.arrive (.heal wake)) hr wake)
  | welcome bytes =>
    cases hstep
    change Mending jobID (processWelcomeIfWaiting _ bytes (s.arrive (.welcome bytes))).2.desk
    rw [processWelcomeIfWaiting_closed harrive.bundles]
    exact harrive
  | resumeHeal =>
    cases hstep
    have hnone : (s.arrive .resumeHeal).resuming = none := h.resuming
    change Mending jobID (resumeForkHealingJob _ (s.arrive .resumeHeal)).desk
    rw [resumeForkHealingJob, hnone]
    exact harrive
  | setMode mode =>
    cases hstep
    exact ⟨h.table, h.bundles, h.resuming, h.running, h.ended⟩
  | _ => exact absurd rfl hop

end Mending

-- -------- Which jobs a heal brings to an end

structure StoresJob (s : State) (job : ForkHealingJob) : Prop where
  table : JobTable s.storage.jobs
  bundles : ∀ row ∈ s.storage.jobs, row.pendingBundlePrivate = []
  row : job ∈ s.storage.jobs
  active : job.isActive = true
  savable : job.savable = true

structure Begins (s : State) : Prop where
  started : s.started = true
  healing : s.healing = true
  queued : ∃ r, s.heal = some r ∧ r.phase = .queued
  resuming : s.resuming = none

/-- A heal ends with the job `CLEANED` if the joined state is at hand, and not otherwise. -/
theorem Begins.completes_iff {w : World} (hb : Begins s) (hw : w.Obliges node)
    (hj : StoresJob s job) : HealCompletes node s job.jobID ↔ job.Resumable := by
  obtain ⟨r, hr, hphase⟩ := hb.queued
  have hnext : ∀ {p p' : State × Bool} {a}, watched node a p = some p' →
      step node a p.1 = some p'.1 := by
    intro p p' a h
    obtain ⟨s', hs', rfl⟩ := Option.map_eq_some_iff.mp h
    exact hs'
  constructor
  · intro hcompletes
    by_contra hnot
    have hstuck := (job.stuck_or_resumable hj.active).resolve_right hnot
    have hbase : Stalled false job.jobID s.desk := {
      table := hj.table
      present := ⟨job, hj.row, rfl, hj.active⟩
      bundles := hj.bundles
      active :=
        fun row hrow hactive => hj.table.single row hrow job hj.row hactive hj.active ▸ hstuck
      resuming := fun job hjob => absurd (hb.resuming.symm.trans hjob) nofun
      phase := fun r' hr' => by
        cases hr.symm.trans hr'
        rw [hphase]
        trivial }
    obtain ⟨q, hrun, hended⟩ := hcompletes.ends _ .refl
    have hstalled : Stalled false job.jobID q.1.desk :=
      hrun.invariant (fun p => Stalled false job.jobID p.1.desk) hbase fun p a p' h ok next =>
        h.step (fun view anchor hop => absurd hop (ok.stays.2 view anchor)) (hnext next)
    exact hstalled.not_cleaned (hcompletes.cleaned q hrun hended)
  · intro hresumable
    have hbase : Mending job.jobID s.desk := {
      table := hj.table
      bundles := hj.bundles
      resuming := hb.resuming
      running := fun r' hr' => by
        cases hr.symm.trans hr'
        rw [hphase]
        exact ⟨hb.healing, hb.started, job, ⟨hj.row, rfl, hj.active, hj.savable⟩, hresumable⟩
      ended := fun hnone => absurd (hr.symm.trans hnone) nofun }
    refine ⟨fun p hrun hended => ?_, fun p _ => heal_ends hw p⟩
    have hmending : Mending job.jobID p.1.desk :=
      hrun.invariant (fun p => Mending job.jobID p.1.desk) hbase fun p a p' h ok next =>
        h.step ok (hnext next)
    exact hmending.ended hended

/-- Found on the winning branch already, a job goes on behind its swap. -/
def ForkHealingJob.FoundSwapped (job : ForkHealingJob) (s : State) : Prop :=
  job.status = .externalJoined ∧ isAlreadyOnWinningBranch job s = true

theorem ForkHealingJob.foundSwapped_iff (job : ForkHealingJob) (s : State) :
    isAlreadyOnWinningBranch job s = true ∧ job.status.beforeStateSwapped = true ↔
      job.FoundSwapped s := by
  unfold FoundSwapped JobStatus.beforeStateSwapped
  cases hstatus : job.status <;> simp [isAlreadyOnWinningBranch, hstatus]

theorem resumed_completes_iff {w : World} (hw : w.Obliges node) (hj : StoresJob s job)
    (hstarted : s.started = true) (hidle : s.healing = false) (hresuming : s.resuming = some job)
    (hop : a.op = .resumeHeal) (hdisk : ∀ n op, a.world.works n op = true)
    (hstep : step node a s = some s') :
    HealCompletes node s' job.jobID ↔ job.Resumable ∨ job.FoundSwapped s := by
  obtain ⟨w', fuel, op⟩ := a
  cases hop
  cases hstep
  let x : Ctx := ({ world := w', fuel, op := .resumeHeal } : Action).ctx node
  let t : State := { s.arrive .resumeHeal with resuming := none }
  change HealCompletes node (resumeForkHealingJob x (s.arrive .resumeHeal)) job.jobID ↔ _
  rw [resumeForkHealingJob, show (s.arrive .resumeHeal).resuming = some job from hresuming]
  dsimp only
  by_cases hfound : job.FoundSwapped s
  · let job' : ForkHealingJob := { job with status := .stateSwapped, updatedAtMs := x.nowMs }
    have hskip : skipSwap x job t = t.saveJob x job' := if_pos ((job.foundSwapped_iff s).mpr hfound)
    have hheld : HoldsJob t.desk.jobs job.jobID job := ⟨hj.row, rfl, hj.active, hj.savable⟩
    obtain ⟨htable, hbundles, hmem, hrest⟩ := hheld.saves (x := x) hj.table hj.bundles hdisk
      (saveJob_saves job' rfl) rfl rfl rfl rfl
    have hhealing : (t.saveJob x job').healing = false := (congrArg Desk.healing hrest).trans hidle
    have hstarted' : (t.saveJob x job').started = true :=
      (congrArg Desk.started hrest).trans hstarted
    rw [hskip, if_neg (by rw [hhealing]; exact Bool.false_ne_true)]
    have hcompletes : ∀ {t : State}, Begins t → StoresJob t job' → HealCompletes node t job.jobID :=
      fun hb hs => (hb.completes_iff hw hs).mpr (.inr (.inl rfl))
    refine iff_of_true ?_ (.inr hfound)
    exact hcompletes ⟨hstarted', rfl, ⟨_, rfl, rfl⟩, congrArg Desk.resuming hrest⟩
      ⟨htable, hbundles, hmem, rfl, hj.savable⟩
  · have hskip : skipSwap x job t = t :=
      if_neg fun h => hfound ((job.foundSwapped_iff s).mp h)
    rw [hskip, if_neg (by rw [show t.healing = false from hidle]; exact Bool.false_ne_true)]
    rw [or_iff_left hfound]
    have hcompletes : ∀ {t : State}, Begins t → StoresJob t job →
        (HealCompletes node t job.jobID ↔ job.Resumable) := fun hb hs => hb.completes_iff hw hs
    exact hcompletes ⟨hstarted, rfl, ⟨_, rfl, rfl⟩, rfl⟩
      ⟨hj.table, hj.bundles, hj.row, hj.active, hj.savable⟩

/-- Which stored jobs a later heal brings to `CLEANED`, started by a fork or by the process that
finds the job. -/
theorem heal_completes_iff (node : Node) (w : World) (hw : w.Obliges node) (s : State)
    (job : ForkHealingJob) (hj : StoresJob s job) :
    (Begins s → (HealCompletes node s job.jobID ↔ job.Resumable)) ∧
      (s.started = true → s.healing = false → s.resuming = some job → ∀ a s',
        a.op = .resumeHeal → (∀ n op, a.world.works n op = true) → step node a s = some s' →
        (HealCompletes node s' job.jobID ↔ job.Resumable ∨ job.FoundSwapped s)) :=
  ⟨fun hb => hb.completes_iff hw hj, fun hstarted hidle hresuming _ _ hop hdisk hstep =>
    resumed_completes_iff hw hj hstarted hidle hresuming hop hdisk hstep⟩

namespace Reference

def obliging : World := { world with engine := { engine with
  encryptMessage := fun groupState plaintext => .ok (plaintext, groupState)
  decryptMessage := fun groupState ciphertext => .ok (ciphertext, groupState) } }

theorem obliging_obliges (node : Node) : obliging.Obliges node where
  disk _ _ := rfl
  decrypts _ _ := ⟨_, rfl⟩
  keyPackage := ⟨_, rfl⟩
  encrypts _ _ := ⟨_, rfl⟩
  welcome _ := ⟨[8, 1], rfl⟩

def forkAnnounce : Wire := wire 0 [66] .announce (.announce
  { treeHash? := some [9], memberCount := 5, epoch := 0, commitHash := [9], historyHash := [9] })

/-- A fork starts a heal, which stores its job and asks to be added. -/
def asking : List Action :=
  [.receive [66] forkAnnounce, .heal .signal, .heal .signal, .heal .signal].map action

/-- A heal that waits for its Welcome in vain. The Welcome arrives while it waits. -/
def gaveUp : Option State :=
  trace (member [65]) [[65]] (asking ++ [.welcome [8, 1], .heal .timeout, .heal .timeout,
    .heal .timeout, .heal .signal, .heal .signal, .heal .signal].map action)

end Reference

open Reference in
/-- A job found with its joined state is brought to its end. -/
theorem joined_job_completes :
    ∃ s s', foundsOverJob [66] = some s ∧
      step (member [66]) (action .resumeHeal) s = some s' ∧
      HealCompletes (member [66]) s' "job" := by
  obtain ⟨s, hs, s', hstep, hjobs, hstarted, hidle, hresuming⟩ : ∃ s, foundsOverJob [66] = some s ∧
      ∃ s', step (member [66]) (action .resumeHeal) s = some s' ∧ s.storage.jobs = [joinedJob] ∧
        s.started = true ∧ s.healing = false ∧ s.resuming = some joinedJob := by
    decide +kernel
  have honly : ∀ row ∈ s.storage.jobs, row = joinedJob := by
    rw [hjobs]
    exact fun row => List.mem_singleton.mp
  have hj : StoresJob s joinedJob := {
    table := hjobs ▸ jobTable_singleton _
    bundles := fun row hrow => by rw [honly row hrow]; rfl
    row := hjobs ▸ List.mem_singleton_self _
    active := rfl
    savable := rfl }
  exact ⟨s, s', hs, hstep, ((heal_completes_iff (member [66]) obliging
    (obliging_obliges _) s joinedJob hj).2 hstarted hidle hresuming _ s' rfl
    (fun _ _ => rfl) hstep).mpr (.inl (.inl ⟨rfl, nofun⟩))⟩

/-- A job whose heal gave up waiting is never finished, whatever happens afterwards. -/
theorem waiting_job_is_never_finished :
    ∃ s row, Reference.gaveUp = some s ∧ s.heal = none ∧ s.operationalMode = .live ∧
      s.storage.jobs = [row] ∧ row.status = .proposalSent ∧
      ∀ s', Transition.Run (step (Reference.member [65])) (fun _ _ => True) s s' →
        ¬ CleanedJob s'.storage.jobs row.jobID := by
  obtain ⟨s, hs, row, -, hheal, hmode, hjobs, hstatus, hbundle, hresuming⟩ :
      ∃ s, Reference.gaveUp = some s ∧ ∃ row, s.storage.jobs.head? = some row ∧ s.heal = none ∧
        s.operationalMode = .live ∧ s.storage.jobs = [row] ∧ row.status = .proposalSent ∧
        row.pendingBundlePrivate = [] ∧ s.resuming = none := by
    decide +kernel
  have hstuck : row.Stuck true := .inl (by rw [hstatus]; rfl)
  have honly : ∀ other ∈ s.storage.jobs, other = row := by
    rw [hjobs]
    exact fun other => List.mem_singleton.mp
  have hstalled : Stalled true row.jobID s.desk := {
    table := show JobTable s.storage.jobs from hjobs ▸ jobTable_singleton row
    present := ⟨row, show row ∈ s.storage.jobs from hjobs ▸ List.mem_singleton_self row, rfl,
      hstuck.isActive⟩
    bundles := fun other hother => by rw [honly other hother, hbundle]
    active := fun other hother _ => by rw [honly other hother]; exact hstuck
    resuming := fun job hjob => absurd (hresuming.symm.trans hjob) nofun
    phase := fun r hr => absurd (hheal.symm.trans hr) nofun }
  refine ⟨s, row, hs, hheal, hmode, hjobs, hstatus, fun s' run => ?_⟩
  have hlater : Stalled true row.jobID s'.desk :=
    run.invariant (fun s => Stalled true row.jobID s.desk) hstalled fun _ _ _ h _ next =>
      h.step (fun _ _ _ => rfl) next
  exact hlater.not_cleaned

/-- Without the operations of a heal, a run starts at most one heal, and leaves its desk alone
else. -/
theorem heals_are_left_alone {node : Node}
    (run : Transition.Run (step node) (fun _ a => a.op.tendsHeal = false) s s') : Tends s s' := by
  refine run.invariant (Tends s) (.inl rfl) fun t a t' h ok hstep => ?_
  have htends := step_tendsTo ok (a.op.forksHave_any _ t) hstep
  rcases h with hsame | ⟨hidle, traceID, event, hdesk⟩
  · exact (htends.after hsame).tends
  · rcases htends with hkept | ⟨hidle', -⟩
    · exact .inr ⟨hidle, traceID, event, hkept.trans hdesk⟩
    · cases (congrArg Desk.healing hdesk).symm.trans hidle'

open Reference in
/-- Another announcement of the fork, a heartbeat and a message come while a heal waits for its
Welcome. -/
theorem waiting_heal_is_left_alone :
    ∃ s t, trace (member [65]) [[65]] asking = some s ∧ s.healing = true ∧
      s.storage.jobs.map (·.status) = [.proposalSent] ∧
      Transition.exec (step (member [65])) ([.receive [66] forkAnnounce, .heartbeat,
        .receive [66] (wire 0 [66] .application (.application [9, 0, 42]))].map action) s = some t ∧
      t.desk = s.desk := by
  obtain ⟨s, hs, t, ht, hhealing, hjobs⟩ : ∃ s,
      trace (member [65]) [[65]] asking = some s ∧
      ∃ t, Transition.exec (step (member [65])) ([.receive [66] forkAnnounce, .heartbeat,
        .receive [66] (wire 0 [66] .application (.application [9, 0, 42]))].map action) s = some t ∧
        s.healing = true ∧ s.storage.jobs.map (·.status) = [.proposalSent] := by
    decide +kernel
  refine ⟨s, t, hs, hhealing, hjobs, ht, ?_⟩
  rcases heals_are_left_alone (.of_exec ht (by simp [action, Op.tendsHeal])) with hsame | ⟨hidle, -⟩
  · exact hsame
  · cases hhealing.symm.trans hidle

end GroupCoordination
