import GroupCoordination.Model.InviteRequests

/-!
# Invite requests are exclusive

What holds of a row that the authority keeps, whatever tasks work on it: the statuses that end a
request are never left, a rejected request was never carried out, and a request is carried out at
most as often as it allows. The guard is in the table alone: a task claims the request by the
statement that counts the attempt, so the claims are never more than the count.
-/

namespace GroupCoordination

open Table InviteRequests

variable {rid : String}

-- -------- What a statement does to a row

def InviteRequestStatus.isFinal : InviteRequestStatus → Bool
  | .approved | .rejected | .expired | .permanentlyFailed => true
  | .pending | .processing | .failed | .cancelled => false

def InviteRequestStatus.isUntried : InviteRequestStatus → Bool
  | .pending | .rejected | .expired => true
  | .processing | .approved | .failed | .cancelled | .permanentlyFailed => false

structure GroupInviteRequestRecord.Moved (claimed : Bool) (rec rec' : GroupInviteRequestRecord) :
    Prop where
  attempts : rec'.attemptCount = rec.attemptCount + claimed.toNat
  limit : rec'.maxAttempts = rec.maxAttempts
  final : rec.status.isFinal = true → rec'.status = rec.status
  untried : rec'.status.isUntried = true → rec.status.isUntried = true ∧ claimed = false

theorem GroupInviteRequestRecord.Moved.refl (rec : GroupInviteRequestRecord) :
    rec.Moved false rec :=
  ⟨by simp, rfl, fun _ => rfl, fun h => ⟨h, rfl⟩⟩

abbrev InviteRequests.Moved (rid : String) (rows rows' : InviteRequests) : Prop :=
  Option.Rel (GroupInviteRequestRecord.Moved false) (rows.row rid) (rows'.row rid)

theorem InviteRequests.Moved.refl {rows : InviteRequests} : rows.Moved rid rows := by
  unfold InviteRequests.Moved
  cases rows.row rid with
  | none => exact .none
  | some rec => exact .some (.refl rec)

theorem InviteRequests.Moved.of_row {rows rows' : InviteRequests}
    (h : rows'.row rid = rows.row rid) : rows.Moved rid rows' := by
  have hrefl : rows.Moved rid rows := .refl
  unfold InviteRequests.Moved at hrefl ⊢
  rwa [h]

theorem InviteRequests.Moved.none {rows rows' : InviteRequests} (h : rows.Moved rid rows')
    (hold : rows.row rid = .none) : rows'.row rid = .none := by
  unfold InviteRequests.Moved at h
  rw [hold] at h
  cases hnew : rows'.row rid with
  | none => rfl
  | some rec =>
    rw [hnew] at h
    cases h

theorem InviteRequests.Moved.some {rows rows' : InviteRequests} {rec : GroupInviteRequestRecord}
    (h : rows.Moved rid rows') (hold : rows.row rid = .some rec) :
    ∃ rec', rows'.row rid = .some rec' ∧ rec.Moved false rec' := by
  unfold InviteRequests.Moved at h
  rw [hold] at h
  cases hnew : rows'.row rid with
  | none =>
    rw [hnew] at h
    cases h
  | some rec' =>
    rw [hnew] at h
    cases h with
    | some hmoved => exact ⟨rec', rfl, hmoved⟩

theorem InviteRequests.row_update {rows : InviteRequests} {cond : GroupInviteRequestRecord → Bool}
    {edit : GroupInviteRequestRecord → GroupInviteRequestRecord}
    (hkey : ∀ rec, (edit rec).requestID = rec.requestID) :
    (rows.update cond edit).row rid =
      (rows.row rid).map fun rec => if cond rec then edit rec else rec := by
  unfold update row
  refine get_map fun rec => ?_
  split
  · exact hkey rec
  · rfl

theorem InviteRequests.Moved.update {rows : InviteRequests} {cond : GroupInviteRequestRecord → Bool}
    {edit : GroupInviteRequestRecord → GroupInviteRequestRecord}
    (hkey : ∀ rec, (edit rec).requestID = rec.requestID)
    (hmove : ∀ rec, cond rec = true → rec.Moved false (edit rec)) :
    rows.Moved rid (rows.update cond edit) := by
  unfold InviteRequests.Moved
  rw [row_update hkey]
  cases rows.row rid with
  | none => exact .none
  | some rec =>
    refine .some ?_
    by_cases hcond : cond rec = true
    · simpa only [hcond, if_true] using hmove rec hcond
    · simpa only [hcond] using .refl rec

theorem InviteRequests.row_requestID {rows : InviteRequests} (h : rows.row rid = some rec) :
    rec.requestID = rid := by
  simpa using List.find?_some h

theorem GroupInviteRequestRecord.moved_set {patch : InviteRequestTransitionPatch}
    {rec : GroupInviteRequestRecord} (hpatch : patch.incrementAttempt = false)
    (hfinal : rec.status.isFinal = false)
    (huntried : toStatus.isUntried = true → rec.status.isUntried = true) :
    rec.Moved false (patch.set now toStatus rec) := by
  refine ⟨?_, rfl, ?_, fun h => ⟨huntried h, rfl⟩⟩
  · simp [InviteRequestTransitionPatch.set, hpatch]
  · simp [hfinal]

theorem InviteRequestTransitionPatch.row_set {rows : InviteRequests}
    {patch : InviteRequestTransitionPatch} {cond : GroupInviteRequestRecord → Bool} :
    (rows.update cond (patch.set now toStatus)).row rid =
      (rows.row rid).map fun rec => if cond rec then patch.set now toStatus rec else rec :=
  row_update fun _ => rfl

theorem tryTransitionInviteRequest_ok
    (h : tryTransitionInviteRequest w requestID fromStatuses toStatus patch rows = .ok
      (ok, rows')) :
    ok = (rows.row requestID).any (·.taken requestID fromStatuses) ∧
      rows' = rows.update (·.taken requestID fromStatuses) (patch.set w.now toStatus) := by
  simp only [tryTransitionInviteRequest] at h
  split at h
  · cases h
  split at h
  · cases h
    exact ⟨rfl, rfl⟩
  · cases h

theorem tryTransition_moved (hpatch : patch.incrementAttempt = false)
    (hfrom : ∀ status ∈ fromStatuses, status.isFinal = false ∧
      (toStatus.isUntried = true → status.isUntried = true))
    (h : tryTransitionInviteRequest w requestID fromStatuses toStatus patch rows = .ok
      (ok, rows')) :
    rows.Moved rid rows' := by
  rw [(tryTransitionInviteRequest_ok h).2]
  refine .update (fun _ => rfl) fun rec hrec => ?_
  have hstatus : rec.status ∈ fromStatuses := by
    simp only [GroupInviteRequestRecord.taken, decide_eq_true_eq] at hrec
    exact hrec.2.2
  obtain ⟨hfinal, huntried⟩ := hfrom _ hstatus
  exact GroupInviteRequestRecord.moved_set hpatch hfinal huntried

theorem tryTransition_kept (hkept : requestID ≠ rid ∨ ok = false)
    (h : tryTransitionInviteRequest w requestID fromStatuses toStatus patch rows = .ok
      (ok, rows')) :
    rows'.row rid = rows.row rid := by
  obtain ⟨hok, rfl⟩ := tryTransitionInviteRequest_ok h
  rw [InviteRequestTransitionPatch.row_set]
  cases hrow : rows.row rid with
  | none => rfl
  | some rec =>
    have htaken : rec.taken requestID fromStatuses = false := by
      by_cases hid : requestID = rid
      · rw [hid, hrow] at hok
        subst hid
        exact hok.symm.trans (hkept.resolve_left (absurd rfl))
      · simp [GroupInviteRequestRecord.taken, row_requestID hrow, Ne.symm hid]
    simp [htaken]

theorem tryTransition_took
    (h : tryTransitionInviteRequest w rid fromStatuses toStatus patch rows = .ok (true, rows')) :
    ∃ rec, rows.row rid = some rec ∧ rec.status ∈ fromStatuses ∧
      rows'.row rid = some (patch.set w.now toStatus rec) := by
  obtain ⟨htook, rfl⟩ := tryTransitionInviteRequest_ok h
  obtain ⟨rec, hrow, htaken⟩ := Option.any_eq_true _ _ |>.mp htook.symm
  refine ⟨rec, hrow, ?_, ?_⟩
  · simp only [GroupInviteRequestRecord.taken, decide_eq_true_eq] at htaken
    exact htaken.2.2
  · rw [InviteRequestTransitionPatch.row_set, hrow]
    simp [htaken]

theorem GroupInviteRequestRecord.stored_requestID {rec : GroupInviteRequestRecord} :
    (rec.stored w).requestID = rec.requestID := rfl

theorem GroupInviteRequestRecord.stored_maxAttempts {rec : GroupInviteRequestRecord} :
    0 ≤ (rec.stored w).maxAttempts := by
  simp only [GroupInviteRequestRecord.stored]
  omega

structure GroupInviteRequestRecord.Fresh (rec : GroupInviteRequestRecord) : Prop where
  attempts : rec.attemptCount = 0
  limit : 0 ≤ rec.maxAttempts

theorem createGroupInviteRequest_row (hnew : rec.attemptCount = 0)
    (h : createGroupInviteRequest w rec rows = .ok rows') :
    rows'.row rid = rows.row rid ∨
      rows.row rid = none ∧ ∃ rec', rows'.row rid = some rec' ∧ rec'.Fresh := by
  unfold createGroupInviteRequest at h
  split at h
  · cases h
  split at h
  · cases h
  split at h
  next hinsert =>
    cases h
    by_cases hid : rec.requestID = rid
    · subst hid
      refine .inr ⟨hinsert.2.1, rec.stored w, ?_, hnew, rec.stored_maxAttempts⟩
      unfold row at hinsert ⊢
      rw [get_append_of_none hinsert.2.1, rec.stored_requestID, if_pos rfl]
    · exact .inl (get_append_of_ne hid)
  · cases h

-- -------- What a step of a task does

def AttemptPhase.claims : AttemptPhase → Bool
  | .reread | .check _ | .invite _ => true
  | .lookup | .claim | .settle _ | .link => false

def AttemptPhase.admitted : AttemptPhase → Bool
  | .check _ | .invite _ => true
  | .lookup | .claim | .reread | .settle _ | .link => false

def InviteTask.claims (rid : String) : InviteTask → Bool
  | .attempt requestID _ phase _ => requestID = rid ∧ phase.claims
  | _ => false

def InviteTask.admitted (rid : String) : InviteTask → Bool
  | .attempt requestID _ phase _ => requestID = rid ∧ phase.admitted
  | _ => false

theorem InviteTask.claims_of_admitted {task : InviteTask} (h : task.admitted rid = true) :
    task.claims rid = true := by
  cases task with
  | attempt requestID allowAnyMember phase queue =>
    cases phase <;> simp_all [InviteTask.admitted, InviteTask.claims, AttemptPhase.admitted,
      AttemptPhase.claims]
  | _ => cases h

@[simp] theorem InviteTask.ofQueue_claims : (InviteTask.ofQueue queue).claims rid = false := by
  cases queue <;> simp [InviteTask.ofQueue, InviteTask.claims, AttemptPhase.claims]

def TaskResult.calls (result : TaskResult) (task : InviteTask) (rid : String) : Bool :=
  result.invited ∧ task.requestID = rid

inductive TaskEffect (rid : String) (rows : InviteRequests) (task : InviteTask)
    (result : TaskResult) :
    Prop
  /-- The row moves along, and a call uses up the claim it was let through for. -/
  | quiet (hrows : rows.Moved rid result.rows)
      (hclaims : (result.task.claims rid).toNat + (result.calls task rid).toNat ≤
        (task.claims rid).toNat)
      (hadmitted : (result.task.admitted rid).toNat + (result.calls task rid).toNat ≤
        (task.admitted rid).toNat)
  | claim (hold : rows.row rid = some rec) (hnew : result.rows.row rid = some rec')
      (hmoved : rec.Moved true rec') (hadmitted : result.task.admitted rid = false)
      (hcalls : result.calls task rid = false)
  | letThrough (hrows : result.rows = rows) (hrow : rows.row rid = some rec)
      (hcount : rec.attemptCount ≤ rec.maxAttempts) (hclaims : task.claims rid = true)
      (hcalls : result.calls task rid = false)
  | create (hold : rows.row rid = none) (hnew : result.rows.row rid = some rec) (hfresh : rec.Fresh)
      (hclaims : result.task.claims rid = false) (hcalls : result.calls task rid = false)

theorem TaskEffect.idle (hrows : rows.Moved rid rows') (hclaims : task'.claims rid = false)
    : TaskEffect rid rows task ⟨task', rows', false⟩ := by
  have hadmitted : task'.admitted rid = false := by
    cases h : task'.admitted rid with
    | false => rfl
    | true => simp [InviteTask.claims_of_admitted h] at hclaims
  exact .quiet hrows (by simp [hclaims, TaskResult.calls]) (by simp [hadmitted, TaskResult.calls])

theorem TaskEffect.same (hclaims : task'.claims rid = task.claims rid)
    (hadmitted : task'.admitted rid = task.admitted rid) :
    TaskEffect rid rows task ⟨task', rows, false⟩ :=
  .quiet .refl (by simp [hclaims, TaskResult.calls]) (by simp [hadmitted, TaskResult.calls])

theorem AttemptOutcome.status_tried (outcome : AttemptOutcome) :
    outcome.status.isUntried = false := by
  cases outcome <;> rfl

theorem AttemptOutcome.patch_keeps (outcome : AttemptOutcome) :
    outcome.patch.incrementAttempt = false := by
  cases outcome <;> rfl

theorem claim_effect
    (h : tryTransitionInviteRequest w requestID [.pending, .failed] .processing
      { processingStartedAt := some (some w.now), incrementAttempt := true, clearFailure := true }
      rows = .ok (true, rows')) :
    TaskEffect rid rows (.attempt requestID allowAnyMember .claim queue)
      ⟨.attempt requestID allowAnyMember .reread queue, rows', false⟩ := by
  by_cases hid : requestID = rid
  · subst hid
    obtain ⟨rec, hold, hstatus, hnew⟩ := tryTransition_took h
    refine .claim hold hnew ⟨rfl, rfl, ?_, nofun⟩ ?_ rfl
    · intro hfinal
      rcases List.mem_pair.mp hstatus with hstatus | hstatus <;>
        rw [hstatus] at hfinal <;> cases hfinal
    · simp [InviteTask.admitted, AttemptPhase.admitted]
  · refine .idle ?_ (by simp [InviteTask.claims, hid])
    exact .of_row (tryTransition_kept (.inl hid) h)

theorem reread_effect (hrow : rows.row requestID = some rec)
    (hcount : ¬ rec.attemptCount > rec.maxAttempts) :
    TaskEffect rid rows (.attempt requestID allowAnyMember .reread queue)
      ⟨.attempt requestID allowAnyMember (.check rec) queue, rows, false⟩ := by
  by_cases hid : requestID = rid
  · subst hid
    exact .letThrough rfl hrow (by omega) (by simp [InviteTask.claims, AttemptPhase.claims]) rfl
  · exact .same (by simp [InviteTask.claims, hid]) (by simp [InviteTask.admitted, hid])

theorem settle_effect {outcome : AttemptOutcome}
    (h : tryTransitionInviteRequest w requestID [.processing] outcome.status outcome.patch rows =
      .ok (ok, rows')) (hclaims : task'.claims rid = false) :
    TaskEffect rid rows task ⟨task', rows', false⟩ := by
  refine .idle (tryTransition_moved outcome.patch_keeps ?_ h) hclaims
  intro status hstatus
  rw [List.mem_singleton.mp hstatus]
  exact ⟨rfl, by simp [outcome.status_tried]⟩

theorem processInviteRequest_effect (w : InviteWorld) (phase : AttemptPhase) :
    TaskEffect rid rows (.attempt requestID allowAnyMember phase queue)
      (processInviteRequest w requestID allowAnyMember queue rows phase) := by
  cases phase with
  | lookup =>
    simp only [processInviteRequest]
    split
    · exact .idle .refl (by simp)
    split
    · exact .idle .refl (by simp)
    · exact .idle .refl (by simp [InviteTask.claims, AttemptPhase.claims])
  | claim =>
    simp only [processInviteRequest]
    split
    · exact .idle .refl (by simp)
    · exact .idle (.of_row (tryTransition_kept (.inr rfl) ‹_›)) (by simp)
    · exact claim_effect ‹_›
  | reread =>
    simp only [processInviteRequest]
    split
    · exact .idle .refl (by simp)
    split
    · exact .idle .refl (by simp)
    split
    · exact .idle .refl (by simp [InviteTask.claims, AttemptPhase.claims])
    · exact reread_effect ‹_› ‹_›
  | check rec =>
    simp only [processInviteRequest]
    split
    · exact .idle .refl (by simp [InviteTask.claims, AttemptPhase.claims])
    · exact .idle .refl (by simp [InviteTask.claims, AttemptPhase.claims])
    · exact .same rfl rfl
  | invite rec =>
    simp only [processInviteRequest]
    exact .quiet .refl
      (by simp [InviteTask.claims, AttemptPhase.claims, TaskResult.calls, InviteTask.requestID])
      (by simp [InviteTask.admitted, AttemptPhase.admitted, TaskResult.calls, InviteTask.requestID])
  | settle outcome =>
    simp only [processInviteRequest]
    split
    · exact .idle .refl (by simp)
    refine settle_effect ‹_› ?_
    split
    · simp [InviteTask.claims, AttemptPhase.claims]
    · simp
  | link =>
    simp only [processInviteRequest]
    refine .idle ?_ (by simp)
    split
    · exact .update (fun _ => rfl) fun rec _ => ⟨by simp, rfl, fun _ => rfl, fun h => ⟨h, rfl⟩⟩
    · exact .refl

theorem sweep_effect (w : InviteWorld) (now : Int) (phase : SweepPhase) :
    TaskEffect rid rows (.sweep now phase) ((InviteTask.sweep now phase).step w rows) := by
  cases phase with
  | failCorrupt =>
    refine .idle ?_ rfl
    unfold failCorruptProcessingInviteRequests
    split
    · refine .update (fun _ => rfl) fun rec hrec => ?_
      have hstatus : rec.status = .processing := (of_decide_eq_true hrec).2.1
      exact ⟨by simp, rfl, by simp [hstatus, InviteRequestStatus.isFinal], nofun⟩
    · exact .refl
  | failStale =>
    refine .idle ?_ rfl
    unfold failStaleProcessingInviteRequests
    split
    · exact .refl
    split
    · refine .update (fun _ => rfl) fun rec hrec => ?_
      have hstatus : rec.status = .processing := (of_decide_eq_true hrec).2.1
      exact ⟨by simp, rfl, by simp [hstatus, InviteRequestStatus.isFinal], nofun⟩
    · exact .refl
  | expirePending =>
    refine .idle ?_ rfl
    simp only [expirePendingInviteRequests]
    split
    · refine .update (fun _ => rfl) fun rec hrec => ?_
      have hstatus : rec.status = .pending := (of_decide_eq_true hrec).2.1
      exact ⟨by simp, rfl, by simp [hstatus, InviteRequestStatus.isFinal],
        fun _ => ⟨by rw [hstatus]; rfl, rfl⟩⟩
    · exact .refl

theorem InviteTask.step_effect (rid : String) (w : InviteWorld) (rows : InviteRequests)
    (task : InviteTask) : TaskEffect rid rows task (task.step w rows) := by
  cases task with
  | approve requestID =>
    simp only [InviteTask.step]
    split
    · exact .idle .refl (by simp [InviteTask.claims, AttemptPhase.claims])
    · exact .idle .refl rfl
  | reject requestID reason =>
    simp only [InviteTask.step]
    split
    · exact .idle .refl rfl
    · exact .idle .refl rfl
  | rejecting requestID reason =>
    simp only [InviteTask.step]
    split
    · exact .idle .refl rfl
    refine .idle (tryTransition_moved rfl ?_ ‹_›) rfl
    intro status hstatus
    rw [List.mem_singleton.mp hstatus]
    exact ⟨rfl, fun _ => rfl⟩
  | switchAnyMember groupID =>
    simp only [InviteTask.step]
    split
    · exact .idle .refl (by simp)
    · exact .idle .refl rfl
  | attempt requestID allowAnyMember phase queue => exact processInviteRequest_effect w phase
  | sweep now phase => exact sweep_effect w now phase
  | submit requestID groupID requesterPeerID targetPeerID anyMember =>
    simp only [InviteTask.step]
    split
    · split
      · exact .idle .refl rfl
      rename_i rows' h
      have hclaims : (if anyMember = true then InviteTask.attempt requestID false .lookup []
          else .done).claims rid = false := by
        split
        · simp [InviteTask.claims, AttemptPhase.claims]
        · rfl
      rcases createGroupInviteRequest_row rfl h with hrow | ⟨hold, rec, hnew, hfresh⟩
      · exact .idle (.of_row hrow) hclaims
      · exact .create hold hnew hfresh hclaims rfl
    · exact .idle .refl rfl
  | done => exact .idle .refl rfl

-- -------- Whole runs

def InviteDesk.spent (rid : String) (desk : InviteDesk) : Nat :=
  desk.invited.count rid + desk.tasks.countP (·.claims rid)

def InviteDesk.granted (rid : String) (desk : InviteDesk) : Nat :=
  desk.invited.count rid + desk.tasks.countP (·.admitted rid)

theorem InviteDesk.granted_le_spent (desk : InviteDesk) (rid : String) :
    desk.granted rid ≤ desk.spent rid :=
  Nat.add_le_add_left (List.countP_mono_left fun _ _ => InviteTask.claims_of_admitted) _

structure InviteDesk.Fair (rid : String) (desk : InviteDesk) : Prop where
  absent : desk.rows.row rid = none → desk.spent rid = 0
  counted : ∀ rec, desk.rows.row rid = some rec → (desk.spent rid : Int) ≤ rec.attemptCount
  bounded : ∀ rec, desk.rows.row rid = some rec → (desk.granted rid : Int) ≤ rec.maxAttempts
  untried : ∀ rec, desk.rows.row rid = some rec → rec.status.isUntried = true → rec.attemptCount = 0

theorem InviteDesk.Fair.of_row {desk : InviteDesk} {rec : GroupInviteRequestRecord}
    (hrow : desk.rows.row rid = some rec) (hcounted : (desk.spent rid : Int) ≤ rec.attemptCount)
    (hbounded : (desk.granted rid : Int) ≤ rec.maxAttempts)
    (huntried : rec.status.isUntried = true → rec.attemptCount = 0) : desk.Fair rid where
  absent h := by simp [hrow] at h
  counted := by simpa [hrow] using hcounted
  bounded := by simpa [hrow] using hbounded
  untried := by simpa [hrow] using huntried

theorem InviteDesk.Fair.of_none {desk : InviteDesk} (hrow : desk.rows.row rid = none)
    (hspent : desk.spent rid = 0) : desk.Fair rid where
  absent _ := hspent
  counted := by simp [hrow]
  bounded := by simp [hrow]
  untried := by simp [hrow]

theorem InviteDesk.Fair.moved {desk desk' : InviteDesk} (hfair : desk.Fair rid)
    (hrows : desk.rows.Moved rid desk'.rows) (hspent : desk'.spent rid ≤ desk.spent rid)
    (hgranted : desk'.granted rid ≤ desk.granted rid) : desk'.Fair rid := by
  cases hold : desk.rows.row rid with
  | none =>
    have habsent := hfair.absent hold
    exact .of_none (hrows.none hold) (by omega)
  | some rec =>
    obtain ⟨rec', hnew, hmoved⟩ := hrows.some hold
    have hcounted := hfair.counted rec hold
    have hbounded := hfair.bounded rec hold
    have hattempts := hmoved.attempts
    have hlimit := hmoved.limit
    simp only [Bool.toNat_false] at hattempts
    refine .of_row hnew (by omega) (by omega) fun huntried => ?_
    have hzero := hfair.untried rec hold (hmoved.untried huntried).1
    omega

/-- No mirror row takes the row's place, and no purge deletes it. -/
def LeavesRow (rid : String) (desk : InviteDesk) : InviteAction → Prop
  | .mirror _ mirrored => mirrored.requestID ≠ rid ∧
      ∀ rec, desk.rows.row rid = some rec → mirrored.clashes rec = false
  | .purge groupID => ∀ rec, desk.rows.row rid = some rec → rec.groupID ≠ groupID
  | .call _ | .advance _ _ | .crash => True

theorem countP_set {p : α → Bool} {l : List α} (h : l[i]? = some a) :
    (l.set i b).countP p + (p a).toNat = l.countP p + (p b).toNat := by
  induction l generalizing i with
  | nil => cases h
  | cons c rest ih =>
    cases i with
    | zero =>
      have ha : c = a := by simpa using h
      rw [ha, List.set_cons_zero, List.countP_cons, List.countP_cons]
      cases p a <;> cases p b <;> simp
    | succ j =>
      have hrest := ih (i := j) (by simpa using h)
      simp only [List.set_cons_succ, List.countP_cons]
      omega

theorem InviteDesk.advance_invited {desk : InviteDesk} :
    (desk.advance i task w).invited.count rid =
      desk.invited.count rid + ((task.step w desk.rows).calls task rid).toNat := by
  unfold InviteDesk.advance TaskResult.calls
  cases hcalls : (task.step w desk.rows).invited with
  | false => simp [hcalls]
  | true =>
    by_cases hid : task.requestID = rid
    · simp [hcalls, hid]
    · simp [hcalls, hid]

theorem InviteDesk.advance_counts {desk : InviteDesk} (rid : String) (w : InviteWorld)
    (p : InviteTask → Bool) (h : desk.tasks[i]? = some task) :
    (desk.advance i task w).invited.count rid + (desk.advance i task w).tasks.countP p +
      (p task).toNat =
      desk.invited.count rid + desk.tasks.countP p + (p (task.step w desk.rows).task).toNat +
        ((task.step w desk.rows).calls task rid).toNat := by
  have hset := countP_set (p := p) (b := (task.step w desk.rows).task) h
  rw [advance_invited]
  simp only [InviteDesk.advance]
  omega

theorem InviteDesk.Fair.advance {desk : InviteDesk} (hfair : desk.Fair rid)
    (h : desk.tasks[i]? = some task) : (desk.advance i task w).Fair rid := by
  have hspent : (desk.advance i task w).spent rid + _ = desk.spent rid + _ + _ :=
    desk.advance_counts rid w (·.claims rid) h
  have hgranted : (desk.advance i task w).granted rid + _ = desk.granted rid + _ + _ :=
    desk.advance_counts rid w (·.admitted rid) h
  have hle := (desk.advance i task w).granted_le_spent rid
  cases task.step_effect rid w desk.rows with
  | quiet hmoved hclaims hadmitted => exact hfair.moved hmoved (by omega) (by omega)
  | claim hold hnew hmoved hadmitted hcalls =>
    have hcounted := hfair.counted _ hold
    have hbounded := hfair.bounded _ hold
    have hattempts := hmoved.attempts
    have hlimit := hmoved.limit
    have hclaims := Bool.toNat_le ((task.step w desk.rows).task.claims rid)
    simp only [hadmitted, hcalls, Bool.toNat_false, Bool.toNat_true] at hspent hgranted hattempts
    refine .of_row hnew (by omega) (by omega) fun huntried => ?_
    cases (hmoved.untried huntried).2
  | letThrough hsame hrow hcount hclaims hcalls =>
    have hcounted := hfair.counted _ hrow
    have hclaimed := Bool.toNat_le ((task.step w desk.rows).task.claims rid)
    simp only [hclaims, hcalls, Bool.toNat_false, Bool.toNat_true] at hspent
    have hrow' : (desk.advance i task w).rows.row rid = some _ := hsame ▸ hrow
    -- what is let through now is within what the row has counted, and that is within the limit
    exact .of_row hrow' (by omega) (by omega) (hfair.untried _ hrow)
  | create hold hnew hfresh hclaims hcalls =>
    have habsent := hfair.absent hold
    have hattempts := hfresh.attempts
    have hlimit := hfresh.limit
    simp only [hclaims, hcalls, Bool.toNat_false] at hspent
    exact .of_row hnew (by omega) (by omega) fun _ => hattempts

theorem mirror_row (hid : mirrored.requestID ≠ rid)
    (hclash : ∀ rec, rows.row rid = some rec → mirrored.clashes rec = false) :
    (upsertGroupInviteRequestMirror w mirrored rows).row rid = rows.row rid := by
  simp only [upsertGroupInviteRequestMirror]
  split
  · rfl
  unfold row at *
  rw [get_append_of_ne (by exact hid)]
  refine get_filter fun rec hrec => ?_
  have hkey : rec.requestID = rid := row_requestID hrec
  have hfree :
    ({ mirrored.stored w with isMirror := true } : GroupInviteRequestRecord).clashes rec =
      false := hclash rec hrec
  simp [hkey, Ne.symm hid, hfree]

theorem purge_row {rows : InviteRequests}
    (hgroup : ∀ rec, rows.row rid = some rec → rec.groupID ≠ groupID) :
    row (rows.filter (·.groupID ≠ groupID)) rid = rows.row rid :=
  get_filter fun rec hrec => by simpa using hgroup rec hrec

theorem InviteCall.task_claims (c : InviteCall) : c.task.claims rid = false := by
  cases c <;> rfl

theorem InviteCall.task_admitted (c : InviteCall) : c.task.admitted rid = false := by
  cases c <;> rfl

theorem InviteDesk.Fair.step (hfair : desk.Fair rid) (hok : LeavesRow rid desk a)
    (h : inviteStep a desk = some desk') : desk'.Fair rid := by
  cases a with
  | call c =>
    cases h
    exact hfair.moved .refl (by simp [InviteDesk.spent, c.task_claims])
      (by simp [InviteDesk.granted, c.task_admitted])
  | advance i w =>
    obtain ⟨task, htask, rfl⟩ := Option.map_eq_some_iff.mp h
    exact hfair.advance htask
  | crash =>
    cases h
    exact hfair.moved .refl (by simp [InviteDesk.spent]) (by simp [InviteDesk.granted])
  | mirror w mirrored =>
    cases h
    exact hfair.moved (.of_row (mirror_row hok.1 hok.2)) le_rfl le_rfl
  | purge groupID =>
    cases h
    exact hfair.moved (.of_row (purge_row hok)) le_rfl le_rfl

theorem inviteStep_row (hok : LeavesRow rid desk a) (h : inviteStep a desk = some desk')
    (hrow : desk.rows.row rid = some rec) :
    ∃ claimed rec', desk'.rows.row rid = some rec' ∧ rec.Moved claimed rec' := by
  cases a with
  | call c =>
    cases h
    exact ⟨false, rec, hrow, .refl rec⟩
  | advance i w =>
    obtain ⟨task, htask, rfl⟩ := Option.map_eq_some_iff.mp h
    cases task.step_effect rid w desk.rows with
    | quiet hmoved => exact ⟨false, hmoved.some hrow⟩
    | claim hold hnew hmoved =>
      cases hold.symm.trans hrow
      exact ⟨true, _, hnew, hmoved⟩
    | letThrough hsame => exact ⟨false, rec, (congrArg (·.row rid) hsame).trans hrow, .refl rec⟩
    | create hold => cases hold.symm.trans hrow
  | crash =>
    cases h
    exact ⟨false, rec, hrow, .refl rec⟩
  | mirror w mirrored =>
    cases h
    exact ⟨false, rec, (mirror_row hok.1 hok.2).trans hrow, .refl rec⟩
  | purge groupID =>
    cases h
    exact ⟨false, rec, (purge_row hok).trans hrow, .refl rec⟩

theorem inviteRun_row (hrun : Transition.Run inviteStep (LeavesRow rid) desk desk')
    (hrow : desk.rows.row rid = some rec) :
    ∃ rec', desk'.rows.row rid = some rec' ∧ rec'.maxAttempts = rec.maxAttempts ∧
      (rec.status.isFinal = true → rec'.status = rec.status) := by
  refine hrun.invariant (fun desk' => ∃ rec', desk'.rows.row rid = some rec' ∧
    rec'.maxAttempts = rec.maxAttempts ∧ (rec.status.isFinal = true → rec'.status = rec.status))
    ⟨rec, hrow, rfl, fun _ => rfl⟩ ?_
  rintro desk₁ a desk₂ ⟨rec₁, hrow₁, hlimit, hfinal⟩ hok hstep
  obtain ⟨claimed, rec₂, hrow₂, hmoved⟩ := inviteStep_row hok hstep hrow₁
  refine ⟨rec₂, hrow₂, hmoved.limit.trans hlimit, fun h => ?_⟩
  have hkept := hfinal h
  exact (hmoved.final (hkept ▸ h)).trans hkept

theorem InviteDesk.fair_empty : ({} : InviteDesk).Fair rid :=
  .of_none rfl rfl

/-- Take any run of the service on a fresh database in which no mirror row and no purge touches the
row of a request, and any point of it at which the row exists. What ends the request stays, for the
rest of the run; if the request is rejected, `InvitePeerToGroup` was never called for it and never
is; and it is called at most as often as the row allows. -/
theorem invite_request_is_exclusive (hrun : Transition.Run inviteStep (LeavesRow rid) {} desk)
    (hrest : Transition.Run inviteStep (LeavesRow rid) desk desk')
    (hrow : desk.rows.row rid = some rec) :
    (rec.status = .rejected → rid ∉ desk'.invited) ∧
      (rec.status.isFinal = true →
        ∃ rec', desk'.rows.row rid = some rec' ∧ rec'.status = rec.status) ∧
      (desk'.invited.count rid : Int) ≤ rec.maxAttempts := by
  have hfair : desk'.Fair rid := hrest.invariant (InviteDesk.Fair rid)
    (hrun.invariant (InviteDesk.Fair rid) InviteDesk.fair_empty fun _ _ _ => .step)
    fun _ _ _ => .step
  obtain ⟨rec', hrow', hlimit, hfinal⟩ := inviteRun_row hrest hrow
  have hcounted := hfair.counted rec' hrow'
  have hbounded := hfair.bounded rec' hrow'
  simp only [InviteDesk.spent, InviteDesk.granted] at hcounted hbounded
  refine ⟨fun hrejected => ?_, fun h => ⟨rec', hrow', hfinal h⟩, by omega⟩
  have hstatus : rec'.status = .rejected := (hfinal (by rw [hrejected]; rfl)).trans hrejected
  have hzero := hfair.untried rec' hrow' (by rw [hstatus]; rfl)
  exact List.count_eq_zero.mp (by omega)

def InviteAction.isLocal : InviteAction → Bool
  | .call _ | .advance _ _ | .crash => true
  | .mirror _ _ | .purge _ => false

theorem leavesRow_of_local (h : a.isLocal = true) : LeavesRow rid desk a := by
  cases a with
  | call c | advance i w | crash => trivial
  | mirror w mirrored | purge groupID => cases h

def Reference.inviteRequests : List InviteAction :=
  [.call (.rpcSubmitInviteRequest "gir-1" "g" "alice" "bob" false), .advance 0 { now := 10 },
    .call (.rpcSubmitInviteRequest "gir-2" "g" "alice" "carol" false), .advance 1 { now := 11 },
    .call (.approveGroupInviteRequest "gir-1")] ++
  List.replicate 7 (.advance 2 { now := 12, invitePeerToGroup := .error "offline" }) ++
  [.call (.rejectGroupInviteRequest "gir-2" "no"), .advance 3 { now := 13 },
    .advance 3 { now := 13 }]

def Reference.inviteRetries : List InviteAction :=
  [.crash, .call (.retryGroupInviteRequest "gir-1"), .call (.retryGroupInviteRequest "gir-2")] ++
  List.replicate 8 (.advance 0 { now := 20 }) ++ List.replicate 8 (.advance 1 { now := 21 })

theorem inviteRequests_isLocal :
    ∀ a ∈ Reference.inviteRequests ++ Reference.inviteRetries, a.isLocal = true := by decide

theorem rejected_request_is_never_carried_out :
    ∃ desk desk' : InviteDesk, desk'.invited = ["gir-1", "gir-1"] ∧
      (∃ rec, desk.rows.row "gir-2" = some rec ∧ rec.status = .rejected ∧
        (rec.status = .rejected → "gir-2" ∉ desk'.invited)) ∧
      ∃ rec, desk.rows.row "gir-1" = some rec ∧
        (desk'.invited.count "gir-1" : Int) ≤ rec.maxAttempts := by
  obtain ⟨desk, hfirst, desk', hsecond, hinvited, ⟨rejected, hrejected, hstatus⟩,
    failed, hfailed, -⟩ :
      ∃ desk, Transition.exec inviteStep Reference.inviteRequests {} = some desk ∧
      ∃ desk', Transition.exec inviteStep Reference.inviteRetries desk = some desk' ∧
        desk'.invited = ["gir-1", "gir-1"] ∧
        (∃ rec, desk.rows.row "gir-2" = some rec ∧ rec.status = .rejected) ∧
        ∃ rec, desk.rows.row "gir-1" = some rec ∧ True := by
    decide +kernel
  have hruns : ∀ rid, Transition.Run inviteStep (LeavesRow rid) {} desk ∧
      Transition.Run inviteStep (LeavesRow rid) desk desk' := fun rid =>
    ⟨.of_exec hfirst fun _ a ha =>
        leavesRow_of_local (inviteRequests_isLocal a (List.mem_append_left _ ha)),
      .of_exec hsecond fun _ a ha =>
        leavesRow_of_local (inviteRequests_isLocal a (List.mem_append_right _ ha))⟩
  exact ⟨desk, desk', hinvited,
    ⟨rejected, hrejected, hstatus,
      (invite_request_is_exclusive (hruns "gir-2").1 (hruns "gir-2").2 hrejected).1⟩,
    failed, hfailed, (invite_request_is_exclusive (hruns "gir-1").1 (hruns "gir-1").2 hfailed).2.2⟩

end GroupCoordination
