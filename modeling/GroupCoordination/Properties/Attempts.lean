import GroupCoordination.Properties.Invitations

/-!
# Whose outcome is written

Attempts on one request, with a ghost: the task whose claim last set the request to `processing`.
The statement that writes an outcome asks for that status and not for who set it.
-/

namespace GroupCoordination

open InviteRequests

def AttemptPhase.holds : AttemptPhase → Bool
  | .reread | .check _ | .invite _ | .settle _ => true
  | .lookup | .claim | .link => false

def InviteTask.holds (rid : String) : InviteTask → Bool
  | .attempt requestID _ phase _ => requestID = rid ∧ phase.holds
  | _ => false

def InviteTask.takes (rid : String) (rows : InviteRequests) : InviteTask → Bool
  | .attempt requestID _ .claim _ =>
    requestID = rid ∧ (rows.row rid).any (·.taken rid [.pending, .failed])
  | _ => false

structure InviteWatch where
  desk : InviteDesk := {}
  /-- The task whose claim set the request to `processing`, unless it died in a crash. -/
  setBy : Option Nat := none

def InviteWatch.step (rid : String) (a : InviteAction) (s : InviteWatch) : Option InviteWatch :=
  (inviteStep a s.desk).map fun desk =>
    { desk
      setBy := match a with
        | .advance i _ =>
          if desk.tasks[i]?.any (·.holds rid) ∧ ¬ s.desk.tasks[i]?.any (·.holds rid) then some i
          else s.setBy
        | .crash => none
        | .call _ | .mirror _ _ | .purge _ => s.setBy }

/-- No attempt claims the request while another that claimed it is running. -/
def InviteWatch.exclusive (rid : String) (s : InviteWatch) : InviteAction → Bool
  | .advance i _ =>
    s.desk.tasks[i]?.any (·.takes rid s.desk.rows) → s.desk.tasks.all (·.holds rid = false)
  | .call _ | .crash | .mirror _ _ | .purge _ => true

@[simp] theorem InviteTask.attempt_holds :
    (InviteTask.attempt other allowAnyMember phase queue).holds rid =
    decide (other = rid ∧ phase.holds) := rfl

@[simp] theorem InviteTask.ofQueue_holds : (InviteTask.ofQueue queue).holds rid = false := by
  cases queue with
  | nil => rfl
  | cons => simp [InviteTask.ofQueue, AttemptPhase.holds]

theorem InviteTask.step_holds {task : InviteTask} (hr : task.step w rows = r)
    (h : r.task.holds rid = true) : task.holds rid = true ∨ task.takes rid rows = true := by
  cases task with
  | attempt requestID allowAnyMember phase queue =>
    simp only [InviteTask.step] at hr
    cases phase with
    | claim =>
      simp only [processInviteRequest] at hr
      split at hr <;> subst hr
      · simp at h
      · simp at h
      rename_i htook
      obtain ⟨rfl, -⟩ := of_decide_eq_true h
      exact .inr (decide_eq_true ⟨rfl, (tryTransitionInviteRequest_ok htook).1.symm⟩)
    | reread | check | invite =>
      simp only [processInviteRequest] at hr
      repeat' split at hr
      all_goals
        subst hr
        simp_all [AttemptPhase.holds]
    | lookup | settle | link =>
      simp only [processInviteRequest] at hr
      repeat' split at hr
      all_goals
        subst hr
        simp [AttemptPhase.holds] at h
  | sweep now phase => cases phase <;> cases hr <;> cases h
  | _ =>
    simp only [InviteTask.step] at hr
    repeat' split at hr
    all_goals
      subst hr
      first
        | cases h
        | simp [AttemptPhase.holds] at h

-- -------- Runs

def InviteWatch.Owned (rid : String) (s : InviteWatch) : Prop :=
  ∀ i task, s.desk.tasks[i]? = some task → task.holds rid = true → s.setBy = some i

theorem InviteWatch.Owned.advance {s : InviteWatch} (h : s.Owned rid)
    (hok : s.exclusive rid (.advance i w) = true) (hold : s.desk.tasks[i]? = some old)
    (hstep : InviteWatch.step rid (.advance i w) s = some s') : s'.Owned rid := by
  have hi : (s.desk.advance i old w).tasks[i]? = some (old.step w s.desk.rows).task :=
    List.getElem?_set_self (List.getElem?_eq_some_iff.mp hold).1
  simp only [InviteWatch.step, inviteStep, hold, Option.map_some, hi, Option.any_some] at hstep
  cases hstep
  intro k task hk hholds
  by_cases hki : k = i
  · subst hki
    cases hi.symm.trans hk
    split
    · rfl
    · exact h k old hold (by simp_all)
  have hk : s.desk.tasks[k]? = some task := (List.getElem?_set_ne (Ne.symm hki)).symm.trans hk
  split
  next hclaims =>
    have htakes := (InviteTask.step_holds rfl hclaims.1).resolve_left hclaims.2
    have hfree := of_decide_eq_true hok (by rw [hold]; exact htakes)
    rw [of_decide_eq_true (List.all_eq_true.mp hfree task (List.mem_of_getElem? hk))] at hholds
    cases hholds
  · exact h k task hk hholds

theorem InviteWatch.Owned.step {s : InviteWatch} (h : s.Owned rid) (hok : s.exclusive rid a = true)
    (hstep : InviteWatch.step rid a s = some s') : s'.Owned rid := by
  obtain ⟨desk, hdesk, hs'⟩ := Option.map_eq_some_iff.mp hstep
  cases a with
  | advance i w =>
    obtain ⟨old, hold, -⟩ := Option.map_eq_some_iff.mp hdesk
    exact h.advance hok hold hstep
  | call c =>
    cases hdesk
    cases hs'
    intro k task hk hholds
    rw [List.getElem?_append] at hk
    split at hk
    · exact h k task hk hholds
    · obtain rfl := List.mem_singleton.mp (List.mem_of_getElem? hk)
      cases c <;> cases hholds
  | crash =>
    cases hdesk
    cases hs'
    exact fun _ _ hk => by simp at hk
  | mirror | purge =>
    cases hdesk
    cases hs'
    exact h

/-- In every run from any table and no tasks in which no attempt claims the request while another
that claimed it is running, an attempt that is about to write its outcome is the one whose claim set
the request to `processing`. -/
theorem outcome_is_of_its_attempt (rows : InviteRequests)
    (hrun : Transition.Run (InviteWatch.step rid) (fun s a => s.exclusive rid a = true)
      { desk := { rows } } s)
    (htask : s.desk.tasks[i]? = some (.attempt rid allowAnyMember (.settle outcome) queue)) :
    s.setBy = some i :=
  hrun.invariant (InviteWatch.Owned rid) (fun _ _ hk => by simp at hk)
    (fun _ _ _ => .step) i _ htask
    (by simp [AttemptPhase.holds])

def Reference.openRequest : GroupInviteRequestRecord :=
  ⟨"r", "g", "alice", "bob", .pending, "", "", "", 0, 5, none, 1000, 1, 1, false⟩

/-- An attempt that claims the request at `now`, up to its call of `InvitePeerToGroup`. -/
def Reference.attemptAt (i : Nat) (now : Int) : List InviteAction :=
  .call (.retryGroupInviteRequest "r") :: List.replicate 5 (.advance i { now })

def Reference.sweepAt (i : Nat) (now : Int) : List InviteAction :=
  [.call (.runInviteMaintenanceSweep now), .advance i { now }, .advance i { now }]

abbrev Reference.Watched (allowed : InviteWatch → InviteAction → Prop) (s : InviteWatch) : Prop :=
  Transition.Run (InviteWatch.step "r") allowed { desk := { rows := [openRequest] } } s

theorem outcome_after_early_sweep : ∃ s, Reference.Watched (fun s a => s.exclusive "r" a = true) s ∧
    s.desk.tasks[0]? = some (.attempt "r" false (.settle .added) []) ∧ s.setBy = some 0 := by
  have hrun : ∃ s, Reference.Watched (fun s a => s.exclusive "r" a = true) s ∧
      s.desk.tasks[0]? = some (.attempt "r" false (.settle .added) []) :=
    Transition.Run.exists_of_checked
      (Reference.attemptAt 0 10 ++ Reference.sweepAt 1 100 ++ [.advance 0 { now := 101 }])
      (fun s a => s.exclusive "r" a) (fun _ _ _ h => h) (by decide +kernel)
  exact hrun.imp fun s h => ⟨h.1, h.2, outcome_is_of_its_attempt _ h.1 h.2⟩

/-- A sweep fails the request, a second attempt claims it, and the first writes its outcome. -/
theorem outcome_over_another_attempt : ∃ s, Reference.Watched (fun _ _ => True) s ∧
    s.desk.tasks[0]? = some (.attempt "r" false (.settle .added) []) ∧ s.setBy = some 2 ∧
    (s.desk.rows.row "r").map (·.status) = some .processing :=
  Transition.Run.exists_of_checked
    (Reference.attemptAt 0 10 ++ Reference.sweepAt 1 400 ++ Reference.attemptAt 2 401 ++
      [.advance 0 { now := 402 }]) (fun _ _ => true) (fun _ _ _ _ => trivial) (by decide +kernel)

end GroupCoordination
