import GroupCoordination.Model.Welcome
import GroupCoordination.Properties.Forks

/-!
# The anchor of a Welcome

A Welcome goes out with an epoch and a history hash, from which the joiner's history starts. They
are right if the coordinator is still in the epoch the commit reached when they are read, one after
the other.
-/

namespace GroupCoordination

/-- No restart and no swap of a heal, and every read is made in the epoch of its commit. -/
def ReadsInTime (s : Runtime) : RuntimeOp → Prop
  | .coord a => KeepsBranch s.coord a
  | .currentEpoch i | .getHistoryHash i => ∀ task ∈ s.tasks[i]?, s.coord.epoch = task.commitEpoch
  | .unregistered _ => False

def PendingWelcome.Anchored (node : Node) (commits : List Bytes) (w : PendingWelcome) : Prop :=
  w.anchorEpoch = w.commitEpoch ∧
    w.anchorHistoryHash = some (node.historyAfter (commits.take w.commitEpoch))

structure InTime (node : Node) (past : List Bytes) (s : Runtime) : Prop where
  follows : Follows node past s.coord.core
  read : ∀ task ∈ s.tasks, ∀ e, task.phase = .epochRead e → e = task.commitEpoch
  reached : ∀ w ∈ s.dispatched, w.commitEpoch ≤ (past ++ s.coord.lineage.commits).length
  anchored : ∀ w ∈ s.dispatched, w.Anchored node (past ++ s.coord.lineage.commits)

theorem addCommittedTask_called (h : addCommittedTask cb = some task) : task.phase = .called := by
  unfold addCommittedTask at h
  split at h
  · obtain ⟨-, heq⟩ := Option.ite_none_left_eq_some.mp h
    cases heq
    rfl
  · cases h

theorem inviteTask_called (h : inviteTask x call op s = some task) : task.phase = .called := by
  unfold inviteTask at h
  split at h
  · split at h
    · obtain ⟨-, heq⟩ := Option.ite_none_left_eq_some.mp h
      cases heq
      rfl
    · cases h
  · cases h

theorem newTasks_called (h : task ∈ newTasks node a s s') : task.phase = .called := by
  rcases List.mem_append.mp h with hcallback | hinvite
  · obtain ⟨cb, -, hcb⟩ := List.mem_filterMap.mp hcallback
    exact addCommittedTask_called hcb
  · exact inviteTask_called (Option.mem_toList.mp hinvite)

section InTime

variable {node : Node} {past : List Bytes} {s s' : Runtime} {coord : State} {op : RuntimeOp}
  {task : WelcomeTask}

/-- The history hash of a node that stayed on its branch is that of all commits so far. -/
theorem Follows.historyHash_eq (h : Follows node past c) :
    c.historyHash = some (node.historyAfter ((past ++ c.lineage.commits).take c.epoch)) ∧
      c.epoch = (past ++ c.lineage.commits).length := by
  have hepoch : c.epoch = (past ++ c.lineage.commits).length := by
    rw [h.toCharted.epoch, Lineage.epoch, h.base, List.length_append]
  have hle : past.length ≤ c.epoch := by
    rw [hepoch, List.length_append]
    exact Nat.le_add_right _ _
  refine ⟨?_, hepoch⟩
  rw [← h.history_upTo hle, Lineage.upTo_of_le _ h.toCharted.epoch.ge]
  exact h.head

theorem PendingWelcome.Anchored.extend {w : PendingWelcome} (h : w.Anchored node commits)
    (hreached : w.commitEpoch ≤ commits.length) (hextends : commits <+: commits') :
    w.Anchored node commits' := by
  obtain ⟨rest, rfl⟩ := hextends
  exact ⟨h.1, by rw [h.2, List.take_append_of_le_length hreached]⟩

section

variable (h : InTime node past s)

include h

theorem InTime.coordStep (keeps : KeepsBranch s.coord a)
    (hstep : step node a s.coord = some coord) :
    InTime node past { s with coord, tasks := s.tasks ++ newTasks node a s.coord coord } := by
  have hextends : past ++ s.coord.lineage.commits <+: past ++ coord.lineage.commits :=
    (List.prefix_append_right_inj past).mpr (step_commits_extend keeps hstep)
  refine ⟨step_follows h.follows keeps hstep, fun task htask e hphase => ?_,
    fun w hw => (h.reached w hw).trans hextends.length_le,
    fun w hw => (h.anchored w hw).extend (h.reached w hw) hextends⟩
  rcases List.mem_append.mp htask with hold | hnew
  · exact h.read task hold e hphase
  · rw [newTasks_called hnew] at hphase
    cases hphase

theorem InTime.currentEpoch (hin : s.coord.epoch = task.commitEpoch) :
    InTime node past
      { s with tasks := s.tasks.set i { task with phase := .epochRead s.coord.epoch } } := by
  refine { h with read := fun t ht e hphase => ?_ }
  rcases List.mem_or_eq_of_mem_set ht with hold | rfl
  · exact h.read t hold e hphase
  · cases hphase
    exact hin

theorem InTime.getHistoryHash (htask : task ∈ s.tasks)
    (hphase : task.phase = .epochRead e) (hin : s.coord.epoch = task.commitEpoch) :
    InTime node past (s.finish node i task e s.coord.historyHash) := by
  obtain ⟨hhash, hepoch⟩ := h.follows.historyHash_eq
  have hnew : ∀ w, dispatchTokenHolderWelcome node task e s.coord.historyHash = some w →
      w.commitEpoch ≤ (past ++ s.coord.lineage.commits).length ∧
        w.Anchored node (past ++ s.coord.lineage.commits) := by
    intro w hw
    unfold dispatchTokenHolderWelcome at hw
    obtain ⟨-, hw⟩ := Option.ite_none_left_eq_some.mp hw
    obtain ⟨target, -, rfl⟩ := Option.map_eq_some_iff.mp hw
    refine ⟨hin.symm.trans_le hepoch.le, h.read task htask e hphase, ?_⟩
    dsimp only
    rw [← hin]
    exact hhash
  refine ⟨h.follows, fun t ht => h.read t (List.mem_of_mem_eraseIdx ht), fun w hw => ?_,
    fun w hw => ?_⟩
  · rcases List.mem_append.mp hw with hold | hw
    · exact h.reached w hold
    · exact (hnew w (Option.mem_toList.mp hw)).1
  · rcases List.mem_append.mp hw with hold | hw
    · exact h.anchored w hold
    · exact (hnew w (Option.mem_toList.mp hw)).2

theorem InTime.step (ok : ReadsInTime s op)
    (hstep : Runtime.step node op s = some s') : InTime node past s' := by
  cases op with
  | coord a =>
    obtain ⟨coord, hcoord, rfl⟩ := Option.map_eq_some_iff.mp hstep
    split
    next view anchor hop =>
      exact absurd hop (ok.1 view anchor)
    · exact h.coordStep ok hcoord
  | currentEpoch i =>
    unfold Runtime.step at hstep
    dsimp only at hstep
    split at hstep
    next task htask =>
      obtain ⟨-, heq⟩ := Option.ite_none_right_eq_some.mp hstep
      cases heq
      exact h.currentEpoch (ok task htask)
    · cases hstep
  | getHistoryHash i =>
    unfold Runtime.step at hstep
    dsimp only at hstep
    split at hstep
    next task htask =>
      split at hstep
      · cases hstep
      next e hphase =>
        cases hstep
        exact h.getHistoryHash (List.mem_of_getElem? htask) hphase (ok task htask)
    · cases hstep
  | unregistered i => exact ok.elim

end

end InTime

/-- A node that entered its group after these commits and reads its anchors in time sends every
Welcome with the epoch its commit reached and the history hash of that epoch. -/
theorem welcome_anchor_is_of_its_commit (node : Node) (past : List Bytes) (s₀ s : Runtime)
    (enters : Enters node past s₀.coord) (fresh : s₀.tasks = []) (unsent : s₀.dispatched = [])
    (run : Transition.Run (Runtime.step node) ReadsInTime s₀ s) :
    ∀ w ∈ s.dispatched, w.anchorEpoch = w.commitEpoch ∧
      w.anchorHistoryHash =
        some (node.historyAfter ((past ++ s.coord.lineage.commits).take w.commitEpoch)) := by
  have hbegin : InTime node past s₀ :=
    ⟨enters.follows, by simp [fresh], by simp [unsent], by simp [unsent]⟩
  exact (run.invariant (InTime node past) hbegin fun _ _ _ h ok hstep => h.step ok hstep).anchored

namespace Reference

def invite (op : String) (target : PeerID) (keyPackage : Byte) : RuntimeOp :=
  .coord (action (.addMember
    { targetPeerID := target, keyPackageBytes := [keyPackage], operationID := op }))

def readsInTime (s : Runtime) : RuntimeOp → Bool
  | .coord _ => true
  | .currentEpoch i | .getHistoryHash i =>
    decide (∀ task ∈ s.tasks[i]?, s.coord.epoch = task.commitEpoch)
  | .unregistered _ => false

theorem readsInTime_sound (h : readsInTime s op = true)
    (hinvite : ∀ a, op = .coord a → ∃ id target keyPackage, op = invite id target keyPackage) :
    ReadsInTime s op := by
  cases op with
  | coord a =>
    obtain ⟨id, target, keyPackage, heq⟩ := hinvite a rfl
    cases heq
    exact ⟨nofun, nofun⟩
  | currentEpoch i | getHistoryHash i =>
    have hin : ∀ task ∈ s.tasks[i]?, s.coord.epoch = task.commitEpoch := of_decide_eq_true h
    exact hin
  | unregistered i => cases h

end Reference

open Reference in
/-- The founder invites two members. Both ends of the first invitation read the anchor before the
second one is committed. -/
theorem invitations_one_by_one :
    ∃ s₀ s, Enters (member [65]) [] s₀ ∧
      Transition.Run (Runtime.step (member [65])) ReadsInTime { coord := s₀ } s ∧
      s.dispatched.map (fun w => (w.targetPeerID, w.commitEpoch)) =
        [([70], 1), ([70], 1), ([71], 2)] ∧
      ∀ w ∈ s.dispatched, w.anchorEpoch = w.commitEpoch ∧ w.anchorHistoryHash =
        some ((member [65]).historyAfter (s.coord.lineage.commits.take w.commitEpoch)) := by
  obtain ⟨s₀, hboot, s, hexec, hs⟩ : ∃ s₀, boot (member [65]) [[65]] = some s₀ ∧
      ∃ s, Transition.exec (fun op s => if readsInTime s op
        then Runtime.step (member [65]) op s else none)
        [invite "op1" [70] 5, .currentEpoch 0, .currentEpoch 1, .getHistoryHash 0,
          .getHistoryHash 0, invite "op2" [71] 6, .currentEpoch 0, .getHistoryHash 0]
        { coord := s₀ } = some s ∧
        s.dispatched.map (fun w => (w.targetPeerID, w.commitEpoch)) =
          [([70], 1), ([70], 1), ([71], 2)] := by
    decide +kernel
  have henters : Enters (member [65]) [] s₀ := .founded (boot_founded hboot)
  have hrun : Transition.Run (Runtime.step (member [65])) ReadsInTime { coord := s₀ } s := by
    refine .of_checked readsInTime hexec fun t op hop hok =>
      readsInTime_sound hok ?_
    rintro a rfl
    simp only [List.mem_cons, List.not_mem_nil, reduceCtorEq, false_or, or_false] at hop
    rcases hop with h | h <;> exact ⟨_, _, _, h⟩
  exact ⟨s₀, s, henters, hrun, hs,
    welcome_anchor_is_of_its_commit (member [65]) [] { coord := s₀ } s henters rfl rfl hrun⟩

open Reference in
/-- The second invitation is committed between the two reads of the first: its Welcome goes out with
the epoch of one commit and the history hash of the other. -/
theorem invitation_with_torn_anchor :
    ∃ s₀ s w, Enters (member [65]) [] s₀ ∧
      Transition.Run (Runtime.step (member [65])) (fun _ _ => True) { coord := s₀ } s ∧
      s.dispatched = [w] ∧ w.targetPeerID = [70] ∧ w.commitEpoch = 1 ∧ w.anchorEpoch = 1 ∧
      w.anchorHistoryHash ≠ some ((member [65]).historyAfter (s.coord.lineage.commits.take 1)) ∧
      w.anchorHistoryHash = some ((member [65]).historyAfter (s.coord.lineage.commits.take 2)) := by
  obtain ⟨s₀, hboot, s, hexec, hlength, hsent⟩ : ∃ s₀, boot (member [65]) [[65]] = some s₀ ∧
      ∃ s, Transition.exec (Runtime.step (member [65])) [invite "op1" [70] 5,
          .currentEpoch 0, invite "op2" [71] 6, .getHistoryHash 0] { coord := s₀ } = some s ∧
        s.dispatched.length = 1 ∧ ∀ w ∈ s.dispatched, w.targetPeerID = [70] ∧
          w.commitEpoch = 1 ∧ w.anchorEpoch = 1 ∧
          w.anchorHistoryHash ≠
            some ((member [65]).historyAfter (s.coord.lineage.commits.take 1)) ∧
          w.anchorHistoryHash =
            some ((member [65]).historyAfter (s.coord.lineage.commits.take 2)) := by
    decide +kernel
  obtain ⟨w, hw⟩ := List.length_eq_one_iff.mp hlength
  exact ⟨s₀, s, w, .founded (boot_founded hboot), .of_exec hexec fun _ _ _ => trivial, hw,
    hsent w (hw ▸ List.mem_singleton_self w)⟩

end GroupCoordination
