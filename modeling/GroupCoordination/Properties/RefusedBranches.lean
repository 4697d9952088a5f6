import GroupCoordination.Properties.Branches
import GroupCoordination.Properties.Refusals

/-!
# Branches over a refused commit

The detector remembers the commits that were refused here, and a branch that ends in one loses
against a local branch that does not. A run is watched from outside: what each peer announced last,
and every heal that is opened, with the peer it goes to.
-/

namespace GroupCoordination

-- -------- What the detector decides

def ForkDetector.refuses (fd : ForkDetector) (commitHash : Bytes) : Bool :=
  fd.local.any fun loc => fd.isInvalidCommit commitHash && !fd.isInvalidCommit loc.commitHash

namespace ForkDetector

variable {fd : ForkDetector} {loc ann : GroupStateAnnouncement} {peer : PeerID} {event : ForkEvent}

@[simp] theorem refuses_nil (fd : ForkDetector) : fd.refuses [] = false := by
  unfold refuses
  cases fd.local <;> simp [isInvalidCommit]

theorem not_refuses (hloc : fd.local = some loc)
    (h : compareBranchWeightWithSupport loc ann localSupport remoteSupport
      (fd.isInvalidCommit loc.commitHash) (fd.isInvalidCommit ann.commitHash) = .remote) :
    fd.refuses ann.commitHash = false := by
  have hweight := (compareBranchWeightWithSupport_remote.mp h).2
  unfold refuses
  rw [hloc, Option.any_some]
  by_contra hrefused
  simp only [Bool.not_eq_false, Bool.and_eq_true, Bool.not_eq_true'] at hrefused
  simp [GroupStateAnnouncement.weight, hrefused.1, hrefused.2, Prod.Lex.toLex_le_toLex] at hweight
  exact absurd hweight (by decide)

theorem processRemote_event (h : (fd.processRemote observedAt peer remoteEpoch ann).2 = some event)
    (hjoin : event.needExternalJoin = true) :
    event.remotePeer = peer ∧ event.remoteAnnounce = ann ∧ fd.refuses ann.commitHash = false := by
  unfold processRemote at h
  split at h
  · cases h
  rename_i loc hloc
  dsimp only at h
  split at h
  · cases h
  cases h
  simp only [decide_eq_true_eq, record_isInvalidCommit] at hjoin
  exact ⟨rfl, rfl, not_refuses hloc hjoin⟩

theorem compareWithPeer_announcement {rotation : Nat}
    (h : (fd.compareWithPeer rotation peer).1 = .remote) :
    (fd.compareWithPeer rotation peer).2.1 = {} ∧
        (fd.local = none ∨ ∀ entry ∈ fd.known, peer ∉ entry.2.peers) ∨
      ∃ entry ∈ fd.known, peer ∈ entry.2.peers ∧
        (fd.compareWithPeer rotation peer).2.1 = entry.2.announcement ∧
        fd.refuses entry.2.announcement.commitHash = false := by
  unfold compareWithPeer at h ⊢
  split at h
  next hloc =>
    rw [hloc]
    exact .inl ⟨rfl, .inl rfl⟩
  rename_i loc hloc
  rw [hloc]
  split at h
  next hfind =>
    rw [List.find?_eq_none] at hfind
    refine .inl ⟨rfl, .inr fun entry hentry hpeer => ?_⟩
    exact hfind entry (List.mem_rotate.mpr hentry) (decide_eq_true hpeer)
  next key bi hfind =>
    have hpeer : peer ∈ bi.peers := by simpa using List.find?_some hfind
    exact .inr ⟨(key, bi), List.mem_rotate.mp (List.mem_of_find?_eq_some hfind), hpeer, rfl,
      not_refuses hloc h⟩

end ForkDetector

-- -------- Watched runs

/-- A heal at the moment it is opened: the fork it is for, what the peer it goes to announced last,
and what the detector had noted. -/
structure Opening where
  event : ForkEvent
  latest : Option GroupStateAnnouncement
  detector : ForkDetector

/-- A node, what its peers announced last, and the heals it opened. -/
structure Watched where
  state : State
  latest : PeerID → Option GroupStateAnnouncement := fun _ => none
  opened : List Opening := []

def Action.announced (node : Node) (a : Action) : Option (PeerID × GroupStateAnnouncement) :=
  match a.op with
  | .receive pid data =>
    match acceptsRaw (a.ctx node) pid data with
    | none => none
    | some env =>
      match env.type, env.payload with
      | .announce, .announce ann => some (pid, ann)
      | _, _ => none
  | _ => none

def Watched.hear (node : Node) (a : Action) (w : Watched) :
    PeerID → Option GroupStateAnnouncement :=
  match a.announced node with
  | some (pid, ann) => Function.update w.latest pid (some ann)
  | none => w.latest

/-- The fork that a step opens a heal for. Resuming the job of an earlier process opens none. -/
def Action.opens (a : Action) (s s' : State) : Option ForkEvent :=
  if a.op ≠ .resumeHeal ∧ s.healing = false ∧ s'.healing = true then s'.heal.map (·.event) else none

def watch (node : Node) (a : Action) (w : Watched) : Option Watched :=
  (step node a w.state).map fun s' =>
    let latest := w.hear node a
    { state := s'
      latest
      opened := w.opened ++ ((a.opens w.state s').map fun event =>
        { event, latest := latest event.remotePeer, detector := w.state.forkDetector }).toList }

/-- The heal goes to this branch: the one it was opened for, or the one its peer is on. -/
def Opening.Towards (o : Opening) (ann : GroupStateAnnouncement) : Prop :=
  ann = o.event.remoteAnnounce ∨ o.latest = some ann

/-- The peer is known to the detector, and only by branches that end in this commit. -/
def ForkDetector.KnownBy (fd : ForkDetector) (peer : PeerID) (commitHash : Bytes) : Prop :=
  (∃ entry ∈ fd.known, peer ∈ entry.2.peers) ∧
    ∀ entry ∈ fd.known, peer ∈ entry.2.peers → entry.2.announcement.commitHash = commitHash

/-- The two places where a heal is opened without a look at the peer's branch. A peer that last
announced a refused branch confirms a fork only if the detector knows it by that branch, and a
deferred heal is triggered only if its branch has not been refused since. -/
def Vigilant (node : Node) (w : Watched) (a : Action) : Prop :=
  match a.op with
  | .receive pid data => ∀ env ∈ acceptsRaw (a.ctx node) pid data, env.type = .historyReply →
      ∀ ann ∈ w.latest pid, w.state.forkDetector.refuses ann.commitHash = true →
      w.state.forkDetector.KnownBy pid ann.commitHash
  | .deferredHeal => ∀ event ∈ w.state.deferredForkEvent,
      w.state.forkDetector.refuses event.remoteAnnounce.commitHash = false ∧
      ∀ ann ∈ w.latest event.remotePeer, w.state.forkDetector.refuses ann.commitHash = false
  | _ => True

instance (fd : ForkDetector) (peer : PeerID) (commitHash : Bytes) :
    Decidable (fd.KnownBy peer commitHash) :=
  inferInstanceAs (Decidable (_ ∧ _))

instance (node : Node) (w : Watched) (a : Action) : Decidable (Vigilant node w a) := by
  obtain ⟨world, fuel, op⟩ := a
  cases op
  case receive pid data =>
    exact inferInstanceAs
      (Decidable (∀ env ∈ acceptsRaw (Action.ctx node ⟨world, fuel, .receive pid data⟩)
      pid data, env.type = .historyReply → ∀ ann ∈ w.latest pid,
      w.state.forkDetector.refuses ann.commitHash = true →
      w.state.forkDetector.KnownBy pid ann.commitHash))
  case deferredHeal =>
    exact inferInstanceAs (Decidable (∀ event ∈ w.state.deferredForkEvent,
      w.state.forkDetector.refuses event.remoteAnnounce.commitHash = false ∧
      ∀ ann ∈ w.latest event.remotePeer, w.state.forkDetector.refuses ann.commitHash = false))
  all_goals exact .isTrue trivial

section Step

variable {node : Node} {a : Action} {w w' : Watched} {s s' : State}

def Watched.Fair (node : Node) (a : Action) (w : Watched) (event : ForkEvent) : Prop :=
  ∀ ann, ann = event.remoteAnnounce ∨ w.hear node a event.remotePeer = some ann →
    w.state.forkDetector.refuses ann.commitHash = false

theorem Action.announced_eq (hop : a.op = .receive pid data)
    (haccepts : acceptsRaw (a.ctx node) pid data = some env) (htype : env.type = .announce)
    (hpayload : env.payload = .announce ann) : a.announced node = some (pid, ann) := by
  unfold Action.announced
  rw [hop]
  dsimp only
  rw [haccepts]
  dsimp only
  rw [htype, hpayload]

theorem Action.announced_none (hop : a.op = .receive pid data)
    (haccepts : acceptsRaw (a.ctx node) pid data = some env) (htype : env.type ≠ .announce) :
    a.announced node = none := by
  unfold Action.announced
  rw [hop]
  dsimp only
  rw [haccepts]
  dsimp only
  split
  next h _ =>
    exact absurd h htype
  · rfl

theorem announced_fair (hop : a.op = .receive pid data)
    (haccepts : acceptsRaw (a.ctx node) pid data = some env) (htype : env.type = .announce)
    (hpayload : env.payload = .announce ann)
    (hevent : announcedFork (a.ctx node) pid env ann w.state = some event)
    (hjoin : event.needExternalJoin = true) :
    w.Fair node a { event with groupID := (a.ctx node).groupID } := by
  obtain ⟨hpeer, hremote, hvalid⟩ := ForkDetector.processRemote_event hevent hjoin
  have hheard : w.hear node a pid = some ann := by
    unfold Watched.hear
    rw [Action.announced_eq hop haccepts htype hpayload]
    exact Function.update_self ..
  rintro ann' (rfl | hlatest)
  · exact hremote ▸ hvalid
  dsimp only at hlatest
  rw [hpeer, hheard] at hlatest
  exact Option.some.inj hlatest ▸ hvalid

theorem confirmed_fair (ok : Vigilant node w a) (hop : a.op = .receive pid data)
    (haccepts : acceptsRaw (a.ctx node) pid data = some env) (htype : env.type = .historyReply)
    (hresult : (confirmedFork (a.ctx node) pid reply w.state).result = .remote) :
    w.Fair node a (confirmedFork (a.ctx node) pid reply w.state) := by
  have hheard : w.hear node a = w.latest := by
    unfold Watched.hear
    rw [Action.announced_none hop haccepts (by simp [htype])]
  have hknown : ∀ ann, w.latest pid = some ann →
      w.state.forkDetector.refuses ann.commitHash = true →
      w.state.forkDetector.KnownBy pid ann.commitHash := by
    unfold Vigilant at ok
    rw [hop] at ok
    exact ok env haccepts htype
  intro ann hann
  rw [hheard] at hann
  rcases ForkDetector.compareWithPeer_announcement hresult with
    ⟨hnone, hunknown⟩ | ⟨entry, hentry, hpeer, hcompared, hvalid⟩
  · rcases hann with rfl | hlatest
    · exact (congrArg (fun ann => w.state.forkDetector.refuses ann.commitHash) hnone).trans
        (ForkDetector.refuses_nil _)
    by_contra hrefused
    have hrefused := Bool.not_eq_false _ ▸ hrefused
    rcases hunknown with hlocal | hunknown
    · simp [ForkDetector.refuses, hlocal] at hrefused
    · obtain ⟨⟨entry, hentry, hpeer⟩, -⟩ := hknown ann hlatest hrefused
      exact hunknown entry hentry hpeer
  · rcases hann with rfl | hlatest
    · exact (congrArg (fun ann => w.state.forkDetector.refuses ann.commitHash) hcompared).trans
        hvalid
    by_contra hrefused
    have hrefused := Bool.not_eq_false _ ▸ hrefused
    have hsame := (hknown ann hlatest hrefused).2 entry hentry hpeer
    rw [hsame, hrefused] at hvalid
    cases hvalid

theorem Vigilant.forksHave (ok : Vigilant node w a) :
    a.op.ForksHave (a.ctx node) (w.Fair node a) w.state := by
  unfold Op.ForksHave
  split
  next pid data hop =>
    exact fun env haccepts =>
      ⟨fun ann event htype hpayload hevent hjoin =>
        announced_fair hop haccepts htype hpayload hevent hjoin,
      fun reply htype _ hresult => confirmed_fair ok hop haccepts htype hresult⟩
  next hop =>
    have hheard : w.hear node a = w.latest := by
      unfold Watched.hear Action.announced
      rw [hop]
    unfold Vigilant at ok
    rw [hop] at ok
    intro event hdeferred ann hann
    rw [hheard] at hann
    obtain ⟨hevent, hlatest⟩ := ok event hdeferred
    rcases hann with rfl | hann
    · exact hevent
    · exact hlatest ann hann
  · trivial

theorem step_opens_none (hop : a.op.tendsHeal = true) (hresume : a.op ≠ .resumeHeal)
    (h : step node a s = some s') (hopened : s'.healing = true) (hheal : s'.heal ≠ none) :
    s.healing = true := by
  obtain ⟨world, fuel, op⟩ := a
  cases op with
  | restart view anchor =>
    exact absurd (restart_desk (Fallible.toOption_eq_some h)).2.1 hheal
  | resumeHeal => exact absurd rfl hresume
  | heal wake =>
    cases h
    exact healStep_healing (s := s.arrive (.heal wake)) wake hopened
  | welcome bytes =>
    cases h
    obtain ⟨jobs, got, hwoken⟩ := processWelcomeIfWaiting_desk { node, world with } bytes
      (s.arrive (.welcome bytes))
    have hhealing := congrArg Desk.healing hwoken
    exact hhealing.symm.trans hopened
  | setMode mode | stop =>
    cases h
    exact hopened
  | _ => cases hop

theorem step_opens_fair (ok : Vigilant node w a) (h : step node a w.state = some s')
    (hopens : a.opens w.state s' = some event) : w.Fair node a event := by
  unfold Action.opens at hopens
  obtain ⟨⟨hresume, hidle, hhealing⟩, hheal⟩ := Option.ite_none_right_eq_some.mp hopens
  obtain ⟨run, hrun, rfl⟩ := Option.map_eq_some_iff.mp hheal
  by_cases hop : a.op.tendsHeal = true
  · have hbusy := step_opens_none hop hresume h hhealing (by simp [hrun])
    exact absurd (hidle.symm.trans hbusy) nofun
  rcases step_tendsTo (Bool.not_eq_true _ ▸ hop) ok.forksHave h with
    hsame | ⟨-, traceID, event, hfair, hdesk⟩
  · have hsame : s'.healing = w.state.healing := congrArg Desk.healing hsame
    exact absurd (hidle.symm.trans (hsame.symm.trans hhealing)) nofun
  have hnew : s'.heal = some { traceID, event, phase := .queued } := congrArg Desk.heal hdesk
  cases hrun.symm.trans hnew
  exact hfair

end Step

/-- In a vigilant run no heal goes to a branch that is refused when the heal is opened. -/
theorem refused_branch_never_wins (node : Node) (w₀ w : Watched) (fresh : w₀.opened = [])
    (vigilant : Transition.Run (watch node) (Vigilant node) w₀ w) :
    ∀ o ∈ w.opened, ∀ ann, o.Towards ann → o.detector.refuses ann.commitHash = false := by
  refine vigilant.invariant
    (fun w => ∀ o ∈ w.opened, ∀ ann, o.Towards ann → o.detector.refuses ann.commitHash = false)
    (by simp [fresh]) ?_
  intro w a w' ih ok hwatch o ho
  obtain ⟨s', hstep, rfl⟩ := Option.map_eq_some_iff.mp hwatch
  rcases List.mem_append.mp ho with hold | hnew
  · exact ih o hold
  · obtain ⟨event, hopens, rfl⟩ := Option.map_eq_some_iff.mp (Option.mem_toList.mp hnew)
    exact step_opens_fair ok hstep hopens

namespace Reference

def branchOf (e : Byte) (commitHash : Bytes) (mark : Byte) : GroupStateAnnouncement :=
  { treeHash? := some [mark], memberCount := 5, epoch := e, commitHash, historyHash := [mark] }

def refusedThenFork : List Action :=
  [.receive [66] strayCommit,
    .receive [66]
      (wire 0 [66] .announce (.announce (branchOf 0 (receiver.hashCommitData [7, 1, 9]) 9))),
    .receive [66] (wire 0 [66] .historyReply
      (.historyReply { epoch := 0, historyHash := [9], known := true })),
    .receive [67] (wire 0 [67] .announce (.announce (branchOf 0 [5] 10)))].map action

end Reference

open Reference in
/-- Only the branch that is not refused is healed to. -/
theorem refused_branch_loses :
    ∃ s w o, Booted (member [65]) (fun _ => True) s ∧
      Transition.Run (watch (member [65])) (Vigilant (member [65]))
        { state := s } w ∧ w.opened = [o] ∧ o.event.remotePeer = [67] ∧
      o.detector.refuses (receiver.hashCommitData [7, 1, 9]) = true ∧
      ∀ ann, o.Towards ann → o.detector.refuses ann.commitHash = false := by
  obtain ⟨s, hboot, w, hexec, hlength, hopened⟩ : ∃ s, boot (member [65]) [[65]] = some s ∧
      ∃ w, Transition.exec (fun a w => if decide (Vigilant (member [65]) w a)
          then watch (member [65]) a w else none) refusedThenFork { state := s } = some w ∧
        w.opened.length = 1 ∧ ∀ o ∈ w.opened, o.event.remotePeer = [67] ∧
          o.detector.refuses (receiver.hashCommitData [7, 1, 9]) = true := by
    decide +kernel
  obtain ⟨o, ho⟩ := List.length_eq_one_iff.mp hlength
  have hmem : o ∈ w.opened := ho ▸ List.mem_singleton_self o
  have hrun : Transition.Run (watch (member [65])) (Vigilant (member [65]))
      { state := s } w := .of_checked _ hexec fun w a _ hok => of_decide_eq_true hok
  exact ⟨s, w, o, boot_booted hboot trivial, hrun, ho, (hopened o hmem).1, (hopened o hmem).2,
    refused_branch_never_wins (member [65]) _ w rfl hrun o hmem⟩

open Reference in
/-- A heal towards [66] waits for a sync. The sync brings the last commit of that branch, which is
refused; the heal is opened all the same. -/
theorem deferred_heal_to_refused_branch :
    let node := { member [65] with onSyncRequired := true }
    ∃ s w o, Booted node (fun _ => True) s ∧
      Transition.Run (watch node) (fun _ _ => True) { state := s } w ∧
      w.opened = [o] ∧
      o.Towards (branchOf 5 (receiver.hashCommitData [7, 1, 9]) 9) ∧
      o.detector.refuses (receiver.hashCommitData [7, 1, 9]) = true := by
  intro node
  obtain ⟨s, hboot, w, hexec, hlength, hopened⟩ : ∃ s, boot node [[65]] = some s ∧
      ∃ w, Transition.exec (watch node)
        ([.receive [66] (wire 5 [66] .announce (.announce
            (branchOf 5 (receiver.hashCommitData [7, 1, 9]) 9))),
          .receive [66] (wire 5 [66] .historyReply
            (.historyReply { epoch := 0, historyHash := [9], known := true })),
          .receive [67] strayCommit, .deferredHeal].map action) { state := s } = some w ∧
        w.opened.length = 1 ∧ ∀ o ∈ w.opened,
          o.event.remoteAnnounce = branchOf 5 (receiver.hashCommitData [7, 1, 9]) 9 ∧
          o.detector.refuses (receiver.hashCommitData [7, 1, 9]) = true := by
    decide +kernel
  obtain ⟨o, ho⟩ := List.length_eq_one_iff.mp hlength
  have hmem : o ∈ w.opened := ho ▸ List.mem_singleton_self o
  exact ⟨s, w, o, boot_booted hboot trivial, .of_exec hexec fun _ _ _ => trivial, ho,
    .inl (hopened o hmem).1.symm, (hopened o hmem).2⟩

end GroupCoordination
