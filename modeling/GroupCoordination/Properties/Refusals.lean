import GroupCoordination.Properties.Atomicity

/-!
# Which commits are marked as invalid

A mark is made wherever staging, the gate or processing says no, and it is never taken back. The
answer of a node that is at rest is the same as long as the engine and the policy answer as they
would undisturbed and there is a group state to ask about. A heal takes that state away, so no
message may be handled before it is back.
-/

namespace GroupCoordination

open Fallible

namespace Core

/-- The MLS state of the group: the one in memory or, while that is dropped, the stored one. -/
def mlsState (c : Core) : Bytes :=
  if c.groupState = [] then (c.ledger.record.map (·.groupState)).getD [] else c.groupState

/-- A commit with this hash is at hand, and a node at rest with this group rejects it. -/
def Refuses (x : Ctx) (c : Core) (commitHash : Bytes) : Prop :=
  ∃ wire env commit, c.Known wire env ∧ env.payload = .commit commit ∧
    env.epoch = c.epochTracker.epoch ∧ x.hashCommitData commit.commitData = commitHash ∧
    ∀ newState newTreeHash, GatePassed x.peers (c.electorate x) c.singleWriter env commit →
      ¬ CommitAccepted x.engine c.mlsState commit newState newTreeHash

end Core

/-- Engine and policy answer as they would in a calm world, and while the group state is dropped
the inbox is closed. -/
structure AtRest (calm : World → World) (s : State) (a : Action) : Prop where
  engine : a.world.engine.NeedsState
  stages : a.world.engine.stageCommit = (calm a.world).engine.stageCommit
  processes : a.world.engine.processCommit = (calm a.world).engine.processCommit
  policy : a.world.authorized = (calm a.world).authorized
  replays : s.groupState = [] → ∀ blobs, a.op ≠ .replay blobs
  receives : s.groupState = [] → ∀ pid data, a.op = .receive pid data →
    s.operationalMode = .frozenForApply ∨ s.operationalMode = .catchingUp

-- -------- With a group state

section Marks

variable {node : Node} {calm : World → World} {a : Action} {x : Ctx} {c c' : Core} {s s' : State}
  {commitHash : Bytes}

theorem mem_refuseCommit {invalid : List Bytes} (h : commitHash ∈ refuseCommit refused invalid) :
    commitHash ∈ invalid ∨ commitHash = refused := by
  unfold refuseCommit at h
  split at h
  · exact .inl h
  · exact (List.mem_cons.mp h).symm

theorem CoreStep.marks (h : CoreStep x c c') (hc : c.groupState ≠ [])
    (hm : commitHash ∈ c'.invalid) : commitHash ∈ c.invalid ∨ c.Refuses x commitHash := by
  cases h with
  | refuse env wire commit known payload current refused =>
    rcases mem_refuseCommit hm with hold | rfl
    · exact .inl hold
    refine .inr ⟨wire, env, commit, known, payload, current, rfl, ?_⟩
    rw [Core.mlsState, if_neg hc]
    exact refused
  | _ => exact .inl hm

theorem CoreSteps.marks (hx : x.engine.NeedsState) (h : CoreSteps x c c') (hc : c.groupState ≠ []) :
    c'.groupState ≠ [] ∧ ∀ commitHash ∈ c'.invalid, commitHash ∈ c.invalid ∨
      ∃ d, CoreSteps x c d ∧ d.Refuses x commitHash := by
  induction h with
  | refl => exact ⟨hc, fun _ => .inl⟩
  | tail hsteps hstep ih =>
    refine ⟨hstep.state_ne hx ih.1, fun commitHash hm => ?_⟩
    rcases hstep.marks ih.1 hm with hold | hrefuses
    · exact ih.2 commitHash hold
    · exact .inr ⟨_, hsteps, hrefuses⟩

theorem AtRest.refuses (h : AtRest calm s a) (hr : c.Refuses (a.ctx node) commitHash) :
    c.Refuses { node, calm a.world with } commitHash := by
  obtain ⟨wire, env, commit, known, payload, current, hash, refused⟩ := hr
  refine ⟨wire, env, commit, known, payload, current, hash,
    fun newState newTreeHash hgate haccepted => ?_⟩
  have helectorate : c.electorate { node, calm a.world with } = c.electorate (a.ctx node) := by
    simp [Core.electorate, Action.ctx, h.policy]
  rw [helectorate] at hgate
  refine refused newState newTreeHash hgate ⟨?_, ?_⟩
  · change ∃ refs, a.world.engine.stageCommit _ _ _ = .ok refs ∧ _
    rw [h.stages]
    exact haccepted.staged
  · change a.world.engine.processCommit _ _ _ = _
    rw [h.processes]
    exact haccepted.processed

end Marks

-- -------- Without one

section Closed

variable {x : Ctx} {s s' : State}

abbrev Unmarked (s s' : State) : Prop := s'.core.invalid = s.core.invalid

theorem Unmarked.of_core (h : s'.core = s.core) : Unmarked s s' := congrArg Core.invalid h

theorem createAndStoreLocalProposalLocked_dropped (hx : x.engine.NeedsState)
    (hs : s.groupState = []) (result : ProposalMsg × BufferedProposal × State) :
    createAndStoreLocalProposalLocked x pType data info s ≠ .ok result := by
  intro h
  obtain ⟨created, hcreate, -⟩ := bind_ok h
  rw [hs] at hcreate
  have haccepts : Accepts x.engine []
      { data := created.proposalBytes, proposalRef := created.proposalRef } created.newGroupState :=
    .created hcreate rfl rfl
  exact (hx.proposes haccepts).1 rfl

theorem run_tryCommit_dropped (hs : s.groupState = []) (fuel : Nat) :
    (run x fuel .tryCommit s).core = s.core := by
  cases fuel with
  | zero => rfl
  | succ fuel =>
    change (tryCommitLocked x (run x fuel) s).core = s.core
    unfold tryCommitLocked
    rw [if_pos (.inr (.inl hs))]

section

variable (hx : x.engine.NeedsState)

include hx

theorem proposeLockedWithMetadata_dropped (hs : s.groupState = []) :
    proposeLockedWithMetadata x call pType data info s ≠ .ok s' := by
  intro h
  unfold proposeLockedWithMetadata at h
  split at h
  · cases h
  split at h
  · cases h
  obtain ⟨result, hcreate, -⟩ := bind_ok h
  exact createAndStoreLocalProposalLocked_dropped hx hs result (mapError_ok hcreate)

theorem addMember_dropped (hs : s.groupState = []) : (addMember x call req s).2.core = s.core := by
  unfold addMember
  dsimp only
  split
  · rfl
  split
  · rfl
  split
  · rfl
  split
  · simp
  next hcreate =>
    exact absurd hcreate (createAndStoreLocalProposalLocked_dropped hx
      ((congrArg Core.groupState (saveOperation_core s)).trans hs) _)

theorem removeMemberWithPeer_dropped (hs : s.groupState = []) :
    (removeMemberWithPeer x call req s).2.core = s.core := by
  have hdropped {t : State} (ht : t.core = s.core) : t.groupState = [] :=
    (congrArg Core.groupState ht).trans hs
  unfold removeMemberWithPeer
  dsimp only
  split
  · rfl
  split
  · rfl
  split
  · rfl
  split
  · split
    · simp
    next hpropose =>
      exact absurd hpropose (proposeLockedWithMetadata_dropped hx (hdropped (by simp)))
  unfold removeAsHolderLocked
  dsimp only
  split
  · simp
  next hcreate =>
    exact absurd hcreate (createAndStoreLocalProposalLocked_dropped hx (hdropped (by simp)) _)

theorem sendMessage_dropped (hs : s.groupState = []) :
    (sendMessage x plaintext token s).2.core = s.core := by
  unfold sendMessage
  dsimp only
  split
  · rfl
  split
  · rfl
  split
  · simp
  split
  · simp
  rename_i hencrypt
  have hcore : ((updateLocalAccessRevocationLocked x s.groupState s.epoch s).stamp x).1.core =
      s.core := by simp
  exact absurd ((congrArg Core.groupState hcore).trans hs) (hx.ciphers (.encrypted hencrypt)).1

end

section

variable (hs : s.groupState = [])

include hs

theorem proposalTimerFires_dropped (fuel : Nat) :
    (proposalTimerFires x (run x fuel) timer s).core = s.core := by
  unfold proposalTimerFires
  split
  · have htry := run_tryCommit_dropped (x := x) (s := { s with proposalTimer := none }) hs fuel
    dsimp only
    split
    · exact htry
    · rfl
  · rfl

theorem scheduleBatchCommitLocked_dropped (fuel : Nat) :
    (scheduleBatchCommitLocked x (run x fuel) s).core = s.core := by
  unfold scheduleBatchCommitLocked
  split
  · rfl
  split
  · exact run_tryCommit_dropped hs fuel
  · simp

theorem suspendHolder_dropped (fuel : Nat) : Unmarked s (suspendHolder x (run x fuel) s) := by
  unfold suspendHolder
  split
  · rfl
  rename_i holder _
  split
  · rfl
  have hsuspended : Unmarked s { s with singleWriter := s.singleWriter.suspend holder } := rfl
  dsimp only
  split
  · have hbatch := scheduleBatchCommitLocked_dropped (x := x)
      (s := { s with singleWriter := s.singleWriter.suspend holder }) hs fuel
    exact (Unmarked.of_core hbatch).trans hsuspended
  · exact (Unmarked.of_core (scheduleFailoverTimerLocked_core _)).trans hsuspended

theorem failoverTimerFires_dropped (fuel : Nat) :
    Unmarked s (failoverTimerFires x (run x fuel) timer s) := by
  unfold failoverTimerFires
  split
  · have hsuspend := suspendHolder_dropped (x := x) (s := { s with failoverTimer := none }) hs fuel
    dsimp only
    split
    · exact hsuspend
    · rfl
  · rfl

end

theorem persistCoord_unmarked (s : State) :
    Unmarked s (s.unlessError (persistCoordStateLocked x s)) ∧
      (s.unlessError (persistCoordStateLocked x s)).groupState = s.groupState := by
  rcases persistCoord_core x s with hcore | hcore
  · exact ⟨.of_core hcore, congrArg Core.groupState hcore⟩
  have hinvalid := congrArg Core.invalid hcore
  have hstate := congrArg Core.groupState hcore
  exact ⟨hinvalid, hstate⟩

theorem handleActiveViewChange_dropped (hs : s.groupState = []) (fuel : Nat) :
    Unmarked s (handleActiveViewChange x (run x fuel) s) := by
  unfold handleActiveViewChange
  split
  · rfl
  split
  · rfl
  rename_i newHolder _
  obtain ⟨hpersist, hstate⟩ :=
    persistCoord_unmarked (x := x) { s with lastTokenHolder := newHolder }
  dsimp only
  split
  · have htry := Unmarked.of_core (run_tryCommit_dropped (x := x) (hstate.trans hs) fuel)
    exact htry.trans hpersist
  · exact hpersist

def Filed (s s' : State) : Prop :=
  ∃ members told suspected, s'.core = { s.core with members, told, suspected }

theorem Filed.of_core (h : s'.core = s.core) : Filed s s' := ⟨_, _, _, h⟩

theorem Filed.trans (h : Filed s s') (h' : Filed s' s'') : Filed s s'' := by
  obtain ⟨members, told, suspected, hcore⟩ := h
  obtain ⟨members', told', suspected', hcore'⟩ := h'
  exact ⟨members', told', suspected', hcore'.trans (by rw [hcore])⟩

theorem Filed.unmarked (h : Filed s s') : Unmarked s s' := by
  obtain ⟨members, told, suspected, hcore⟩ := h
  have hinvalid := congrArg Core.invalid hcore
  exact hinvalid

theorem observePeerAliveLocked_filed (s : State) : Filed s (observePeerAliveLocked x pid s) := by
  unfold observePeerAliveLocked
  dsimp only
  repeat' split
  all_goals exact ⟨_, _, _, rfl⟩

theorem scheduleHeal_filed (s : State) : Filed s (scheduleHeal x event s) :=
  ⟨_, _, _, scheduleHeal_core x event s⟩

theorem handleAnnounceLocked_filed (s : State) : Filed s (handleAnnounceLocked x pid env s) := by
  unfold handleAnnounceLocked
  split
  next ann _ =>
    have hrecord := recordAnnouncement_core (x := x) pid env ann
    split
    · dsimp only
      split
      next s₁ event heq =>
        have hs₁ : Filed s s₁ := .of_core (congrArg (fun r => State.core r.1) heq ▸ hrecord s)
        split
        · exact hs₁.trans (scheduleHeal_filed s₁)
        · exact hs₁
      next s₁ heq =>
        exact .of_core (congrArg (fun r => State.core r.1) heq ▸ hrecord s)
    · split
      · exact .of_core ((hrecord _).trans (sendControl_core s))
      · exact .of_core (hrecord s)
  · exact .of_core rfl

theorem handleHistoryReplyLocked_filed (s : State) :
    Filed s (handleHistoryReplyLocked x pid env s) := by
  unfold handleHistoryReplyLocked confirmFork
  dsimp only
  repeat' split
  all_goals first | exact .of_core rfl | exact scheduleHeal_filed s

theorem handleControlMessageLocked_filed (x : Ctx) (pid : PeerID) (env : Envelope) (s : State) :
    Filed s (handleControlMessageLocked x pid env s) := by
  unfold handleControlMessageLocked
  split
  · exact observePeerAliveLocked_filed s
  · exact handleAnnounceLocked_filed s
  · exact .of_core (handleDeliveryAckLocked_core s)
  · unfold handleHistoryQueryLocked
    split
    · exact ⟨_, _, _, rfl⟩
    · exact .of_core rfl
  · exact handleHistoryReplyLocked_filed s
  · exact .of_core rfl

theorem handleRawMessage_closed
    (h : s.operationalMode = .frozenForApply ∨ s.operationalMode = .catchingUp) :
    Filed s (handleRawMessage x call pid data s) := by
  have hcontrol env := handleControlMessageLocked_filed x pid env s
  unfold handleRawMessage
  split
  · exact .of_core rfl
  unfold handleAcceptedLocked
  rcases h with hmode | hmode <;> rw [hmode]
  · dsimp only
    split
    · exact .of_core (State.storeOrWarn_core fun _ h => Storage.appendEnvelopeWithSource_ledger h)
    · exact hcontrol _
  dsimp only
  split
  · split
    · exact .of_core (State.storeOrWarn_core fun _ h => Storage.appendEnvelopeWithSource_ledger h)
    · exact .of_core rfl
  · exact hcontrol _

def Op.isRequest : Op → Bool
  | .send .. | .propose .. | .addMember _ | .removeMember _ | .proposalTimer _ | .failoverTimer _
  | .activeViewChange => true
  | _ => false

variable {op : Op} (hheal : ∀ wake, op ≠ .heal wake) (hreplay : ∀ blobs, op ≠ .replay blobs)
  (hreceive : ∀ pid data, op = .receive pid data →
    s.operationalMode = .frozenForApply ∨ s.operationalMode = .catchingUp)

include hheal hreplay hreceive

theorem perform_filed (hop : op.isRequest = false) : Filed s (perform x call op s) := by
  cases op with
  | receive pid data => exact handleRawMessage_closed (hreceive pid data rfl)
  | replay blobs => exact absurd rfl (hreplay blobs)
  | heartbeat =>
    have hview : Filed s (checkLiveness x s) := ⟨_, _, _, rfl⟩
    exact hview.trans (.of_core (broadcastLocked_core _))
  | announce =>
    change Filed s (broadcastAnnounceLocked x s)
    unfold broadcastAnnounceLocked
    split
    · exact .of_core rfl
    have htold : Filed s { s with
        forkDetector := s.forkDetector.updateLocal s.announcement
        told := s.told ++ (Payload.announce s.announcement).claim.toList } := ⟨_, _, _, rfl⟩
    exact htold.trans (.of_core (broadcastLocked_core _))
  | liveness => exact ⟨_, _, _, rfl⟩
  | observePeer pid => exact observePeerAliveLocked_filed s
  | ackTimeout pid envelopeHash => exact .of_core (applicationAckTimeout_core s)
  | retryDeliveries pid => exact .of_core (retryOutstandingDeliveriesTo_core s)
  | deferredHeal => exact .of_core (triggerDeferredHeal_core s)
  | resumeHeal => exact .of_core (resumeForkHealingJob_skirts (w := true) s).same
  | heal wake => exact absurd rfl (hheal wake)
  | welcome bytes => exact .of_core (processWelcomeIfWaiting_skirts (w := true) s).same
  | setMode | resetSync | incrementSync | stop | restart => exact .of_core rfl
  | _ => cases hop

theorem perform_dropped (hx : x.engine.NeedsState) (hs : s.groupState = []) (fuel : Nat) :
    Unmarked s (perform x (run x fuel) op s) := by
  cases op with
  | send plaintext token => exact .of_core (sendMessage_dropped hx hs)
  | propose pType data =>
    refine .of_core (State.unlessError_core fun s' h => ?_)
    exact absurd h (proposeLockedWithMetadata_dropped hx hs)
  | addMember req => exact .of_core (addMember_dropped hx hs)
  | removeMember req => exact .of_core (removeMemberWithPeer_dropped hx hs)
  | proposalTimer timer => exact .of_core (proposalTimerFires_dropped hs fuel)
  | failoverTimer timer => exact failoverTimerFires_dropped hs fuel
  | activeViewChange => exact handleActiveViewChange_dropped hs fuel
  | _ => exact (perform_filed hheal hreplay hreceive rfl).unmarked

end Closed

-- -------- Runs

section Runs

variable {node : Node} {calm : World → World} {a : Action} {s s' : State}

theorem healStep_unmarked (wake : HealWake) (s : State) : Unmarked s (healStep x wake s) := by
  rcases healStep_core (x := x) wake s with hcore | hedit | ⟨-, hswap⟩
  · exact .of_core hcore
  · unfold Unmarked
    generalize (healStep x wake s).core = c' at hedit
    cases hedit <;> rfl
  unfold Unmarked
  generalize (healStep x wake s).core = c' at hswap
  cases hswap
  rfl

theorem start_unmarked (h : start x b = .ok s) : s.core.invalid = [] := by
  obtain ⟨_, _, _, -, -, hcore⟩ := start_core h
  exact congrArg Core.invalid hcore

theorem Booted.unmarked {allowed : World → Prop} (h : Booted node allowed s) :
    s.core.invalid = [] := by
  obtain ⟨_, _, hcore⟩ := h.core
  exact congrArg Core.invalid hcore

theorem step_marks (ok : AtRest calm s a) (hstep : step node a s = some s')
    (hm : commitHash ∈ s'.core.invalid) :
    commitHash ∈ s.core.invalid ∨ ∃ c, CoreSteps (a.ctx node) (s.arrive a.op).core c ∧
      c.Refuses { node, calm a.world with } commitHash := by
  obtain ⟨view, anchor, hop, hrestarts⟩ | ⟨wake, hop, rfl⟩ | ⟨hrestart, hheal⟩ := step_kinds hstep
  · obtain ⟨s₁, hstart, hcore⟩ := restart_core hrestarts
    rw [hcore] at hm
    rw [show s₁.core.invalid = [] from start_unmarked hstart] at hm
    cases hm
  · rw [healStep_unmarked] at hm
    exact .inl hm
  by_cases hs : s.groupState = []
  · left
    rw [step_perform hrestart hstep, perform_dropped (s := s.arrive a.op) hheal (ok.replays hs)
      (ok.receives hs) ok.engine hs] at hm
    exact hm
  · have hmoves := step_moves hheal hrestart hstep
    rcases (CoreSteps.marks ok.engine hmoves.steps hs).2 commitHash hm with hold | ⟨c, hc, hrefuses⟩
    · exact .inl hold
    · exact .inr ⟨c, hc, ok.refuses hrefuses⟩

end Runs

/-- In every run in which engine and policy answer undisturbed and the inbox is closed while the
group state is dropped, a commit that is marked as invalid was rejected at some step, and a node
at rest with the same group rejects it too. -/
theorem marked_commits_are_refused (node : Node) (calm : World → World) (s₀ s : State)
    (boot : Booted node (fun _ => True) s₀) (run : Transition.Run (step node) (AtRest calm) s₀ s) :
    ∀ commitHash ∈ s.forkDetector.invalidCommits, ∃ t a t' c,
      Transition.Run (step node) (AtRest calm) s₀ t ∧ AtRest calm t a ∧ step node a t = some t' ∧
      Transition.Run (step node) (AtRest calm) t' s ∧
      CoreSteps (a.ctx node) (t.arrive a.op).core c ∧
      c.Refuses { node, calm a.world with } commitHash := by
  intro commitHash hm
  induction run with
  | refl =>
    have hnone : s₀.forkDetector.invalidCommits = [] := boot.unmarked
    rw [hnone] at hm
    cases hm
  | snoc a run ok next ih =>
    rcases step_marks ok next hm with hold | ⟨c, hc, hrefuses⟩
    · obtain ⟨t, b, t', c, hrun, hok, hstep, hrest, hc, hrefuses⟩ := ih hold
      exact ⟨t, b, t', c, hrun, hok, hstep, .snoc a hrest ok next, hc, hrefuses⟩
    · exact ⟨_, a, _, c, run, ok, next, .refl, hc, hrefuses⟩

namespace Reference

def strayCommit : Wire := wire 0 [] .commit (.commit (commitMsg 1 9 { proposalType := .add }))

/-- A heal gave up, and the inbox is open before the group state is back. -/
def thawed : Option State :=
  trace (member [65]) [[65]] ([.receive [66] forkAnnounce, .heal .signal, .heal .signal,
    .heal .signal, .heal .timeout, .heal .timeout, .heal .timeout, .heal .signal].map action)

end Reference

open Reference in
/-- A commit over data of another epoch is marked, and rejected at rest. -/
theorem stray_commit_is_refused :
    ∃ (s : State) (c : Core), trace (member [65]) [[65]]
        [action (.receive [66] strayCommit)] = some s ∧
      s.forkDetector.invalidCommits = [receiver.hashCommitData [7, 1, 9]] ∧
      c.Refuses receiver (receiver.hashCommitData [7, 1, 9]) := by
  obtain ⟨s₀, hboot, s, hstep, hstate, hinvalid⟩ : ∃ s₀, boot (member [65]) [[65]] = some s₀ ∧
      ∃ s, step (member [65]) (action (.receive [66] strayCommit)) s₀ = some s ∧
        s₀.groupState ≠ [] ∧
        s.forkDetector.invalidCommits = [receiver.hashCommitData [7, 1, 9]] := by
    decide +kernel
  have hrest : AtRest (fun _ => world) s₀
      (action (.receive [66] strayCommit)) :=
    ⟨engine_needsState, rfl, rfl, rfl, fun h => absurd h hstate, fun h => absurd h hstate⟩
  obtain ⟨t, a, t', c, -, -, -, -, -, hrefuses⟩ := marked_commits_are_refused (member [65])
    (fun _ => world) s₀ s (boot_booted hboot trivial) (.snoc _ .refl hrest hstep)
    _ (hinvalid ▸ List.mem_singleton_self _)
  refine ⟨s, c, ?_, hinvalid, hrefuses⟩
  rw [trace, hboot]
  simp [Transition.exec, hstep]

open Reference in
/-- A commit that arrives in the window is marked for good, though the node applies it as soon as
its group state is back. -/
theorem valid_commit_marked_in_window :
    ∃ s s' s'', thawed = some s ∧
      step (member [65]) (action (.receive [66] (looseCommit 0))) s =
        some s' ∧
      Transition.exec (step (member [65])) ([.heal .signal, .heal .signal,
        .receive [66] (looseCommit 0)].map action) s' = some s'' ∧
      s.forkDetector.invalidCommits = [] ∧
      s'.forkDetector.invalidCommits = [receiver.hashCommitData [7, 0, 9]] ∧
      CommitAccepted engine s.core.mlsState
        (commitMsg 0 9 { proposalType := .add }) [1, 1] [1] ∧
      s.epoch = 0 ∧ s'.epoch = 0 ∧ s''.epoch = 1 ∧ s''.groupState = [1, 1] ∧
      s''.forkDetector.invalidCommits = [receiver.hashCommitData [7, 0, 9]] := by
  obtain ⟨s, hs, s', hstep, s'', hexec, hbefore, hmarked, hmls, hrest⟩ : ∃ s, thawed = some s ∧
      ∃ s', step (member [65]) (action (.receive [66] (looseCommit 0))) s = some s' ∧
      ∃ s'', Transition.exec (step (member [65])) ([.heal .signal, .heal .signal,
          .receive [66] (looseCommit 0)].map action) s' = some s'' ∧
        s.forkDetector.invalidCommits = [] ∧
        s'.forkDetector.invalidCommits = [receiver.hashCommitData [7, 0, 9]] ∧
        s.core.mlsState = [1, 0] ∧ s.epoch = 0 ∧ s'.epoch = 0 ∧ s''.epoch = 1 ∧
        s''.groupState = [1, 1] ∧
        s''.forkDetector.invalidCommits = [receiver.hashCommitData [7, 0, 9]] := by
    decide +kernel
  refine ⟨s, s', s'', hs, hstep, hexec, hbefore, hmarked, ?_, hrest⟩
  rw [hmls]
  exact ⟨⟨[[0, 9]], rfl, .inr (.refl _)⟩, rfl⟩

end GroupCoordination
