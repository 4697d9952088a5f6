import GroupCoordination.Properties.Refusals

/-!
# The freeze of a heal

`runHeal` closes the inbox and opens it again when it returns. In between the mode stays,
messages from the network are filed unread and own messages are turned down, so that the group is
the heal's alone. Two things do not look at the freeze: the recovery replay, which sets the mode
itself and applies what it finds in the log, and the proposals and commits of the node.
-/

namespace GroupCoordination

def State.frozen (s : State) : Bool := s.heal.any (·.phase.mayFreeze)

def Op.unguarded : Op → Bool
  | .replay _ | .propose .. | .addMember _ | .removeMember _ | .proposalTimer _ | .failoverTimer _
  | .activeViewChange => true
  | _ => false

/-- While the inbox is closed nobody sets another mode, and what does not look at the freeze
finds the group state dropped. -/
structure Reserved (s : State) (a : Action) : Prop where
  modes : s.frozen = true → ∀ mode, a.op = .setMode mode → mode = .frozenForApply
  group : s.frozen = true → a.op.unguarded = true →
    s.groupState = [] ∧ a.world.engine.NeedsState

theorem Reserved.of_guarded (hmode : ∀ mode, a.op ≠ .setMode mode) (hop : a.op.unguarded = false) :
    Reserved s a :=
  ⟨fun _ mode h => absurd h (hmode mode), fun _ h => absurd (hop.symm.trans h) nofun⟩

-- -------- What leaves the group alone

section Effects

variable {node : Node} {a : Action} {x : Ctx} {c c' : Core} {s s' : State}

theorem Filed.effects (h : Filed s s') : s'.core.effects = s.core.effects := by
  obtain ⟨members, told, suspected, hcore⟩ := h
  rw [hcore]
  rfl

theorem CoreSteps.effects_dropped (hx : x.engine.NeedsState) (h : CoreSteps x c c')
    (hc : c.groupState = []) : c'.effects = c.effects := by
  induction h with
  | refl => rfl
  | tail _ hstep ih =>
    have hdropped := (congrArg Prod.fst ih).trans hc
    exact ((hstep.effects_or hx).resolve_left fun hne => hne.1 hdropped).trans ih

/-- Behind a closed inbox, with own messages turned down, only what does not look at the freeze
gets to the group. -/
theorem step_guarded (hheal : ∀ wake, a.op ≠ .heal wake)
    (hrestart : ∀ view anchor, a.op ≠ .restart view anchor) (hop : a.op.unguarded = false)
    (hsend : ∀ plaintext token, a.op = .send plaintext token → s.healing = true)
    (hreceive : ∀ pid data, a.op = .receive pid data →
      s.operationalMode = .frozenForApply ∨ s.operationalMode = .catchingUp)
    (h : step node a s = some s') : s'.core.effects = s.core.effects := by
  rw [step_perform hrestart h]
  by_cases hsends : ∃ plaintext token, a.op = .send plaintext token
  · obtain ⟨plaintext, token, hsends⟩ := hsends
    have hbusy : (s.arrive (.send plaintext token)).healing = true := hsend plaintext token hsends
    rw [hsends]
    change (sendMessage _ plaintext token (s.arrive _)).2.core.effects = _
    rw [sendMessage, if_pos hbusy]
    rfl
  have hrequest : a.op.isRequest = false := by
    cases hcase : a.op with
    | send plaintext token => exact absurd ⟨plaintext, token, hcase⟩ hsends
    | _ => simp_all [Op.isRequest, Op.unguarded]
  have hreplay : ∀ blobs, a.op ≠ .replay blobs := by
    intro blobs hreplay
    rw [hreplay] at hop
    cases hop
  exact (perform_filed (s := s.arrive a.op) hheal hreplay hreceive hrequest).effects

end Effects

-- -------- The mode

structure Freezes (s : State) : Prop where
  healing : s.healing = s.heal.isSome
  mode : s.frozen = true → s.operationalMode = .frozenForApply

section Mode

variable {node : Node} {a : Action} {x : Ctx} {d d' : Desk} {s s' : State}

theorem Heals.mode (h : Heals x wake d p d') (hr : d.heal = some r)
    (hmode : p.mayFreeze = true → d.mode = .frozenForApply)
    (hfrozen : d'.heal.any (·.phase.mayFreeze) = true) : d'.mode = .frozenForApply := by
  cases h with
  | create _ _ _ saved | snapshot _ saved | join _ _ _ saved | swap _ _ saved | encrypted saved
  | clean _ saved =>
    obtain ⟨jobs, rfl⟩ := saved.rows
    simp_all [Desk.enter, HealPhase.mayFreeze]
  | _ => simp_all [Desk.enter, HealPhase.mayFreeze]

theorem Freezes.idle (h : s.heal = none ∧ s.healing = false) : Freezes s := by
  refine ⟨?_, fun hfrozen => ?_⟩
  · rw [h.1, h.2]
    rfl
  · rw [State.frozen, h.1] at hfrozen
    cases hfrozen

theorem Freezes.healStep (h : Freezes s) (wake : HealWake) : Freezes (healStep x wake s) := by
  cases hr : s.heal with
  | none =>
    rw [GroupCoordination.healStep, hr]
    exact h
  | some r =>
    have hheals := healStep_heals (x := x) hr wake
    have hhealing : s.healing = true := by rw [h.healing, hr]; rfl
    refine ⟨hheals.healing hr hhealing, hheals.mode hr fun hfreeze => h.mode ?_⟩
    rw [State.frozen, hr]
    exact hfreeze

theorem Freezes.step (h : Freezes s) (ok : Reserved s a) (hstep : step node a s = some s') :
    Freezes s' := by
  obtain ⟨view, anchor, hop, hrestarts⟩ | ⟨wake, hop, rfl⟩ | ⟨hrestart, hheal⟩ := step_kinds hstep
  · exact .idle (restart_idle hrestarts)
  · exact Freezes.healStep (s := s.arrive a.op) ⟨h.healing, h.mode⟩ wake
  rcases (step_desk_kept hheal hrestart hstep).1 with ⟨hsame, hkept⟩ | ⟨-, hopened, r, hr, hqueued⟩
  · refine ⟨by rw [hkept, hsame, h.healing], fun hfrozen => ?_⟩
    rw [State.frozen, hsame] at hfrozen
    by_cases hset : ∃ mode, a.op = .setMode mode
    · obtain ⟨mode, hset⟩ := hset
      rw [step_perform hrestart hstep, hset]
      exact ok.modes hfrozen mode hset
    · rw [(step_desk_kept hheal hrestart hstep).2 fun mode hop => hset ⟨mode, hop⟩]
      exact h.mode hfrozen
  · refine ⟨by rw [hopened, hr]; rfl, fun hfrozen => ?_⟩
    rw [State.frozen, hr, Option.any_some, hqueued] at hfrozen
    cases hfrozen

end Mode

/-- In every run that reserves the group for the heal, the mode stays from the moment the inbox is
closed until it is opened again, and every step but the heal's own leaves the group as it is. -/
theorem freeze_is_exclusive (node : Node) (s₀ s : State) (boot : Booted node (fun _ => True) s₀)
    (run : Transition.Run (step node) Reserved s₀ s) (hfrozen : s.frozen = true) :
    s.operationalMode = .frozenForApply ∧
      ∀ a s', Reserved s a → step node a s = some s' → (∀ wake, a.op ≠ .heal wake) →
        (∀ view anchor, a.op ≠ .restart view anchor) → s'.core.effects = s.core.effects := by
  have hfreezes := run.invariant Freezes (.idle boot.idle) fun _ _ _ h ok next => h.step ok next
  refine ⟨hfreezes.mode hfrozen, fun a s' ok next hheal hrestart => ?_⟩
  have hhealing : s.healing = true := by
    rw [hfreezes.healing]
    cases hr : s.heal with
    | none =>
      rw [State.frozen, hr] at hfrozen
      cases hfrozen
    | some r => rfl
  by_cases hop : a.op.unguarded = true
  · obtain ⟨hdropped, hx⟩ := ok.group hfrozen hop
    have hkept := CoreSteps.effects_dropped hx (step_moves hheal hrestart next).steps hdropped
    exact hkept
  · exact step_guarded hheal hrestart (Bool.not_eq_true _ ▸ hop) (fun _ _ _ => hhealing)
      (fun _ _ _ => .inl (hfreezes.mode hfrozen)) next

namespace Reference

def closed : List Action := [.receive [66] forkAnnounce, .heal .signal].map action

def recovery : List Action :=
  [.setMode .catchingUp, .replay [looseCommit 0], .setMode .live].map action

end Reference

open Reference in
/-- A commit that arrives while the inbox is closed is not applied. -/
theorem closed_inbox_applies_nothing :
    ∃ s₀ s s', Booted (member [65]) (fun _ => True) s₀ ∧
      Transition.exec (step (member [65])) closed s₀ = some s ∧
      step (member [65])
        (action (.receive [66] (looseCommit 0))) s = some s' ∧
      s.frozen = true ∧ s.groupState = [1, 0] ∧ s.operationalMode = .frozenForApply ∧
      s'.core.effects = s.core.effects := by
  obtain ⟨s₀, hboot, s, hexec, s', hstep, hfrozen, hstate⟩ :
      ∃ s₀, boot (member [65]) [[65]] = some s₀ ∧
      ∃ s, Transition.exec (step (member [65])) closed s₀ = some s ∧
      ∃ s', step (member [65]) (action (.receive [66] (looseCommit 0))) s = some s' ∧
        s.frozen = true ∧ s.groupState = [1, 0] := by
    decide +kernel
  have hbooted : Booted (member [65]) (fun _ => True) s₀ := boot_booted hboot trivial
  have hreserved (s : State) (a : Action) (ha : a ∈ closed) : Reserved s a := by
    rcases List.mem_pair.mp ha with rfl | rfl <;> exact .of_guarded (fun _ h => by cases h) rfl
  obtain ⟨hmode, hsteps⟩ := freeze_is_exclusive (member [65]) s₀ s hbooted
    (.of_exec hexec hreserved) hfrozen
  exact ⟨s₀, s, s', hbooted, hexec, hstep, hfrozen, hstate, hmode,
    hsteps _ s' (.of_guarded (fun _ h => by cases h) rfl) hstep (fun _ h => by cases h)
      fun _ _ h => by cases h⟩

open Reference in
/-- A recovery replay that runs while a heal has closed the inbox applies its commit to the group
and opens the inbox, though the heal has not come to its snapshot. -/
theorem recovery_breaks_freeze :
    ∃ s₀ s s', Booted (member [65]) (fun _ => True) s₀ ∧
      Transition.exec (step (member [65])) closed s₀ = some s ∧
      Transition.exec (step (member [65])) recovery s = some s' ∧
      s.frozen = true ∧ s'.frozen = true ∧ s'.heal = s.heal ∧
      s.operationalMode = .frozenForApply ∧ s'.operationalMode = .live ∧
      s.groupState = [1, 0] ∧ s'.groupState = [1, 1] ∧ s.epoch = 0 ∧ s'.epoch = 1 ∧
      s.appliedCommits.length = 0 ∧ s'.appliedCommits.length = 1 := by
  simp only [exists_and_left]
  refine Exists.imp (fun _ => And.imp_left (boot_booted · trivial))
    (?_ : ∃ s₀, boot (member [65]) [[65]] = some s₀ ∧ _)
  decide +kernel

end GroupCoordination
