import GroupCoordination.Properties.Gate
import GroupCoordination.Properties.Healing

/-!
# A heal that fails

A heal drops the group state before it asks to join the winning branch, and the deferred
functions of `runHeal` put it back. Between the two every handler works on a group without a
state. What such a handler does is compared with what it would have done to the group that was
put aside: the difference is the commits it marks as invalid.
-/

namespace GroupCoordination

open HealPhase

/-- A serialized group state is never empty, so the engine takes and returns none that is. -/
structure MLSEngine.NeedsState (engine : MLSEngine) : Prop where
  proposes : ∀ {groupState p newState}, Accepts engine groupState p newState →
    groupState ≠ [] ∧ newState ≠ []
  ciphers : ∀ {groupState newState}, Ciphers engine groupState newState →
    groupState ≠ [] ∧ newState ≠ []
  accepts : ∀ {groupState commit newState newTreeHash},
    CommitAccepted engine groupState commit newState newTreeHash → groupState ≠ [] ∧ newState ≠ []
  creates : ∀ {groupState refs result}, engine.createCommit groupState refs = .ok result →
    groupState ≠ [] ∧ result.newGroupState ≠ []

/-- What an applied commit or message changes: the MLS state and its epoch, the messages that
were delivered, the commits that were applied or issued. -/
def Core.effects (c : Core) : Bytes × Nat × List Wire × List AppliedCommit × List IssuedCommit :=
  (c.groupState, c.epoch, c.delivered, c.appliedCommits, c.issuedCommits)

namespace Core

def drop (c : Core) : Core := { c with groupState := [], treeHash := [] }

def OnDisk (c : Core) : Prop :=
  ∃ stored, c.ledger.record = some stored ∧ stored.groupState = c.groupState ∧
    stored.epoch = c.epoch ∧ stored.treeHash = c.treeHash

end Core

/-- What happens to a group apart from a heal: an event comes in, a step of the protocol is
taken, a commit is marked as invalid. -/
inductive Proceeds (node : Node) (allowed : Action → Prop) (c : Core) : Core → Prop
  | arrive (op : Op) :
      Proceeds node allowed c { c with arriving := op.arriving, arrivedFrom := op.hop }
  | step (a : Action) (ok : allowed a) (h : CoreStep (a.ctx node) c c') : Proceeds node allowed c c'
  | mark (invalid : List Bytes) : Proceeds node allowed c { c with invalid }

-- -------- Steps of a group that was put aside

section Aside

variable {node : Node} {allowed : Action → Prop} {a : Action} {c c' d : Core} {x : Ctx}

theorem CoreStep.effects_or (hx : x.engine.NeedsState) (h : CoreStep x c c') :
    c.groupState ≠ [] ∧ c'.groupState ≠ [] ∨ c'.effects = c.effects := by
  cases h with
  | propose p newState record accepted recorded => exact .inl (hx.proposes accepted)
  | commit env wire commit newState newTreeHash ledger known payload current gate accepted =>
    exact .inl (hx.accepts accepted)
  | issue issued result refs wire ledger he hw elected sender message carries created =>
    exact .inl (hx.creates created)
  | deliver wire newState ledger ciphers | batch wire newState ledger ciphers =>
    exact .inl (hx.ciphers ciphers)
  | _ => exact .inr rfl

theorem CoreStep.state_ne (hx : x.engine.NeedsState) (h : CoreStep x c c')
    (hc : c.groupState ≠ []) : c'.groupState ≠ [] := by
  rcases h.effects_or hx with hne | hsame
  · exact hne.2
  · exact (congrArg Prod.fst hsame).trans_ne hc

structure Aside (c c' d : Core) : Prop where
  dropped : d = c'.drop
  state : c'.groupState = c.groupState
  tree : c'.treeHash = c.treeHash
  epoch : c'.epoch = c.epoch
  record : c'.ledger.record = c.ledger.record

theorem Aside.onDisk (h : Aside c c' d) (hc : c.OnDisk) : c'.OnDisk := by
  obtain ⟨stored, hrecord, hstate, hepoch, htree⟩ := hc
  exact ⟨stored, h.record.trans hrecord, hstate.trans h.state.symm, hepoch.trans h.epoch.symm,
    htree.trans h.tree.symm⟩

/-- Without a state the engine refuses everything, and the other steps do not look at it. -/
theorem CoreStep.aside (hx : (a.ctx node).engine.NeedsState) (ok : allowed a)
    (h : CoreStep (a.ctx node) c.drop d) : ∃ c', Proceeds node allowed c c' ∧ Aside c c' d := by
  cases h with
  | view members => exact ⟨_, .step a ok (.view members), rfl, rfl, rfl, rfl, rfl⟩
  | suspend pid => exact ⟨_, .step a ok (.suspend pid), rfl, rfl, rfl, rfl, rfl⟩
  | retain key wire source env known spelled epoch ahead =>
    exact ⟨_, .step a ok (.retain key wire source env known spelled epoch ahead), rfl, rfl, rfl,
      rfl, rfl⟩
  | take key wire rest next =>
    exact ⟨_, .step a ok (.take key wire rest next), rfl, rfl, rfl, rfl, rfl⟩
  | propose p newState record accepted recorded => exact absurd rfl (hx.proposes accepted).1
  | commit env wire commit newState newTreeHash ledger known payload current gate accepted =>
    exact absurd rfl (hx.accepts accepted).1
  | refuse env wire commit known payload current refused =>
    exact ⟨_, .mark (refuseCommit _ c.invalid), rfl, rfl, rfl, rfl, rfl⟩
  | issue issued result refs wire ledger he hw elected sender message carries created =>
    exact absurd rfl (hx.creates created).1
  | drain applied seen => exact ⟨_, .step a ok (.drain applied seen), rfl, rfl, rfl, rfl, rfl⟩
  | deliver wire newState ledger ciphers | batch wire newState ledger ciphers =>
    exact absurd rfl (hx.ciphers ciphers).1
  | persist => exact ⟨_, .step a ok .persist, rfl, rfl, rfl, rfl, rfl⟩
  | tell claim known => exact ⟨_, .step a ok (.tell claim known), rfl, rfl, rfl, rfl, rfl⟩
  | suspect event wire env claim peer arrived said differs =>
    exact ⟨_, .step a ok (.suspect event wire env claim peer arrived said differs), rfl, rfl, rfl,
      rfl, rfl⟩

structure Spared (node : Node) (allowed : Action → Prop) (c₀ : Core) (aside : Prop) (d : Core) :
    Prop where
  group : ∃ c, Relation.ReflTransGen (Proceeds node allowed) c₀ c ∧ c.groupState ≠ [] ∧
    (d = c ∨ d = c.drop ∧ c.OnDisk ∧ aside)

namespace Spared

variable {c₀ : Core} {aside aside' : Prop}

section

variable (h : Spared node allowed c₀ aside d)

include h

theorem mono (ha : aside → aside') : Spared node allowed c₀ aside' d := by
  obtain ⟨c, hc, hne, hd⟩ := h
  exact ⟨c, hc, hne, hd.imp_right fun ⟨hdrop, hdisk, h⟩ => ⟨hdrop, hdisk, ha h⟩⟩

theorem arrive (op : Op) :
    Spared node allowed c₀ aside { d with arriving := op.arriving, arrivedFrom := op.hop } := by
  obtain ⟨c, hc, hne, hd⟩ := h
  refine ⟨_, hc.tail (.arrive op), hne, ?_⟩
  rcases hd with rfl | ⟨rfl, hdisk, ha⟩
  · exact .inl rfl
  · exact .inr ⟨rfl, hdisk, ha⟩

theorem step (hx : (a.ctx node).engine.NeedsState)
    (ok : allowed a) (hstep : CoreStep (a.ctx node) d d') : Spared node allowed c₀ aside d' := by
  obtain ⟨c, hc, hne, rfl | ⟨rfl, hdisk, ha⟩⟩ := h
  · exact ⟨d', hc.tail (.step a ok hstep), hstep.state_ne hx hne, .inl rfl⟩
  obtain ⟨c', hc', haside⟩ := hstep.aside hx ok
  exact ⟨c', hc.tail hc', haside.state ▸ hne, .inr ⟨haside.dropped, haside.onDisk hdisk, ha⟩⟩

theorem steps (hx : (a.ctx node).engine.NeedsState)
    (ok : allowed a) (hsteps : CoreSteps (a.ctx node) d d') : Spared node allowed c₀ aside d' := by
  induction hsteps with
  | refl => exact h
  | tail _ hstep ih => exact ih.step hx ok hstep

end

theorem dropped (h : Spared node allowed c₀ False d) (hdisk : d.OnDisk) (ha : aside) :
    Spared node allowed c₀ aside d.drop := by
  obtain ⟨c, hc, hne, rfl | ⟨-, -, hfalse⟩⟩ := h
  · exact ⟨d, hc, hne, .inr ⟨rfl, hdisk, ha⟩⟩
  · exact hfalse.elim

end Spared

end Aside

-- -------- Steps of the heal

def HealPhase.beforeSwap : HealPhase → Bool
  | .replay job | .clean job => job.status ≠ .stateSwapped ∧ job.status ≠ .localComplete
  | .encrypt .. | .assign .. => false
  | _ => true

def HealPhase.mayDrop : HealPhase → Bool
  | .awaiting .. | .swap _ | .replay _ | .clean _ | .thaw | .restore => true
  | _ => false

def HealPhase.mayFreeze : HealPhase → Bool
  | .queued | .restore | .release => false
  | _ => true

/-- What the three critical sections that touch the group rely on. -/
def HealPhase.Sound (s : State) (w : World) : HealPhase → Prop
  | .join job => job.status = .snapshotCreated → s.core.OnDisk
  | .swap job => job.status = .externalJoined →
      w.works s.storage.writes .saveGroupRecord = true →
        w.works (s.storage.writes + 1) .saveCoordState = true
  | .restore => s.groupState = [] → w.works s.storage.writes .getGroupRecord = true
  | _ => True

section Phases

variable {x : Ctx} {s s' : State} {d d' : Desk} {r : HealRun} {job : ForkHealingJob} {c : Core}

theorem joinHeal_drops (x : Ctx) (job : ForkHealingJob) (s : State) :
    (joinHeal x job s).core = s.core ∨
      job.status = .snapshotCreated ∧ (joinHeal x job s).core = s.core.drop := by
  unfold joinHeal
  split
  · exact .inl rfl
  rename_i hstatus
  split
  · exact .inl rfl
  refine .inr ⟨not_not.mp hstatus, ?_⟩
  dsimp only
  rw [setHealPhase_core, saveJob_core, publishJoin_core]
  rfl

/-- A swap that fails changes nothing if the coordination state can be stored after the record. -/
theorem applyHealedState_error
    (h : applyHealedState x newState newTreeHash newEpoch s = (.error err, s'))
    (hworks : x.works s.storage.writes .saveGroupRecord = true →
      x.works (s.storage.writes + 1) .saveCoordState = true) : s' = s := by
  unfold applyHealedState at h
  split at h
  · cases h
    rfl
  split at h
  · cases h
    rfl
  rename_i s₁ hstore
  dsimp only at h
  split at h
  next hp =>
    obtain ⟨db, hr, rfl⟩ := State.store_ok hstore
    obtain ⟨hsaved, -, rfl⟩ := Disk.exec_ok hr
    have hfails := persistCoordStateLocked_fails hp
    exact absurd ((hworks hsaved).symm.trans hfails) nofun
  · cases h

theorem swapHeal_early (hr : s.heal = some r)
    (hworks : job.status = .externalJoined → x.works s.storage.writes .saveGroupRecord = true →
      x.works (s.storage.writes + 1) .saveCoordState = true)
    (hearly : (swapHeal x job s).heal.all (·.phase.beforeSwap) = true) :
    (swapHeal x job s).core = s.core := by
  unfold swapHeal at hearly ⊢
  split
  · rfl
  split
  · rfl
  rename_i hstatus hpending
  rw [if_neg hstatus, if_neg hpending] at hearly
  split
  next heq =>
    obtain rfl := applyHealedState_error heq (hworks (not_not.mp hstatus))
    rfl
  -- A swap that succeeds moves on with the status STATE_SWAPPED.
  rename_i s₁ heq
  rw [heq] at hearly
  have hdesk : s₁.desk = s.desk := by
    have hkeeps := applyHealedState_desk x job.pendingGroupState job.pendingTreeHash
      job.pendingEpoch s
    rwa [heq] at hkeeps
  have hheal := (saveJob_saves (x := x) { job with status := .stateSwapped, updatedAtMs := x.nowMs }
    hdesk).heal
  change ((State.saveJob x _ s₁).desk.enter _).heal.all _ = true at hearly
  have hsome : s.desk.heal = some r := hr
  simp [Desk.enter, hheal, hsome, beforeSwap] at hearly

theorem restoreHeal_kept (h : s.groupState ≠ []) : (restoreHeal x s).core = s.core := by
  unfold restoreHeal
  dsimp only
  split
  · rfl
  · rw [if_neg fun hand => h hand.1]
    rfl

theorem restoreHeal_dropped (hcore : s.core = c.drop) (hdisk : c.OnDisk) (hne : c.groupState ≠ [])
    (hworks : x.works s.storage.writes .getGroupRecord = true) : (restoreHeal x s).core = c := by
  obtain ⟨stored, hrecord, hstate, hepoch, htree⟩ := hdisk
  have hgroup : s.storage.group = some stored := by
    have hledger := congrArg (·.ledger.record) hcore
    exact hledger.trans hrecord
  have hget : Storage.getGroupRecord x.disk s.storage = .ok stored := by
    simp [Storage.getGroupRecord, hgroup, Disk.exec, Ctx.disk, hworks]
  have hnil : s.groupState = [] := congrArg Core.groupState hcore
  unfold restoreHeal
  rw [hget]
  dsimp only
  rw [if_pos ⟨hnil, hstate ▸ hne⟩, setHealPhase_core]
  change { s.core with
    groupState := stored.groupState, epoch := stored.epoch, treeHash := stored.treeHash } = c
  rw [hcore, hstate, hepoch, htree]
  rfl

def HealPhase.touches : HealPhase → Bool
  | .join _ | .swap _ | .assign .. | .restore => true
  | _ => false

theorem healStep_quiet (hr : s.heal = some r) (h : r.phase.touches = false) :
    (healStep x wake s).core = s.core := by
  unfold healStep
  rw [hr]
  dsimp only
  split
  · exact (beginHeal_skirts (w := true) _ s).same
  · exact (snapshotHeal_skirts s).same
  · simp_all [touches]
  · exact (awaitWelcome_skirts (w := true) _ s).same
  · simp_all [touches]
  · exact (replayHeal_skirts s).same
  · exact (encryptHeal_skirts s).same
  · simp_all [touches]
  · exact (cleanHeal_skirts s).same
  · rfl
  · simp_all [touches]
  · rfl

/-- One critical section of a heal that does not change branches. What it drops it drops at the
join request, and after the restore nothing is missing. -/
theorem healStep_spared (h : Spared node allowed c₀ (r.phase.mayDrop = true) s.core)
    (hr : s.heal = some r) (hphase : r.phase.beforeSwap = true) (hsound : r.phase.Sound s x.toWorld)
    (hearly : (healStep x wake s).heal.all (·.phase.beforeSwap) = true) :
    Spared node allowed c₀ (r.phase.mayDrop = true ∧ r.phase ≠ .restore ∨
      ∃ job, r.phase = .join job) (healStep x wake s).core := by
  have hstep : healStep x wake s = match r.phase with
    | .join job => joinHeal x job s
    | .swap job => swapHeal x job s
    | .restore => restoreHeal x s
    | _ => healStep x wake s := by
    unfold healStep
    rw [hr]
    dsimp only
    split <;> rename_i hp <;> rw [hp]
  cases hp : r.phase with
  | join job =>
    rw [hp] at h hstep hsound
    rw [hstep]
    have hkept : Spared node allowed c₀ False s.core := h.mono nofun
    rcases joinHeal_drops x job s with hcore | ⟨hstatus, hcore⟩
    · rw [hcore]
      exact hkept.mono False.elim
    · rw [hcore]
      exact hkept.dropped (hsound hstatus) (.inr ⟨job, rfl⟩)
  | swap job =>
    rw [hp] at h hstep hsound
    rw [hstep] at hearly ⊢
    rw [swapHeal_early hr hsound hearly]
    exact h.mono fun hdrop => .inl ⟨hdrop, nofun⟩
  | restore =>
    rw [hp] at hstep hsound
    rw [hstep]
    obtain ⟨c, hc, hne, hcore | ⟨hcore, hdisk, -⟩⟩ := h
    · rw [restoreHeal_kept (hcore ▸ hne : s.core.groupState ≠ [])]
      exact ⟨c, hc, hne, .inl hcore⟩
    have hnil : s.groupState = [] := congrArg Core.groupState hcore
    rw [restoreHeal_dropped hcore hdisk hne (hsound hnil)]
    exact ⟨c, hc, hne, .inl rfl⟩
  | encrypt | assign => simp [hp, beforeSwap] at hphase
  | _ =>
    rw [healStep_quiet hr (by simp [hp, touches])]
    exact h.mono fun hdrop => .inl ⟨hp ▸ hdrop, nofun⟩

theorem Heals.mayDrop (h : Heals x wake d p d') (hr : d.heal = some r) (hp : r.phase = p)
    (hearly : p.beforeSwap = true)
    (hdrop : p.mayDrop = true ∧ p ≠ .restore ∨ ∃ job, p = .join job) :
    d'.heal.any (·.phase.mayDrop) = true := by
  cases h with
  | wait => simp [hr, hp, mayDrop]
  | join _ _ _ saved | swap _ _ saved | clean _ saved =>
    obtain ⟨jobs, rfl⟩ := saved.rows
    simp [Desk.enter, hr, mayDrop]
  | _ => simp_all [Desk.enter, mayDrop, beforeSwap]

theorem Heals.live (h : Heals x wake d p d') (hr : d.heal = some r) (hp : r.phase = p)
    (hlive : p.mayFreeze = false → d.mode = .live)
    (hthawed : d'.heal.any (·.phase.mayFreeze) = false) : d'.mode = .live := by
  cases h with
  | create _ _ _ saved | snapshot _ saved | join _ _ _ saved | swap _ _ saved | encrypted saved
  | clean _ saved =>
    obtain ⟨jobs, rfl⟩ := saved.rows
    simp [Desk.enter, hr, mayFreeze] at hthawed
  | _ => simp_all [Desk.enter, mayFreeze]

theorem Heals.healing (h : Heals x wake d p d') (hr : d.heal = some r)
    (hhealing : d.healing = true) : d'.healing = d'.heal.isSome := by
  cases h with
  | create _ _ _ saved | snapshot _ saved | join _ _ _ saved | swap _ _ saved | encrypted saved
  | clean _ saved =>
    obtain ⟨jobs, rfl⟩ := saved.rows
    simp [Desk.enter, hr, hhealing]
  | _ => simp [Desk.enter, hr, hhealing]

end Phases

-- -------- Runs of a heal that fails

structure HealOpens (s : State) : Prop where
  healing : s.healing = true
  queued : ∃ r, s.heal = some r ∧ r.phase = .queued
  live : s.operationalMode = .live
  state : s.groupState ≠ []

/-- A step of a heal that does not change branches, or anything that happens beside it; the
process does not end and nobody sets the mode. -/
structure Undisturbed (s : State) (a : Action) : Prop where
  engine : a.world.engine.NeedsState
  restarts : ∀ view anchor, a.op ≠ .restart view anchor
  modes : ∀ mode, a.op ≠ .setMode mode
  running : ∃ r, s.heal = some r ∧ r.phase.beforeSwap = true
  sound : ∀ wake r, a.op = .heal wake → s.heal = some r → r.phase.Sound s a.world

structure Failing (node : Node) (allowed : Action → Prop) (c₀ : Core) (s : State) : Prop where
  group : Spared node allowed c₀ (s.heal.any (·.phase.mayDrop) = true) s.core
  healing : s.healing = s.heal.isSome
  live : s.heal.any (·.phase.mayFreeze) = false → s.operationalMode = .live

section Failing

variable {node : Node} {allowed : Action → Prop} {a : Action} {c₀ : Core} {s s' : State}

theorem HealOpens.failing (h : HealOpens s) : Failing node allowed s.core s := by
  obtain ⟨r, hr, hphase⟩ := h.queued
  refine ⟨⟨s.core, .refl, h.state, .inl rfl⟩, ?_, fun _ => h.live⟩
  rw [hr, h.healing]
  rfl

theorem step_beside (hheal : ∀ wake, a.op ≠ .heal wake)
    (hrestart : ∀ view anchor, a.op ≠ .restart view anchor) (hmode : ∀ mode, a.op ≠ .setMode mode)
    (hhealing : s.healing = true) (h : step node a s = some s') :
    s'.heal = s.heal ∧ s'.healing = s.healing ∧ s'.operationalMode = s.operationalMode := by
  have hmode := (step_desk_kept hheal hrestart h).2 hmode
  rcases (step_desk_kept hheal hrestart h).1 with ⟨hsame, hkept⟩ | ⟨hidle, -⟩
  · exact ⟨hsame, hkept, hmode⟩
  · exact absurd (hhealing.symm.trans hidle) nofun

theorem Failing.step (h : Failing node allowed c₀ s) (ok : Undisturbed s a) (hallowed : allowed a)
    (hearly : s'.heal.all (·.phase.beforeSwap) = true) (hstep : step node a s = some s') :
    Failing node allowed c₀ s' := by
  obtain ⟨r, hr, hphase⟩ := ok.running
  have hhealing : s.healing = true := by rw [h.healing, hr]; rfl
  have hgroup := h.group.arrive a.op
  by_cases hheal : ∃ wake, a.op = .heal wake
  · obtain ⟨wake, hop⟩ := hheal
    obtain rfl := step_heal hop hstep
    have hheals := healStep_heals (x := a.ctx node) (s := s.arrive a.op) hr wake
    have hdrops : s.heal.any (·.phase.mayDrop) = true → r.phase.mayDrop = true := by simp [hr]
    have hspared := healStep_spared (x := a.ctx node) (s := s.arrive a.op) (hgroup.mono hdrops) hr
      hphase (ok.sound wake r hop hr) hearly
    refine ⟨hspared.mono (hheals.mayDrop hr rfl hphase), hheals.healing hr hhealing, ?_⟩
    refine hheals.live hr rfl fun hfrozen => h.live ?_
    simp [hr, hfrozen]
  have hop := fun wake hop => hheal ⟨wake, hop⟩
  obtain ⟨hsame, hhealing', hmode⟩ := step_beside hop ok.restarts ok.modes hhealing
    hstep
  have hmoves := step_moves hop ok.restarts hstep
  refine ⟨?_, ?_, ?_⟩
  · rw [hsame]
    exact hgroup.steps ok.engine hallowed hmoves.steps
  · rw [hhealing', hsame]
    exact h.healing
  · rw [hmode, hsame]
    exact h.live

end Failing

/-- A heal that returns before it has changed branches leaves the group where the protocol has
taken it meanwhile, on a live node that is no longer healing. -/
theorem failed_heal_restores (node : Node) (allowed : Action → Prop) (s s' : State)
    (hopens : HealOpens s)
    (run : Transition.Run (step node) (fun s a => allowed a ∧ Undisturbed s a) s s')
    (hreturned : s'.heal = none) :
    Relation.ReflTransGen (Proceeds node allowed) s.core s'.core ∧
      s'.operationalMode = .live ∧ s'.healing = false := by
  have hfailing := run.invariant
    (fun t => t.heal.all (·.phase.beforeSwap) = true → Failing node allowed s.core t)
    (fun _ => hopens.failing) fun t a t' ih ok next hearly => by
      obtain ⟨r, hr, hphase⟩ := ok.2.running
      exact (ih (by simp [hr, hphase])).step ok.2 ok.1 hearly next
  obtain ⟨⟨c, hc, -, hcore⟩, hhealing, hlive⟩ := hfailing (by simp [hreturned])
  rw [hreturned] at hhealing hlive hcore
  rcases hcore with hcore | ⟨-, -, hfalse⟩
  · exact ⟨hcore ▸ hc, hlive rfl, hhealing⟩
  · cases hfalse

theorem Proceeds.epoch_account {c c' : Core}
    (h : Relation.ReflTransGen (Proceeds node allowed) c c') :
    c'.epoch + c.appliedCommits.length + c.issuedCommits.length =
      c.epoch + c'.appliedCommits.length + c'.issuedCommits.length := by
  induction h with
  | refl => rfl
  | tail _ hstep ih =>
    cases hstep with
    | step a ok hcore =>
      have hone := CoreSteps.epoch_account (.single hcore)
      omega
    | _ => exact ih

namespace Reference

theorem store_ne_nil (e : Byte) (ids : Bytes) (id : Byte) : store e ids id ≠ [] := by
  unfold store
  split <;> exact nofun

theorem engine_needsState : engine.NeedsState where
  proposes h := by
    cases h with
    | created h =>
      obtain ⟨e, ids, id, rfl, -, rfl⟩ := createProposal_ok h
      exact ⟨List.cons_ne_nil _ _, store_ne_nil e ids id⟩
    | processed h =>
      obtain ⟨e, ids, id, rfl, -, rfl⟩ := processProposal_ok h
      exact ⟨List.cons_ne_nil _ _, store_ne_nil e ids id⟩
  ciphers h := by
    cases h with
    | encrypted h =>
      obtain ⟨rfl, hne⟩ := encryptMessage_ok h
      exact ⟨hne, hne⟩
    | decrypted h =>
      obtain ⟨rfl, hne⟩ := decryptMessage_ok h
      exact ⟨hne, hne⟩
  accepts h := by
    obtain ⟨⟨e, refs⟩, hstage, hresult⟩ := Fallible.map_ok h.processed
    cases hresult
    obtain ⟨ids, committed, rfl, -⟩ := stage_ok hstage
    exact ⟨List.cons_ne_nil _ _, List.cons_ne_nil _ _⟩
  creates h := by
    obtain ⟨e, ids, rfl, -, hnew⟩ := createCommit_ok h
    rw [hnew]
    exact ⟨List.cons_ne_nil _ _, List.cons_ne_nil _ _⟩

def looseCommit (e : Byte) : Wire :=
  wire e [] .commit (.commit (commitMsg e 9 { proposalType := .add }))

/-- A heal that accepts a commit before it freezes the inbox, and then waits in vain. -/
def waitsInVain : List Action :=
  [.receive [66] (looseCommit 0), .heal .signal, .heal .signal, .heal .signal, .heal .timeout,
    .heal .timeout, .heal .timeout, .heal .signal, .heal .signal, .heal .signal].map action

def watchesHeal (s : State) (_ : Action) : Bool :=
  s.heal.any fun r => r.phase.beforeSwap && match r.phase with
    | .join _ => s.storage.group.any fun stored => stored.groupState = s.groupState ∧
        stored.epoch = s.epoch ∧ stored.treeHash = s.treeHash
    | _ => true

theorem watchesHeal_undisturbed {a : Action} (h : watchesHeal s a = true) (hworld : a.world = world)
    (hrestart : ∀ view anchor, a.op ≠ .restart view anchor) (hmode : ∀ mode, a.op ≠ .setMode mode) :
    Undisturbed s a := by
  obtain ⟨r, hr, hcheck⟩ := (Option.any_eq_true _ _).mp h
  rw [Bool.and_eq_true] at hcheck
  refine ⟨hworld ▸ engine_needsState, hrestart, hmode, ⟨r, hr, hcheck.1⟩, fun wake r' hop hr' => ?_⟩
  obtain rfl := Option.some.inj (hr.symm.trans hr')
  cases hphase : r.phase with
  | join job =>
    intro hstatus
    rw [hphase] at hcheck
    obtain ⟨stored, hstored, hvalues⟩ := (Option.any_eq_true _ _).mp hcheck.2
    exact ⟨stored, hstored, of_decide_eq_true hvalues⟩
  | swap job => exact fun _ _ => hworld ▸ rfl
  | restore => exact fun _ => hworld ▸ rfl
  | _ => trivial

def losing : World := { world with works := fun _ op => op ≠ .saveCoordState }

/-- A heal resumed with the joined state at hand, which loses the second write of the swap. -/
def losesSecondWrite : List Action :=
  [action (.heal .signal), action (.heal .signal), action (.heal .signal),
    { world := losing, fuel := 4, op := .heal .signal }, action (.heal .signal),
    action (.heal .signal), action (.heal .signal)]

end Reference

open Reference in
/-- A heal that waits in vain leaves the group where the commit accepted meanwhile took it. -/
theorem vain_heal_restores :
    ∃ s s', trace (member [65]) [[65]]
        [action (.receive [66] forkAnnounce)] = some s ∧
      Transition.Run (step (member [65]))
        (fun s a => a ∈ waitsInVain ∧ Undisturbed s a) s s' ∧
      s.epoch = 0 ∧ s'.epoch = 1 ∧ s'.groupState = [1, 1] ∧
      Relation.ReflTransGen (Proceeds (member [65]) (· ∈ waitsInVain))
        s.core s'.core ∧ s'.operationalMode = .live ∧ s'.healing = false := by
  obtain ⟨s, hs, s', hexec, hhealing, hqueued, hlive, hstate, hreturned, hbefore, hafter, hgroup⟩ :
      ∃ s, trace (member [65]) [[65]] [action (.receive [66] forkAnnounce)] = some s ∧
        ∃ s', Transition.exec (fun a s => if watchesHeal s a then step (member [65]) a s else none)
          waitsInVain s = some s' ∧ s.healing = true ∧ s.heal.map (·.phase) = some .queued ∧
          s.operationalMode = .live ∧ s.groupState ≠ [] ∧ s'.heal = none ∧ s.epoch = 0 ∧
          s'.epoch = 1 ∧ s'.groupState = [1, 1] := by
    decide +kernel
  have hopens : HealOpens s := ⟨hhealing, Option.map_eq_some_iff.mp hqueued, hlive, hstate⟩
  have run : Transition.Run (step (member [65]))
      (fun s a => a ∈ waitsInVain ∧ Undisturbed s a) s s' :=
    .of_checked watchesHeal hexec fun t a ha hwatch => by
      obtain ⟨op, hop, rfl⟩ := List.mem_map.mp ha
      refine ⟨ha, watchesHeal_undisturbed hwatch rfl ?_ ?_⟩
      · rintro view anchor rfl
        simp at hop
      · rintro mode rfl
        simp at hop
  exact ⟨s, s', hs, run, hbefore, hafter, hgroup,
    failed_heal_restores (member [65]) (· ∈ waitsInVain) s s' hopens run hreturned⟩

open Reference in
/-- A swap that fails at its second write has changed branches: record, epoch and group state
are those of the joined branch, though no commit was accepted and the job is not swapped. -/
theorem failed_swap_changes_branch :
    ∃ s s', (foundsOverJob [66]).bind
        (step (member [66]) (action .resumeHeal)) = some s ∧
      Transition.exec (step (member [66])) losesSecondWrite s = some s' ∧
      HealOpens s ∧ s'.heal = none ∧ s'.storage.jobs.map (·.status) = [.externalJoined] ∧
      s.epoch = 0 ∧ s'.epoch = 1 ∧ s.groupState = [1, 0] ∧ s'.groupState = [1] ∧
      s.storage.group.map (·.epoch) = some 0 ∧ s'.storage.group.map (·.epoch) = some 1 ∧
      ¬ Relation.ReflTransGen (Proceeds (member [66]) fun _ => True) s.core s'.core := by
  obtain ⟨s, hs, s', hexec, hhealing, hqueued, hlive, hstate, hnone, hnone', hreturned,
    hjobs, hbefore,
      hafter, hrest⟩ :
      ∃ s, (foundsOverJob [66]).bind (step (member [66]) (action .resumeHeal)) = some s ∧
        ∃ s', Transition.exec (step (member [66])) losesSecondWrite s = some s' ∧
          s.healing = true ∧ s.heal.map (·.phase) = some .queued ∧ s.operationalMode = .live ∧
          s.groupState ≠ [] ∧ s.appliedCommits.length + s.issuedCommits.length = 0 ∧
          s'.appliedCommits.length + s'.issuedCommits.length = 0 ∧ s'.heal = none ∧
          s'.storage.jobs.map (·.status) = [.externalJoined] ∧ s.epoch = 0 ∧ s'.epoch = 1 ∧
          s.groupState = [1, 0] ∧ s'.groupState = [1] ∧ s.storage.group.map (·.epoch) = some 0 ∧
          s'.storage.group.map (·.epoch) = some 1 := by
    decide +kernel
  have hopens : HealOpens s := ⟨hhealing, Option.map_eq_some_iff.mp hqueued, hlive, hstate⟩
  refine ⟨s, s', hs, hexec, hopens, hreturned, hjobs, hbefore, hafter, hrest.1, hrest.2.1,
    hrest.2.2.1, hrest.2.2.2, fun hproceeds => ?_⟩
  have haccount := Proceeds.epoch_account hproceeds
  change s'.epoch + s.appliedCommits.length + s.issuedCommits.length =
    s.epoch + s'.appliedCommits.length + s'.issuedCommits.length at haccount
  omega

end GroupCoordination
