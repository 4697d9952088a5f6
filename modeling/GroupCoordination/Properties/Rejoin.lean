import GroupCoordination.Properties.Jobs
import GroupCoordination.Properties.Restart

/-!
# The history of a healed node

A heal starts the chain of the joined branch again at the group's root, in the epoch of its
Welcome. The nodes that were on that branch go on with the chain they have, so the two agree
only if those, too, started theirs at the root in that epoch.
-/

namespace GroupCoordination

-- -------- Chains that start at different places

theorem Hash.CollisionFree.mono {H : Hash} (h : H.CollisionFree as bs)
    (hsub : ∀ i ∈ as', i ∈ as) (hsub' : ∀ i ∈ bs', i ∈ bs) : H.CollisionFree as' bs' :=
  fun a ha b hb heq => h a (hsub a ha) b (hsub' b hb) heq

theorem Hash.inputs_append (H : Hash) (root : Bytes) (commits commits' : List Bytes) :
    H.inputs root (commits ++ commits') =
      H.inputs root commits ++ H.inputs (Chain.value H.link root commits) commits' := by
  rw [inputs, Chain.links_append, List.map_append]
  rfl

/-- A chain from the group's root and one that took other commits before meet only if those
are none. -/
theorem Hash.rooted_later {H : Hash} (hroot : root.length = 32) (hgenesis : genesis.length = 32)
    (hfree : H.CollisionFree (H.inputs genesis later) (H.inputs root (before ++ later)))
    (hfirst : ∀ i ∈ H.inputs root (before ++ later), H.sum i ≠ genesis) :
    Chain.value H.link genesis later = Chain.value H.link root (before ++ later) ↔
      before = [] ∧ root = genesis := by
  constructor
  · intro heq
    have hsub : ∀ i ∈ H.inputs (Chain.value H.link root before) later,
        i ∈ H.inputs root (before ++ later) := by
      intro i hi
      rw [Hash.inputs_append]
      exact List.mem_append_right _ hi
    have hlen : (Chain.value H.link root before).length = 32 :=
      Chain.value_of (fun b : Bytes => b.length = 32) hroot (fun _ _ => H.size _) before
    rw [Chain.value_append] at heq
    obtain ⟨hmeet, -⟩ := Hash.chain_inj hgenesis hlen rfl (hfree.mono (fun _ hi => hi) hsub) heq
    rcases List.eq_nil_or_concat before with rfl | ⟨before, commitHash, rfl⟩
    · exact ⟨rfl, hmeet.symm⟩
    rw [List.concat_eq_append, Chain.value_snoc] at hmeet
    refine absurd hmeet.symm (hfirst _ ?_)
    rw [List.concat_eq_append, Hash.inputs_append, Hash.inputs_append]
    simp [Hash.inputs, Chain.links]
  · rintro ⟨rfl, rfl⟩
    rfl

-- -------- The swap of a heal

/-- The step in which a heal completes `applyHealedState` for its job. -/
structure Rejoins (node : Node) (a : Action) (job : ForkHealingJob) (s s' : State) : Prop where
  next : step node a s = some s'
  wakes : ∃ wake, a.op = .heal wake
  phase : ∃ r, s.heal = some r ∧ r.phase = .swap job
  joined : job.status = .externalJoined ∧ job.pendingGroupState ≠ []
  applied : (applyHealedState (a.ctx node) job.pendingGroupState job.pendingTreeHash
    job.pendingEpoch (s.arrive a.op)).1 = .ok ()

theorem HealSwap.lineage (h : HealSwap x c c') :
    c'.lineage = { root := x.initialHistoryHash, base := c'.epoch } ∧ c'.lastCommitHash = [] := by
  cases h
  exact ⟨rfl, rfl⟩

theorem Rejoins.recalls (h : Rejoins node a job s s') :
    Recalls node s'.core ∧ s'.lineage = { root := node.genesis, base := job.pendingEpoch } := by
  obtain ⟨next, ⟨wake, hop⟩, ⟨r, hr, hphase⟩, ⟨hstatus, hpending⟩, happlied⟩ := h
  generalize heq : applyHealedState (a.ctx node) job.pendingGroupState job.pendingTreeHash
    job.pendingEpoch (s.arrive a.op) = result at happlied
  obtain ⟨outcome, s₁⟩ := result
  obtain rfl : outcome = .ok () := happlied
  obtain ⟨hswap, hepoch, hcoord⟩ := applyHealedState_ok heq
  have hcore : s'.core = s₁.core := by
    have hstep : step node a s = some (swapHeal (a.ctx node) job (s.arrive a.op)) := by
      simp [step, hop, perform, healStep, State.arrive, hr, hphase]
    obtain rfl := Option.some.inj (hstep.symm.trans next)
    unfold swapHeal
    rw [if_neg (not_not.mpr hstatus), if_neg hpending, heq]
    dsimp only
    rw [setHealPhase_core, saveJob_core]
  rw [show s'.lineage = s'.core.lineage from rfl, hcore]
  obtain ⟨hlineage, hlast⟩ := hswap.lineage
  refine ⟨⟨.healSwap hswap, .healSwap hswap, ?_, fun _ => .inl hcoord⟩, ?_⟩
  · rw [hlast, hlineage]
    rfl
  · rw [hlineage, show s₁.core.epoch = _ from hepoch]
    rfl

theorem step_root_length (h : s.lineage.root.length = 32) (hstep : step node a s = some s') :
    s'.lineage.root.length = 32 := by
  by_cases hswap : ∃ wake, a.op = .heal wake ∧ s.AtSwap
  · cases step_effect hstep with
    | moves hmoves =>
      rw [show s'.lineage.root = s.lineage.root from hmoves.steps.lineage_root.1]
      exact h
    | edit hedit =>
      rw [show s'.lineage.root = s.lineage.root from congrArg Lineage.root hedit.lineage]
      exact h
    | swap wake hop hs hheal =>
      rw [show s'.lineage.root = node.genesis from congrArg Lineage.root hheal.lineage.1]
      exact node.historyAfter_length []
    | restart view anchor hop =>
      obtain ⟨wake, hwake, -⟩ := hswap
      cases hop.symm.trans hwake
  · rw [(step_lineage_root (fun wake hop hs => hswap ⟨wake, hop, hs⟩) hstep).1]
    exact h

-- -------- Healed nodes and the others

theorem Hash.inputs_take (H : Hash) (root : Bytes) (commits : List Bytes) (n : Nat) :
    ∀ i ∈ H.inputs root (commits.take n), i ∈ H.inputs root commits := by
  intro i hi
  rw [← List.take_append_drop n commits, Hash.inputs_append]
  exact List.mem_append_left _ hi

theorem Charted.agrees_iff (h : Charted H c) (h' : Charted H c') (hroot : c.lineage.root = genesis)
    (hlen : genesis.length = 32) (hlen' : c'.lineage.root.length = 32)
    (hbase : c'.lineage.base ≤ c.lineage.base) (hreached : c.lineage.base ≤ c'.epoch)
    (hsame : c.lineage.commits = c'.lineage.commits.drop (c.lineage.base - c'.lineage.base))
    (hfree : H.CollisionFree (H.inputs genesis c.lineage.commits)
      (H.inputs c'.lineage.root c'.lineage.commits))
    (hfirst : ∀ i ∈ H.inputs c'.lineage.root c'.lineage.commits, H.sum i ≠ genesis) :
    c.epoch = c'.epoch ∧ ∀ e, c.lineage.base ≤ e → e ≤ c'.epoch →
      (c.historyChain.get e = c'.historyChain.get e ↔
        c'.lineage.base = c.lineage.base ∧ c'.lineage.root = genesis) := by
  have hepoch : c.epoch = c.lineage.base + c.lineage.commits.length := h.epoch
  have hepoch' : c'.epoch = c'.lineage.base + c'.lineage.commits.length := h'.epoch
  obtain ⟨before, hbefore⟩ : ∃ before, before =
    c'.lineage.commits.take (c.lineage.base - c'.lineage.base) := ⟨_, rfl⟩
  have hsplit : c'.lineage.commits = before ++ c.lineage.commits := by
    rw [hbefore, hsame, List.take_append_drop]
  have hcount : before.length = c.lineage.base - c'.lineage.base := by
    rw [hbefore, List.length_take]
    omega
  have hlater : c.epoch = c'.epoch := by
    rw [hsplit, List.length_append] at hepoch'
    omega
  refine ⟨hlater, fun e he he' => ?_⟩
  have htake : (c'.lineage.upTo e).commits =
      before ++ c.lineage.commits.take (e - c.lineage.base) := by
    change c'.lineage.commits.take (e - c'.lineage.base) = _
    rw [hsplit, List.take_append, List.take_of_length_le (by omega), hcount]
    congr 2
    omega
  have hsub :
    ∀ i ∈ H.inputs c'.lineage.root (before ++ c.lineage.commits.take (e - c.lineage.base)),
      i ∈ H.inputs c'.lineage.root c'.lineage.commits := by
    rw [← htake]
    exact H.inputs_take _ _ _
  have hmeet := Hash.rooted_later hlen' hlen (hfree.mono (H.inputs_take _ _ _) hsub)
    fun i hi => hfirst i (hsub i hi)
  have hnone : before = [] ↔ c'.lineage.base = c.lineage.base := by
    rw [← List.length_eq_zero_iff, hcount]
    omega
  rw [h.entry he (hlater ▸ he'), h'.entry (Nat.le_trans hbase he) he', Option.some.injEq,
    Option.some.injEq, Lineage.history, Lineage.history, htake, ← hnone, ← hmeet]
  exact hroot ▸ Iff.rfl

/-- A healed node and one that was on the joined branch, after the same commits since the epoch
of the Welcome, have the same history exactly if the other started its chain at the group's
root in that epoch. Only then are their announcements and history replies of one branch. -/
theorem healed_history_agrees_iff (node node' : Node) (hhash : node'.hash = node.hash) (a : Action)
    (job : ForkHealingJob) (s s' t : State) (rejoins : Rejoins node a job s s')
    (later : Transition.Run (step node)
      (fun s a => Remembers s a ∧ ∀ wake, a.op = .heal wake → ¬ s.AtSwap) s' t)
    (past : List Bytes) (w₀ w : State) (enters : Enters node' past w₀)
    (run : Transition.Run (step node')
      (fun s a => Remembers s a ∧ ∀ wake, a.op = .heal wake → ¬ a.world.LosesCoordState) w₀ w)
    (hbase : w.lineage.base ≤ job.pendingEpoch) (hreached : job.pendingEpoch ≤ w.epoch)
    (hsame : t.lineage.commits = w.lineage.commits.drop (job.pendingEpoch - w.lineage.base))
    (hfree : node.hash.CollisionFree (node.hash.inputs node.genesis t.lineage.commits)
      (node.hash.inputs w.lineage.root w.lineage.commits))
    (hfirst : ∀ i ∈ node.hash.inputs w.lineage.root w.lineage.commits,
      node.hash.sum i ≠ node.genesis) :
    let started := w.lineage.base = job.pendingEpoch ∧ w.lineage.root = node.genesis
    t.epoch = w.epoch ∧ (t.historyHash = w.historyHash ↔ started) ∧
      (sameBranch w.announcement t.announcement = true ↔ started) ∧
      ∀ e, job.pendingEpoch ≤ e → e ≤ w.epoch →
        (t.historyChain.get e = w.historyChain.get e ↔ started) := by
  intro started
  obtain ⟨hrejoined, hlineage⟩ := rejoins.recalls
  obtain ⟨ht, htroot, htbase⟩ := hrejoined.run later
  replace htroot := htroot.trans (congrArg Lineage.root hlineage)
  replace htbase := htbase.trans (congrArg Lineage.base hlineage)
  obtain ⟨hw, hwroot⟩ := run.invariant (fun w => Recalls node' w.core ∧ w.lineage.root.length = 32)
    ⟨enters.recalls, by
      rw [show w₀.lineage.root = _ from enters.follows.root]
      exact node'.historyAfter_length past⟩
    fun _ _ _ h ok next => ⟨step_recalls h.1 ok.1 (fun wake hop _ => ok.2 wake hop) next,
      step_root_length h.2 next⟩
  have htc : Charted node.hash t.core := ht.toCharted
  have hwc : Charted node.hash w.core := hhash ▸ hw.toCharted
  obtain ⟨hepoch, hentries⟩ := htc.agrees_iff hwc htroot (node.historyAfter_length []) hwroot
    (htbase ▸ hbase) (htbase ▸ hreached) (htbase ▸ hsame) hfree hfirst
  rw [show t.core.lineage.base = _ from htbase] at hentries
  have hhead : t.historyHash = w.historyHash ↔ started := by
    have hlast := hentries w.core.epoch hreached (Nat.le_refl _)
    have htlast : t.core.historyChain.get w.core.epoch = some t.core.historyHash :=
      hepoch ▸ htc.head_entry
    rwa [htlast, hwc.head_entry, Option.some.injEq] at hlast
  refine ⟨hepoch, hhead, ?_, hentries⟩
  rw [sameBranch_iff, ← hhead]
  change w.historyHash.getD [] = t.historyHash.getD [] ↔ _
  rw [show t.historyHash = some _ from htc.head, show w.historyHash = some _ from hwc.head]
  simp [eq_comm]

namespace Reference

def beforeSwap (pid : PeerID) : Option State :=
  (foundsOverJob pid).bind (Transition.exec (step (member pid))
    [action .resumeHeal, action (.heal .signal), action (.heal .signal), action (.heal .signal)])

def rejoined (pid : PeerID) : Option State :=
  (beforeSwap pid).bind (step (member pid) (action (.heal .signal)))

theorem world_keepsCoordState : ¬ world.LosesCoordState := by
  rintro ⟨n, -, ⟨⟩⟩

theorem beforeSwap_run (h : beforeSwap pid = some s) :
    ∃ s₀, Founded (member pid) s₀ ∧ Transition.Run (step (member pid))
      (fun s a => Remembers s a ∧ ∀ wake, a.op = .heal wake → ¬ a.world.LosesCoordState) s₀ s := by
  unfold beforeSwap at h
  obtain ⟨s₀, hfound, hexec⟩ := Option.bind_eq_some_iff.mp h
  unfold foundsOverJob at hfound
  obtain ⟨b, hcreate, hstart⟩ := Option.bind_eq_some_iff.mp hfound
  refine ⟨s₀, ⟨world, [pid], { jobs := [joinedJob] }, b, Fallible.toOption_eq_some hcreate,
    Fallible.toOption_eq_some hstart⟩, .of_exec hexec fun _ a ha => ?_⟩
  simp only [List.mem_cons, List.not_mem_nil, or_false] at ha
  rcases ha with rfl | rfl | rfl | rfl
  · exact ⟨nofun, nofun⟩
  all_goals exact ⟨nofun, fun _ _ => world_keepsCoordState⟩

end Reference

open Reference in
/-- Two nodes that healed into the same epoch have the same history. -/
theorem healed_nodes_agree :
    ∃ s w, rejoined [66] = some s ∧ rejoined [65] = some w ∧
      s.historyHash = w.historyHash := by
  let node := member [66]
  obtain ⟨s, hs, s', hs', w, hw, hphase, happly, hlineage, hepoch, hcommits⟩ :
      ∃ s, beforeSwap [66] = some s ∧ ∃ s', rejoined [66] = some s' ∧ ∃ w, rejoined [65] = some w ∧
        s.heal.map (·.phase) = some (.swap joinedJob) ∧
        (applyHealedState ((action (.heal .signal)).ctx node) [1] [1] 1
          (s.arrive (.heal .signal))).1.toOption = some () ∧
        w.lineage = { root := node.genesis, base := 1 } ∧ w.epoch = 1 ∧
          s'.lineage.commits = [] := by
    decide +kernel
  obtain ⟨r, hr, hphase⟩ := Option.map_eq_some_iff.mp hphase
  have hstep := hs'
  rw [rejoined, hs] at hstep
  have rejoins : Rejoins node (action (.heal .signal)) joinedJob s s' :=
    ⟨hstep, ⟨_, rfl⟩, ⟨r, hr, hphase⟩, ⟨rfl, nofun⟩, Fallible.toOption_eq_some happly⟩
  have hwstep := hw
  rw [rejoined] at hwstep
  obtain ⟨w₁, hbefore, hwstep⟩ := Option.bind_eq_some_iff.mp hwstep
  obtain ⟨w₀, founded, run⟩ := beforeSwap_run hbefore
  have hremembers : Remembers w₁ (action (.heal .signal)) := nofun
  obtain ⟨-, hsame, -, -⟩ := healed_history_agrees_iff node (member [65]) rfl _ _ s s' s'
    rejoins .refl [] w₀ w (.founded founded)
    (.snoc _ run ⟨hremembers, fun _ _ => world_keepsCoordState⟩ hwstep)
    (by rw [hlineage]; exact Nat.le_refl 1) (by rw [hepoch]; exact Nat.le_refl 1)
    (by rw [hcommits, hlineage]; rfl) (by rw [hcommits]; exact nofun)
    (by rw [hlineage]; exact nofun)
  exact ⟨s', w, hs', hw, hsame.mpr (by rw [hlineage]; exact ⟨rfl, rfl⟩)⟩

open Reference in
/-- A node that heals into an epoch has another history than the founder that reached it by a
commit, and takes its announcement for that of a fork. -/
theorem healed_node_suspects_founder :
    ∃ s w, rejoined [66] = some s ∧ added [65] [5] = some w ∧
      s.epoch = 1 ∧ w.epoch = 1 ∧ s.historyHash ≠ w.historyHash ∧
      sameBranch w.announcement s.announcement = false := by
  simp only [exists_and_left]
  decide +kernel

end GroupCoordination
