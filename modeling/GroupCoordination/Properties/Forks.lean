import GroupCoordination.Properties.History

/-!
# No heal between nodes of one branch

What a node announces of its history, and what it answers when asked, is the history of
the first so many commits it has taken, and stays so while it takes more. So a hash that
differs from the local one tells of other commits, however old the message is.
-/

namespace GroupCoordination

-- -------- What a node says of itself

def Describes (node : Node) (claim : Nat × Bytes) (commits : List Bytes) : Prop :=
  claim.1 ≤ commits.length ∧ claim.2 = node.historyAfter (commits.take claim.1)

theorem Describes.grow (h : Describes node claim commits) (hp : commits <+: commits') :
    Describes node claim commits' := by
  obtain ⟨rest, rfl⟩ := hp
  refine ⟨Nat.le_trans h.1 (List.length_append ▸ Nat.le_add_right _ _), ?_⟩
  rw [List.take_append_of_le_length h.1]
  exact h.2

structure Honest (node : Node) (past : List Bytes) (c : Core) : Prop
    extends Traced node past c where
  told : ∀ claim ∈ c.told, Describes node claim (past ++ c.lineage.commits)

theorem Traced.commits_length (h : Traced node past c) :
    (past ++ c.lineage.commits).length = c.epoch := by
  rw [List.length_append, h.toCharted.epoch, Lineage.epoch, h.base]

theorem Traced.describes (h : Traced node past c) (hget : c.historyChain.get e = some entry) :
    Describes node (e, entry.getD []) (past ++ c.lineage.commits) := by
  obtain ⟨hb, he, rfl⟩ := (h.entries e entry).mp hget
  refine ⟨h.commits_length ▸ he, ?_⟩
  rw [h.history_upTo (h.base ▸ hb)]
  rfl

theorem Traced.describes_head (h : Traced node past c) :
    Describes node (c.epoch, c.historyHash.getD []) (past ++ c.lineage.commits) :=
  h.describes h.head_entry

theorem CoreStep.commits_prefix (h : CoreStep x c c') :
    c.lineage.commits <+: c'.lineage.commits := by
  cases h <;> first
    | exact List.prefix_rfl
    | exact List.prefix_append _ _

theorem CoreSteps.commits_prefix (h : CoreSteps x c c') :
    c.lineage.commits <+: c'.lineage.commits := by
  induction h with
  | refl => exact List.prefix_rfl
  | tail _ hstep ih => exact ih.trans hstep.commits_prefix

theorem Honest.coreStep (h : Honest x.toNode past c) (hstep : CoreStep x c c') :
    Honest x.toNode past c' := by
  have hgrown : ∀ claim ∈ c.told, Describes x.toNode claim (past ++ c'.lineage.commits) :=
    fun claim hm => (h.told claim hm).grow
      ((List.prefix_append_right_inj past).mpr hstep.commits_prefix)
  refine { h.toTraced.coreSteps (.single hstep) with told := ?_ }
  cases hstep with
  | tell claim known =>
    intro claim' hm
    rcases List.mem_append.mp hm with hm | hm
    · exact h.told claim' hm
    obtain rfl := List.mem_singleton.mp hm
    rcases known with rfl | ⟨entry, hget, hclaim⟩
    · exact h.describes_head
    · have hdescribes := h.describes hget
      rwa [← hclaim] at hdescribes
  | _ => exact hgrown

theorem Honest.healEdit (h : Honest node past c) (ha : EpochsAgree c) (hedit : HealEdit x c c') :
    Honest node past c' := by
  refine { h.toTraced.healEdit ha hedit with told := ?_ }
  cases hedit <;> exact h.told

-- -------- What a node suspects of others

def Wary (past : List Bytes) (peers : PeerID → List Bytes → Prop) (c : Core) : Prop :=
  ∀ event lineage, (event, lineage) ∈ c.suspected → ∀ commits, peers event.remotePeer commits →
    Chain.Diverged (past ++ lineage.commits) commits

def Sincere (node : Node) (peers : PeerID → List Bytes → Prop) (c : Core) : Prop :=
  ∀ wire ∈ c.arriving, ∀ env claim, wire.unmarshal = some env → env.payload.claim = some claim →
    ∀ commits, peers c.arrivedFrom commits → Describes node claim commits

theorem CoreStep.sincere (hstep : CoreStep x c c') (h : Sincere node peers c) :
    Sincere node peers c' := by
  cases hstep <;> exact h

theorem Describes.diverged (h : Describes node (e, r) commits)
    (h' : Describes node (e, r') commits') (hne : r ≠ r') : Chain.Diverged commits commits' := by
  refine Chain.Diverged.of_take (fun heq => hne ?_) h.1 h'.1
  exact h.2.trans ((congrArg node.historyAfter heq).trans h'.2.symm)

theorem Wary.coreStep (h : Wary past peers c) (hh : Honest x.toNode past c)
    (hsync : x.onSyncRequired = true) (hs : Sincere x.toNode peers c) (hstep : CoreStep x c c') :
    Wary past peers c' := by
  cases hstep with
  | suspect event wire env claim peer arrived said differs =>
    intro event' lineage hm commits hp
    rcases List.mem_append.mp hm with hm | hm
    · exact h event' lineage hm commits hp
    obtain ⟨rfl, rfl⟩ := Prod.mk.inj (List.mem_singleton.mp hm)
    have hsaid := hs wire arrived env claim said.1 said.2 commits (peer ▸ hp)
    rcases differs with ⟨hepoch, hne⟩ | ⟨entry, hget, hne⟩
    · have hown := hh.describes_head
      rw [← hepoch] at hown
      exact hown.diverged hsaid hne.symm
    · refine (hh.describes hget).diverged hsaid fun heq => ?_
      rw [hne heq] at hsync
      cases hsync
  | _ => exact h

theorem Wary.coreSteps (h : Wary past peers c) (hh : Honest x.toNode past c)
    (hsync : x.onSyncRequired = true) (hs : Sincere x.toNode peers c) (hsteps : CoreSteps x c c') :
    Honest x.toNode past c' ∧ Wary past peers c' := by
  suffices hall : Honest x.toNode past c' ∧ Wary past peers c' ∧ Sincere x.toNode peers c' from
    ⟨hall.1, hall.2.1⟩
  induction hsteps with
  | refl => exact ⟨hh, h, hs⟩
  | tail _ hstep ih =>
    obtain ⟨ihh, ihw, ihs⟩ := ih
    exact ⟨ihh.coreStep hstep, ihw.coreStep ihh hsync ihs hstep, hstep.sincere ihs⟩

-- -------- Runs of several nodes

theorem step_commits_extend (keeps : KeepsBranch s a) (hstep : step node a s = some s') :
    s.lineage.commits <+: s'.lineage.commits := by
  cases step_effect hstep with
  | moves hmoves => exact hmoves.steps.commits_prefix
  | edit hedit =>
    have hsame : s'.lineage = s.lineage := hedit.lineage
    exact hsame ▸ List.prefix_rfl
  | swap wake hop hs => exact absurd hs (keeps.2 wake hop)
  | restart view anchor hop => exact absurd hop (keeps.1 view anchor)

theorem step_wary (ha : EpochsAgree s.core) (hh : Honest node past s.core)
    (h : Wary past peers s.core) (hsync : node.onSyncRequired = true)
    (hs : Sincere node peers (s.arrive a.op).core) (keeps : KeepsBranch s a)
    (hstep : step node a s = some s') : Honest node past s'.core ∧ Wary past peers s'.core := by
  have harrive : Honest node past (s.arrive a.op).core :=
    { hh.toTraced.congr rfl rfl rfl rfl with told := hh.told }
  cases step_effect hstep with
  | moves hmoves =>
    exact Wary.coreSteps (x := a.ctx node)
      (c := (s.arrive a.op).core) h harrive hsync hs hmoves.steps
  | edit hedit =>
    refine ⟨harrive.healEdit (ha.arrive a.op) hedit, ?_⟩
    generalize s'.core = c' at hedit
    cases hedit <;> exact h
  | swap wake hop hs hswap => exact absurd hs (keeps.2 wake hop)
  | restart view anchor hop => exact absurd hop (keeps.1 view anchor)

theorem Booted.silent (h : Booted node allowed s) : s.told = [] ∧ s.suspected = [] := by
  obtain ⟨_, _, hcore⟩ := h.core
  exact ⟨congrArg Core.told hcore, congrArg Core.suspected hcore⟩

def otherCommits (node : ι → Node) (past : ι → List Bytes) (net : ι → State) (i : ι) (pid : PeerID)
    (commits : List Bytes) : Prop :=
  ∃ j, j ≠ i ∧ (node j).localID = pid ∧ commits = past j ++ (net j).lineage.commits

/-- What a received message says of a history is true of the node that hands it on: it told so
itself, at any time before, or it has taken these commits. The transport names the last hop, not
the publisher. -/
def Vouched (node : ι → Node) (past : ι → List Bytes) (net : ι → State) (a : Action) : Prop :=
  ∀ hop wire env claim, a.op = .receive hop wire → wire.unmarshal = some env →
    env.payload.claim = some claim → ∀ j, (node j).localID = hop →
      claim ∈ (net j).told ∨ Describes (node j) claim (past j ++ (net j).lineage.commits)

theorem Vouched.sincere {node : ι → Node} {net : ι → State} (h : Vouched node past net a)
    (hne : ∀ i, (node i).localID ≠ [])
    (hafter : ∀ i j, (node i).historyAfter = (node j).historyAfter)
    (hhonest : ∀ i, Honest (node i) (past i) (net i).core) (i : ι) (s : State) :
    Sincere (node i) (otherCommits node past net i) (s.arrive a.op).core := by
  rintro wire arrived env claim hwire hclaim commits ⟨j, -, hj, rfl⟩
  change wire ∈ a.op.arriving at arrived
  change (node j).localID = a.op.hop at hj
  cases hop : a.op with
  | receive pid data =>
    rw [hop] at arrived hj
    obtain rfl := List.mem_singleton.mp arrived
    have hdescribes : Describes (node j) claim (past j ++ (net j).lineage.commits) :=
      (h pid wire env claim hop hwire hclaim j hj).elim ((hhonest j).told claim) id
    exact ⟨hdescribes.1, hdescribes.2.trans (congrFun (hafter j i) _)⟩
  | _ =>
    rw [hop] at hj
    exact absurd hj (hne j)

/-- In every run of nodes that entered one group in a right way, without restarts and heals that
swap, whatever was lost, delayed or reordered, where each message is true of the node that hands
it on: a heal was only ever scheduled towards a peer whose commits are neither a prefix nor an
extension of those the node had taken by then. -/
theorem heals_only_towards_forks [DecidableEq ι] (node : ι → Node) (past : ι → List Bytes)
    (net₀ net : ι → State) (hgroup : ∀ i j, (node i).groupID = (node j).groupID)
    (hhash : ∀ i j, (node i).hash = (node j).hash)
    (hne : ∀ i, (node i).localID ≠ []) (hsync : ∀ i, (node i).onSyncRequired = true)
    (enters : ∀ i, Enters (node i) (past i) (net₀ i))
    (run : Transition.Run (Transition.interleave fun i => step (node i))
      (fun net e => KeepsBranch (net e.1) e.2 ∧ Vouched node past net e.2) net₀ net) :
    ∀ i j, i ≠ j → ∀ event lineage, (event, lineage) ∈ (net i).suspected →
      event.remotePeer = (node j).localID →
      ¬ past i ++ lineage.commits <+: past j ++ (net j).lineage.commits ∧
        ¬ past j ++ (net j).lineage.commits <+: past i ++ lineage.commits := by
  have hafter : ∀ i j, (node i).historyAfter = (node j).historyAfter := by
    intro i j
    unfold Node.historyAfter Node.genesis
    rw [hgroup i j, hhash i j]
  have hinv := run.invariant (fun net => ∀ i, EpochsAgree (net i).core ∧
      Honest (node i) (past i) (net i).core ∧
      Wary (past i) (otherCommits node past net i) (net i).core) ?_ ?_
  · intro i j hij event lineage hm hpeer
    exact (hinv i).2.2 event lineage hm _ ⟨j, hij.symm, hpeer.symm, rfl⟩
  · intro i
    obtain ⟨htold, hsuspected⟩ := (enters i).booted.silent
    refine ⟨(enters i).follows.toEpochsAgree, { (enters i).follows.toTraced with told := ?_ }, ?_⟩
    · rw [show (net₀ i).core.told = [] from htold]
      exact nofun
    intro event lineage hm
    rw [show (net₀ i).core.suspected = [] from hsuspected] at hm
    cases hm
  rintro net ⟨i, a⟩ net' h ⟨keeps, vouched⟩ hstep
  obtain ⟨s', hnext, rfl⟩ := Option.map_eq_some_iff.mp hstep
  have hsincere := vouched.sincere hne hafter (fun i => (h i).2.1) i (net i)
  obtain ⟨hhonest, hwary⟩ := step_wary (h i).1 (h i).2.1 (h i).2.2 (hsync i) hsincere keeps hnext
  intro k
  by_cases hk : k = i
  · subst hk
    rw [Function.update_self]
    refine ⟨step_epochsAgree (h k).1 hnext, hhonest, fun event lineage hm commits => ?_⟩
    rintro ⟨j, hj, hpeer, rfl⟩
    rw [Function.update_of_ne hj]
    exact hwary event lineage hm _ ⟨j, hj, hpeer, rfl⟩
  rw [Function.update_of_ne hk]
  refine ⟨(h k).1, (h k).2.1, fun event lineage hm commits => ?_⟩
  rintro ⟨j, hj, hpeer, rfl⟩
  have hbefore := (h k).2.2 event lineage hm _ ⟨j, hj, hpeer, rfl⟩
  by_cases hji : j = i
  · subst hji
    rw [Function.update_self]
    exact (hbefore.symm.grow ((List.prefix_append_right_inj _).mpr
      (step_commits_extend keeps hnext))).symm
  · rw [Function.update_of_ne hji]
    exact hbefore

namespace Reference

def trio (i : Fin 3) : Node :=
  { member (List.get [[65], [66], [67]] i) with onSyncRequired := true }

def trioStep : Fin 3 × Action → (Fin 3 → State) → Option (Fin 3 → State) :=
  Transition.interleave fun i => step (trio i)

def foundedTrio : Option (Fin 3 → State) :=
  (boot (trio 0) [[65]]).bind fun s => (boot (trio 1) [[66]]).bind fun s' =>
    (boot (trio 2) [[67]]).map fun s'' => List.get [s, s', s'']

theorem foundedTrio_enters (h : foundedTrio = some net) (i : Fin 3) :
    Enters (trio i) [] (net i) := by
  unfold foundedTrio at h
  obtain ⟨s, hs, h⟩ := Option.bind_eq_some_iff.mp h
  obtain ⟨s', hs', h⟩ := Option.bind_eq_some_iff.mp h
  obtain ⟨s'', hs'', rfl⟩ := Option.map_eq_some_iff.mp h
  match i with
  | 0 => exact .founded (boot_founded hs)
  | 1 => exact .founded (boot_founded hs')
  | 2 => exact .founded (boot_founded hs'')

def adds (i : Fin 3) (keyPackage : Bytes) : Fin 3 × Action :=
  (i, action (.addMember { targetPeerID := [68], keyPackageBytes := keyPackage }))

def announcedTrio : Option (Fin 3 → State) :=
  foundedTrio.bind (Transition.exec trioStep [adds 0 [5], adds 1 [9], (1, action .announce)])

def hears (hop : PeerID) (wire : Wire) : Fin 3 × Action := (0, action (.receive hop wire))

end Reference

open Reference in
/-- A founder that hears of another founder's branch schedules a heal, and the two have
diverged. -/
theorem founder_heals_towards_fork :
    ∃ net net' wire event lineage, announcedTrio = some net ∧
      (net 1).published.getLast? = some wire ∧ trioStep (hears [66] wire) net = some net' ∧
      (event, lineage) ∈ (net' 0).suspected ∧
      ¬ lineage.commits <+: (net' 1).lineage.commits ∧
      ¬ (net' 1).lineage.commits <+: lineage.commits := by
  obtain ⟨net, hnet, wire, hwire, net', hhears, claim, hclaim, ⟨event, lineage⟩, hsuspected, htold,
      hpeer⟩ : ∃ net, announcedTrio = some net ∧ ∃ wire, (net 1).published.getLast? = some wire ∧
      ∃ net', trioStep (hears [66] wire) net = some net' ∧
      ∃ claim, wire.unmarshal.bind (·.payload.claim) = some claim ∧
      ∃ suspected, (net' 0).suspected.head? = some suspected ∧ claim ∈ (net 1).told ∧
        suspected.1.remotePeer = [66] := by
    decide +kernel
  have hvouched : Vouched trio (fun _ => []) net (hears [66] wire).2 := by
    rintro pid data env claim' ⟨⟩ henv hclaim' j hj
    obtain rfl : j = 1 := by revert j; decide
    rw [henv, Option.bind_some, hclaim'] at hclaim
    exact .inl (Option.some.inj hclaim ▸ htold)
  have hexec := hnet
  unfold announcedTrio at hexec
  obtain ⟨net₀, hfounded, hexec⟩ := Option.bind_eq_some_iff.mp hexec
  have hrun : Transition.Run trioStep (fun net e => KeepsBranch (net e.1) e.2 ∧
      Vouched trio (fun _ => []) net e.2) net₀ net := by
    refine .of_exec hexec fun net e he => ?_
    simp only [List.mem_cons, List.not_mem_nil, or_false] at he
    rcases he with rfl | rfl | rfl <;>
      exact ⟨⟨nofun, nofun⟩, fun _ _ _ _ hop => Op.noConfusion hop⟩
  have hkeeps : KeepsBranch (net 0) (hears [66] wire).2 := ⟨nofun, nofun⟩
  have hdiverged := heals_only_towards_forks trio (fun _ => []) net₀ net' (fun _ _ => rfl)
    (fun _ _ => rfl) (by decide) (fun _ => rfl) (foundedTrio_enters hfounded)
    (.snoc _ hrun ⟨hkeeps, hvouched⟩ hhears) 0 1 (by decide) event lineage
    (List.mem_of_head? hsuspected) hpeer
  exact ⟨net, net', wire, event, lineage, hnet, hwire, hhears, List.mem_of_head? hsuspected,
    hdiverged⟩

open Reference in
/-- A peer that has taken no commit hands on the announcement of another branch, and the heal it
causes is scheduled towards that peer. -/
theorem relayed_announcement_heals_towards_relay :
    ∃ net, announcedTrio = some net ∧ ∃ wire, (net 1).published.getLast? = some wire ∧
      ∃ net', trioStep (hears [67] wire) net = some net' ∧
      ∃ suspected, (net' 0).suspected.head? = some suspected ∧
        suspected.1.remotePeer = (trio 2).localID ∧
        (net' 2).lineage.commits = [] ∧ (net' 2).lineage.commits <+: suspected.2.commits := by
  decide +kernel

end GroupCoordination
