import GroupCoordination.Properties.Gate

/-!
# Failover across nodes

A holder that lets its time pass is suspended, at each node by that node's own timer. A
node that becomes holder this way commits, and a node that has not come as far still
expects the commit of somebody else: it refuses the commit and marks it invalid.

The setting is a set of nodes in one epoch from which nobody has sent a commit yet. What
happens at the nodes is arbitrary as long as it is local; commits of the epoch are
delivered anywhere, in any order and any number of times. If every delivery to a node that
is still in the epoch finds it as far in its suspensions as the committer was, nothing is
ever marked invalid.
-/

namespace GroupCoordination

-- -------- Nothing to refuse

structure Calm (c : Core) : Prop where
  agree : EpochsAgree c
  empty : ∀ key, c.epochTracker.futureBuffer key = []
  idle : c.inflight = []
  stale : ∀ wire env, c.Known wire env → env.epoch ≤ c.epoch
  spent : ∀ wire env commit, c.Known wire env → env.payload = .commit commit → env.epoch < c.epoch

structure Quieted (c c' : Core) : Prop where
  invalid : c'.invalid = c.invalid
  dispatched : c'.dispatched = c.dispatched
  epoch : c.epoch ≤ c'.epoch

theorem Quieted.trans (h : Quieted c c') (h' : Quieted c' c'') : Quieted c c'' :=
  ⟨h'.invalid.trans h.invalid, h'.dispatched.trans h.dispatched, h.epoch.trans h'.epoch⟩

namespace Calm

variable {x : Ctx} {c c' : Core}

theorem entered (h : Calm c) (ha : EpochsAgree c') (he : c'.epoch = c.epoch + 1)
    (ht : c'.epochTracker = (c.epochTracker.advance (c.epoch + 1) newTreeHash).1)
    (hi : c'.inflight = (c.epochTracker.futureBuffer (c.epoch + 1)).map
      (c.epoch + 1, ·) ++ c.inflight)
    (hk : ∀ wire env, c'.Known wire env → c.Known wire env) : Calm c' where
  agree := ha
  empty key := by
    rw [ht]
    simp [EpochTracker.advance, h.empty]
  idle := by rw [hi, h.empty, h.idle]; rfl
  stale wire env hw := by
    have := h.stale wire env (hk wire env hw)
    omega
  spent wire env commit hw hp := by
    have := h.spent wire env commit (hk wire env hw) hp
    omega

theorem coreStep (h : Calm c) (hstep : CoreStep x c c') : Calm c' ∧ Quieted c c' := by
  have ha := h.agree.coreStep hstep
  cases hstep with
  | retain key wire source env known _ epoch ahead =>
    have := h.stale source env known
    have := h.agree.tracker
    omega
  | take key wire rest next =>
    rw [h.idle] at next
    cases next
  | commit env wire commit newState newTreeHash ledger known payload current
  | refuse env wire commit known payload current =>
    have := h.spent wire env commit known payload
    have := h.agree.tracker
    omega
  | issue =>
    exact ⟨h.entered ha rfl rfl rfl fun _ _ hw => hw, rfl, rfl, Nat.le_succ _⟩
  | _ => exact ⟨⟨ha, h.empty, h.idle, h.stale, h.spent⟩, rfl, rfl, le_rfl⟩

theorem coreSteps (h : Calm c) (hsteps : CoreSteps x c c') : Calm c' ∧ Quieted c c' := by
  induction hsteps with
  | refl => exact ⟨h, rfl, rfl, le_rfl⟩
  | tail _ hstep ih =>
    obtain ⟨hcalm, hquiet⟩ := ih
    obtain ⟨hcalm', hquiet'⟩ := hcalm.coreStep hstep
    exact ⟨hcalm', hquiet.trans hquiet'⟩

end Calm

/-- A node that has reached an epoch, keeps nothing for a later one, and has taken no commit
of the epoch out of its buffer. -/
structure Awaits (E : Nat) (c : Core) : Prop where
  agree : EpochsAgree c
  reached : E ≤ c.epoch
  empty : ∀ key, c.epochTracker.futureBuffer key = []
  idle : c.inflight = []
  seen : ∀ d ∈ c.dispatched, ∀ env, d.wire.unmarshal = some env →
    env.epoch ≤ E ∧ ∀ commit, env.payload = .commit commit → env.epoch < E

namespace Awaits

variable {x : Ctx} {c c' : Core} {E : Nat}

theorem calm (h : Awaits E c)
    (ha : ∀ wire ∈ c.arriving, ∀ env, wire.unmarshal = some env → env.epoch < c.epoch) :
    Calm c where
  agree := h.agree
  empty := h.empty
  idle := h.idle
  stale := by
    rintro wire env ⟨henv, hin | ⟨d, hd, rfl⟩⟩
    · exact (ha wire hin env henv).le
    · exact (h.seen d hd env henv).1.trans h.reached
  spent := by
    rintro wire env commit ⟨henv, hin | ⟨d, hd, rfl⟩⟩ hp
    · exact ha wire hin env henv
    · exact ((h.seen d hd env henv).2 commit hp).trans_le h.reached

theorem of_calm (h : Awaits E c) (hcalm : Calm c') (hq : Quieted c c') : Awaits E c' where
  agree := hcalm.agree
  reached := h.reached.trans hq.epoch
  empty := hcalm.empty
  idle := hcalm.idle
  seen := by rw [hq.dispatched]; exact h.seen

theorem coreSteps (h : Awaits E c)
    (ha : ∀ wire ∈ c.arriving, ∀ env, wire.unmarshal = some env → env.epoch < c.epoch)
    (hsteps : CoreSteps x c c') : Awaits E c' ∧ c'.invalid = c.invalid := by
  obtain ⟨hcalm, hq⟩ := (h.calm ha).coreSteps hsteps
  exact ⟨h.of_calm hcalm hq, hq.invalid⟩

end Awaits

-- -------- A commit that is valid where it arrives

section Delivery

variable {x : Ctx} {s : State} {call : Call → State → State} {E : Nat}

/-- A valid commit is left alone, or applied and whatever follows happens in the next epoch. -/
theorem processCommitLocked_valid (hcall : Reenters x call) (hk : s.core.Known wire env)
    (hpayload : env.payload = .commit commit) (he : env.epoch = s.epochTracker.epoch)
    (hval : validateCommitLocked x env commit s = .ok (newState, newTreeHash)) :
    (processCommitLocked x call env wire commit s).2 = s ∨
      ∃ db ledger c, c = (s.commitApplied x env commit db).core.enterEpoch x newState newTreeHash
          commit.commitData ledger ∧ CoreStep x s.core c ∧
        CoreSteps x c (processCommitLocked x call env wire commit s).2.core := by
  unfold processCommitLocked
  rw [hval]
  dsimp only
  split
  · exact .inl rfl
  · exact .inl rfl
  rename_i db hap
  right
  obtain ⟨hgate, hacc⟩ := validateCommitLocked_ok hval
  obtain ⟨hc, hstep⟩ := commitApplied_step hk hpayload he hgate hacc hap
  obtain ⟨coord, saved, hp, hsteps, -, -⟩ := advanceEpochLocked_steps hcall newState newTreeHash
    commit.commitData (s.commitApplied x env commit db) hc
  have happlied := advanceEpochLocked_applied hcall newState newTreeHash commit.commitData hc
    (List.mem_append_right _ List.mem_cons_self)
  refine ⟨db, { db.ledger with coord, saved }, _, rfl, hstep coord saved hp, ?_⟩
  exact hsteps.trans (settleCommitLocked_moves hcall
    ⟨env, commit, s.groupState, s.electorate x, s.singleWriter⟩ happlied).steps

theorem handleRawMessage_commit (call : Call → State → State) (pid : PeerID) (s : State)
    (henv : data.unmarshal = some env) (ht : env.type = .commit) :
    (handleRawMessage x call pid data s).core = s.core ∨
      handleRawMessage x call pid data s = (handleCommitLocked x call env data s).2 := by
  unfold handleRawMessage
  split
  · exact .inl rfl
  rename_i env' hraw
  obtain rfl : env' = env := Option.some.inj ((acceptsRaw_unmarshal hraw).symm.trans henv)
  unfold handleAcceptedLocked handleLiveLocked
  simp only [ht, true_or, if_true]
  split
  · split
    · exact .inl (State.storeOrWarn_core fun _ h => Storage.appendEnvelopeWithSource_ledger h)
    · exact .inl rfl
  · exact .inl (State.storeOrWarn_core fun _ h => Storage.appendEnvelopeWithSource_ledger h)
  · exact .inr rfl

theorem handleRawMessage_valid (hcall : Reenters x call) (h : Awaits E s.core) (hs : s.epoch = E)
    (ha : s.arriving = [data]) (henv : data.unmarshal = some env) (ht : env.type = .commit)
    (hpayload : env.payload = .commit commit) (he : env.epoch = E)
    (hval : validateCommitLocked x env commit s = .ok (newState, newTreeHash)) :
    Awaits E (handleRawMessage x call pid data s).core ∧
      (handleRawMessage x call pid data s).core.invalid = s.core.invalid := by
  have hsame : ∀ s' : State, s'.core = s.core → Awaits E s'.core ∧
      s'.core.invalid = s.core.invalid :=
    fun s' hc => ⟨hc ▸ h, congrArg Core.invalid hc⟩
  have htracker : s.epochTracker.epoch = s.epoch := h.agree.tracker
  have hnow : env.epoch = s.epochTracker.epoch := by omega
  have hk : s.core.Known data env :=
    ⟨henv, .inl (show data ∈ s.arriving from ha ▸ List.mem_cons_self)⟩
  rcases handleRawMessage_commit (x := x) call pid s henv ht with hc | heq
  · exact hsame _ hc
  have hv : s.epochTracker.validate env.epoch = .process := validateEpoch_process.mpr hnow
  rw [heq]
  simp only [handleCommitLocked, hv, hpayload]
  split
  · exact hsame s rfl
  rcases processCommitLocked_valid hcall hk hpayload hnow hval with
    hc | ⟨db, _, c, hc, hstep, hsteps⟩
  · exact hsame _ (congrArg State.core hc)
  -- The commit opened the next epoch; there it is one of the past.
  have hentered : Awaits E c := by
    refine ⟨h.agree.coreStep hstep, ?_, ?_, ?_, ?_⟩
    all_goals rw [hc]
    · exact h.reached.trans (Nat.le_succ _)
    · intro key
      change (if key ≤ _ then [] else s.epochTracker.futureBuffer key) = []
      rw [show s.epochTracker.futureBuffer key = [] from h.empty key, ite_self]
    · change (s.epochTracker.futureBuffer (s.epoch + 1)).map _ ++ s.inflight = []
      rw [show s.epochTracker.futureBuffer (s.epoch + 1) = [] from h.empty _,
        show s.inflight = [] from h.idle]
      rfl
    · exact h.seen
  have hinvalid : c.invalid = s.core.invalid := by rw [hc]; rfl
  obtain ⟨hawaits, hkept⟩ := hentered.coreSteps (x := x) (by
    rw [hc]
    intro wire hw env' henv'
    obtain rfl : wire = data := List.mem_singleton.mp (ha ▸ hw)
    obtain rfl : env' = env := Option.some.inj (henv'.symm.trans henv)
    change env'.epoch < s.epoch + 1
    omega) hsteps
  exact ⟨hawaits, hkept.trans hinvalid⟩

end Delivery

-- -------- Nodes as far in their suspensions as a committer

/-- A node that can follow a commit: it has the committer's view and policy, its engine
accepts the commit, and it suspends whom the committer suspended to get ahead, and not the
committer. -/
structure Concurs (x : Ctx) (s : State) (committer : PeerID) (i : IssuedCommit) : Prop where
  electorate : s.electorate x = i.electorate
  accepted : ∃ newState newTreeHash,
    CommitAccepted x.engine s.groupState i.commit newState newTreeHash
  trusts : committer ∉ s.singleWriter.suspended
  ahead : ∀ q ∈ i.singleWriter.suspended, i.electorate.Outranks i.singleWriter.epoch q committer →
    q ∈ s.singleWriter.suspended

theorem Electorate.computeHolder_of_suspended {E : Electorate}
    (h : E.computeHolder epoch batch suspended = .ok pid) (hpid : pid ∉ suspended')
    (hahead : ∀ q ∈ suspended, E.Outranks epoch q pid → q ∈ suspended') :
    E.computeHolder epoch batch suspended' = .ok pid := by
  obtain ⟨hmem, hadm, hfirst⟩ := computeHolder_iff.mp h
  have hbatch := of_decide_eq_true hadm
  refine computeHolder_iff.mpr ⟨hmem, decide_eq_true ⟨hbatch.1, hbatch.2.1, hpid⟩,
    fun q hq hadm' hout => ?_⟩
  have hq' := of_decide_eq_true hadm'
  by_cases hs : q ∈ suspended
  · exact hq'.2.2 (hahead q hs hout)
  · exact hfirst q hq (decide_eq_true ⟨hq'.1, hq'.2.1, hs⟩) hout

theorem Concurs.gate {x : Ctx} {s : State} {node : Node} (h : Concurs x s node.localID i)
    (hi : i.Elected node) (hover : i.OverBatch) (hpeers : node.peers.Lawful)
    (hlocal : node.localID ≠ []) (he : s.singleWriter.epoch = i.singleWriter.epoch) :
    GatePassed x.peers (s.electorate x) s.singleWriter i.env i.commit := by
  have hcodec : x.peers = node.peers := (congrArg Electorate.codec h.electorate).trans hi.codec
  have hholder : s.singleWriter.holderForBatch (s.electorate x) i.electedFor =
      .ok node.localID := by
    unfold SingleWriter.holderForBatch
    rw [h.electorate, he]
    exact Electorate.computeHolder_of_suspended hi.holder h.trusts h.ahead
  obtain ⟨-, hadm, -⟩ := Electorate.computeHolder_iff.mp hholder
  have hname : (s.electorate x).codec.toString node.localID ∉ removedByBatch i.electedFor :=
    (of_decide_eq_true hadm).2.1
  unfold GatePassed
  dsimp only
  rw [hi.carries hover, bufferedBatch_of_msgs, hi.sender, hcodec, hpeers.decode_sender hlocal]
  refine .inr (.inr ⟨hholder, removesPeer_eq_false hpeers hlocal ?_⟩)
  rw [← hcodec]
  exact hname

-- -------- Runs

/-- The events that bring in no message and leave the node on its branch, except for a
membership request. -/
def Op.isLocal : Op → Bool
  | .receive _ _ | .replay _ | .heal _ | .restart _ _ | .addMember _ | .removeMember _ => false
  | _ => true

/-- Local events, and deliveries of the epoch's commits to nodes that can follow them or have
left the epoch. -/
inductive Concurring {ι : Type} (nodes : ι → Node) (E : Nat) (net : ι → State) : ι × Action → Prop
  | isLocal (j : ι) (a : Action) (h : a.op.isLocal = true) : Concurring nodes E net (j, a)
  | deliver (j k : ι) (a : Action) (pid : PeerID) (i : IssuedCommit)
      (issued : i ∈ (net k).issuedCommits) (epoch : i.env.epoch = E)
      (op : a.op = .receive pid i.env.marshal)
      (concurs : (net j).epoch = E → Concurs (a.ctx (nodes j)) (net j) (nodes k).localID i) :
      Concurring nodes E net (j, a)

/-- A node in an epoch of which no commit has reached it, with nothing of a later epoch. -/
structure Fresh (E : Nat) (s : State) : Prop where
  awaits : Awaits E s.core
  epoch : s.epoch = E
  unissued : ∀ i ∈ s.issuedCommits, i.env.epoch ≠ E

def Announces (E : Nat) (node : Node) (s : State) : Prop :=
  ∀ i ∈ s.issuedCommits, i.env.epoch = E →
    i.Elected node ∧ i.OverBatch ∧ i.singleWriter.epoch = E

theorem CoreSteps.issued_epoch {x : Ctx} (h : EpochsAgree c) (hsteps : CoreSteps x c c')
    (hi : i ∈ c'.issuedCommits) : i ∈ c.issuedCommits ∨ i.singleWriter.epoch = i.env.epoch := by
  suffices (i ∈ c'.issuedCommits → i ∈ c.issuedCommits ∨ i.singleWriter.epoch = i.env.epoch) ∧
    EpochsAgree c' from this.1 hi
  clear hi
  induction hsteps with
  | refl => exact ⟨.inl, h⟩
  | tail _ hstep ih =>
    refine ⟨?_, ih.2.coreStep hstep⟩
    cases hstep with
    | issue issued result refs wire ledger electorate writer elected sender message =>
      intro hi
      rcases List.mem_append.mp hi with hold | hnew
      · exact ih.1 hold
      obtain rfl := List.mem_singleton.mp hnew
      right
      rw [writer, message.2.1]
      exact ih.2.writer
    | _ => exact ih.1

section Steps

variable {node : Node} {s s' : State} {a : Action} {E : Nat}

theorem Announces.moves (h : Announces E node s) (hs : EpochsAgree s.core)
    (hm : Moves (a.ctx node) s s') : Announces E node s' := by
  obtain ⟨new, hnew, hover⟩ := hm.issues
  obtain ⟨new', hnew', helected⟩ := hm.steps.issued_elected
  obtain rfl : new = new' := List.append_cancel_left (hnew.symm.trans hnew')
  intro i hi he
  rcases List.mem_append.mp (hnew ▸ hi) with hold | hlast
  · exact h i hold he
  refine ⟨helected i hlast, hover i hlast, ?_⟩
  rcases CoreSteps.issued_epoch hs hm.steps hi with hold | hepoch
  · exact (h i hold he).2.2
  · exact hepoch.trans he

theorem step_local (h : a.op.isLocal = true) (hstep : step node a s = some s') :
    Moves (a.ctx node) (s.arrive a.op) s' ∧ (s.arrive a.op).arriving = [] := by
  unfold step at hstep
  split at hstep
  next hop =>
    rw [hop] at h
    cases h
  obtain rfl := Option.some.inj hstep
  constructor
  · refine perform_batches (run_reenters a.fuel) a.op ?_ ?_ ?_ (s.arrive a.op) (fun _ hm => hm) rfl
    all_goals
      intro arg hop
      rw [hop] at h
      cases h
  · change a.op.arriving = []
    cases hop : a.op with
    | receive | replay => rw [hop] at h; cases h
    | _ => rfl

theorem Awaits.arrive (h : Awaits E s.core) (op : Op) : Awaits E (s.arrive op).core :=
  ⟨h.agree.arrive op, h.reached, h.empty, h.idle, h.seen⟩

/-- A delivered commit of the epoch finds the node able to follow it, or past the epoch. -/
theorem step_deliver (h : Awaits E s.core) (hop : a.op = .receive pid i.env.marshal)
    (he : i.env.epoch = E) (hi : i.Elected sender) (hover : i.OverBatch)
    (hwriter : i.singleWriter.epoch = E) (hpeers : sender.peers.Lawful)
    (hlocal : sender.localID ≠ []) (concurs : s.epoch = E → Concurs (a.ctx node) s sender.localID i)
    (hstep : step node a s = some s') :
    Moves (a.ctx node) (s.arrive a.op) s' ∧ Awaits E s'.core ∧
    s'.core.invalid = s.core.invalid := by
  have ha : (s.arrive a.op).arriving = [i.env.marshal] := by
    unfold State.arrive
    rw [hop]
    rfl
  have hmoves : Moves (a.ctx node) (s.arrive a.op) s' := by
    rw [Option.some.inj (hstep.symm.trans (step_receive hop))]
    refine handleRawMessage_moves (run_reenters a.fuel) (ha ▸ List.mem_cons_self) ?_
    exact congrArg Op.hop hop
  refine ⟨hmoves, ?_⟩
  have hawaits := h.arrive a.op
  rcases h.reached.eq_or_lt with hnow | hlater
  · have hc := concurs hnow.symm
    obtain ⟨newState, newTreeHash, haccepted⟩ := hc.accepted
    have hgate := hc.gate hi hover hpeers hlocal
      ((h.agree.writer.trans hnow.symm).trans hwriter.symm)
    rw [Option.some.inj (hstep.symm.trans (step_receive hop))]
    exact handleRawMessage_valid (run_reenters a.fuel) hawaits hnow.symm ha rfl hi.message.1
      hi.message.2 he (validateCommitLocked_of_accepted (s := s.arrive a.op) hgate haccepted)
  · refine hawaits.coreSteps (fun wire hw env henv => ?_) hmoves.steps
    obtain rfl : wire = i.env.marshal := List.mem_singleton.mp (ha ▸ hw)
    obtain rfl : i.env = env := Option.some.inj henv
    rw [he]
    exact hlater

end Steps

/-- The nodes are in one epoch of which no commit has been issued. In every run in which the
epoch's commits are delivered only to nodes that can follow them or have left the epoch, no
node ever marks a commit as invalid. -/
theorem failover_never_invalidates {ι : Type} [DecidableEq ι] (nodes : ι → Node) (E : Nat)
    (hpeers : ∀ k, (nodes k).peers.Lawful) (hlocal : ∀ k, (nodes k).localID ≠ [])
    (net₀ net : ι → State) (fresh : ∀ j, Fresh E (net₀ j))
    (run : Transition.Run (Transition.interleave fun j => step (nodes j)) (Concurring nodes E)
      net₀ net) (j : ι) :
    (net j).forkDetector.invalidCommits = (net₀ j).forkDetector.invalidCommits := by
  suffices ∀ j, Awaits E (net j).core ∧ Announces E (nodes j) (net j) ∧
    (net j).core.invalid = (net₀ j).core.invalid from (this j).2.2
  refine run.invariant_each (fun j s => Awaits E s.core ∧ Announces E (nodes j) s ∧
    s.core.invalid = (net₀ j).core.invalid) ?_ ?_
  · exact fun j => ⟨(fresh j).awaits, fun i hi he => absurd he ((fresh j).unissued i hi), rfl⟩
  intro net hinv j a s' ok hstep
  obtain ⟨hawaits, hannounces, hinvalid⟩ := hinv j
  replace hawaits := hawaits.arrive a.op
  replace hannounces : Announces E (nodes j) ((net j).arrive a.op) := hannounces
  cases ok with
  | isLocal _ _ h =>
    obtain ⟨hmoves, hnone⟩ := step_local h hstep
    obtain ⟨hawaits', hkept⟩ := hawaits.coreSteps (by
      intro wire hw
      rw [show ((net j).arrive a.op).core.arriving = [] from hnone] at hw
      cases hw) hmoves.steps
    exact ⟨hawaits', hannounces.moves hawaits.agree hmoves, hkept.trans hinvalid⟩
  | deliver _ k _ pid i issued epoch op concurs =>
    obtain ⟨helected, hover, hwriter⟩ := (hinv k).2.1 i issued epoch
    obtain ⟨hmoves, hawaits', hkept⟩ := step_deliver (hinv j).1 op epoch helected hover hwriter
      (hpeers k) (hlocal k) concurs hstep
    exact ⟨hawaits', hannounces.moves hawaits.agree hmoves, hkept.trans hinvalid⟩

def Reference.waiting (pid : PeerID) (rest : List Op) : Option State :=
  let proposal := Reference.wire 0 [65] .proposal
    (.proposal { proposalType := .add, data := [0, 9], proposalRef := [0, 9] })
  Reference.trace (Reference.node .testConfig CoordinatorConfig.testConfig_valid pid)
    [[65], [66], [67]] ((.receive [65] proposal :: rest).map Reference.action)

/-- One node suspends the holder and commits; another that has not suspended it yet refuses
the commit and marks it invalid. -/
theorem waiting_node_refuses_failover_commit :
    ((Reference.waiting [66] [.failoverTimer 0]).bind fun s =>
      s.issuedCommits.head?.bind fun i =>
        (Reference.waiting [67] [.receive [66] i.env.marshal]).map fun p =>
          (i.singleWriter.suspended, p.singleWriter.suspended, p.epoch,
            p.forkDetector.invalidCommits.length)) = some ([[65]], [], 0, 1) := by
  decide +kernel

theorem Reference.waiting_fresh (hpid : pid ∈ [[66], [67]])
    (h : Reference.waiting pid [] = some s) : Fresh 0 s := by
  have hvalues : (Reference.waiting pid []).map (fun s => (s.epoch, s.epochTracker.futureBuffer,
      s.inflight, s.dispatched, s.issuedCommits)) = some (0, fun _ => [], [], [], []) := by
    rcases List.mem_cons.mp hpid with rfl | hpid
    · with_unfolding_all rfl
    · obtain rfl := List.mem_singleton.mp hpid
      with_unfolding_all rfl
  rw [h] at hvalues
  obtain ⟨hepoch, hvalues⟩ := Prod.mk.inj (Option.some.inj hvalues)
  obtain ⟨hbuffer, hvalues⟩ := Prod.mk.inj hvalues
  obtain ⟨hidle, hvalues⟩ := Prod.mk.inj hvalues
  obtain ⟨hdispatched, hissued⟩ := Prod.mk.inj hvalues
  have hagree : EpochsAgree s.core := by
    unfold Reference.waiting Reference.trace at h
    obtain ⟨s₀, hboot, hexec⟩ := Option.bind_eq_some_iff.mp h
    have hrun : Transition.Run
      (step (Reference.node .testConfig CoordinatorConfig.testConfig_valid pid))
        (fun _ _ => True) s₀ s := .of_exec hexec fun _ _ _ => trivial
    have hstart : Booted _ (fun _ => True) s₀ := Reference.boot_booted hboot trivial
    exact hrun.invariant (fun s => EpochsAgree s.core) hstart.epochsAgree fun _ _ _ h _ hstep =>
      step_epochsAgree h hstep
  refine ⟨⟨hagree, Nat.zero_le _, fun key => congrFun hbuffer key, hidle, ?_⟩, hepoch, ?_⟩
  · intro d hd
    rw [show s.core.dispatched = [] from hdispatched] at hd
    cases hd
  · intro i hi
    rw [hissued] at hi
    cases hi

theorem Reference.waiting_snoc (pid : PeerID) (ops : List Op) (op : Op) :
    Reference.waiting pid (ops ++ [op]) = (Reference.waiting pid ops).bind
      (step (Reference.node .testConfig CoordinatorConfig.testConfig_valid pid)
        (Reference.action op)) := by
  unfold waiting trace
  simp only [← List.cons_append, List.map_append, List.map_cons, List.map_nil, Option.bind_assoc]
  congr 1
  funext s
  exact Transition.exec_snoc _ _ s

theorem Reference.waiting_electorate :
    (Reference.waiting [66] [.failoverTimer 0]).map (fun s => s.issuedCommits.map fun i =>
      (i.electorate.hash, i.electorate.codec, i.electorate.authorized)) =
        some [(Reference.hash, Reference.peers, none)] := by
  with_unfolding_all rfl

open Reference in
/-- A node that has suspended the holder as well follows the commit. -/
theorem suspended_holder_commit_followed :
    let nodes (k : Bool) := node .testConfig CoordinatorConfig.testConfig_valid
      (if k then [66] else [67])
    ∃ net₀ net : Bool → State, (∀ k, Fresh 0 (net₀ k)) ∧
      Transition.Run (Transition.interleave fun k => step (nodes k)) (Concurring nodes 0) net₀ net ∧
      (net false).epoch = 1 ∧
      (net false).forkDetector.invalidCommits = (net₀ false).forkDetector.invalidCommits := by
  intro nodes
  -- The run, with every value the last delivery depends on.
  obtain ⟨s, hs, i, hi, p, hp, p', hp', hepoch, hsuspended, hgroup, hmembers, hdata,
    hincluded, hrefs,
      hstate, hsuspended', hdone⟩ : ∃ s, waiting [66] [.failoverTimer 0] = some s ∧
      ∃ i, s.issuedCommits.head? = some i ∧ ∃ p, waiting [67] [.failoverTimer 0] = some p ∧
      ∃ p', waiting [67] ([.failoverTimer 0] ++ [.receive [66] i.env.marshal]) = some p' ∧
        i.env.epoch = 0 ∧ i.singleWriter.suspended = [[65]] ∧ i.electorate.groupID = "g" ∧
        i.electorate.members = p.activeView.sortedMembers ∧ i.commit.commitData = [7, 0, 9] ∧
        i.commit.includedProposals.map (·.data) = [[0, 9]] ∧
        i.commit.committedProposalRefs = [[0, 9]] ∧ p.groupState = [1, 0, 9] ∧
        p.singleWriter.suspended = [[65]] ∧ p'.epoch = 1 := by
    decide +kernel
  have hfields := waiting_electorate
  rw [hs] at hfields
  obtain ⟨hhash, hcodec, hauthorized⟩ : i.electorate.hash = hash ∧
      i.electorate.codec = peers ∧ i.electorate.authorized = none := by
    cases hl : s.issuedCommits with
    | nil => simp [hl] at hi
    | cons j rest =>
      simp only [hl, List.head?_cons, Option.some.injEq] at hi
      simp only [hl, hi, Option.map_some, List.map_cons, Option.some.injEq, List.cons.injEq,
        Prod.mk.injEq] at hfields
      exact hfields.1
  rw [waiting_snoc, hp, Option.bind_some] at hp'
  obtain ⟨s₀, hs₀, hfires⟩ := Option.bind_eq_some_iff.mp ((waiting_snoc [66] [] _) ▸ hs)
  obtain ⟨p₀, hp₀, hfires'⟩ := Option.bind_eq_some_iff.mp ((waiting_snoc [67] [] _) ▸ hp)
  let net₀ : Bool → State := fun k => if k then s₀ else p₀
  let net₁ := Function.update net₀ true s
  let net₂ := Function.update net₁ false p
  let net₃ := Function.update net₂ false p'
  have hfresh : ∀ k, Fresh 0 (net₀ k) := by
    rintro (_ | _)
    · exact waiting_fresh (by decide) hp₀
    · exact waiting_fresh (by decide) hs₀
  have hconcurs : Concurs ((action (.receive [66] i.env.marshal)).ctx (nodes false)) p [66] i := by
    refine ⟨?_, ⟨[1, 1], [1], ⟨[[0, 9]], ?_, ?_⟩, ?_⟩, ?_, ?_⟩
    · ext1
      · exact hhash.symm
      · exact hcodec.symm
      · exact hgroup.symm
      · exact hmembers.symm
      · exact hauthorized.symm
    · unfold proposalBytesFromMsgs
      rw [hstate, hdata, hincluded]
      rfl
    · rw [hrefs]
      exact .inr (.refl _)
    · unfold proposalBytesFromMsgs
      rw [hstate, hdata, hincluded]
      rfl
    · rw [hsuspended']
      decide
    · rw [hsuspended, hsuspended']
      exact fun q hq _ => hq
  have hrun : Transition.Run (Transition.interleave fun k => step (nodes k)) (Concurring nodes 0)
      net₀ net₃ := by
    have hfirst : Transition.interleave (fun k => step (nodes k))
        (true, action (.failoverTimer 0)) net₀ = some net₁ := congrArg (Option.map _) hfires
    have hsecond : Transition.interleave (fun k => step (nodes k))
        (false, action (.failoverTimer 0)) net₁ = some net₂ := congrArg (Option.map _) hfires'
    have hthird : Transition.interleave (fun k => step (nodes k))
        (false, action (.receive [66] i.env.marshal)) net₂ = some net₃ :=
      congrArg (Option.map _) hp'
    refine .snoc _ (.snoc _ (.snoc _ .refl ?_ hfirst) ?_ hsecond) ?_ hthird
    · exact .isLocal true _ rfl
    · exact .isLocal false _ rfl
    · refine .deliver false true _ [66] i ?_ hepoch rfl fun _ => hconcurs
      exact List.mem_of_mem_head? hi
  exact ⟨net₀, net₃, hfresh, hrun, hdone,
    failover_never_invalidates nodes 0 (fun _ => peers_lawful) (by decide) net₀ net₃ hfresh
      hrun false⟩

end GroupCoordination
