import GroupCoordination.Properties.Election
import GroupCoordination.Properties.EpochAgreement

/-!
# The single-writer gate, from both sides

A committer is elected over a batch of its own buffer; a receiver runs the election over
the batch the commit carries. For a commit over the buffer the two batches are one. A
membership request carries only its own proposal, and a removal is elected before that
proposal exists, so a policy that looks at the batch can elect someone else there.

The receiver's side is a gate on what the envelope says: the peer it names, and the
proposals it carries.
-/

namespace GroupCoordination

-- -------- Issuing

/-- The holder for one batch is the holder for another: admitted there, and ahead of
everyone admitted there only. -/
def Electorate.Prevails (E : Electorate) (epoch : Nat) (suspended : List PeerID)
    (elected carried : List BufferedProposal) (pid : PeerID) : Prop :=
  E.admits epoch suspended carried pid = true ∧
    ∀ q ∈ E.members, E.admits epoch suspended carried q = true →
      E.admits epoch suspended elected q = false → E.Outranks epoch pid q

theorem Electorate.admits_congr {E : Electorate} (h : ∀ q, q ∈ suspended ↔ q ∈ suspended') :
    E.admits epoch suspended = E.admits epoch suspended' := by
  funext batch pid
  simp only [admits, h]

structure IssuedCommit.Elected (node : Node) (i : IssuedCommit) : Prop where
  holder : i.singleWriter.holderForBatch i.electorate i.electedFor = .ok node.localID
  sender : i.env.from = node.peers.toString node.localID
  message : i.env.type = .commit ∧ i.env.payload = .commit i.commit
  carries : i.OverBatch → i.commit.includedProposals = proposalMsgsFromBatch i.electedFor
  codec : i.electorate.codec = node.peers

theorem CoreSteps.issued_elected {x : Ctx} (h : CoreSteps x c c') :
    ∃ new, c'.issuedCommits = c.issuedCommits ++ new ∧ ∀ i ∈ new, i.Elected x.toNode := by
  induction h with
  | refl => exact ⟨[], (List.append_nil _).symm, fun _ hm => absurd hm List.not_mem_nil⟩
  | tail _ hstep ih =>
    obtain ⟨new, hnew, hok⟩ := ih
    cases hstep with
    | issue issued result refs wire ledger electorate writer elected sender message carries =>
      refine ⟨new ++ [issued], by rw [← List.append_assoc, ← hnew], fun i hi => ?_⟩
      rcases List.mem_append.mp hi with hold | hlast
      · exact hok i hold
      obtain rfl := List.mem_singleton.mp hlast
      refine ⟨?_, sender, ⟨message.1, message.2.2⟩, carries, congrArg Electorate.codec electorate⟩
      rw [electorate, writer]
      exact elected
    | _ => exact ⟨new, hnew, hok⟩

/-- A peer that would hold the same election as the committer did. -/
structure SameElection (y : Ctx) (p : State) (i : IssuedCommit) : Prop where
  electorate : p.electorate y = i.electorate
  epoch : p.singleWriter.epoch = i.singleWriter.epoch
  suspended : ∀ q, q ∈ p.singleWriter.suspended ↔ q ∈ i.singleWriter.suspended

theorem SameElection.holderForBatch (h : SameElection y p i) (batch : List BufferedProposal) :
    p.singleWriter.holderForBatch (p.electorate y) batch = .ok pid ↔
      i.singleWriter.holderForBatch i.electorate batch = .ok pid := by
  unfold SingleWriter.holderForBatch
  rw [h.electorate, h.epoch, Electorate.computeHolder_eq_ok, Electorate.computeHolder_eq_ok,
    Electorate.admits_congr h.suspended]

theorem IssuedCommit.Elected.checkCommitter_iff {y : Ctx} (hi : i.Elected node)
    (hpeers : node.peers.Lawful) (hlocal : node.localID ≠ []) (h : SameElection y p i) :
    checkCommitter y i.env batch p = .ok () ↔ batch = [] ∨
      i.electorate.Prevails i.singleWriter.epoch i.singleWriter.suspended i.electedFor batch
        node.localID := by
  have hcodec : y.peers = node.peers := (congrArg Electorate.codec h.electorate).trans hi.codec
  rw [GroupCoordination.checkCommitter_iff (hcodec ▸ hpeers) hlocal (hcodec ▸ hi.sender),
    h.holderForBatch]
  exact or_congr_right (Electorate.computeHolder_transfer hi.holder)

/-- A membership request commits with the consent of the election over its own proposal. -/
def Op.Prevails (x : Ctx) (s : State) (op : Op) : Prop :=
  ∃ r, op.request x s = some r ∧ (s.electorate x).Prevails s.singleWriter.epoch
    s.singleWriter.suspended r.electedFor [r.proposal] x.localID

theorem step_issues (hstep : step node a s = some s') :
    Issues (fun i => i.By (a.ctx node) a.op s ∧ i.Elected node) s s' := by
  have hnone : s'.core.issuedCommits = s.core.issuedCommits →
      Issues (fun i => i.By (a.ctx node) a.op s ∧ i.Elected node) s s' := .none
  cases step_effect hstep with
  | moves h =>
    obtain ⟨new, hnew, hby⟩ := h.issues
    obtain ⟨new', hnew', helected⟩ := h.steps.issued_elected
    obtain rfl : new = new' := List.append_cancel_left (hnew.symm.trans hnew')
    exact ⟨new, hnew, fun i hi => ⟨hby i hi, helected i hi⟩⟩
  | edit h =>
    generalize s'.core = c' at hnone h
    cases h <;> exact hnone rfl
  | swap wake hop hs h =>
    generalize s'.core = c' at hnone h
    cases h
    exact hnone rfl
  | restart view anchor hop h =>
    obtain ⟨s₁, -, hcore⟩ := restart_core h
    exact hnone (by rw [hcore])

/-- Every commit a step issues is accepted by every peer that would hold the same election,
if and only if it is over a batch of the buffer or the request prevails: the requester is
admitted for the batch that holds its own proposal only, and outranks everyone admitted
for that batch but not for the one it was elected over. -/
theorem issued_commit_accepted_iff (node : Node) (hpeers : node.peers.Lawful)
    (hlocal : node.localID ≠ []) (a : Action) (s s' : State) (hstep : step node a s = some s') :
    ∃ new, s'.issuedCommits = s.issuedCommits ++ new ∧ ∀ i ∈ new, ∀ y p, SameElection y p i →
      (checkCommitter y i.env (bufferedBatchFromProposalMsgs i.commit.includedProposals) p = .ok
        () ↔
        i.OverBatch ∨ a.op.Prevails (a.ctx node) s) := by
  obtain ⟨new, hnew, hok⟩ := step_issues hstep
  refine ⟨new, hnew, fun i hi y p hsame => ?_⟩
  obtain ⟨hby, helected⟩ := hok i hi
  rw [helected.checkCommitter_iff hpeers hlocal hsame]
  by_cases hbatch : i.OverBatch
  · -- The receiver's batch is the committer's.
    rw [helected.carries hbatch, bufferedBatch_of_msgs]
    have hself := (Electorate.computeHolder_transfer helected.holder).mp helected.holder
    exact iff_of_true (.inr hself) (.inl hbatch)
  obtain ⟨r, hr, hans⟩ := hby.resolve_left hbatch
  simp only [hbatch, false_or, hans.carried, List.cons_ne_nil, hans.electorate, hans.epoch,
    hans.suspended, hans.elected]
  constructor
  · exact fun hp => ⟨r, hr, hp⟩
  rintro ⟨r', hr', hp⟩
  obtain rfl : r = r' := Option.some.inj (hr.symm.trans hr')
  exact hp

open Reference in
/-- An addition on a token holder issues one commit, to which this applies. -/
theorem issued_addition_accepted_iff :
    let node := node .testConfig CoordinatorConfig.testConfig_valid [65]
    let a := action (.addMember { targetPeerID := [67], keyPackageBytes := [5] })
    ∃ s s', trace node [[65], [66]] [] = some s ∧ step node a s = some s' ∧
      s'.issuedCommits.length = 1 ∧
      ∃ new, s'.issuedCommits = s.issuedCommits ++ new ∧ ∀ i ∈ new, ∀ y p, SameElection y p i →
        (checkCommitter y i.env (bufferedBatchFromProposalMsgs i.commit.includedProposals) p =
          .ok () ↔ i.OverBatch ∨ a.op.Prevails (a.ctx node) s) := by
  intro node a
  obtain ⟨s, hs, s', hstep, hlen⟩ : ∃ s, trace node [[65], [66]] [] = some s ∧
      ∃ s', step node a s = some s' ∧ s'.issuedCommits.length = 1 := by
    decide +kernel
  exact ⟨s, s', hs, hstep, hlen,
    issued_commit_accepted_iff node peers_lawful (by decide) a s s' hstep⟩

def Reference.removalsBy (pid : PeerID) : AuthorizedCommittersProvider := fun _ _ batch =>
  .ok (if batch.any (·.type = .remove) then [pid] else [[65], [66], [67]])

open Reference in
/-- Under such a policy the holder for an empty buffer issues a removal that a peer with the
same epoch, view, suspensions and policy refuses. -/
theorem removal_refused_by_peer :
    let node := node .testConfig CoordinatorConfig.testConfig_valid
    let world := { world with authorized := some (removalsBy [66]) }
    let a : Action :=
      { world, fuel := 4, op := .removeMember { targetPeerID := [67], targetIdentity := [1] } }
    let view := [[65], [66], [67]]
    ((trace (node [65]) view []).bind fun s =>
      (trace (node [66]) view []).bind fun p =>
        (step (node [65]) a s).map fun s' =>
          (decide (p.epoch = s.epoch ∧ p.singleWriter = s.singleWriter ∧
              p.activeView.sortedMembers = s.activeView.sortedMembers),
            s'.issuedCommits.map fun i => (i.path,
              (checkCommitter (a.ctx (node [66])) i.env
                (bufferedBatchFromProposalMsgs i.commit.includedProposals) p).isOk))) =
      some (true, [(.removeMember, false)]) := by
  decide +kernel

-- -------- Receiving

/-- What let a commit in, at the moment it was applied. -/
structure AppliedCommit.Gated (node : Node) (applied : AppliedCommit) : Prop where
  gate : GatePassed node.peers applied.electorate applied.singleWriter applied.env applied.commit
  epoch : applied.env.epoch = applied.singleWriter.epoch
  group : applied.electorate.groupID = node.groupID

theorem CoreStep.applied_gated {node : Node} {a : Action} (h : EpochsAgree c)
    (hstep : CoreStep (a.ctx node) c c') (hc : ∀ applied ∈ c.appliedCommits, applied.Gated node) :
    ∀ applied ∈ c'.appliedCommits, applied.Gated node := by
  cases hstep with
  | commit env wire commit newState newTreeHash ledger known _ current gate =>
    intro applied hm
    rcases List.mem_append.mp hm with hold | hnew
    · exact hc applied hold
    · rw [List.mem_singleton.mp hnew]
      exact ⟨gate, current.trans (h.tracker.trans h.writer.symm), rfl⟩
  | _ => exact hc

theorem CoreSteps.epoch_account {x : Ctx} (h : CoreSteps x c c') :
    c'.epoch + c.appliedCommits.length + c.issuedCommits.length =
      c.epoch + c'.appliedCommits.length + c'.issuedCommits.length := by
  induction h with
  | refl => rfl
  | tail _ hstep ih =>
    cases hstep with
    | commit | issue =>
      simp only [Core.enterEpoch, List.length_append, List.length_singleton]
      omega
    | _ => exact ih

theorem Booted.applied_nil (h : Booted node allowed s) : s.appliedCommits = [] := by
  obtain ⟨_, _, hcore⟩ := h.core
  exact congrArg Core.appliedCommits hcore

theorem step_applied_gated (h : EpochsAgree s.core)
    (hs : ∀ applied ∈ s.core.appliedCommits, applied.Gated node) (hstep : step node a s = some s') :
    ∀ applied ∈ s'.core.appliedCommits, applied.Gated node := by
  replace h := h.arrive a.op
  replace hs : ∀ applied ∈ (s.arrive a.op).core.appliedCommits, applied.Gated node := hs
  cases step_effect hstep with
  | moves hmoves =>
    suffices (∀ applied ∈ s'.core.appliedCommits, applied.Gated node) ∧
      EpochsAgree s'.core from this.1
    have hsteps := hmoves.steps
    generalize s'.core = c' at hsteps
    induction hsteps with
    | refl => exact ⟨hs, h⟩
    | tail _ hcore ih => exact ⟨hcore.applied_gated ih.2 ih.1, ih.2.coreStep hcore⟩
  | edit hedit =>
    generalize s'.core = c' at hedit
    cases hedit <;> exact hs
  | swap wake hop hat hswap =>
    generalize s'.core = c' at hswap
    cases hswap
    exact hs
  | restart view anchor hop hrestart =>
    obtain ⟨s₁, -, hcore⟩ := restart_core hrestart
    rw [hcore]
    exact hs

theorem step_epoch_account (h : EpochsAgree s.core) (ok : KeepsBranch s a)
    (hstep : step node a s = some s') :
    s'.epoch + s.appliedCommits.length + s.issuedCommits.length =
      s.epoch + s'.appliedCommits.length + s'.issuedCommits.length := by
  replace h := h.arrive a.op
  change s'.core.epoch + (s.arrive a.op).core.appliedCommits.length +
      (s.arrive a.op).core.issuedCommits.length =
    (s.arrive a.op).core.epoch + s'.core.appliedCommits.length + s'.core.issuedCommits.length
  cases step_effect hstep with
  | moves hmoves => exact hmoves.steps.epoch_account
  | edit hedit =>
    generalize s'.core = c' at hedit
    cases hedit with
    | restore stored here => rw [← h.restored here]
    | _ => rfl
  | swap wake hop hs hswap => exact absurd hs (ok.2 wake hop)
  | restart view anchor hop hrestart => exact absurd hop (ok.1 view anchor)

/-- In every run each received commit that was applied carries no proposals, or names no
peer that can be decoded, or names the holder for the proposals it carries, who survives
them, in the epoch, view and suspensions of the moment it was applied. On its branch a node
changes epoch exactly by applying and issuing commits. -/
theorem commits_applied_through_gate (node : Node) (s₀ s : State)
    (boot : Booted node (fun _ => True) s₀)
    (run : Transition.Run (step node) (fun _ _ => True) s₀ s) :
    (∀ applied ∈ s.appliedCommits, applied.Gated node) ∧
    ∀ a s', KeepsBranch s a → step node a s = some s' →
      s'.epoch + s.appliedCommits.length + s.issuedCommits.length =
        s.epoch + s'.appliedCommits.length + s'.issuedCommits.length := by
  have hinv : EpochsAgree s.core ∧ ∀ applied ∈ s.core.appliedCommits, applied.Gated node := by
    refine run.invariant (fun s => EpochsAgree s.core ∧
      ∀ applied ∈ s.core.appliedCommits, applied.Gated node) ?_ fun _ _ _ h _ hstep =>
        ⟨step_epochsAgree h.1 hstep, step_applied_gated h.1 h.2 hstep⟩
    refine ⟨boot.epochsAgree, fun applied hm => ?_⟩
    rw [show s₀.core.appliedCommits = [] from boot.applied_nil] at hm
    cases hm
  exact ⟨hinv.2, fun a s' ok hstep => step_epoch_account hinv.1 ok hstep⟩

open Reference in
/-- A commit of the holder is applied. -/
theorem holder_commit_gated :
    let node := node .testConfig CoordinatorConfig.testConfig_valid [66]
    let commit := wire 0 [65] .commit
      (.commit (commitMsg 0 9 { proposalType := .add }))
    ∃ s, trace node [[65], [66]] [action (.receive [65] commit)] = some s ∧
      s.appliedCommits.length = 1 ∧ ∀ applied ∈ s.appliedCommits, applied.Gated node := by
  intro node commit
  obtain ⟨s, htrace, hlen⟩ : ∃ s, trace node [[65], [66]] [action (.receive [65] commit)] = some s ∧
      s.appliedCommits.length = 1 := by
    decide +kernel
  obtain ⟨s₀, hboot, hexec⟩ := Option.bind_eq_some_iff.mp htrace
  have hgated := commits_applied_through_gate node s₀ s (boot_booted hboot trivial)
    (.of_exec hexec (by simp))
  exact ⟨s, htrace, hlen, hgated.1⟩

open Reference in
/-- A member that is not the holder has its commit applied, under the holder's name, under none,
or under its own if the commit names no proposals. -/
theorem commit_of_other_peer_applied :
    let node := node .testConfig CoordinatorConfig.testConfig_valid [66]
    let commit := commitMsg 0 9 { proposalType := .add }
    let batch := bufferedBatchFromProposalMsgs commit.includedProposals
    let send (env : Envelope) := action (.receive [67] env.marshal)
    let env : Envelope :=
      { type := .commit, groupID := "g", epoch := 0, «from» := "A", timestamp := {},
        payload := .commit commit }
    let bare : Payload := .commit { commitData := [7, 0], newTreeHash := [1] }
    let x := (send env).ctx node
    (trace node [[65], [66], [67]] []).map
        (fun s => (s.holderForBatch x batch).toOption) = some (some [65]) ∧
      (trace node [[65], [66], [67]] [send env]).map State.epoch = some 1 ∧
      (trace node [[65], [66], [67]] [send { env with «from» := "" }]).map State.epoch =
        some 1 ∧
      (trace node [[65], [66], [67]] [send { env with «from» := "C", payload := bare }]).map
        State.epoch = some 1 := by
  decide +kernel

end GroupCoordination
