import GroupCoordination.Model.Reference
import GroupCoordination.Refinement.Events

/-!
# Who changes the membership

The service asks for a role before it adds or removes a member. A proposal that comes in over the
network is committed whatever the role of its proposer: the token holder processes it, buffers it
and commits it with its batch, and turns a request to join into a removal and an addition. Every
change that a node commits goes back to a request made here or to a proposal of a peer, so a group
whose ordinary members only propose changes of themselves is safe, and no other is.

Who made an envelope is a parameter; on the gossip topic any peer may hand it over.
-/

namespace GroupCoordination

-- -------- Where a change comes from

inductive MemberRole
  | creator
  | admin
  | member
  deriving DecidableEq

structure MLSMeaning where
  /-- The peer that a proposal removes or adds. -/
  subject : ProposalType → Bytes → Option PeerID
  /-- The peer whose identity or key package this is. -/
  owner : ProposalType → Bytes → Option PeerID

def MLSMeaning.Respected (M : MLSMeaning) (engine : MLSEngine) : Prop :=
  ∀ groupState pType data result, engine.createProposal groupState pType data = .ok result →
    M.subject pType result.proposalBytes = M.owner pType data

def Envelope.proposal? (env : Envelope) : Option ProposalMsg :=
  match env.type, env.payload with
  | .proposal, .proposal p => some p
  | _, _ => none

def Op.requests : Op → Option (ProposalType × Bytes)
  | .addMember req => some (.add, req.keyPackageBytes)
  | .removeMember req => some (.remove, req.targetIdentity)
  | .propose pType data => some (pType, data)
  | _ => none

def Op.sends (proposer : Wire → PeerID) : Op → Option (PeerID × ProposalMsg)
  | .receive _ data => (data.unmarshal.bind Envelope.proposal?).map (proposer data, ·)
  | _ => none

/-- What a request to join makes its receiver propose. -/
def ProposalMsg.Brings (q : ProposalMsg) (pType : ProposalType) (data : Bytes) : Prop :=
  q.proposalType = .join ∧
    (pType = .remove ∧ data = q.joinIdentity ∨ pType = .add ∧ data = q.data)

section Causes

variable (proposer : Wire → PeerID) (node : Node) (s₀ : State) (actions : List Action)

def AskedHere (pType : ProposalType) (data : Bytes) : Prop :=
  (∃ op ∈ s₀.storage.pendingOperations, op.proposalType = pType ∧ op.semanticPayload = data) ∨
    ∃ a ∈ actions, a.op.requests = some (pType, data)

def MadeHere (pType : ProposalType) (data bytes : Bytes) : Prop :=
  ∃ a ∈ actions, ∃ groupState result,
    (a.ctx node).engine.createProposal groupState pType data = .ok result ∧
      result.proposalBytes = bytes

/-- Why a proposal is there: the local node asked for it, or the peer made it or asked to join. -/
inductive Cause (pType : ProposalType) (bytes : Bytes) : Option PeerID → Prop
  | own (data : Bytes) (asked : AskedHere s₀ actions pType data)
      (made : MadeHere node actions pType data bytes) : Cause pType bytes none
  | sent (pid : PeerID) (q : ProposalMsg) (a : Action) (mem : a ∈ actions)
      (sends : a.op.sends proposer = some (pid, q)) (plain : q.proposalType ≠ .join)
      (type : q.proposalType = pType) (same : q.data = bytes) : Cause pType bytes (some pid)
  | joined (pid : PeerID) (q : ProposalMsg) (a : Action) (mem : a ∈ actions)
      (sends : a.op.sends proposer = some (pid, q)) (data : Bytes) (brings : q.Brings pType data)
      (made : MadeHere node actions pType data bytes) : Cause pType bytes (some pid)

def Scope.caused : Scope where
  batches := True
  kept := False
  asks pType data := AskedHere s₀ actions pType data ∨
    ∃ a ∈ actions, ∃ pid q, a.op.sends proposer = some (pid, q) ∧ q.Brings pType data
  founds pType bytes := ∃ who, Cause proposer node s₀ actions pType bytes who

end Causes

section Runs

variable {proposer : Wire → PeerID} {node : Node} {s₀ s s' : State} {actions : List Action}
  {a : Action}

theorem Scope.caused_fits (ha : a ∈ actions) :
    (Scope.caused proposer node s₀ actions).Fits (a.ctx node) := by
  refine ⟨False.elim, ?_⟩
  rintro groupState pType data result (hasked | ⟨b, hb, pid, q, hsends, hbrings⟩) hmade
  · exact ⟨none, .own data hasked ⟨a, ha, groupState, result, hmade, rfl⟩⟩
  · exact ⟨some pid, .joined pid q b hb hsends data hbrings ⟨a, ha, groupState, result, hmade, rfl⟩⟩

theorem Scope.caused_offered (ha : a ∈ actions) (hop : a.op = .receive pid data) :
    data.Offered (Scope.caused proposer node s₀ actions) := by
  intro env q hwire htype hpayload
  have hsends : a.op.sends proposer = some (proposer data, q) := by
    simp [hop, Op.sends, hwire, Envelope.proposal?, htype, hpayload]
  unfold ProposalMsg.Offered
  split
  next hjoin =>
    exact ⟨.inr ⟨a, ha, _, q, hsends, hjoin, .inl ⟨rfl, rfl⟩⟩,
      .inr ⟨a, ha, _, q, hsends, hjoin, .inr ⟨rfl, rfl⟩⟩⟩
  next hplain =>
    exact ⟨_, .sent _ q a ha hsends hplain rfl rfl⟩

theorem Op.within_caused (ha : a ∈ actions) (s : State) :
    a.op.Within (Scope.caused proposer node s₀ actions) (a.ctx node) s := by
  have hasked : ∀ pType data, a.op.requests = some (pType, data) →
      (Scope.caused proposer node s₀ actions).asks pType data := fun _ _ h => .inl (.inr ⟨a, ha, h⟩)
  unfold Op.Within
  split
  next hop =>
    exact ⟨.inl trivial, False.elim, Scope.caused_offered ha hop⟩
  next hop =>
    exact ⟨hasked _ _ (by rw [hop]; rfl), fun _ => False.elim⟩
  next hop =>
    exact ⟨hasked _ _ (by rw [hop]; rfl), fun _ => False.elim⟩
  next hop =>
    exact hasked _ _ (by rw [hop]; rfl)
  · trivial

theorem exec_founded {allowed : World → Prop} (hboot : Booted node allowed s₀)
    (hexec : Transition.exec (step node) actions s₀ = some s) :
    s.Founded (Scope.caused proposer node s₀ actions) := by
  have hrun : Transition.Run (step node) (fun _ a => a ∈ actions) s₀ s :=
    .of_exec hexec fun _ _ ha => ha
  have hstart : s₀.Clean (Scope.caused proposer node s₀ actions) :=
    hboot.clean False.elim fun op hop => .inl (.inl ⟨op, hop, rfl, rfl⟩)
  have hs : s.Clean (Scope.caused proposer node s₀ actions) := hrun.invariant _ hstart
    fun s a s' hclean ha hstep =>
      (step_scoped (Scope.caused_fits ha) (Op.within_caused ha s) hclean hstep).clean
  exact hs.founded

end Runs

-- -------- Members who speak for themselves

/-- The proposal removes or adds nobody but this peer, and so does what a request to join asks
for. -/
structure ProposalMsg.Concerns (M : MLSMeaning) (q : ProposalMsg) (pid : PeerID) : Prop where
  changes : q.proposalType ≠ .join → ∀ v, M.subject q.proposalType q.data = some v → v = pid
  brings : ∀ pType data, q.Brings pType data → ∀ v, M.owner pType data = some v → v = pid

/-- A proposal that an ordinary member made concerns that member, whoever hands it over. -/
def Action.Entitled (proposer : Wire → PeerID) (roles : PeerID → MemberRole) (M : MLSMeaning)
    (a : Action) : Prop :=
  ∀ pid q, a.op.sends proposer = some (pid, q) → roles pid = .member → q.Concerns M pid

theorem Cause.concerns {actions : List Action} {M : MLSMeaning} {roles : PeerID → MemberRole}
    (h : Cause proposer node s₀ actions pType bytes (some pid))
    (hmeaning : ∀ a ∈ actions, M.Respected (a.ctx node).engine)
    (hentitled : ∀ a ∈ actions, a.Entitled proposer roles M) (hrole : roles pid = .member)
    (hv : M.subject pType bytes = some v) : v = pid := by
  cases h with
  | sent _ q a mem sends plain type same =>
    subst type same
    exact (hentitled a mem pid q sends hrole).changes plain v hv
  | joined _ q a mem sends data brings made =>
    obtain ⟨b, hb, groupState, result, hmade, rfl⟩ := made
    rw [hmeaning b hb groupState pType data result hmade] at hv
    exact (hentitled a mem pid q sends hrole).brings pType data brings v hv

/-- As long as what ordinary members propose concerns themselves, every change in a commit that the
node issues was asked for here or proposed by the creator or an admin, or it is a change of the very
member who proposed it, who is not the creator. -/
theorem committed_changes_are_entitled (proposer : Wire → PeerID) (node : Node)
    (allowed : World → Prop) (roles : PeerID → MemberRole) (M : MLSMeaning)
    (actions : List Action) (s₀ s : State) (hboot : Booted node allowed s₀)
    (hexec : Transition.exec (step node) actions s₀ = some s)
    (hmeaning : ∀ a ∈ actions, M.Respected (a.ctx node).engine)
    (hentitled : ∀ a ∈ actions, a.Entitled proposer roles M) :
    ∀ issued ∈ s.issuedCommits, ∀ p ∈ issued.commit.includedProposals,
      ∃ who, Cause proposer node s₀ actions p.proposalType p.data who ∧
        ∀ pid, who = some pid → roles pid = .member →
          ∀ v, M.subject p.proposalType p.data = some v → v = pid ∧ roles v ≠ .creator := by
  intro issued hissued p hp
  obtain ⟨who, hcause⟩ := (exec_founded hboot hexec).issued issued hissued p hp
  refine ⟨who, hcause, ?_⟩
  rintro pid rfl hrole v hv
  obtain rfl : v = pid := hcause.concerns hmeaning hentitled hrole hv
  exact ⟨rfl, by simp [hrole]⟩

namespace Reference

def meaning : MLSMeaning where
  subject pType bytes := match bytes with
    | [_, b] => some [b - Fin.ofNat 256 pType.code]
    | _ => none
  owner _ data := some [Fin.ofNat 256 (data.map Fin.val).sum]

theorem meaning_respected : meaning.Respected engine := by
  intro groupState pType data result h
  obtain ⟨e, ids, id, rfl, rfl, rfl⟩ := createProposal_ok h
  simp only [meaning, Option.some.injEq, List.cons.injEq, and_true]
  apply Fin.ext
  simp only [Fin.sub_def, Fin.ofNat]
  omega

/-- An admin [65], who holds the token, a member and the creator [67]. -/
def roles (pid : PeerID) : MemberRole :=
  if pid = [67] then .creator else if pid = [65] then .admin else .member

/-- What the member [66] proposes, handed over by itself or by the creator. -/
def proposesRemoval (relayed : Bool) (b : Byte) : Action :=
  action (.receive (if relayed then [67] else [66]) (wire 0 [66] .proposal (.proposal
    { proposalType := .remove, data := [0, b + 1], targetPeerID := peers.toString [b] })))

def committedSubjects (s : State) : List (Option PeerID) :=
  s.issuedCommits.flatMap fun i =>
    i.commit.includedProposals.map fun p => meaning.subject p.proposalType p.data

theorem removal_run (relayed : Bool) (b : Byte)
    (h : (trace (member [65]) [[65], [66], [67]] [proposesRemoval relayed b]).map
      committedSubjects = some [some [b]]) :
    ∃ s₀ s, Booted (member [65]) (fun _ => True) s₀ ∧ s₀.storage.pendingOperations = [] ∧
      Transition.exec (step (member [65])) [proposesRemoval relayed b] s₀ = some s ∧
      committedSubjects s = [some [b]] := by
  obtain ⟨s, hs, hsubjects⟩ := Option.map_eq_some_iff.mp h
  obtain ⟨s₀, hboot, hexec⟩ := Option.bind_eq_some_iff.mp hs
  have hnone : ∀ s ∈ boot (member [65]) [[65], [66], [67]], s.storage.pendingOperations = [] := by
    decide +kernel
  exact ⟨s₀, s, boot_booted hboot trivial, hnone s₀ hboot, hexec, hsubjects⟩

end Reference

open Reference in
/-- The member proposes its own removal, the creator hands that over, and the holder commits it. -/
theorem own_removal_is_entitled : ∃ s₀ s,
    Transition.exec (step (member [65])) [proposesRemoval true 66] s₀ = some s ∧
    committedSubjects s = [some [66]] ∧
    ∀ issued ∈ s.issuedCommits, ∀ p ∈ issued.commit.includedProposals,
      ∃ who, Cause (fun _ => [66]) (member [65]) s₀ [proposesRemoval true 66] p.proposalType p.data
          who ∧
        ∀ pid, who = some pid → roles pid = .member →
          ∀ v, meaning.subject p.proposalType p.data = some v →
            v = pid ∧ roles v ≠ .creator := by
  obtain ⟨s₀, s, hboot, -, hexec, hsubjects⟩ := removal_run true 66 (by decide +kernel)
  refine ⟨s₀, s, hexec, hsubjects,
    committed_changes_are_entitled _ _ _ _ _ _ s₀ s hboot hexec (fun a ha => ?_) fun a ha => ?_⟩
  · rw [List.mem_singleton.mp ha]
    exact meaning_respected
  rw [List.mem_singleton.mp ha]
  intro pid q hsends _
  cases hsends
  refine ⟨fun _ v hv => ?_, fun _ _ hbrings => absurd hbrings.1 (by decide)⟩
  cases hv
  decide

open Reference in
/-- The member proposes to remove the creator, and the holder commits that as well, from whomever
it comes. Nobody asked for it here. -/
theorem member_removes_the_creator :
    roles [66] = .member ∧ roles [67] = .creator ∧
    ∀ relayed : Bool, ∃ s₀ s,
      Booted (member [65]) (fun _ => True) s₀ ∧
      s₀.storage.pendingOperations = [] ∧
      Transition.exec (step (member [65])) [proposesRemoval relayed 67] s₀ = some s ∧
      committedSubjects s = [some [67]] := by
  refine ⟨by decide, by decide, fun relayed => ?_⟩
  exact removal_run relayed 67 (by revert relayed; decide +kernel)

end GroupCoordination
