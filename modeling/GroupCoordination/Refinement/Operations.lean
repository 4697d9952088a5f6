import GroupCoordination.Refinement.Skirts
import GroupCoordination.Refinement.Handlers

/-!
# The public operations refine the core

Every operation of a started coordinator is a sequence of core steps, a step of a heal,
or leaves the core alone. A restart is none of these.
-/

namespace GroupCoordination

section Operations

variable {x : Ctx} {s s' : State} {call : Call → State → State}

-- -------- Membership requests

/-- What a membership request commits on the token holder: the batch it was elected for and
its own proposal. -/
structure CommitRequest where
  electedFor : List BufferedProposal
  proposal : BufferedProposal

def createdProposal (x : Ctx) (pType : ProposalType) (data : Bytes) (info : BufferedProposal)
    (s : State) : Option BufferedProposal :=
  (x.engine.createProposal s.groupState pType data).toOption.map fun result =>
    { info with type := pType, data := result.proposalBytes, proposalRef := result.proposalRef }

/-- `AddMember` is elected with its proposal in the buffer, `RemoveMemberWithPeer` without. -/
def Op.request (x : Ctx) (s : State) : Op → Option CommitRequest
  | .addMember req =>
    let opID := if req.operationID = "" then "op_" ++ x.freshID else req.operationID
    (createdProposal x .add req.keyPackageBytes (req.info x opID) s).map fun p =>
      ⟨(s.singleWriter.bufferProposal x.cfg p).snapshotNextBatch x.cfg, p⟩
  | .removeMember req =>
    let opID := if req.operationID = "" then "op_" ++ x.freshID else req.operationID
    (createdProposal x .remove req.targetIdentity
      { targetPeerID := x.peers.toString req.targetPeerID, operationID := opID } s).map fun p =>
        ⟨s.singleWriter.snapshotNextBatch x.cfg, p⟩
  | _ => none

structure IssuedCommit.Answers (i : IssuedCommit) (x : Ctx) (s : State) (r : CommitRequest) :
    Prop where
  elected : i.electedFor = r.electedFor
  carried : bufferedBatchFromProposalMsgs i.commit.includedProposals = [r.proposal]
  electorate : i.electorate = s.electorate x
  epoch : i.singleWriter.epoch = s.singleWriter.epoch
  suspended : i.singleWriter.suspended = s.singleWriter.suspended

def IssuedCommit.By (x : Ctx) (op : Op) (s : State) (i : IssuedCommit) : Prop :=
  i.OverBatch ∨ ∃ r, op.request x s = some r ∧ i.Answers x s r

theorem IssuedCommit.By.of_arrive {i : IssuedCommit} {op : Op} (h : i.By x op (s.arrive op)) :
    i.By x op s := by
  refine h.imp_right ?_
  rintro ⟨r, hr, ha⟩
  refine ⟨r, ?_, ha.elected, ha.carried, ha.electorate, ha.epoch, ha.suspended⟩
  cases op <;> exact hr

theorem createdProposal_of_created (hcore : s'.core = s.core)
    (h : createAndStoreLocalProposalLocked x pType data info s' = .ok (msg, buffered, s'')) :
    createdProposal x pType data info s = some buffered ∧ bufferedBatchFromProposalMsgs
      [msg] = [buffered] := by
  obtain ⟨result, record, hr, -, -, hm, hb⟩ := createAndStore_ok h
  have hstate : s'.groupState = s.groupState := congrArg Core.groupState hcore
  rw [hstate] at hr
  unfold createdProposal
  rw [hr, hb]
  exact ⟨rfl, by rw [← hb, ← hm]; rfl⟩

theorem buffered_election (hcore : s₁.core = s.core)
    (h : createAndStoreLocalProposalLocked x pType data info s₁ = .ok (msg, buffered, s₂))
    (hq : s'.core = (s₂.bufferProposal x buffered).core) :
    s'.singleWriter = s.singleWriter.bufferProposal x.cfg buffered ∧
      s'.electorate x = s.electorate x := by
  obtain ⟨_, _, -, -, hc, -⟩ := createAndStore_ok h
  have hw : s₂.singleWriter = s.singleWriter := by
    have := congrArg Core.singleWriter hc
    exact this.trans (congrArg Core.singleWriter hcore)
  have hv : s₂.activeView.sortedMembers = s.activeView.sortedMembers := by
    have := congrArg Core.members hc
    exact this.trans (congrArg Core.members hcore)
  constructor
  · rw [← hw]
    exact congrArg Core.singleWriter hq
  · have hm : s'.activeView.sortedMembers = s₂.activeView.sortedMembers := congrArg Core.members hq
    simp only [State.electorate, hm, hv]

section Requests

variable {ok : IssuedCommit → Prop} (hcall : Reenters x call) (hok : ∀ i, i.OverBatch → ok i)

include hcall hok

theorem commitAddLocked_moves (h : s.isTokenHolder x = true)
    (hown : ∀ env commit, commit.includedProposals = [msg] → ok ⟨.addMember, env, commit,
      s.singleWriter.snapshotNextBatch x.cfg, s.electorate x, s.singleWriter⟩) :
    Moves x s (commitAddLocked x call req opID msg s).2 ok := by
  unfold commitAddLocked
  dsimp only
  have hissue := issueCommitLocked_moves hcall (requestPlan .addMember
    (s.singleWriter.snapshotNextBatch x.cfg) msg fun welcome =>
      [{ req.delivery x opID with
        welcomeHash := if welcome = [] then [] else x.hash.sum welcome }]) s
    ⟨State.isTokenHolder_iff.mp h, fun h => nomatch h⟩ hok hown
  split
  next heq =>
    rw [heq] at hissue
    exact hissue
  rename_i heq
  rw [heq] at hissue
  dsimp only
  split
  · exact hissue.quiet rfl
  · exact hissue.quiet rfl

theorem concludeAddLocked_moves (s : State)
    (hown : ∀ env commit, commit.includedProposals = [msg] → ok ⟨.addMember, env, commit,
      s.singleWriter.snapshotNextBatch x.cfg, s.electorate x, s.singleWriter⟩) :
    Moves x s (concludeAddLocked x call req opID msg buffered s).2 ok := by
  unfold concludeAddLocked
  dsimp only
  split
  · exact .of_core (by simp)
  rename_i h
  split
  · exact .of_core (by simp)
  · exact commitAddLocked_moves hcall hok (by simpa using h) hown

theorem commitRemoveLocked_moves
    (h : s.singleWriter.holderForBatch (s.electorate x) electedFor = .ok x.localID)
    (hown : ∀ env commit, commit.includedProposals = [msg] → ok ⟨.removeMember, env, commit,
      electedFor, s.electorate x, s.singleWriter⟩) :
    Moves x s (commitRemoveLocked x call target opID electedFor msg s).2 ok := by
  have hissue := issueCommitLocked_moves hcall
    (requestPlan .removeMember electedFor msg fun _ => []) s ⟨h, fun h => nomatch h⟩ hok hown
  unfold commitRemoveLocked
  split
  next heq =>
    rw [heq] at hissue
    exact hissue
  next heq =>
    rw [heq] at hissue
    exact hissue.quiet rfl

end Requests

theorem addMember_moves (hcall : Reenters x call) (s : State) :
    Moves x s (addMember x call req s).2 (IssuedCommit.By x (.addMember req) s) := by
  unfold addMember
  dsimp only
  split
  · exact .refl s
  split
  · exact .refl s
  split
  · exact .refl s
  split
  · exact .of_core (by simp)
  rename_i msg buffered s₁ hcreate
  have hp : Moves x (s.saveOperation x _) _ (IssuedCommit.By x (.addMember req) s) :=
    (propose_moves hcreate rfl).mono fun _ => .inl
  have hown : ∀ s₂ : State, s₂.core = (s₁.bufferProposal x buffered).core → ∀ env commit,
      commit.includedProposals = [msg] → IssuedCommit.By x (.addMember req) s
        ⟨.addMember, env, commit,
        s₂.singleWriter.snapshotNextBatch x.cfg, s₂.electorate x, s₂.singleWriter⟩ := by
    intro s₂ hs₂ env commit hmsg
    obtain ⟨hcreated, hcarried⟩ := createdProposal_of_created (saveOperation_core s) hcreate
    obtain ⟨hw, hE⟩ := buffered_election (saveOperation_core s) hcreate hs₂
    refine .inr ⟨⟨(s.singleWriter.bufferProposal x.cfg buffered).snapshotNextBatch x.cfg, buffered⟩,
      congrArg (Option.map _) hcreated, ?_, by rw [hmsg]; exact hcarried, hE, ?_, ?_⟩
    · rw [hw]
    · rw [hw, SingleWriter.bufferProposal_epoch]
    · rw [hw, SingleWriter.bufferProposal_suspended]
  refine .trans ?_ (concludeAddLocked_moves hcall (fun _ => .inl) _ (hown _ (by simp)))
  exact (hp.quiet (by simp)).after (saveOperation_core s)

theorem removeAsHolderLocked_moves {ok : IssuedCommit → Prop} (hcall : Reenters x call)
    (hok : ∀ i, i.OverBatch → ok i) (h : s.isTokenHolder x = true)
    (hown : ∀ msg buffered s₁ (s₂ : State) env commit,
      createAndStoreLocalProposalLocked x .remove req.targetIdentity
        { targetPeerID := x.peers.toString req.targetPeerID, operationID := op.operationID } s =
          .ok (msg, buffered, s₁) →
      s₂.core = (s₁.bufferProposal x buffered).core → commit.includedProposals = [msg] →
      ok ⟨.removeMember, env, commit, s.singleWriter.snapshotNextBatch x.cfg, s₂.electorate x,
        s₂.singleWriter⟩) :
    Moves x s (removeAsHolderLocked x call req op s).2 ok := by
  unfold removeAsHolderLocked
  dsimp only
  split
  · exact .of_core (saveOperation_core s)
  rename_i msg buffered s₁ hcreate
  have hp := (propose_moves hcreate rfl).mono hok
  split
  · exact hp.quiet (by simp)
  have hbuffered : ∀ s₂ : State, s₂.core = (s₁.bufferProposal x buffered).core →
      s₂.singleWriter.holderForBatch (s₂.electorate x) (s.singleWriter.snapshotNextBatch x.cfg) =
        .ok x.localID := by
    -- The removal has joined the buffer; the election does not notice.
    intro s₂ hs₂
    obtain ⟨hw, hE⟩ := buffered_election rfl hcreate hs₂
    rw [hE, hw, SingleWriter.holderForBatch, SingleWriter.bufferProposal_epoch,
      SingleWriter.bufferProposal_suspended]
    exact State.isTokenHolder_iff.mp h
  refine .trans (hp.quiet (by simp))
    (commitRemoveLocked_moves hcall hok (hbuffered _ (by simp)) fun env commit hmsg => ?_)
  exact hown msg buffered s₁ _ env commit hcreate (by simp) hmsg

theorem removeMemberWithPeer_moves (hcall : Reenters x call) (s : State) :
    Moves x s (removeMemberWithPeer x call req s).2 (IssuedCommit.By x (.removeMember req) s) := by
  unfold removeMemberWithPeer
  dsimp only
  split
  · exact .refl s
  split
  · exact .refl s
  split
  · exact .refl s
  split
  · split
    · exact .of_core (by simp)
    next hp =>
      exact ((proposeLockedWithMetadata_moves hcall hp).mono fun _ => .inl).after (by simp)
  rename_i h
  refine (removeAsHolderLocked_moves hcall (fun _ => .inl) (by simpa using h) ?_).after
    (saveOperation_core s)
  intro msg buffered s₁ s₂ env commit hcreate hs₂ hmsg
  obtain ⟨hcreated, hcarried⟩ := createdProposal_of_created (saveOperation_core s) hcreate
  obtain ⟨hw, hE⟩ := buffered_election (saveOperation_core s) hcreate hs₂
  refine .inr ⟨⟨s.singleWriter.snapshotNextBatch x.cfg, _⟩, congrArg (Option.map _) hcreated, ?_,
    by rw [hmsg]; exact hcarried, hE, ?_, ?_⟩
  · exact congrArg (fun c : Core => c.singleWriter.snapshotNextBatch x.cfg) (saveOperation_core s)
  · rw [hw, SingleWriter.bufferProposal_epoch]
  · rw [hw, SingleWriter.bufferProposal_suspended]

-- -------- Control messages and periodic work

theorem observePeerAliveLocked_moves (s : State) : Moves x s (observePeerAliveLocked x pid s) := by
  unfold observePeerAliveLocked
  split
  · exact .refl s
  dsimp only
  split
  all_goals exact .of_step (.view _) rfl rfl

@[simp] theorem sendControl_core (s : State) :
    (sendControl x target msgType payload s).core = s.core := rfl

@[simp] theorem startHeal_core (s : State) : (startHeal x event s).core = s.core := by
  unfold startHeal
  split <;> rfl

theorem scheduleHeal_core (x : Ctx) (event : ForkEvent) (s : State) :
    (scheduleHeal x event s).core = { s.core with
      suspected := s.core.suspected ++ [(event, s.core.lineage)] } := by
  unfold scheduleHeal
  dsimp only
  split
  · rfl
  · exact startHeal_core _

@[simp] theorem recordAnnouncement_core (pid : PeerID) (env : Envelope)
    (ann : GroupStateAnnouncement) (s : State) :
    (recordAnnouncement x pid env ann s).1.core = s.core := by
  simp [State.core, recordAnnouncement]

theorem recordAnnouncement_peer (h : (recordAnnouncement x pid env ann s).2 = some event) :
    event.remotePeer = pid := by
  unfold recordAnnouncement ForkDetector.processRemote at h
  dsimp only at h
  split at h
  · cases h
  split at h
  · cases h
  · cases h
    rfl

structure State.Arrived (s : State) (pid : PeerID) (env : Envelope) : Prop where
  sender : s.arrivedFrom = pid
  wire : ∃ wire ∈ s.arriving, wire.unmarshal = some env

theorem scheduleHeal_moves (ha : s.Arrived pid env) (hc : env.payload.claim = some claim)
    (hpeer : event.remotePeer = pid)
    (hdiffers : (claim.1 = s.epoch ∧ claim.2 ≠ s.historyHash.getD []) ∨
      ∃ h, s.historyChain.get claim.1 = some h ∧ (h.getD [] = claim.2 → x.onSyncRequired = false)) :
    Moves x s (scheduleHeal x event s) := by
  obtain ⟨wire, hw, henv⟩ := ha.wire
  have hcore := scheduleHeal_core x event s
  refine .of_step ?_ (congrArg Core.inflight hcore) (congrArg Core.issuedCommits hcore)
  rw [hcore]
  exact .suspect event wire env claim (hpeer.trans ha.sender.symm) hw ⟨henv, hc⟩ hdiffers

theorem handleAnnounceLocked_moves (ha : s.Arrived pid env) :
    Moves x s (handleAnnounceLocked x pid env s) := by
  unfold handleAnnounceLocked
  split
  next ann hann =>
    split
    next hepoch =>
      dsimp only
      split
      next s₁ event heq =>
        have hpeer := recordAnnouncement_peer (congrArg Prod.snd heq)
        have hrec : s₁.core = s.core := congrArg (fun r => State.core r.1) heq ▸
          recordAnnouncement_core pid env ann s
        split
        next hfork =>
          have hs₁ : s₁.Arrived pid env :=
            ⟨(congrArg Core.arrivedFrom hrec).trans ha.sender,
              (show s₁.arriving = s.arriving from congrArg Core.arriving hrec) ▸ ha.wire⟩
          have hsaid : env.payload.claim = some (ann.epoch, ann.historyHash) := by rw [hann]; rfl
          refine .after (scheduleHeal_moves hs₁ hsaid hpeer (.inl ?_)) hrec
          rw [show s₁.epoch = s.epoch from congrArg Core.epoch hrec,
            show s₁.historyHash = s.historyHash from congrArg Core.historyHash hrec]
          refine ⟨hepoch, fun heq => ?_⟩
          have hsame : sameBranch ann
              { historyHash := s.historyHash.getD [], epoch := s.epoch } = true :=
            sameBranch_iff.mpr heq
          rw [hsame] at hfork
          cases hfork.1
        · exact .of_core hrec
      next heq =>
        exact .of_core (congrArg (fun r => State.core r.1) heq ▸
          recordAnnouncement_core pid env ann s)
    · split
      · exact .of_core ((recordAnnouncement_core _ _ _ _).trans (sendControl_core s))
      · exact .of_core (recordAnnouncement_core _ _ _ s)
  · exact .refl s

theorem handleHistoryQueryLocked_moves (s : State) :
    Moves x s (handleHistoryQueryLocked x pid env s) := by
  unfold handleHistoryQueryLocked
  split
  next epoch _ =>
    dsimp only
    cases hget : s.historyChain.get epoch with
    | none => exact .of_core (by simp [State.core, Payload.claim, sendControl,
        sendDirectEnvelope, State.stamp])
    | some h => exact .of_step (.tell (epoch, h.getD []) (.inr ⟨h, hget, rfl⟩)) rfl rfl
  · exact .refl s

theorem handleHistoryReplyLocked_moves (ha : s.Arrived pid env) :
    Moves x s (handleHistoryReplyLocked x pid env s) := by
  unfold handleHistoryReplyLocked confirmFork
  split
  next reply hreply =>
    split
    · exact .refl s
    rename_i hknown
    split
    · exact .refl s
    rename_i localHash hget
    split
    · exact .of_core rfl
    rename_i hdiffers
    dsimp only
    split
    · exact .refl s
    have hsaid : env.payload.claim = some (reply.epoch, reply.historyHash) := by
      rw [hreply]
      simpa [Payload.claim] using hknown
    refine scheduleHeal_moves ha hsaid rfl (.inr ⟨localHash, hget, fun heq => ?_⟩)
    exact Bool.eq_false_of_not_eq_true fun hsync => hdiffers ⟨heq, hsync⟩
  · exact .refl s

@[simp] theorem handleDeliveryAckLocked_core (s : State) :
    (handleDeliveryAckLocked pid env s).core = s.core := by
  unfold handleDeliveryAckLocked
  split
  · split <;> rfl
  · rfl

theorem handleControlMessageLocked_moves (ha : s.Arrived pid env) :
    Moves x s (handleControlMessageLocked x pid env s) := by
  unfold handleControlMessageLocked
  split
  · exact observePeerAliveLocked_moves s
  · exact handleAnnounceLocked_moves ha
  · exact .of_core (handleDeliveryAckLocked_core s)
  · exact handleHistoryQueryLocked_moves s
  · exact handleHistoryReplyLocked_moves ha
  · exact .refl s

section

variable (s)

@[simp] theorem applicationAckTimeout_core :
    (applicationAckTimeout x pid envelopeHash s).core = s.core := by
  unfold applicationAckTimeout
  split
  · rfl
  · split <;> rfl

@[simp] theorem retryOutstandingDeliveriesTo_core :
    (retryOutstandingDeliveriesTo x pid s).core = s.core := by
  unfold retryOutstandingDeliveriesTo
  split <;> rfl

theorem broadcastAnnounceLocked_moves : Moves x s (broadcastAnnounceLocked x s) := by
  unfold broadcastAnnounceLocked
  split
  · exact .refl s
  · refine .quiet ?_ (broadcastLocked_core _)
    exact .of_step (.tell (s.epoch, s.historyHash.getD []) (.inl rfl)) rfl rfl

@[simp] theorem triggerDeferredHeal_core : (triggerDeferredHeal x s).core = s.core := by
  unfold triggerDeferredHeal
  split
  · rfl
  · exact startHeal_core _

theorem persistCoord_moves : Moves x s (s.unlessError (persistCoordStateLocked x s)) := by
  cases h : persistCoordStateLocked x s with
  | error => exact .refl s
  | ok s' =>
    have hcore := persistCoordStateLocked_core h
    refine .of_step ?_ (congrArg Core.inflight hcore) (congrArg Core.issuedCommits hcore)
    exact (show (s.unlessError (.ok s')).core = _ from hcore) ▸ .persist

end

theorem handleActiveViewChange_moves (hcall : Reenters x call) (s : State) :
    Moves x s (handleActiveViewChange x call s) := by
  unfold handleActiveViewChange
  split
  · exact .refl s
  split
  · exact .refl s
  dsimp only
  split
  · exact .after ((persistCoord_moves _).trans (hcall.tryCommit _)) rfl
  · exact .after (persistCoord_moves _) rfl

-- -------- Messages

section

variable (hcall : Reenters x call)

include hcall

theorem handleAcceptedLocked_moves (ha : s.Arrived pid env) (hk : s.core.Known data env) :
    Moves x s (handleAcceptedLocked x call pid env data s) := by
  unfold handleAcceptedLocked
  split
  · split
    · split
      · exact .of_core
          (State.storeOrWarn_core fun _ h => Storage.appendEnvelopeWithSource_ledger h)
      · exact .refl s
    · exact handleControlMessageLocked_moves ha
  · split
    · exact .of_core
        (State.storeOrWarn_core fun _ h => Storage.appendEnvelopeWithSource_ledger h)
    · exact handleControlMessageLocked_moves ha
  unfold handleLiveLocked
  split
  · exact handleProposalLocked_moves hcall hk
  · exact handleCommitLocked_moves hcall hk
  · exact handleApplicationLocked_moves hk
  · exact handleApplicationBatchedLocked_moves s
  · exact handleControlMessageLocked_moves ha

theorem handleRawMessage_moves (ha : data ∈ s.arriving)
    (hf : s.arrivedFrom = pid) : Moves x s (handleRawMessage x call pid data s) := by
  unfold handleRawMessage
  split
  · exact .refl s
  next env henv =>
    have hraw := acceptsRaw_unmarshal henv
    exact handleAcceptedLocked_moves hcall ⟨hf, data, ha, hraw⟩ ⟨hraw, .inl ha⟩

theorem replayEnvelope_moves (ha : raw ∈ s.arriving) :
    Moves x s (replayEnvelope x call raw s).2 := by
  unfold replayEnvelope
  split
  · exact .refl s
  split
  · exact .refl s
  rename_i env henv
  have hk : s.core.Known raw env := ⟨henv, .inl ha⟩
  dsimp only
  split
  · exact .refl s
  split
  · exact .refl s
  split
  · exact handleCommitDetailedLocked_moves hcall hk
  · exact handleApplicationDetailedLocked_moves hk
  · exact .refl s

theorem replayEnvelopes_moves (blobs : List Wire) (s : State)
    (ha : ∀ raw ∈ blobs, raw ∈ s.arriving) : Moves x s (replayEnvelopes x call blobs s).2 := by
  induction blobs generalizing s with
  | nil => exact .refl s
  | cons raw rest ih =>
    have hraw : Moves x s (replayEnvelope x call raw s).2 :=
      replayEnvelope_moves hcall (ha raw List.mem_cons_self)
    refine hraw.trans (ih _ fun raw' hm => ?_)
    have hsame : (replayEnvelope x call raw s).2.arriving = s.arriving := hraw.steps.arriving
    rw [hsame]
    exact ha raw' (List.mem_cons_of_mem _ hm)

end

theorem sendMessage_moves (s : State) : Moves x s (sendMessage x plaintext token s).2 := by
  unfold sendMessage
  split
  · exact .refl s
  split
  · exact .refl s
  dsimp only
  split
  · exact .of_core (updateLocalAccessRevocationLocked_core s)
  split
  · exact .of_core (updateLocalAccessRevocationLocked_core s)
  rename_i henc
  split
  · exact .of_core (updateLocalAccessRevocationLocked_core s)
  next hdel =>
    exact (deliverLocked_moves hdel (.encrypted henc)).after
      (updateLocalAccessRevocationLocked_core s)
  next hdel =>
    exact ((deliverLocked_moves hdel (.encrypted henc)).quiet (by simp)).after
      (updateLocalAccessRevocationLocked_core s)

-- -------- Heals

@[simp] theorem publishJoin_core (s : State) : (publishJoin x msg s).core = s.core := by
  unfold publishJoin
  simp

theorem joinHeal_core (s : State) :
    (joinHeal x job s).core = s.core ∨ HealEdit x s.core (joinHeal x job s).core := by
  unfold joinHeal
  split
  · exact .inl rfl
  split
  · exact .inl rfl
  right
  dsimp only
  rw [setHealPhase_core, saveJob_core, publishJoin_core]
  exact .drop

theorem healedRecord_ok (h : healedRecord x newState newTreeHash newEpoch s = .ok record) :
    record.groupState = newState ∧ record.epoch = newEpoch := by
  unfold healedRecord at h
  dsimp only at h
  split at h
  · split at h
    · cases h
    · cases h
      exact ⟨rfl, rfl⟩
  · cases h
    exact ⟨rfl, rfl⟩

/-- With the record of the joined branch saved, the swap is a step of the heal, whatever becomes
of the coordination state. -/
theorem swapState_healSwap (hrecord : healedRecord x newState newTreeHash newEpoch s = .ok record)
    (hstore : s.store (Storage.saveGroupRecord x.disk s.storage record) = .ok s₁)
    (hp : coord = some ⟨[], HistoryChain.set [] newEpoch (some x.initialHistoryHash)⟩ ∨
      x.toWorld.LosesCoordState) :
    HealSwap x s.core { (swapState x newState newTreeHash newEpoch s₁).core with
      ledger := { s₁.core.ledger with coord, saved } } := by
  obtain ⟨hstate, hepoch⟩ := healedRecord_ok hrecord
  obtain ⟨db, hr, rfl⟩ := State.store_ok hstore
  obtain ⟨hl, stored, hg, hst, hep⟩ := Storage.saveGroupRecord_ok hr
  have hstep := HealSwap.swap (x := x) (c := s.core) newState newTreeHash newEpoch stored coord
    saved (hst.trans hstate) (hep.trans hepoch) hp
  rw [← hg] at hstep
  simpa [State.core, swapState, Ctx.hashCommitData, ForkDetector.reset, ForkDetector.updateLocal,
    hl] using hstep

theorem applyHealedState_core (newState newTreeHash : Bytes) (newEpoch : Nat) (s : State) :
    (applyHealedState x newState newTreeHash newEpoch s).2.core = s.core ∨
      HealSwap x s.core (applyHealedState x newState newTreeHash newEpoch s).2.core ∧
      (applyHealedState x newState newTreeHash newEpoch s).2.core.groupState = newState ∧
      (applyHealedState x newState newTreeHash newEpoch s).2.core.epoch = newEpoch := by
  unfold applyHealedState
  split
  · exact .inl rfl
  rename_i record hrecord
  split
  · exact .inl rfl
  rename_i s₁ hstore
  right
  dsimp only
  split
  next hp =>
    refine ⟨swapState_healSwap hrecord hstore (.inr ?_), rfl, rfl⟩
    obtain ⟨db, hr, rfl⟩ := State.store_ok hstore
    obtain ⟨hworks, -, rfl⟩ := Disk.exec_ok hr
    exact ⟨s.storage.writes, hworks, persistCoordStateLocked_fails hp⟩
  next hp =>
    rw [State.emit_core, persistCoordStateLocked_core hp]
    exact ⟨swapState_healSwap hrecord hstore (.inl rfl), rfl, rfl⟩

theorem applyHealedState_ok
    (h : applyHealedState x newState newTreeHash newEpoch s = (.ok (), s')) :
    HealSwap x s.core s'.core ∧ s'.epoch = newEpoch ∧
      s'.core.ledger.coord = some s'.core.coordState := by
  unfold applyHealedState at h
  split at h
  · cases h
  rename_i record hrecord
  split at h
  · cases h
  rename_i s₁ hstore
  dsimp only at h
  split at h
  · cases h
  rename_i s₂ hp
  cases h
  have hcore := persistCoordStateLocked_core hp
  rw [State.emit_core, hcore]
  exact ⟨swapState_healSwap hrecord hstore (.inl rfl), congrArg Core.epoch hcore, rfl⟩

theorem swapHeal_joins (job : ForkHealingJob) (s : State) :
    (swapHeal x job s).core = s.core ∨ job.status = .externalJoined ∧ job.pendingGroupState ≠ [] ∧
      HealSwap x s.core (swapHeal x job s).core ∧
      (swapHeal x job s).core.groupState = job.pendingGroupState ∧
      (swapHeal x job s).core.epoch = job.pendingEpoch := by
  have happly := applyHealedState_core (x := x) job.pendingGroupState job.pendingTreeHash
    job.pendingEpoch s
  unfold swapHeal
  split
  · exact .inl rfl
  rename_i hstatus
  split
  · exact .inl rfl
  rename_i hpending
  split
  next heq =>
    rw [heq] at happly
    exact happly.imp_right fun h => ⟨not_not.mp hstatus, hpending, h⟩
  rename_i heq
  rw [heq] at happly
  dsimp only
  rw [setHealPhase_core, saveJob_core]
  exact happly.imp_right fun h => ⟨not_not.mp hstatus, hpending, h⟩

theorem swapHeal_core (s : State) :
    (swapHeal x job s).core = s.core ∨ HealSwap x s.core (swapHeal x job s).core :=
  (swapHeal_joins job s).imp_right fun h => h.2.2.1

/-- The engine state of the first critical section replaces the current one, in memory and, if the
write succeeds, in the record. -/
theorem assignHeal_overwrites (job : ForkHealingJob) (index : Nat) (chunk : List ReplayItem)
    (ciphertext newState : Bytes) (rest : List (List ReplayItem)) (s : State) : ∃ record,
    (record = s.core.ledger.record ∨ s.core.Records newState record) ∧
    (assignHeal x job index chunk ciphertext newState rest s).core =
      { s.core with groupState := newState, ledger := { s.core.ledger with record } } := by
  have hsent : ∀ (s : State) outbound evs, (broadcastBatchedOutboundReplay x outbound evs
      (s.enqueue x outbound evs)).core = s.core := fun s outbound evs => congrArg Prod.fst
    ((enqueue_skirts outbound evs s).trans
      (broadcastBatchedOutboundReplay_skirts outbound evs _)).same
  rw [assignHeal_eq, setHealPhase_core, hsent]
  unfold keepBatchState
  dsimp only
  cases hsave : saveCurrentGroupStateLocked x { (s.stamp x).1 with groupState := newState } with
  | error => exact ⟨_, .inl rfl, rfl⟩
  | ok s₁ =>
    obtain ⟨db, rfl, hl, hrec⟩ := saveCurrentGroupStateLocked_ok hsave
    refine ⟨db.group, .inr hrec, ?_⟩
    simp [State.core, State.unlessError, State.stamp, hl]

theorem assignHeal_core (s : State) :
    HealEdit x s.core (assignHeal x job index chunk ciphertext newState rest s).core := by
  obtain ⟨record, hrecord, hcore⟩ := assignHeal_overwrites (x := x) job index chunk ciphertext
    newState rest s
  rw [hcore]
  exact .overwrite newState record hrecord

theorem restoreHeal_restores (s : State) :
    (restoreHeal x s).core = s.core ∨ ∃ stored, s.core.ledger.record = some stored ∧
      (restoreHeal x s).core = { s.core with
        groupState := stored.groupState, epoch := stored.epoch, treeHash := stored.treeHash } := by
  unfold restoreHeal
  dsimp only
  rw [setHealPhase_core]
  split
  · exact .inl rfl
  rename_i stored hget
  split
  · exact .inr ⟨stored, Storage.getGroupRecord_ok hget, rfl⟩
  · exact .inl rfl

theorem restoreHeal_core (s : State) :
    (restoreHeal x s).core = s.core ∨ HealEdit x s.core (restoreHeal x s).core := by
  rcases restoreHeal_restores (x := x) s with hcore | ⟨stored, hrecord, hcore⟩
  · exact .inl hcore
  · rw [hcore]
    exact .inr (.restore stored hrecord)

def State.AtSwap (s : State) : Prop := ∃ r job, s.heal = some r ∧ r.phase = .swap job

theorem healStep_core (wake : HealWake) (s : State) :
    (healStep x wake s).core = s.core ∨ HealEdit x s.core (healStep x wake s).core ∨
      s.AtSwap ∧ HealSwap x s.core (healStep x wake s).core := by
  unfold healStep
  split
  · exact .inl rfl
  rename_i r hr
  split
  · exact .inl (beginHeal_skirts (w := true) r s).same
  · exact .inl (snapshotHeal_skirts s).same
  · exact (joinHeal_core s).imp_right .inl
  · exact .inl (awaitWelcome_skirts (w := true) wake s).same
  next job hphase =>
    exact (swapHeal_core s).imp_right fun h => .inr ⟨⟨r, job, hr, hphase⟩, h⟩
  · exact .inl (replayHeal_skirts s).same
  · exact .inl (encryptHeal_skirts s).same
  · exact .inr (.inl (assignHeal_core s))
  · exact .inl (cleanHeal_skirts s).same
  · exact .inl rfl
  · exact (restoreHeal_core s).imp_right .inl
  · exact .inl rfl

-- -------- All operations

theorem perform_batches (hcall : Reenters x call) (op : Op) (hheal : ∀ wake, op ≠ .heal wake)
    (hadd : ∀ req, op ≠ .addMember req) (hremove : ∀ req, op ≠ .removeMember req) (s : State)
    (ha : ∀ raw ∈ op.arriving, raw ∈ s.arriving) (hf : s.arrivedFrom = op.hop) :
    Moves x s (perform x call op s) := by
  cases op with
  | receive pid data => exact handleRawMessage_moves hcall (ha data List.mem_cons_self) hf
  | replay blobs =>
    change Moves x s (replayEnvelopesDetailed x call blobs s).2
    unfold replayEnvelopesDetailed
    split
    · exact .refl s
    · exact replayEnvelopes_moves hcall blobs s ha
  | send plaintext token => exact sendMessage_moves s
  | propose pType data =>
    change Moves x s (s.unlessError (proposeLocked x call pType data s))
    cases h : proposeLocked x call pType data s with
    | error => exact .refl s
    | ok s' => exact proposeLockedWithMetadata_moves hcall h
  | addMember req => exact absurd rfl (hadd req)
  | removeMember req => exact absurd rfl (hremove req)
  | proposalTimer timer => exact proposalTimerFires_moves hcall s
  | failoverTimer timer => exact failoverTimerFires_moves hcall s
  | activeViewChange => exact handleActiveViewChange_moves hcall s
  | heartbeat =>
    have hview : Moves x s (checkLiveness x s) := Moves.of_step (.view _) rfl rfl
    exact hview.quiet (broadcastLocked_core _)
  | announce => exact broadcastAnnounceLocked_moves s
  | liveness => exact .of_step (.view _) rfl rfl
  | observePeer pid => exact observePeerAliveLocked_moves s
  | ackTimeout pid envelopeHash => exact .of_core (applicationAckTimeout_core s)
  | retryDeliveries pid => exact .of_core (retryOutstandingDeliveriesTo_core s)
  | setMode mode | resetSync | incrementSync => exact .of_core rfl
  | deferredHeal => exact .of_core (triggerDeferredHeal_core s)
  | resumeHeal => exact .of_core (resumeForkHealingJob_skirts (w := true) s).same
  | heal wake => exact absurd rfl (hheal wake)
  | welcome bytes => exact .of_core (processWelcomeIfWaiting_skirts (w := true) s).same
  | stop => exact .of_core rfl
  | restart view anchor => exact .refl s

theorem perform_moves (hcall : Reenters x call) (op : Op) (hheal : ∀ wake, op ≠ .heal wake)
    (s : State) (ha : ∀ raw ∈ op.arriving, raw ∈ s.arriving) (hf : s.arrivedFrom = op.hop) :
    Moves x s (perform x call op s) (IssuedCommit.By x op s) := by
  by_cases hadd : ∃ req, op = .addMember req
  · obtain ⟨req, rfl⟩ := hadd
    exact addMember_moves hcall s
  by_cases hremove : ∃ req, op = .removeMember req
  · obtain ⟨req, rfl⟩ := hremove
    exact removeMemberWithPeer_moves hcall s
  refine (perform_batches hcall op hheal ?_ ?_ s ha hf).mono fun _ => .inl
  · exact fun req h => hadd ⟨req, h⟩
  · exact fun req h => hremove ⟨req, h⟩

theorem step_perform (hrestart : ∀ view anchor, a.op ≠ .restart view anchor)
    (h : step node a s = some s') :
    s' = perform (a.ctx node) (run (a.ctx node) a.fuel) a.op (s.arrive a.op) := by
  unfold step at h
  split at h
  next view anchor hop =>
    exact absurd hop (hrestart view anchor)
  · exact (Option.some.inj h).symm

theorem step_heal (hop : a.op = .heal wake) (h : step node a s = some s') :
    s' = healStep (a.ctx node) wake (s.arrive a.op) := by
  have hperform := step_perform (by simp [hop]) h
  rw [hop] at hperform ⊢
  exact hperform

theorem step_kinds (h : step node a s = some s') :
    (∃ view anchor, a.op = .restart view anchor ∧ restart (a.ctx node) view anchor s = .ok s') ∨
    (∃ wake, a.op = .heal wake ∧ s' = healStep (a.ctx node) wake (s.arrive a.op)) ∨
    (∀ view anchor, a.op ≠ .restart view anchor) ∧ ∀ wake, a.op ≠ .heal wake := by
  by_cases hrestart : ∃ view anchor, a.op = .restart view anchor
  · obtain ⟨view, anchor, hop⟩ := hrestart
    rw [step, hop] at h
    exact .inl ⟨view, anchor, hop, Fallible.toOption_eq_some h⟩
  by_cases hheal : ∃ wake, a.op = .heal wake
  · obtain ⟨wake, hop⟩ := hheal
    exact .inr (.inl ⟨wake, hop, step_heal hop h⟩)
  · exact .inr (.inr ⟨fun view anchor hop => hrestart ⟨view, anchor, hop⟩, fun wake hop =>
      hheal ⟨wake, hop⟩⟩)

theorem step_moves (hheal : ∀ wake, a.op ≠ .heal wake)
    (hrestart : ∀ view anchor, a.op ≠ .restart view anchor) (h : step node a s = some s') :
    Moves (a.ctx node) (s.arrive a.op) s' (IssuedCommit.By (a.ctx node) a.op s) := by
  rw [step_perform hrestart h]
  refine .mono ?_ fun _ => IssuedCommit.By.of_arrive
  exact perform_moves (run_reenters a.fuel) a.op hheal (s.arrive a.op) (fun _ hm => hm) rfl

inductive StepEffect (node : Node) (a : Action) (s s' : State) : Prop
  | moves (h : Moves (a.ctx node) (s.arrive a.op) s' (IssuedCommit.By (a.ctx node) a.op s))
  | edit (h : HealEdit (a.ctx node) (s.arrive a.op).core s'.core)
  | swap (wake : HealWake) (hop : a.op = .heal wake) (hs : s.AtSwap)
      (h : HealSwap (a.ctx node) (s.arrive a.op).core s'.core)
  | restart (view : List PeerID) (anchor : Option (Option Bytes))
      (hop : a.op = .restart view anchor)
      (h : GroupCoordination.restart (a.ctx node) view anchor s = .ok s')

/-- An event that leaves the coordinator on its branch: no restart, no swap of a heal. -/
def KeepsBranch (s : State) (a : Action) : Prop :=
  (∀ view anchor, a.op ≠ .restart view anchor) ∧ ∀ wake, a.op = .heal wake → ¬ s.AtSwap

theorem step_receive (hop : a.op = .receive pid data) :
    step node a s = some (handleRawMessage (a.ctx node) (run (a.ctx node) a.fuel)
      pid data (s.arrive a.op)) := by
  unfold step
  rw [hop]
  rfl

theorem step_effect (h : step node a s = some s') : StepEffect node a s s' := by
  obtain ⟨view, anchor, hop, hrestart⟩ | ⟨wake, hwake, rfl⟩ | ⟨hrestart, hheal⟩ := step_kinds h
  · exact .restart view anchor hop hrestart
  · rcases healStep_core (x := a.ctx node) wake (s.arrive a.op) with hc | he | ⟨hs, hswap⟩
    · exact .moves (Moves.of_core hc)
    · exact .edit he
    · exact .swap wake hwake hs hswap
  · exact .moves (step_moves hheal hrestart h)

end Operations

end GroupCoordination
