import GroupCoordination.Lib.Fallible
import GroupCoordination.Refinement.Quiet
import GroupCoordination.Refinement.Transactions

/-!
# What leaves a heal alone

The desk of a coordinator: the table of heal jobs, the heal that is running and the flags
it reads. Only the steps of a heal, its Welcome, its resumption, a change of mode, a stop and
a restart touch it; every other handler leaves it as it is and works on the database by its own
transactions, except that a fork may start a heal where none is running.
-/

namespace GroupCoordination

open Fallible

structure Desk where
  jobs : List ForkHealingJob
  heal : Option HealRun
  healing : Bool
  mode : GroupOperationalMode
  started : Bool
  welcomeReceived : Bool
  resuming : Option ForkHealingJob

def State.desk (s : State) : Desk where
  jobs := s.storage.jobs
  heal := s.heal
  healing := s.healing
  mode := s.operationalMode
  started := s.started
  welcomeReceived := s.welcomeReceived
  resuming := s.resuming

def Wire.batched (wire : Wire) : Bool := wire.unmarshal.any (·.type = .applicationBatched)

def Envelope.join? (env : Envelope) : Option ProposalMsg :=
  match env.type, env.payload with
  | .proposal, .proposal p => if p.proposalType = .join then some p else none
  | _, _ => none

def ProposalMsg.Offered (S : Scope) (p : ProposalMsg) : Prop :=
  if p.proposalType = .join then S.asks .remove p.joinIdentity ∧ S.asks .add p.data
  else S.founds p.proposalType p.data

def Wire.Offered (S : Scope) (wire : Wire) : Prop :=
  ∀ env p, wire.unmarshal = some env → env.type = .proposal →
    env.payload = .proposal p → p.Offered S

structure Wire.Waits (S : Scope) (wire : Wire) : Prop where
  batches : S.batches ∨ wire.batched = false
  joins : S.kept → wire.unmarshal.bind Envelope.join? = none
  offered : wire.Offered S

def Scope.Open (S : Scope) (db : Storage) (operationID : String) : Prop :=
  S.kept → ¬ db.Concluded operationID

structure State.Founded (S : Scope) (s : State) : Prop where
  proposals : ∀ p ∈ s.singleWriter.proposals, S.founds p.type p.data
  operations : ∀ op ∈ s.storage.pendingOperations, S.asks op.proposalType op.semanticPayload
  issued : ∀ i ∈ s.issuedCommits, ∀ p ∈ i.commit.includedProposals, S.founds p.proposalType p.data

structure State.Clean (S : Scope) (s : State) : Prop where
  buffer : ∀ e, ∀ raw ∈ s.epochTracker.futureBuffer e, raw.Waits S
  keyed : S.kept → Table.Keyed PendingOperation.operationID s.storage.pendingOperations
  founded : s.Founded S

def Scope.Lax (S : Scope) : Prop := (∀ t d, S.asks t d) ∧ ∀ t d, S.founds t d

theorem Scope.Lax.founded (h : S.Lax) (s : State) : s.Founded S :=
  ⟨fun _ _ => h.2 _ _, fun _ _ => h.1 _ _, fun _ _ _ _ => h.2 _ _⟩

theorem Scope.Lax.offered (h : S.Lax) (wire : Wire) : wire.Offered S := by
  intro env p _ _ _
  unfold ProposalMsg.Offered
  split
  · exact ⟨h.1 _ _, h.1 _ _⟩
  · exact h.2 _ _

theorem Scope.any_lax : Scope.any.Lax := ⟨fun _ _ => trivial, fun _ _ => trivial⟩

theorem State.clean_any (s : State) : s.Clean .any :=
  ⟨fun _ _ _ => ⟨.inl trivial, nofun, Scope.any_lax.offered _⟩, nofun, Scope.any_lax.founded s⟩

structure Works (x : Ctx) (S : Scope) (s s' : State) : Prop where
  clean : s'.Clean S
  transacts : Transacts x S s.storage s'.storage
  keeps : S.kept → ∃ events, s'.operationTrace = s.operationTrace ++ events ∧
    Keeps s.storage events s'.storage

def State.view (s : State) : Desk × Storage × EpochTracker × List OperationEvent ×
    List BufferedProposal × List IssuedCommit :=
  (s.desk, s.storage, s.epochTracker, s.operationTrace, s.singleWriter.proposals, s.issuedCommits)

def Outside (x : Ctx) (S : Scope) (s s' : State) : Prop :=
  s.Clean S → s'.desk = s.desk ∧ Works x S s s'

namespace Works

variable {x : Ctx} {S : Scope} {s s' s'' : State}

theorem refl (h : s.Clean S) : Works x S s s :=
  ⟨h, .refl, fun _ => ⟨[], (List.append_nil _).symm, .same rfl⟩⟩

theorem trans (h : Works x S s s') (h' : Works x S s' s'') : Works x S s s'' := by
  refine ⟨h'.clean, h.transacts.trans h'.transacts, fun hkept => ?_⟩
  obtain ⟨events, heq, hkeeps⟩ := h.keeps hkept
  obtain ⟨events', heq', hkeeps'⟩ := h'.keeps hkept
  exact ⟨events ++ events', by rw [heq', heq, List.append_assoc], hkeeps.append hkeeps'⟩

end Works

namespace Outside

variable {x : Ctx} {S : Scope} {s s' s'' : State}

theorem refl (s : State) : Outside x S s s := fun hclean => ⟨rfl, .refl hclean⟩

theorem trans (h : Outside x S s s') (h' : Outside x S s' s'') : Outside x S s s'' := by
  intro hclean
  obtain ⟨hdesk, hworks⟩ := h hclean
  obtain ⟨hdesk', hworks'⟩ := h' hworks.clean
  exact ⟨hdesk'.trans hdesk, hworks.trans hworks'⟩

theorem untouched (h : Outside x .any s s') : s'.desk = s.desk := (h s.clean_any).1

/-- Nothing is written, and no proposal comes to the buffer or into a commit but what may be
there. -/
theorem offering
    (h : { s' with singleWriter := s.singleWriter, issuedCommits := s.issuedCommits }.view =
      s.view)
    (hproposals : ∀ p ∈ s'.singleWriter.proposals,
      p ∈ s.singleWriter.proposals ∨ S.founds p.type p.data)
    (hissued : ∀ i ∈ s'.issuedCommits, i ∈ s.issuedCommits ∨
      ∀ p ∈ i.commit.includedProposals, S.founds p.proposalType p.data) : Outside x S s s' := by
  simp only [State.view, Prod.mk.injEq, and_true] at h
  obtain ⟨hdesk, hstorage, htracker, htrace⟩ := h
  intro hclean
  refine ⟨hdesk, ⟨?_, ?_, ?_, ?_, ?_⟩, hstorage ▸ .refl,
    fun _ => ⟨[], by simp [htrace], .same (by rw [hstorage])⟩⟩
  · rw [htracker]
    exact hclean.buffer
  · rw [hstorage]
    exact hclean.keyed
  · exact fun p hp => (hproposals p hp).elim (hclean.founded.proposals p) id
  · rw [hstorage]
    exact hclean.founded.operations
  · exact fun i hi => (hissued i hi).elim (hclean.founded.issued i) id

theorem memory (h : s'.view = s.view) : Outside x S s s' := by
  simp only [State.view, Prod.mk.injEq] at h
  obtain ⟨hdesk, hstorage, htracker, htrace, hproposals, hissued⟩ := h
  refine .offering ?_ (fun p hp => .inl (hproposals ▸ hp)) fun i hi => .inl (hissued ▸ hi)
  simp only [State.view, Prod.mk.injEq, and_true]
  exact ⟨hdesk, hstorage, htracker, htrace⟩

theorem after (h : Outside x S s' s'') (hview : s'.view = s.view) : Outside x S s s'' :=
  (memory hview).trans h

theorem emit (h : Outside x S s s') : Outside x S s (s'.emit cb) := h.trans (.memory rfl)

theorem bufferProposal (h : Outside x S s s') (hp : S.founds p.type p.data) :
    Outside x S s (s'.bufferProposal x p) := by
  refine h.trans (.offering rfl (fun q hq => ?_) fun i hi => .inl hi)
  rcases SingleWriter.mem_bufferProposal hq with hold | rfl
  · exact .inl hold
  · exact .inr hp

theorem transaction (h : Elsewhere x S s.storage db) : Outside x S s { s with storage := db } :=
  fun hclean => ⟨by simp [State.desk, h.statement.jobs],
    ⟨hclean.buffer, fun hkept => h.statement.keyed (hclean.keyed hkept),
      hclean.founded.proposals, h.operations ▸ hclean.founded.operations, hclean.founded.issued⟩,
    .single h.statement, fun _ => ⟨[], (List.append_nil _).symm, .same h.operations⟩⟩

theorem tracked (h : ∀ e, ∀ raw ∈ tracker.futureBuffer e,
    raw.Waits S ∨ ∃ k, raw ∈ s.epochTracker.futureBuffer k) :
    Outside x S s { s with epochTracker := tracker } := by
  intro hclean
  refine ⟨rfl, ⟨fun e raw hraw => ?_, hclean.keyed, hclean.founded.proposals,
    hclean.founded.operations, hclean.founded.issued⟩, .refl,
    fun _ => ⟨[], (List.append_nil _).symm, .same rfl⟩⟩
  exact (h e raw hraw).elim id fun ⟨k, hk⟩ => hclean.buffer k raw hk

end Outside

-- -------- Helpers

section Helpers

variable {x : Ctx} {S : Scope} {s s' : State}

theorem State.desk_storage (s : State) (h : db.jobs = s.storage.jobs) :
    { s with storage := db }.desk = s.desk := by
  simp [desk, h]

theorem State.storeOrWarn_desk (h : ∀ db, result = .ok db → db.jobs = s.storage.jobs) :
    (s.storeOrWarn result).desk = s.desk := by
  cases result with
  | error => rfl
  | ok db => exact s.desk_storage (h db rfl)

theorem State.store_desk (h : s.store result = .ok s')
    (hq : ∀ db, result = .ok db → db.jobs = s.storage.jobs) : s'.desk = s.desk := by
  obtain ⟨db, hr, rfl⟩ := State.store_ok h
  exact s.desk_storage (hq db hr)

theorem State.unlessError_desk (h : ∀ s', result = .ok s' → s'.desk = s.desk) :
    (s.unlessError result).desk = s.desk := by
  cases result with
  | error => rfl
  | ok s' => exact h s' rfl

theorem State.foldl_desk (f : State → α → State) (h : ∀ s a, (f s a).desk = s.desk) (l : List α)
    (s : State) : (l.foldl f s).desk = s.desk := by
  induction l generalizing s with
  | nil => rfl
  | cons a l ih => exact (ih _).trans (h s a)

theorem State.storeOrWarn_outside (h : ∀ db, result = .ok db → Elsewhere x S s.storage db) :
    Outside x S s (s.storeOrWarn result) := by
  cases result with
  | error => exact .refl s
  | ok db => exact .transaction (h db rfl)

theorem State.store_outside (h : s.store result = .ok s')
    (hq : ∀ db, result = .ok db → Elsewhere x S s.storage db) : Outside x S s s' := by
  obtain ⟨db, hr, rfl⟩ := State.store_ok h
  exact .transaction (hq db hr)

theorem State.unlessError_outside (h : ∀ s', result = .ok s' → Outside x S s s') :
    Outside x S s (s.unlessError result) := by
  cases result with
  | error => exact .refl s
  | ok s' => exact h s' rfl

theorem State.foldl_outside_of_mem (f : State → α → State) {l : List α}
    (h : ∀ s, ∀ a ∈ l, Outside x S s (f s a)) (s : State) : Outside x S s (l.foldl f s) :=
  List.foldlRecOn l f (motive := Outside x S s) (.refl s) fun t ht a ha => ht.trans (h t a ha)

theorem State.foldl_outside (f : State → α → State) (h : ∀ s a, Outside x S s (f s a)) (l : List α)
    (s : State) : Outside x S s (l.foldl f s) :=
  State.foldl_outside_of_mem f (fun s a _ => h s a) s

theorem State.foldl_emit_outside (cb : α → Callback) (l : List α) (s : State) :
    Outside x S s (l.foldl (fun s a => s.emit (cb a)) s) :=
  State.foldl_outside _ (fun s _ => (Outside.refl s).emit) l s

@[simp] theorem publishPreparedEnvelopeLocked_desk (s : State) :
    (publishPreparedEnvelopeLocked msgType wire s).desk = s.desk := by
  unfold publishPreparedEnvelopeLocked
  split <;> rfl

theorem publishPreparedEnvelopeLocked_outside (s : State) :
    Outside x S s (publishPreparedEnvelopeLocked msgType wire s) := by
  unfold publishPreparedEnvelopeLocked
  split <;> exact .memory rfl

theorem broadcastLocked_outside (s : State) :
    Outside x S s (broadcastLocked x msgType payload s) := by
  have hstamp : Outside x S s (s.stamp x).1 := .memory rfl
  exact hstamp.trans (publishPreparedEnvelopeLocked_outside _)

theorem persistCoord_outside (s : State) :
    Outside x S s (s.unlessError (persistCoordStateLocked x s)) :=
  State.unlessError_outside fun _ h => State.store_outside h fun _ h => .coordState h

theorem persistCurrentEpochStateLocked_outside
    (h : persistCurrentEpochStateLocked x newState s = .ok s') : Outside x S s s' :=
  State.store_outside h fun _ h => .groupRecord h

theorem saveCurrentGroupStateLocked_outside (h : saveCurrentGroupStateLocked x s = .ok s') :
    Outside x S s s' := by
  obtain ⟨record, -, -, hstore⟩ := saveCurrentGroupStateLocked_stores h
  exact State.store_outside hstore fun _ h => .groupRecord h

theorem updateLocalAccessRevocationLocked_outside (s : State) :
    Outside x S s (updateLocalAccessRevocationLocked x groupState epoch s) := by
  unfold updateLocalAccessRevocationLocked
  split
  · exact .refl s
  · split <;> exact .memory rfl

theorem armProposalTimer_outside (s : State) : Outside x S s (armProposalTimer s) := by
  unfold armProposalTimer
  split <;> exact .memory rfl

theorem scheduleFailoverTimerLocked_outside (s : State) :
    Outside x S s (scheduleFailoverTimerLocked x s) := by
  unfold scheduleFailoverTimerLocked
  split
  · exact .refl s
  · split <;> exact .memory rfl

theorem saveOperation_outside (hasks : S.asks op.proposalType op.semanticPayload)
    (h : op.isConcluded = true ∨ S.Open s.storage op.operationID) :
    Outside x S s (s.saveOperation x op) := by
  unfold State.saveOperation
  split
  · exact .refl s
  rename_i db hsave
  have htransaction : Transaction x S s.storage db := .operation hsave
  exact fun hclean => ⟨by simp [State.desk, htransaction.jobs],
    ⟨hclean.buffer, fun hkept => htransaction.keyed (hclean.keyed hkept),
      hclean.founded.proposals,
      Storage.savePendingOperation_asks hsave hasks hclean.founded.operations,
      hclean.founded.issued⟩,
    .single htransaction, fun hkept => ⟨_, rfl, .stored hsave (h.imp_right (· hkept))⟩⟩

theorem Scope.Open.saved (op : PendingOperation) (h : S.Open s.storage op.operationID)
    (hop : op.isConcluded = false) : S.Open (s.saveOperation x op).storage op.operationID := by
  unfold State.saveOperation
  split
  · exact h
  rename_i hsave
  intro _ hdone
  rw [(Storage.savePendingOperation_self hsave).mp hdone] at hop
  cases hop

theorem Scope.Open.congr (h : S.Open s.storage operationID)
    (hsame : s'.storage.pendingOperations = s.storage.pendingOperations) :
    S.Open s'.storage operationID := fun hkept =>
  (Storage.Concluded.congr hsame).not.mpr (h hkept)

@[simp] theorem saveEvent_desk (s : State) : (s.saveEvent x ev).desk = s.desk :=
  State.storeOrWarn_desk fun _ h => by
    obtain ⟨-, -, rfl⟩ := Disk.exec_ok h
    rfl

theorem markReplayResultLocked_outside (s : State) :
    Outside x S s (markReplayResultLocked x result s) := by
  unfold markReplayResultLocked
  split
  · exact .refl s
  · exact State.storeOrWarn_outside fun _ h => .replayState h

theorem conclude_outside (s : State) : Outside x S s (conclude x result s).2 :=
  markReplayResultLocked_outside s

theorem trackPending_outside (s : State) :
    Outside x S s (trackPendingApplicationDeliveriesLocked x wire envelopeHash s) := by
  unfold trackPendingApplicationDeliveriesLocked
  split <;> exact .memory rfl

theorem finishRebase_outside (hasks : S.asks op.proposalType op.semanticPayload)
    (h : S.Open s.storage op.operationID) : Outside x S s (finishRebase x op prevEpoch s) := by
  unfold finishRebase
  dsimp only
  split
  · exact saveOperation_outside hasks (.inr h)
  · exact .emit (saveOperation_outside hasks (.inr h))

end Helpers

-- -------- Commits, proposals and messages

section Handlers

variable {x : Ctx} {S : Scope} {s s' : State} {call : Call → State → State}

theorem CommitMsg.settles_concluded (commit : CommitMsg) (h : commit.settles op = some status) :
    ({ op with status, updatedAt } : PendingOperation).isConcluded = true := by
  refine PendingOperation.isConcluded_of_reached ?_
  unfold CommitMsg.settles at h
  split at h
  all_goals
    obtain ⟨_, -, rfl⟩ := Option.map_eq_some_iff.mp h
    unfold PendingOperation.isReached
    split <;> rfl

theorem Storage.listPendingOperations_ok {d : Disk}
    (h : Storage.listPendingOperations d db = .ok ops) : ops.Perm db.pendingOperations := by
  obtain ⟨-, -, rfl⟩ := Disk.exec_ok h
  exact List.perm_insertionSort _ _

theorem State.Clean.listed (h : s.Clean S) {d : Disk}
    (hlist : Storage.listPendingOperations d s.storage = .ok ops) :
    ∀ op ∈ ops, S.asks op.proposalType op.semanticPayload := fun op hop =>
  h.founded.operations op ((Storage.listPendingOperations_ok hlist).mem_iff.mp hop)

theorem reconcileOperationsAfterCommitLocked_outside (s : State) :
    Outside x S s (reconcileOperationsAfterCommitLocked x commit s) := by
  have hsettle : ∀ s op, S.asks op.proposalType op.semanticPayload →
      Outside x S s (settleOperation x commit s op) := by
    intro s op hasks
    unfold settleOperation
    split
    · split
      · exact saveOperation_outside hasks (.inl (commit.settles_concluded ‹_›))
      · exact .refl s
    · exact .refl s
  have hsupersede : ∀ s op, S.asks op.proposalType op.semanticPayload →
      Outside x S s (supersedeOperation x commit s op) := by
    intro s op hasks
    unfold supersedeOperation
    split
    · have hsave : Outside x S s (s.saveOperation x { op with
          status := .superseded, idempotencyKey := none, updatedAt := x.nowSec }) :=
        saveOperation_outside hasks (.inl rfl)
      exact hsave.emit
    · exact .refl s
  have hstale : ∀ s, Outside x S s (supersedeStaleMembershipOpsLocked x commit s) := by
    intro s
    unfold supersedeStaleMembershipOpsLocked
    split
    · exact .refl s
    split
    · exact .refl s
    next hlist =>
      exact fun hclean => State.foldl_outside_of_mem _
        (fun s op hop => hsupersede s op (hclean.listed hlist op hop)) s hclean
  have horphan : ∀ s msg, Outside x S s (orphanOwnMessage x s msg) := by
    intro s msg
    unfold orphanOwnMessage
    split
    · dsimp only
      split
      · exact .refl s
      next payloadSealed sealNonce hseal =>
        exact State.storeOrWarn_outside fun _ h => .orphan msg (payloadSealed, sealNonce) hseal h
    · exact .refl s
  unfold reconcileOperationsAfterCommitLocked
  split
  · exact .refl s
  rename_i ops hlist
  have hsettled : Outside x S s (ops.foldl (settleOperation x commit) s) := fun hclean =>
    State.foldl_outside_of_mem _ (fun s op hop => hsettle s op (hclean.listed hlist op hop)) s
      hclean
  have hops := hsettled.trans (hstale _)
  dsimp only
  split
  · exact hops
  · exact hops.trans (State.foldl_outside _ horphan _ _)

structure Scope.Fits (S : Scope) (x : Ctx) : Prop where
  delay : S.kept → 0 < x.cfg.batchingDelay
  makes : ∀ groupState pType data result, S.asks pType data →
    x.engine.createProposal groupState pType data = .ok result → S.founds pType result.proposalBytes

theorem Scope.any_fits (x : Ctx) : Scope.any.Fits x := ⟨nofun, fun _ _ _ _ _ _ => trivial⟩

theorem createAndStoreLocalProposalLocked_founds (hfits : S.Fits x) (hasks : S.asks pType data)
    (h : createAndStoreLocalProposalLocked x pType data info s = .ok (msg, buffered, s')) :
    S.founds buffered.type buffered.data ∧ S.founds msg.proposalType msg.data := by
  obtain ⟨result, hmade, h⟩ := bind_ok h
  obtain ⟨s₁, -, h⟩ := bind_ok h
  cases h
  exact ⟨hfits.makes _ _ _ _ hasks hmade, hfits.makes _ _ _ _ hasks hmade⟩

theorem createAndStoreLocalProposalLocked_operations
    (h : createAndStoreLocalProposalLocked x pType data info s = .ok (msg, buffered, s')) :
    s'.storage.pendingOperations = s.storage.pendingOperations := by
  obtain ⟨result, -, h⟩ := bind_ok h
  obtain ⟨s₁, hpersist, h⟩ := bind_ok h
  obtain ⟨db, hsave, rfl⟩ := State.store_ok hpersist
  obtain ⟨-, -, rfl⟩ := Disk.exec_ok hsave
  cases h
  rfl

theorem createAndStoreLocalProposalLocked_outside
    (hinfo : info.operationID = "" ∨ S.Open s.storage info.operationID)
    (h : createAndStoreLocalProposalLocked x pType data info s = .ok (msg, buffered, s')) :
    Outside x S s s' := by
  have hsame := createAndStoreLocalProposalLocked_operations h
  obtain ⟨result, -, h⟩ := bind_ok h
  obtain ⟨s₁, hpersist, h⟩ := bind_ok h
  intro hclean
  obtain ⟨hdesk, hworks⟩ : s₁.desk = s.desk ∧ Works x S s s₁ :=
    persistCurrentEpochStateLocked_outside hpersist hclean
  obtain ⟨db, hsave, rfl⟩ := State.store_ok hpersist
  cases h
  exact ⟨hdesk, ⟨hworks.clean.buffer, hworks.clean.keyed, hworks.clean.founded.proposals,
    hworks.clean.founded.operations, hworks.clean.founded.issued⟩, hworks.transacts,
    fun hkept => ⟨_, rfl, .proposed (hinfo.imp_right (· hkept)) hsame⟩⟩

theorem createAndBufferLocked_outside (hfits : S.Fits x) (hasks : S.asks pType data)
    (hinfo : info.operationID = "" ∨ S.Open s.storage info.operationID) :
    Outside x S s (createAndBufferLocked x pType data info s) := by
  unfold createAndBufferLocked
  split
  · exact .refl s
  next h =>
    exact (createAndStoreLocalProposalLocked_outside hinfo h).bufferProposal
      (createAndStoreLocalProposalLocked_founds hfits hasks h).1

theorem createAndBufferLocked_operations (s : State) :
    (createAndBufferLocked x pType data info s).storage.pendingOperations =
      s.storage.pendingOperations := by
  unfold createAndBufferLocked
  split
  · rfl
  next h =>
    have hsame := createAndStoreLocalProposalLocked_operations h
    exact hsame

theorem removeZombieLocked_outside (hfits : S.Fits x)
    (hasks : S.asks .remove identity) (s : State) :
    Outside x S s (removeZombieLocked x identity target s) := by
  unfold removeZombieLocked
  split
  · exact createAndBufferLocked_outside hfits hasks (.inl rfl)
  · exact .refl s

theorem removeZombieLocked_operations (s : State) :
    (removeZombieLocked x identity target s).storage.pendingOperations =
      s.storage.pendingOperations := by
  unfold removeZombieLocked
  split
  · exact createAndBufferLocked_operations s
  · rfl

theorem processProposalLocked_outside (hfounds : S.founds proposal.proposalType proposal.data)
    (h : processProposalLocked x proposal s = .ok s') : Outside x S s s' := by
  obtain ⟨processed, -, h⟩ := bind_ok h
  split at h
  · cases h
  obtain ⟨s₁, hpersist, h⟩ := bind_ok h
  cases h
  have hstate : Outside x S s₁ { s₁ with groupState := processed.newGroupState } := .memory rfl
  exact ((persistCurrentEpochStateLocked_outside hpersist).trans hstate).bufferProposal hfounds

theorem deliverLocked_outside (hlog : S.Logs wire)
    (h : deliverLocked x msg newState env wire s = .ok (stored, s')) : Outside x S s s' := by
  obtain ⟨⟨applied, db⟩, happly, h⟩ := bind_ok h
  dsimp only at h
  split at h
  · cases h
    exact .refl s
  · cases h
    exact (Outside.transaction (.apply happly hlog)).trans (.memory rfl)

theorem processApplicationLocked_outside (hlog : S.Logs wire) (s : State) :
    Outside x S s (processApplicationLocked x pid env wire result s).2 := by
  unfold processApplicationLocked
  split
  · split
    · exact conclude_outside s
    rename_i hlc ts _
    dsimp only
    have hclock : Outside x S s { s with hlc } := .memory rfl
    split
    · exact hclock.trans (conclude_outside _)
    split
    · exact hclock.trans (conclude_outside _)
    next h =>
      exact (hclock.trans (deliverLocked_outside hlog h)).trans (conclude_outside _)
    rename_i h
    have hdelivered : Outside x S s _ := hclock.trans (deliverLocked_outside hlog h)
    unfold sendDeliveryAckLocked
    split
    · exact hdelivered.trans (conclude_outside _)
    · refine Outside.trans (hdelivered.trans ?_) (conclude_outside _)
      exact .memory rfl
  · exact conclude_outside s

theorem Wire.batched_of {wire : Wire} (h : wire.unmarshal = some env) :
    wire.batched = decide (env.type = .applicationBatched) := by
  simp [Wire.batched, h]

theorem Wire.Waits.of_type {wire : Wire} (hwire : wire.unmarshal = some env)
    (htype : env.type = .commit ∨ env.type = .application) : wire.Waits S := by
  refine ⟨.inr ?_, fun _ => ?_, fun env' p hwire' htype' => ?_⟩
  · rcases htype with htype | htype <;> simp [Wire.batched_of hwire, htype]
  · rw [hwire]
    rcases htype with htype | htype <;> simp [Envelope.join?, htype]
  · cases hwire.symm.trans hwire'
    rcases htype with htype | htype <;> simp [htype] at htype'

theorem Wire.Waits.of_proposal {env : Envelope} {p : ProposalMsg} (htype : env.type = .proposal)
    (hpayload : env.payload = .proposal p) (hjoin : p.proposalType ≠ .join)
    (hoffered : p.Offered S) : env.marshal.Waits S := by
  refine ⟨.inr ?_, fun _ => ?_, fun env' p' hwire _ hpayload' => ?_⟩
  · simp [Wire.batched_of env.unmarshal_marshal, htype]
  · simp [Envelope.join?, htype, hpayload, hjoin]
  cases env.unmarshal_marshal.symm.trans hwire
  cases hpayload.symm.trans hpayload'
  exact hoffered

theorem retain_outside (h : wire.Waits S) (s : State) : Outside x S s (s.retain key wire) := by
  have htracker : Outside x S s
      { s with epochTracker := s.epochTracker.bufferFuture key wire } := .tracked ?_
  · exact htracker.trans (.memory rfl)
  intro e raw hraw
  unfold EpochTracker.bufferFuture at hraw
  split at hraw
  · exact .inr ⟨e, hraw⟩
  dsimp only at hraw
  split at hraw
  · rcases List.mem_append.mp hraw with hold | hnew
    · exact .inr ⟨e, hold⟩
    · exact .inl (List.mem_singleton.mp hnew ▸ h)
  · exact .inr ⟨e, hraw⟩

theorem handleApplicationDetailedLocked_outside (hwire : wire.unmarshal = some env)
    (htype : env.type = .application) (s : State) :
    Outside x S s (handleApplicationDetailedLocked x pid env wire s).2 := by
  unfold handleApplicationDetailedLocked
  dsimp only
  split
  · exact conclude_outside s
  split
  · exact conclude_outside s
  · exact (retain_outside (.of_type hwire (.inr htype)) s).trans (conclude_outside _)
  · exact processApplicationLocked_outside ⟨env, hwire, .inr (.inl htype)⟩ s

theorem handleApplicationBatchedLocked_outside (hlog : S.Logs wire) (s : State) :
    Outside x S s (handleApplicationBatchedLocked x pid env wire s) := by
  have hstore : ∀ msgs newState s, Outside x S s (storeBatchLocked x msgs newState env wire s) := by
    intro msgs newState s
    have hstate : Outside x S s { s with groupState := newState } := .memory rfl
    unfold storeBatchLocked
    refine (hstate.trans (State.unlessError_outside fun _ h =>
      saveCurrentGroupStateLocked_outside h)).trans (State.storeOrWarn_outside fun db h => ?_)
    unfold Storage.applyBatchedApplication at h
    split at h
    · cases h
    cases happly : Storage.applyEnvelope _ _ _ _ _ _ _ _ _ _ with
    | error => rw [happly] at h; cases h
    | ok result =>
      rw [happly] at h
      cases h
      exact .apply happly hlog
  unfold handleApplicationBatchedLocked
  dsimp only
  split
  · exact markReplayResultLocked_outside s
  split
  · exact .refl s
  split
  · split
    · exact .refl s
    split
    · exact .refl s
    rw [foldl_deliverBatchedEvent]
    exact hstore _ _ _
  · exact .refl s

def Call.Within (S : Scope) : Call → Prop
  | .tryCommit => True
  | .dispatch raw => raw.Waits S

structure Discreet (x : Ctx) (S : Scope) (call : Call → State → State) : Prop where
  fits : S.Fits x
  outside : ∀ c, c.Within S → ∀ s, Outside x S s (call c s)

section

variable (hcall : Discreet x S call)

include hcall

theorem Discreet.tryCommit (s : State) :
    Outside x S s (call .tryCommit s) := hcall.outside .tryCommit trivial s

theorem scheduleBatchCommitLocked_outside (s : State) :
    Outside x S s (scheduleBatchCommitLocked x call s) := by
  unfold scheduleBatchCommitLocked
  split
  · exact .refl s
  split
  · exact hcall.tryCommit s
  · exact armProposalTimer_outside s

theorem commitOrWaitLocked_outside (s : State) : Outside x S s (commitOrWaitLocked x call s) := by
  unfold commitOrWaitLocked
  split
  · exact scheduleBatchCommitLocked_outside hcall s
  · exact scheduleFailoverTimerLocked_outside s

theorem handleJoinLocked_outside
    (hasks : S.asks .remove proposal.joinIdentity ∧ S.asks .add proposal.data)
    (hid : proposal.operationID = "" ∨ S.Open s.storage proposal.operationID) :
    Outside x S s (handleJoinLocked x call env proposal s) := by
  unfold handleJoinLocked
  split
  · exact .refl s
  split
  · exact .refl s
  have hasked : Outside x S s (createAndBufferLocked x .add proposal.data
      { operationID := proposal.operationID, targetPeerID := proposal.targetPeerID,
        requestID := proposal.requestID, groupType := proposal.groupType,
        categoryID := proposal.categoryID, keyPackageHash := proposal.keyPackageHash }
      (removeZombieLocked x proposal.joinIdentity proposal.targetPeerID s)) :=
    (removeZombieLocked_outside hcall.fits hasks.1 s).trans (createAndBufferLocked_outside
      hcall.fits hasks.2 (hid.imp_right (·.congr (removeZombieLocked_operations s))))
  dsimp only
  split
  · exact hasked
  · exact hasked.trans (commitOrWaitLocked_outside hcall _)

theorem handleProposalLocked_outside (htype : env.type = .proposal)
    (hoffered : ∀ p, env.payload = .proposal p → p.Offered S)
    (hjoin : S.kept → ∀ p, env.join? = some p →
      p.operationID = "" ∨ ¬ s.storage.Concluded p.operationID) :
    Outside x S s (handleProposalLocked x call pid env s) := by
  unfold handleProposalLocked
  split
  next proposal hpayload =>
    have hoffer := hoffered proposal hpayload
    split
    · exact .refl s
    split
    next hasks =>
      refine handleJoinLocked_outside hcall (by simpa [ProposalMsg.Offered, hasks] using hoffer) ?_
      by_cases hkept : S.kept
      · exact (hjoin hkept proposal (by simp [Envelope.join?, htype, hpayload, hasks])).imp_right
          fun hopen _ => hopen
      · exact .inr fun h => absurd h hkept
    rename_i hasks
    split
    · exact .refl s
    · exact retain_outside (.of_proposal htype hpayload hasks hoffer) s
    split
    · exact .refl s
    rename_i h
    have hfounds : S.founds proposal.proposalType proposal.data := by
      simpa [ProposalMsg.Offered, hasks] using hoffer
    have hseen : Outside x S s _ := (processProposalLocked_outside hfounds h).trans
      (scheduleFailoverTimerLocked_outside _)
    dsimp only
    split
    · exact hseen.emit.trans (scheduleBatchCommitLocked_outside hcall _)
    · exact hseen.emit
  · exact .refl s

end

theorem scheduleFailoverTimerLocked_storage (s : State) :
    (scheduleFailoverTimerLocked x s).storage = s.storage := by
  unfold scheduleFailoverTimerLocked
  split
  · rfl
  · split <;> rfl

theorem commitOrWaitLocked_storage (h : 0 < x.cfg.batchingDelay) (s : State) :
    (commitOrWaitLocked x call s).storage = s.storage := by
  have harm : (armProposalTimer s).storage = s.storage := by
    unfold armProposalTimer
    split <;> rfl
  unfold commitOrWaitLocked scheduleBatchCommitLocked
  rw [if_neg (not_le.mpr h)]
  split
  · split
    · rfl
    · exact harm
  · exact scheduleFailoverTimerLocked_storage s

theorem broadcastLocked_storage (s : State) :
    (broadcastLocked x msgType payload s).storage = s.storage :=
  publishPreparedEnvelopeLocked_storage _

theorem PendingOperation.proposal_operationID (op : PendingOperation) :
    op.proposal.2.operationID = op.operationID := by
  unfold PendingOperation.proposal
  split <;> rfl

theorem repropose_outside (hcall : Discreet x S call)
    (hasks : S.asks op.proposalType op.semanticPayload) (hop : S.Open s.storage op.operationID) :
    Outside x S s (repropose x call op prevEpoch s) := by
  unfold repropose
  dsimp only
  split
  · exact .emit (saveOperation_outside hasks (.inr hop))
  rename_i msg buffered s₁ h
  have hproposed : Outside x S s
      ((broadcastLocked x .proposal (.proposal msg) s₁).bufferProposal x buffered) := by
    refine .bufferProposal ((createAndStoreLocalProposalLocked_outside (.inr ?_) h).trans
      (broadcastLocked_outside _)) (createAndStoreLocalProposalLocked_founds hcall.fits ?_ h).1
    · rw [PendingOperation.proposal_operationID]
      exact hop
    · rw [PendingOperation.proposal_type]
      exact hasks
  refine (hproposed.trans (commitOrWaitLocked_outside hcall _)).trans
    (finishRebase_outside hasks ?_)
  intro hkept
  rw [commitOrWaitLocked_storage (hcall.fits.delay hkept)]
  have hopen := hop.congr (createAndStoreLocalProposalLocked_operations h) hkept
  exact fun hdone => hopen (broadcastLocked_storage (x := x) s₁ ▸ hdone)

theorem rebaseOperation_outside (hcall : Discreet x S call)
    (hasks : S.asks op.proposalType op.semanticPayload)
    (hop : op.isOpen = true → S.Open s.storage op.operationID) :
    Outside x S s (rebaseOperation x call s op) := by
  unfold rebaseOperation
  split
  · exact .refl s
  rename_i hopen
  have hopen : S.Open s.storage op.operationID := hop (by simpa using hopen)
  repeat' split
  all_goals first
    | exact .refl s
    | exact repropose_outside hcall hasks hopen
    | exact saveOperation_outside hasks (.inr hopen)
    | exact .emit (saveOperation_outside hasks (.inr hopen))

theorem rebaseOperation_other (h : 0 < x.cfg.batchingDelay) (hne : operationID ≠ op.operationID)
    (s : State) : (rebaseOperation x call s op).storage.Concluded operationID ↔
      s.storage.Concluded operationID := by
  have hsave : ∀ (op' : PendingOperation) (s : State), op'.operationID = op.operationID →
      ((s.saveOperation x op').storage.Concluded operationID ↔
        s.storage.Concluded operationID) := by
    intro op' s hid
    unfold State.saveOperation
    split
    · rfl
    · exact Storage.savePendingOperation_other ‹_› (hid.symm ▸ hne)
  have hfinish : ∀ (op' : PendingOperation) prevEpoch (s : State),
    op'.operationID = op.operationID →
      ((finishRebase x op' prevEpoch s).storage.Concluded operationID ↔
        s.storage.Concluded operationID) := by
    intro op' prevEpoch s hid
    unfold finishRebase
    dsimp only
    split <;> exact hsave _ s hid
  unfold rebaseOperation repropose
  dsimp only
  repeat' split
  all_goals first
    | rfl
    | exact hsave _ s rfl
    | skip
  rename_i s₁ hcreate
  refine (hfinish _ _ _ ?_).trans ?_
  · rfl
  rw [commitOrWaitLocked_storage h]
  refine Iff.trans (Iff.of_eq (congrArg (Storage.Concluded · operationID)
    (broadcastLocked_storage (x := x) s₁))) ?_
  exact Storage.Concluded.congr (createAndStoreLocalProposalLocked_operations hcreate)

theorem foldl_rebaseOperation_outside (hcall : Discreet x S call) (ops : List PendingOperation)
    (s : State) (hasks : ∀ op ∈ ops, S.asks op.proposalType op.semanticPayload)
    (hkeyed : S.kept → Table.Keyed PendingOperation.operationID ops)
    (hops : S.kept → ∀ op ∈ ops, op.isOpen = true → ¬ s.storage.Concluded op.operationID) :
    Outside x S s (ops.foldl (rebaseOperation x call) s) := by
  induction ops generalizing s with
  | nil => exact .refl s
  | cons op ops ih =>
    refine (rebaseOperation_outside hcall (hasks op List.mem_cons_self) fun hopen hkept =>
      hops hkept op List.mem_cons_self hopen).trans
      (ih _ (fun op' hop' => hasks op' (List.mem_cons_of_mem op hop'))
        (fun hkept => (List.nodup_cons.mp (hkeyed hkept)).2) fun hkept op' hop' hopen => ?_)
    have hne : op'.operationID ≠ op.operationID := fun hid =>
      (List.nodup_cons.mp (hkeyed hkept)).1 (hid ▸ List.mem_map_of_mem hop')
    rw [rebaseOperation_other (hcall.fits.delay hkept) hne]
    exact hops hkept op' (List.mem_cons_of_mem op hop') hopen

theorem reconcileAndRebaseOperationsLocked_outside (hcall : Discreet x S call) (s : State) :
    Outside x S s (reconcileAndRebaseOperationsLocked x call s) := by
  unfold reconcileAndRebaseOperationsLocked
  split
  · exact .refl s
  rename_i ops hlist
  have hperm := Storage.listPendingOperations_ok hlist
  have hloop : Outside x S s (ops.foldl (rebaseOperation x call) s) := by
    intro hclean
    refine foldl_rebaseOperation_outside hcall ops s (hclean.listed hlist) (fun hkept => ?_)
      (fun hkept op hop hopen => ?_)
      hclean
    · exact (hperm.map _).nodup_iff.mpr (hclean.keyed hkept)
    rintro ⟨stored, hget, hclosed⟩
    rw [Table.get_eq_some (hclean.keyed hkept) (hperm.mem_iff.mp hop)] at hget
    cases hget
    rw [PendingOperation.not_concluded hopen] at hclosed
    cases hclosed
  dsimp only
  split
  · exact hloop.trans (scheduleBatchCommitLocked_outside hcall _)
  · exact hloop

theorem enterEpochLocked_outside (s : State) :
    Outside x S s (enterEpochLocked x newState newEpoch newTreeHash commitData s) := by
  unfold enterEpochLocked
  have htracker : Outside x S s
      { s with epochTracker := (s.epochTracker.advance newEpoch newTreeHash).1 } := by
    refine .tracked fun e raw hraw => .inr ⟨e, ?_⟩
    unfold EpochTracker.advance at hraw
    dsimp only at hraw
    split at hraw
    · cases hraw
    · exact hraw
  refine .emit (.trans ?_ (persistCoord_outside _))
  exact htracker.trans (.offering rfl (fun p hp => absurd hp List.not_mem_nil) fun i hi => .inl hi)

theorem advanceEpochLocked_outside (hcall : Discreet x S call) (s : State) :
    Outside x S s (advanceEpochLocked x call newState newEpoch newTreeHash commitData s) := by
  intro hclean
  have hloop : ∀ s', Outside x S s'
      (dispatchBuffered call newEpoch (s.epochTracker.futureBuffer newEpoch) s') := by
    refine State.foldl_outside_of_mem _ fun s' raw hraw => ?_
    have htake : Outside x S s' (s'.takeBuffered newEpoch raw) := .memory rfl
    exact htake.trans (hcall.outside (.dispatch raw) (hclean.buffer newEpoch raw hraw) _)
  exact (enterEpochLocked_outside s).trans (hloop _) hclean

theorem handleCommitLocked_outside (hcall : Discreet x S call) (hwire : wire.unmarshal = some env)
    (htype : env.type = .commit) (s : State) :
    Outside x S s (handleCommitLocked x call env wire s).2 := by
  have hsettle : ∀ commit newState nextEpoch s,
      Outside x S s (settleCommitLocked x call commit newState nextEpoch s) := by
    intro commit newState nextEpoch s
    have hdrain : Outside x S s (drainCommitted commit s) := .offering rfl (fun p hp =>
      .inl (SingleWriter.mem_of_mem_drainBatchByRefs (SingleWriter.mem_of_mem_drainBatchByData hp)))
      fun i hi => .inl hi
    unfold settleCommitLocked
    refine .trans ?_ (State.foldl_emit_outside _ _ _)
    refine .trans ?_ (updateLocalAccessRevocationLocked_outside _)
    refine .trans ?_ (reconcileAndRebaseOperationsLocked_outside hcall _)
    exact hdrain.trans (reconcileOperationsAfterCommitLocked_outside _)
  have hprocess : ∀ commit, Outside x S s (processCommitLocked x call env wire commit s).2 := by
    intro commit
    unfold processCommitLocked
    split
    · exact .memory rfl
    split
    · exact .refl s
    · exact .refl s
    rename_i happly
    have hstored : Outside x S s (s.commitApplied x env commit _) :=
      (Outside.transaction (.apply happly ⟨env, hwire, .inl htype⟩)).trans (.memory rfl)
    exact hstored.trans ((advanceEpochLocked_outside hcall _).trans (hsettle _ _ _ _))
  unfold handleCommitLocked
  split
  · exact .refl s
  · exact retain_outside (.of_type hwire (.inl htype)) s
  split
  · split
    · exact .refl s
    · exact hprocess _
  · exact .refl s

theorem handleCommitDetailedLocked_outside (hcall : Discreet x S call)
    (hwire : wire.unmarshal = some env) (htype : env.type = .commit) (s : State) :
    Outside x S s (handleCommitDetailedLocked x call env wire s).2 := by
  unfold handleCommitDetailedLocked
  dsimp only
  split
  · exact conclude_outside s
  split
  · exact conclude_outside s
  · exact (retain_outside (.of_type hwire (.inl htype)) s).trans (conclude_outside _)
  have hhandle : Outside x S s (handleCommitLocked x call env wire s).2 :=
    handleCommitLocked_outside hcall hwire htype s
  split
  next h =>
    rw [h] at hhandle
    exact hhandle.trans (conclude_outside _)
  next h =>
    rw [h] at hhandle
    split <;> exact hhandle.trans (conclude_outside _)

theorem commitIssued_outside {plan : CommitPlan} {result : CreateCommitResult}
    (hplan : ∀ p ∈ plan.included, S.founds p.proposalType p.data) (env : Envelope) (s : State) :
    Outside x S s (s.commitIssued x plan (plan.message result) env) := by
  refine .offering rfl (fun p hp => .inl (SingleWriter.mem_of_mem_drainBatchByRefs hp))
    fun i hi => ?_
  rcases List.mem_append.mp hi with hold | hnew
  · exact .inl hold
  · rw [List.mem_singleton.mp hnew]
    exact .inr hplan

section

variable (hcall : Discreet x S call)

include hcall

theorem issueCommitLocked_outside {plan : CommitPlan}
    (hplan : ∀ p ∈ plan.included, S.founds p.proposalType p.data) (s : State) :
    Outside x S s (issueCommitLocked x call plan s).2 := by
  unfold issueCommitLocked
  split
  · exact .refl s
  dsimp only
  have hstamp : Outside x S s (s.stamp x).1 := .memory rfl
  split
  · exact hstamp
  · exact hstamp
  rename_i happly
  have hstored := hstamp.trans
    (.transaction (.apply happly ⟨_, Envelope.unmarshal_marshal _, .inl rfl⟩))
  unfold finishIssueLocked
  refine .trans ?_ (updateLocalAccessRevocationLocked_outside _)
  refine .trans ?_ (reconcileAndRebaseOperationsLocked_outside hcall _)
  refine .trans ?_ (reconcileOperationsAfterCommitLocked_outside _)
  refine .trans ?_ (advanceEpochLocked_outside hcall _)
  refine .trans ?_ (publishPreparedEnvelopeLocked_outside _)
  exact hstored.trans (commitIssued_outside hplan _ _)

theorem issued_outside (hplan : ∀ p ∈ plan.included, S.founds p.proposalType p.data)
    (h : issueCommitLocked x call plan s = (result, s')) : Outside x S s s' := by
  have hissue := issueCommitLocked_outside hcall hplan s
  rwa [h] at hissue

theorem tryCommitLocked_outside (s : State) : Outside x S s (tryCommitLocked x call s) := by
  have hbatch : ∀ batch, (∀ p ∈ batch, S.founds p.type p.data) →
      Outside x S s (doCommitBatchLocked x call batch s) := by
    intro batch hfounds
    have hplan : ∀ p ∈ (batchPlan x batch).included, S.founds p.proposalType p.data := by
      intro p hp
      obtain ⟨q, hq, rfl⟩ := List.mem_map.mp hp
      exact hfounds q hq
    unfold doCommitBatchLocked
    split
    · exact .refl s
    split
    next h =>
      exact issued_outside hcall hplan h
    rename_i h
    have hissue := issued_outside hcall hplan h
    dsimp only
    split <;> split
    all_goals first
      | exact hissue.emit
      | exact hissue.emit.trans (State.foldl_emit_outside _ _ _)
  unfold tryCommitLocked
  dsimp only
  split
  · exact .refl s
  split
  · exact armProposalTimer_outside s
  · exact fun hclean => hbatch _ (fun p hp =>
      hclean.founded.proposals p (SingleWriter.mem_of_mem_snapshotNextBatch hp)) hclean

theorem dispatchLocked_outside (hraw : raw.Waits S) (s : State) :
    Outside x S s (dispatchLocked x call raw s) := by
  unfold dispatchLocked
  split
  · exact .refl s
  rename_i env hwire
  dsimp only
  split
  next htype =>
    refine handleProposalLocked_outside hcall htype
      (fun p hpayload => hraw.offered env p hwire htype hpayload) fun hkept p hp => ?_
    have hnone := hraw.joins hkept
    rw [hwire, Option.bind_some, hp] at hnone
    cases hnone
  next htype =>
    exact handleCommitLocked_outside hcall hwire htype s
  next htype =>
    exact handleApplicationDetailedLocked_outside hwire htype s
  next htype =>
    have hbatches : S.batches := hraw.batches.resolve_right (by simp [Wire.batched_of hwire, htype])
    exact handleApplicationBatchedLocked_outside ⟨env, hwire, .inr (.inr ⟨htype, hbatches⟩)⟩ s
  · exact .refl s

end

theorem run_discreet (hfits : S.Fits x) (fuel : Nat) : Discreet x S (run x fuel) := by
  induction fuel with
  | zero => exact ⟨hfits, fun _ _ _ => .memory rfl⟩
  | succ fuel ih =>
    refine ⟨hfits, ?_⟩
    rintro (_ | raw) hwithin s
    · exact tryCommitLocked_outside ih s
    · exact dispatchLocked_outside ih hwithin s

end Handlers

-- -------- Operations

section Operations

variable {x : Ctx} {S : Scope} {s s' s'' : State} {call : Call → State → State}

theorem proposeLockedWithMetadata_outside (hcall : Discreet x S call) (hasks : S.asks pType data)
    (hinfo : info.operationID = "" ∨ S.Open s.storage info.operationID)
    (h : proposeLockedWithMetadata x call pType data info s = .ok s') : Outside x S s s' := by
  unfold proposeLockedWithMetadata at h
  split at h
  · cases h
  split at h
  · cases h
  obtain ⟨⟨msg, buffered, s₁⟩, hcreate, h⟩ := bind_ok h
  have hmade : Outside x S s s₁ :=
    createAndStoreLocalProposalLocked_outside hinfo (mapError_ok hcreate)
  have hproposed : Outside x S s (scheduleFailoverTimerLocked x
      ((broadcastLocked x .proposal (.proposal msg) s₁).bufferProposal x buffered)) :=
    ((hmade.trans (broadcastLocked_outside _)).bufferProposal
      (createAndStoreLocalProposalLocked_founds hcall.fits hasks
        (mapError_ok hcreate)).1).trans (scheduleFailoverTimerLocked_outside _)
  cases h
  split
  · exact hproposed.emit.trans (scheduleBatchCommitLocked_outside hcall _)
  · exact hproposed.emit

def recordedID (x : Ctx) (operationID : String) : String :=
  if operationID = "" then "op_" ++ x.freshID else operationID

def Scope.Requests (S : Scope) (x : Ctx) (operationID key : String) (s : State) : Prop :=
  repeatedRequest x operationID key s = none → S.Open s.storage (recordedID x operationID)

theorem Scope.Open.requested (h : S.Open s.storage (recordedID x operationID)) (opType : OpType)
    (key target : String) (payload operationHash : Bytes) :
    S.Open (s.saveOperation x (newOperation x opType operationID key target payload operationHash
      s)).storage (recordedID x operationID) :=
  Scope.Open.saved (newOperation x opType operationID key target payload operationHash s) h rfl

theorem Scope.Open.buffered (h : S.Open s.storage operationID)
    (hcreate : createAndStoreLocalProposalLocked x pType data info s = .ok (msg, p, s')) :
    S.Open (scheduleFailoverTimerLocked x (s'.bufferProposal x q)).storage operationID := by
  have hsame : S.Open s'.storage operationID :=
    h.congr (createAndStoreLocalProposalLocked_operations hcreate)
  rw [scheduleFailoverTimerLocked_storage]
  exact hsame

theorem requestPlan_founds {msg : ProposalMsg} (h : S.founds msg.proposalType msg.data) :
    ∀ p ∈ (requestPlan path electedFor msg deliveries).included,
      S.founds p.proposalType p.data := by
  intro p hp
  rw [List.mem_singleton.mp hp]
  exact h

theorem addMember_outside (hcall : Discreet x S call) (hasks : S.asks .add req.keyPackageBytes)
    (hreq : S.Requests x req.operationID ("add_member_" ++ x.peers.toString req.targetPeerID) s) :
    Outside x S s (addMember x call req s).2 := by
  have hcommit : ∀ opID (msg : ProposalMsg) s, S.founds msg.proposalType msg.data →
      Outside x S s (commitAddLocked x call req opID msg s).2 := by
    intro opID msg s hmsg
    unfold commitAddLocked
    dsimp only
    split
    next h =>
      exact issued_outside hcall (requestPlan_founds hmsg) h
    rename_i h
    have hissue := issued_outside hcall (requestPlan_founds hmsg) h
    split
    · exact hissue.emit
    · exact hissue.emit.emit
  have hconclude : ∀ opID (msg : ProposalMsg) buffered s, S.founds msg.proposalType msg.data →
      Outside x S s (concludeAddLocked x call req opID msg buffered s).2 := by
    intro opID msg buffered s hmsg
    unfold concludeAddLocked
    dsimp only
    split
    · exact broadcastLocked_outside s
    split
    · exact (broadcastLocked_outside s).trans (armProposalTimer_outside _)
    · exact hcommit opID msg s hmsg
  unfold addMember
  dsimp only
  split
  · exact .refl s
  split
  · exact .refl s
  split
  · exact .refl s
  rename_i hnew
  have hopen : S.Open s.storage (recordedID x req.operationID) := hreq hnew
  have hsaved : Outside x S s (s.saveOperation x (newOperation x .addMember
      req.operationID ("add_member_" ++ x.peers.toString req.targetPeerID)
      (x.peers.toString req.targetPeerID) req.keyPackageBytes req.keyPackageHash s)) :=
    saveOperation_outside hasks (.inr hopen)
  have hstill := hopen.requested (x := x) .addMember
    ("add_member_" ++ x.peers.toString req.targetPeerID)
    (x.peers.toString req.targetPeerID) req.keyPackageBytes req.keyPackageHash
  split
  · exact hsaved.trans (saveOperation_outside hasks (.inr hstill))
  rename_i msg buffered s₁ h
  obtain ⟨hbuffered, hmsg⟩ := createAndStoreLocalProposalLocked_founds hcall.fits hasks h
  have hmade : Outside x S s
      (scheduleFailoverTimerLocked x (s₁.bufferProposal x buffered)) :=
    ((hsaved.trans (createAndStoreLocalProposalLocked_outside (.inr hstill)
      h)).bufferProposal hbuffered).trans (scheduleFailoverTimerLocked_outside _)
  refine .trans (.emit (hmade.trans (saveOperation_outside ?_ (.inr ?_))))
    (hconclude _ _ _ _ hmsg)
  · exact hasks
  · exact hstill.buffered h

theorem removeMemberWithPeer_outside (hcall : Discreet x S call)
    (hasks : S.asks .remove req.targetIdentity)
    (hreq : S.Requests x req.operationID ("remove_member_" ++ x.peers.toString req.targetPeerID)
      s) : Outside x S s (removeMemberWithPeer x call req s).2 := by
  have hcommit : ∀ target opID electedFor (msg : ProposalMsg) s,
      S.founds msg.proposalType msg.data →
      Outside x S s (commitRemoveLocked x call target opID electedFor msg s).2 := by
    intro target opID electedFor msg s hmsg
    unfold commitRemoveLocked
    split
    next h =>
      exact issued_outside hcall (requestPlan_founds hmsg) h
    next h =>
      exact (issued_outside hcall (requestPlan_founds hmsg) h).emit
  have hholder : ∀ op s, S.asks op.proposalType op.semanticPayload →
      S.Open s.storage op.operationID → Outside x S s (removeAsHolderLocked x call req op s).2 := by
    intro op s hop hopen
    unfold removeAsHolderLocked
    dsimp only
    split
    · exact saveOperation_outside hop (.inr hopen)
    rename_i msg buffered s₁ h
    obtain ⟨hbuffered, hmsg⟩ := createAndStoreLocalProposalLocked_founds hcall.fits hasks h
    have hmade : Outside x S s
        ((scheduleFailoverTimerLocked x (s₁.bufferProposal x buffered)).saveOperation x
          { op with status := .proposed, latestProposalHash := x.hash.sum msg.data }) :=
      (((createAndStoreLocalProposalLocked_outside (.inr hopen) h).bufferProposal hbuffered).trans
        (scheduleFailoverTimerLocked_outside _)).trans
        (saveOperation_outside hop (.inr (hopen.buffered h)))
    split
    · exact (hmade.trans (broadcastLocked_outside _)).trans (armProposalTimer_outside _)
    · exact hmade.trans (hcommit _ _ _ _ _ hmsg)
  unfold removeMemberWithPeer
  dsimp only
  split
  · exact .refl s
  split
  · exact .refl s
  split
  · exact .refl s
  rename_i hnew
  have hopen : S.Open s.storage (recordedID x req.operationID) := hreq hnew
  have hsaved : Outside x S s (s.saveOperation x (newOperation x .removeMember
      req.operationID ("remove_member_" ++ x.peers.toString req.targetPeerID)
      (x.peers.toString req.targetPeerID) req.targetIdentity [] s)) :=
    saveOperation_outside hasks (.inr hopen)
  have hstill := hopen.requested (x := x) .removeMember
    ("remove_member_" ++ x.peers.toString req.targetPeerID)
    (x.peers.toString req.targetPeerID) req.targetIdentity []
  split
  · split
    · exact hsaved.trans (saveOperation_outside hasks (.inr hstill))
    rename_i h
    refine (hsaved.trans (saveOperation_outside ?_ (.inr hstill))).trans
      (proposeLockedWithMetadata_outside hcall hasks (.inr ?_) h)
    · exact hasks
    exact Scope.Open.saved { newOperation x .removeMember req.operationID
      ("remove_member_" ++ x.peers.toString req.targetPeerID)
      (x.peers.toString req.targetPeerID) req.targetIdentity [] s with
        status := .proposed } hstill rfl
  · exact hsaved.trans (hholder _ _ hasks hstill)

theorem sendMessage_outside (s : State) : Outside x S s (sendMessage x plaintext token s).2 := by
  unfold sendMessage
  split
  · exact .refl s
  split
  · exact .refl s
  have haccess : Outside x S s (updateLocalAccessRevocationLocked x s.groupState s.epoch s) :=
    updateLocalAccessRevocationLocked_outside s
  have hstamp : Outside x S s
      (State.stamp x (updateLocalAccessRevocationLocked x s.groupState s.epoch s)).1 :=
    haccess.trans (.memory rfl)
  dsimp only
  split
  · exact haccess
  split
  · exact hstamp
  split
  · exact hstamp
  next h =>
    exact hstamp.trans (deliverLocked_outside ⟨_, Envelope.unmarshal_marshal _, .inr (.inl rfl)⟩ h)
  rename_i h
  exact ((hstamp.trans (deliverLocked_outside
    ⟨_, Envelope.unmarshal_marshal _, .inr (.inl rfl)⟩ h)).trans
    (publishPreparedEnvelopeLocked_outside _)).trans (trackPending_outside _)

def Tends (s s' : State) : Prop :=
  s'.desk = s.desk ∨ s.healing = false ∧ ∃ traceID event, s'.desk = { s.desk with
    healing := true, heal := some { traceID, event, phase := .queued } }

def TendsTo (P : ForkEvent → Prop) (s s' : State) : Prop :=
  s'.desk = s.desk ∨ s.healing = false ∧ ∃ traceID event, P event ∧ s'.desk = { s.desk with
    healing := true, heal := some { traceID, event, phase := .queued } }

theorem TendsTo.after (h : TendsTo P s' s'') (hdesk : s'.desk = s.desk) : TendsTo P s s'' := by
  have hhealing : s'.healing = s.healing := congrArg Desk.healing hdesk
  rw [TendsTo, hdesk, hhealing] at h
  exact h

theorem TendsTo.tends (h : TendsTo P s s') : Tends s s' :=
  h.imp_right fun ⟨hidle, traceID, event, _, hdesk⟩ => ⟨hidle, traceID, event, hdesk⟩

def Tending (x : Ctx) (S : Scope) (P : ForkEvent → Prop) (s s' : State) : Prop :=
  s.Clean S → TendsTo P s s' ∧ Works x S s s'

theorem Outside.tending (h : Outside x S s s') : Tending x S P s s' := fun hclean =>
  ⟨.inl (h hclean).1, (h hclean).2⟩

theorem Tending.after (h : Tending x S P s' s'') (houtside : Outside x S s s') :
    Tending x S P s s'' := by
  intro hclean
  obtain ⟨hdesk, hworks⟩ := houtside hclean
  obtain ⟨htends, hworks'⟩ := h hworks.clean
  exact ⟨htends.after hdesk, hworks.trans hworks'⟩

def announcedFork (x : Ctx) (pid : PeerID) (env : Envelope) (ann : GroupStateAnnouncement)
    (s : State) : Option ForkEvent :=
  (s.forkDetector.processRemote x.now pid env.epoch ann).2

def confirmedFork (x : Ctx) (pid : PeerID) (reply : HistoryReplyMsg) (s : State) : ForkEvent :=
  let (result, remoteAnn, _) := s.forkDetector.compareWithPeer x.rotation pid
  { groupID := x.groupID
    remotePeer := pid
    localAnnounce := s.announcement
    remoteAnnounce := remoteAnn
    remoteEpoch := if remoteAnn.epoch = 0 then reply.epoch else remoteAnn.epoch
    result := result
    needExternalJoin := true }

structure ForksHave (x : Ctx) (P : ForkEvent → Prop) (pid : PeerID) (env : Envelope) (s : State) :
    Prop where
  announced : ∀ ann event, env.type = .announce → env.payload = .announce ann →
    announcedFork x pid env ann s = some event → event.needExternalJoin = true →
    P { event with groupID := x.groupID }
  confirmed : ∀ reply, env.type = .historyReply → env.payload = .historyReply reply →
    (confirmedFork x pid reply s).result = .remote → P (confirmedFork x pid reply s)

theorem startHeal_tends (h : P event) (s : State) : Tending x S P s (startHeal x event s) := by
  unfold startHeal
  split
  · exact (Outside.refl s).tending
  rename_i hidle
  exact fun hclean => ⟨.inr ⟨by simpa using hidle, x.freshID, event, h, rfl⟩,
    ⟨hclean.buffer, hclean.keyed, hclean.founded.proposals, hclean.founded.operations,
      hclean.founded.issued⟩,
    .refl, fun _ => ⟨[], (List.append_nil _).symm, .same rfl⟩⟩

theorem scheduleHeal_tends (h : P event) (s : State) :
    Tending x S P s (scheduleHeal x event s) := by
  unfold scheduleHeal
  dsimp only
  split
  · exact Outside.tending (.memory rfl)
  · exact (startHeal_tends h _).after (.memory rfl)

theorem recordAnnouncement_outside (h : recordAnnouncement x pid env ann s = (s', event)) :
    Outside x S s s' := by
  cases h
  exact .memory rfl

theorem observePeerAliveLocked_outside (s : State) :
    Outside x S s (observePeerAliveLocked x pid s) := by
  unfold observePeerAliveLocked
  split
  · exact .refl s
  · dsimp only
    split <;> exact .memory rfl

theorem handleAnnounceLocked_tends (h : ForksHave x P pid env s) (htype : env.type = .announce) :
    Tending x S P s (handleAnnounceLocked x pid env s) := by
  unfold handleAnnounceLocked
  split
  next ann hpayload =>
    split
    · dsimp only
      split
      next s₁ event hrecord =>
        have houtside : Outside x S s s₁ := recordAnnouncement_outside hrecord
        have hevent : announcedFork x pid env ann s = some event := congrArg Prod.snd hrecord
        split
        next hjoin =>
          exact (scheduleHeal_tends (h.announced ann event htype hpayload hevent hjoin.2) _).after
            houtside
        · exact houtside.tending
      next hrecord =>
        exact (recordAnnouncement_outside hrecord).tending
    · split <;> exact Outside.tending (.memory rfl)
  · exact (Outside.refl s).tending

theorem handleHistoryReplyLocked_tends (h : ForksHave x P pid env s)
    (htype : env.type = .historyReply) :
    Tending x S P s (handleHistoryReplyLocked x pid env s) := by
  unfold handleHistoryReplyLocked
  split
  next reply hpayload =>
    split
    · exact (Outside.refl s).tending
    split
    · exact (Outside.refl s).tending
    split
    · exact (Outside.refl s).emit.tending
    unfold confirmFork
    dsimp only
    split
    · exact (Outside.refl s).tending
    next hresult =>
      exact scheduleHeal_tends (h.confirmed reply htype hpayload (not_not.mp hresult)) s
  · exact (Outside.refl s).tending

theorem handleControlMessageLocked_tends (h : ForksHave x P pid env s) :
    Tending x S P s (handleControlMessageLocked x pid env s) := by
  unfold handleControlMessageLocked
  split
  · exact (observePeerAliveLocked_outside s).tending
  next htype =>
    exact handleAnnounceLocked_tends h htype
  · unfold handleDeliveryAckLocked
    repeat' split
    all_goals exact Outside.tending (.memory rfl)
  · unfold handleHistoryQueryLocked
    split <;> exact Outside.tending (.memory rfl)
  next htype =>
    exact handleHistoryReplyLocked_tends h htype
  · exact (Outside.refl s).tending

structure Wire.Comes (S : Scope) (db : Storage) (wire : Wire) : Prop where
  batches : S.batches ∨ wire.batched = false
  joins : S.kept → ∀ p, wire.unmarshal.bind Envelope.join? = some p →
    p.operationID = "" ∨ ¬ db.Concluded p.operationID
  offered : wire.Offered S

theorem handleRawMessage_tends (hcall : Discreet x S call) (hdata : data.Comes S s.storage)
    (h : ∀ env, acceptsRaw x pid data = some env → ForksHave x P pid env s) :
    Tending x S P s (handleRawMessage x call pid data s) := by
  have happend : ∀ (env : Envelope) source, data.unmarshal = some env →
      (env.type = .commit ∨ env.type = .application) → Tending x S P s (s.storeOrWarn
      (Storage.appendEnvelopeWithSource x.disk s.storage env.type env.epoch env.timestamp data
        source)) := fun env source hwire htype =>
    (State.storeOrWarn_outside fun _ h => .append h ⟨env, hwire, htype.imp_right .inl⟩).tending
  have hlive : ∀ env, data.unmarshal = some env → ForksHave x P pid env s →
      Tending x S P s (handleLiveLocked x call pid env data s) := by
    intro env hwire hforks
    unfold handleLiveLocked
    split
    next htype =>
      exact (handleProposalLocked_outside hcall htype
        (fun p hpayload => hdata.offered env p hwire htype hpayload)
        fun hkept p hp => hdata.joins hkept p (by rw [hwire, Option.bind_some, hp])).tending
    next htype =>
      exact (handleCommitLocked_outside hcall hwire htype s).tending
    next htype =>
      exact (handleApplicationDetailedLocked_outside hwire htype s).tending
    next htype =>
      have hbatches : S.batches :=
        hdata.batches.resolve_right (by simp [Wire.batched_of hwire, htype])
      exact (handleApplicationBatchedLocked_outside
        ⟨env, hwire, .inr (.inr ⟨htype, hbatches⟩)⟩ s).tending
    · exact handleControlMessageLocked_tends hforks
  unfold handleRawMessage
  split
  · exact (Outside.refl s).tending
  rename_i env haccepts
  have hforks := h env haccepts
  have hwire := acceptsRaw_unmarshal haccepts
  unfold handleAcceptedLocked
  split
  · split
    next htype =>
      split
      · exact happend env _ hwire htype
      · exact (Outside.refl s).tending
    · exact handleControlMessageLocked_tends hforks
  · split
    next htype =>
      exact happend env _ hwire htype
    · exact handleControlMessageLocked_tends hforks
  · exact hlive env hwire hforks

theorem replayEnvelopes_outside (hcall : Discreet x S call) (blobs : List Wire) (s : State) :
    Outside x S s (replayEnvelopes x call blobs s).2 := by
  have hone : ∀ raw s, Outside x S s (replayEnvelope x call raw s).2 := by
    intro raw s
    unfold replayEnvelope
    split
    · exact .refl s
    split
    · exact .refl s
    rename_i hwire
    dsimp only
    split
    · exact .refl s
    split
    · exact .refl s
    split
    next htype =>
      exact handleCommitDetailedLocked_outside hcall hwire htype s
    next htype =>
      exact handleApplicationDetailedLocked_outside hwire htype s
    · exact .refl s
  induction blobs generalizing s with
  | nil => exact .refl s
  | cons raw blobs ih => exact (hone raw s).trans (ih _)

theorem proposalTimerFires_outside (hcall : Discreet x S call) (s : State) :
    Outside x S s (proposalTimerFires x call timer s) := by
  unfold proposalTimerFires
  split
  · dsimp only
    split
    · exact (hcall.tryCommit _).after rfl
    · exact .memory rfl
  · exact .refl s

theorem suspend_view (s : State) :
    { s with singleWriter := s.singleWriter.suspend pid }.view = s.view := by
  simp [State.view]
  rfl

theorem failoverTimerFires_outside (hcall : Discreet x S call) (s : State) :
    Outside x S s (failoverTimerFires x call timer s) := by
  have hsuspend : ∀ s, Outside x S s (suspendHolder x call s) := by
    intro s
    unfold suspendHolder
    split
    · exact .refl s
    split
    · exact .refl s
    dsimp only
    split
    · exact (scheduleBatchCommitLocked_outside hcall _).after (suspend_view s)
    · exact (scheduleFailoverTimerLocked_outside _).after (suspend_view s)
  unfold failoverTimerFires
  split
  · dsimp only
    split
    · exact (hsuspend _).after rfl
    · exact .memory rfl
  · exact .refl s

theorem handleActiveViewChange_outside (hcall : Discreet x S call) (s : State) :
    Outside x S s (handleActiveViewChange x call s) := by
  unfold handleActiveViewChange
  split
  · exact .refl s
  split
  · exact .refl s
  dsimp only
  split
  · refine .trans ?_ (hcall.tryCommit _)
    exact (persistCoord_outside _).after rfl
  · exact (persistCoord_outside _).after rfl

def Op.tendsHeal : Op → Bool
  | .heal _ | .welcome _ | .resumeHeal | .setMode _ | .stop | .restart .. => true
  | _ => false

def Op.ForksHave (x : Ctx) (P : ForkEvent → Prop) (op : Op) (s : State) : Prop :=
  match op with
  | .receive pid data => ∀ env, acceptsRaw x pid data = some env →
      GroupCoordination.ForksHave x P pid env s
  | .deferredHeal => ∀ event, s.deferredForkEvent = some event → P event
  | _ => True

def Op.Within (S : Scope) (x : Ctx) (op : Op) (s : State) : Prop :=
  match op with
  | .receive _ data => data.Comes S s.storage
  | .addMember req => S.asks .add req.keyPackageBytes ∧
    S.Requests x req.operationID ("add_member_" ++ x.peers.toString req.targetPeerID) s
  | .removeMember req => S.asks .remove req.targetIdentity ∧
    S.Requests x req.operationID ("remove_member_" ++ x.peers.toString req.targetPeerID) s
  | .propose pType data => S.asks pType data
  | _ => True

theorem Op.within_any (x : Ctx) (op : Op) (s : State) : op.Within .any x s := by
  cases op with
  | receive => exact ⟨.inl trivial, nofun, Scope.any_lax.offered _⟩
  | addMember | removeMember => exact ⟨trivial, fun _ => nofun⟩
  | _ => trivial

theorem perform_tendsTo (hcall : Discreet x S call) (op : Op)
    (hop : op.tendsHeal = false) {s : State} (hwithin : op.Within S x s) (h : op.ForksHave x P s) :
    Tending x S P s (perform x call op s) := by
  cases op with
  | receive pid data => exact handleRawMessage_tends hcall hwithin h
  | replay blobs =>
    change Tending x S P s (replayEnvelopesDetailed x call blobs s).2
    unfold replayEnvelopesDetailed
    split
    · exact (Outside.refl s).tending
    · exact (replayEnvelopes_outside hcall blobs s).tending
  | send plaintext token => exact (sendMessage_outside s).tending
  | propose pType data =>
    exact (State.unlessError_outside fun _ h =>
      proposeLockedWithMetadata_outside hcall hwithin (.inl rfl) h).tending
  | addMember req => exact (addMember_outside hcall hwithin.1 hwithin.2).tending
  | removeMember req => exact (removeMemberWithPeer_outside hcall hwithin.1 hwithin.2).tending
  | proposalTimer timer => exact (proposalTimerFires_outside hcall s).tending
  | failoverTimer timer => exact (failoverTimerFires_outside hcall s).tending
  | activeViewChange => exact (handleActiveViewChange_outside hcall s).tending
  | heartbeat =>
    exact Outside.tending (.after (broadcastLocked_outside _) rfl)
  | announce =>
    change Tending x S P s (broadcastAnnounceLocked x s)
    unfold broadcastAnnounceLocked
    split
    · exact (Outside.refl s).tending
    · exact Outside.tending (.after (broadcastLocked_outside _) rfl)
  | liveness => exact Outside.tending (.memory rfl)
  | observePeer pid => exact (observePeerAliveLocked_outside s).tending
  | ackTimeout pid envelopeHash =>
    change Tending x S P s (applicationAckTimeout x pid envelopeHash s)
    unfold applicationAckTimeout
    repeat' split
    all_goals exact Outside.tending (.memory rfl)
  | retryDeliveries pid =>
    change Tending x S P s (retryOutstandingDeliveriesTo x pid s)
    unfold retryOutstandingDeliveriesTo
    split <;> exact Outside.tending (.memory rfl)
  | resetSync | incrementSync => exact Outside.tending (.memory rfl)
  | deferredHeal =>
    change Tending x S P s (triggerDeferredHeal x s)
    unfold triggerDeferredHeal
    split
    · exact (Outside.refl s).tending
    next event hdeferred =>
      exact (startHeal_tends (h event hdeferred) _).after (.memory rfl)
  | _ => cases hop

theorem step_tending (hfits : S.Fits (a.ctx node)) (hop : a.op.tendsHeal = false)
    (hwithin : a.op.Within S (a.ctx node) s) (hforks : a.op.ForksHave (a.ctx node) P s)
    (h : step node a s = some s') : Tending (a.ctx node) S P s s' := by
  have harrive : a.op.ForksHave (a.ctx node) P (s.arrive a.op) := by
    unfold Op.ForksHave at hforks ⊢
    split at hforks
    · exact fun env haccepts => ⟨(hforks env haccepts).announced, (hforks env haccepts).confirmed⟩
    · exact hforks
    · trivial
  have hwithin' : a.op.Within S (a.ctx node) (s.arrive a.op) := by
    unfold Op.Within at hwithin ⊢
    split at hwithin
    · exact hwithin
    · exact hwithin
    · exact hwithin
    · exact hwithin
    · trivial
  have htends := perform_tendsTo (run_discreet (x := a.ctx node) hfits a.fuel) a.op hop hwithin'
    harrive
  unfold step at h
  split at h
  next hrestart =>
    rw [hrestart] at hop
    cases hop
  · cases h
    exact htends.after (.memory rfl)

theorem step_tendsTo (hop : a.op.tendsHeal = false) (hforks : a.op.ForksHave (a.ctx node) P s)
    (h : step node a s = some s') : TendsTo P s s' :=
  (step_tending (Scope.any_fits _) hop (a.op.within_any _ s) hforks h s.clean_any).1

theorem Op.forksHave_any (x : Ctx) (op : Op) (s : State) : op.ForksHave x (fun _ => True) s := by
  cases op with
  | receive pid data => exact fun _ _ => ⟨fun _ _ _ _ _ _ => trivial, fun _ _ _ _ => trivial⟩
  | deferredHeal => exact fun _ _ => trivial
  | _ => trivial

theorem step_tends (hop : a.op.tendsHeal = false) (h : step node a s = some s') : Tends s s' :=
  (step_tendsTo hop (a.op.forksHave_any _ s) h).tends

theorem step_works (hfits : S.Fits (a.ctx node)) (hop : a.op.tendsHeal = false)
    (hwithin : a.op.Within S (a.ctx node) s) (hclean : s.Clean S) (h : step node a s = some s') :
    Works (a.ctx node) S s s' :=
  (step_tending hfits hop hwithin (a.op.forksHave_any _ s) h hclean).2

theorem step_transacts (hop : a.op.tendsHeal = false) (h : step node a s = some s') :
    Transacts (a.ctx node) .any s.storage s'.storage :=
  (step_works (Scope.any_fits _) hop (a.op.within_any _ s) s.clean_any h).transacts

end Operations

end GroupCoordination
