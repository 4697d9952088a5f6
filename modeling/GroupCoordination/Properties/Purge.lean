import GroupCoordination.Properties.Joins

/-!
# What a purge leaves

`PurgeGroupMetadata` leaves four of the coordinator's tables as they are. A join that follows goes
as it does on a node without those rows; the coordinator it starts, and every query of it, agree
with the fresh ones exactly when there are no such rows.
-/

namespace GroupCoordination

open Disk MembershipStore

-- -------- The rows that are left

def Storage.forget (db : Storage) : Storage :=
  { db with pendingOperations := [], jobs := [], applicationEvents := [], outboundReplays := [] }

def Storage.Clean (db : Storage) : Prop :=
  db.pendingOperations = [] ∧ db.jobs = [] ∧ db.applicationEvents = [] ∧ db.outboundReplays = []

theorem Storage.forget_eq_iff (db : Storage) : db.forget = db ↔ db.Clean := by
  constructor
  · intro h
    rw [← h]
    exact ⟨rfl, rfl, rfl, rfl⟩
  · rintro ⟨hops, hjobs, hevents, hreplays⟩
    rw [forget, ← hops, ← hjobs, ← hevents, ← hreplays]

def Storage.SameLeft (db db' : Storage) : Prop :=
  db'.pendingOperations = db.pendingOperations ∧ db'.jobs = db.jobs ∧
    db'.applicationEvents = db.applicationEvents ∧ db'.outboundReplays = db.outboundReplays

def MembershipStore.forget (db : MembershipStore) : MembershipStore :=
  { db with storage := db.storage.forget }

-- -------- A join does not see them

structure Lookalike (m m₀ : Membership) : Prop where
  db : m₀.db = m.db.forget
  locked : m₀.locked = m.locked
  coord : m₀.coord.isSome = m.coord.isSome

theorem Lookalike.withDB (h : Lookalike m m₀) {db db₀ : MembershipStore} (hdb : db₀ = db.forget) :
    Lookalike (m.withDB db) (m₀.withDB db₀) := ⟨hdb, h.locked, h.coord⟩

theorem Lookalike.write (h : Lookalike m m₀) {w : JoinWorld} {db db₀ : MembershipStore}
    (hdb : db₀ = db.forget) (hop : some (m.write w db) = some (r, m')) :
    ∃ m₀', some (m₀.write w db₀) = some (r, m₀') ∧ Lookalike m' m₀' := by
  cases hop
  refine ⟨_, rfl, ?_⟩
  split
  · exact h.withDB hdb
  · exact h

theorem Lookalike.tryWrite (h : Lookalike m m₀) {w : JoinWorld}
    {db db₀ : Except String MembershipStore}
    (hdb : db₀ = db.map forget) (hop : some (m.tryWrite w db) = some (r, m')) :
    ∃ m₀', some (m₀.tryWrite w db₀) = some (r, m₀') ∧ Lookalike m' m₀' := by
  subst hdb
  unfold Membership.tryWrite at hop ⊢
  split at hop
  next hworks =>
    rw [if_pos hworks]
    cases db with
    | ok db =>
      cases hop
      exact ⟨_, rfl, h.withDB rfl⟩
    | error err =>
      cases hop
      exact ⟨_, rfl, h⟩
  next hworks =>
    rw [if_neg hworks]
    cases hop
    exact ⟨_, rfl, h⟩

theorem saveGroupRecord_forget (d : Disk) (db : Storage) (rec : GroupRecord) :
    Storage.saveGroupRecord d db.forget rec = (Storage.saveGroupRecord d db rec).map
      Storage.forget := by
  unfold Storage.saveGroupRecord write exec
  change (if d.works db.writes .saveGroupRecord ∧ rec.savable then _ else _) = _
  split <;> rfl

def Boot.forget (b : Boot) : Boot := { b with storage := b.storage.forget }

theorem seedHistoryAnchor_forget (x : Ctx) (epoch : Nat) (anchor : Option Bytes) (b : Boot) :
    seedHistoryAnchor x epoch anchor b.forget = (seedHistoryAnchor x epoch anchor b).forget := by
  have hsave : Storage.saveCoordState x.disk b.forget.storage
      { lastCommitHash := [], historyChain := b.historyChain.set epoch anchor } =
      (Storage.saveCoordState x.disk b.storage
        { lastCommitHash := [], historyChain := b.historyChain.set epoch anchor }).map
        Storage.forget := by
    unfold Storage.saveCoordState write exec
    change (if x.disk.works b.storage.writes .saveCoordState ∧ true then _ else _) = _
    split <;> rfl
  unfold seedHistoryAnchor
  dsimp only
  change _ = Boot.forget _
  rw [show b.forget.historyChain = b.historyChain from rfl, hsave]
  cases Storage.saveCoordState x.disk b.storage
    { lastCommitHash := [], historyChain := b.historyChain.set epoch anchor } <;> rfl

theorem bootCoordinator_forget (x : Ctx) (view : List PeerID) (anchor : Option (Nat × Bytes))
    (storage : Storage) :
    bootCoordinator x view anchor storage.forget =
      (bootCoordinator x view anchor storage).forget := by
  cases anchor with
  | none => rfl
  | some anchor =>
    exact seedHistoryAnchor_forget x anchor.1 (some anchor.2) (newCoordinator x view storage)

theorem loadGroup_forget (x : Ctx) (b : Boot) :
    loadGroup x b.forget = (loadGroup x b).map Boot.forget := by
  unfold loadGroup
  change (if b.groupState ≠ [] then _ else _) = _
  split
  · rfl
  have hget : Storage.getGroupRecord x.disk b.forget.storage =
      Storage.getGroupRecord x.disk b.storage := rfl
  rw [hget]
  cases Storage.getGroupRecord x.disk b.storage <;> rfl

theorem loadHistory_forget (x : Ctx) (b : Boot) :
    loadHistory x b.forget = (loadHistory x b).map fun (h, b) => (h, b.forget) := by
  unfold loadHistory
  have hget : Storage.getCoordState x.disk b.forget.storage =
      Storage.getCoordState x.disk b.storage := rfl
  rw [hget]
  cases Storage.getCoordState x.disk b.storage with
  | error err => by_cases herr : err = errGroupNotFound <;> simp [herr, Except.map]
  | ok coord =>
    dsimp only
    split <;> rfl

/-- A coordinator starts over the tables with these rows, or fails, as it does without them. -/
theorem start_forget (x : Ctx) (b : Boot) :
    (∃ s s₀, start x b = .ok s ∧ start x b.forget = .ok s₀) ∨
      ∃ err, start x b = .error err ∧ start x b.forget = .error err := by
  unfold start
  rw [loadGroup_forget]
  cases loadGroup x b with
  | error err => exact .inr ⟨err, rfl, rfl⟩
  | ok b =>
    change (∃ s s₀, (loadHistory x b >>= _) = .ok s ∧ (loadHistory x b.forget >>= _) = .ok s₀) ∨
      ∃ err, (loadHistory x b >>= _) = .error err ∧ (loadHistory x b.forget >>= _) = .error err
    rw [loadHistory_forget]
    cases loadHistory x b with
    | error err => exact .inr ⟨err, rfl, rfl⟩
    | ok b => exact .inl ⟨_, _, rfl, rfl⟩

theorem joinMachine_lookalike (node : Node) (w : JoinWorld) (op : JoinOp) (m m₀ : Membership)
    (r : op.Reply) (m' : Membership) (h : Lookalike m m₀)
    (hop : joinMachine node w op m = some (r, m')) :
    ∃ m₀', joinMachine node w op m₀ = some (r, m₀') ∧ Lookalike m' m₀' := by
  obtain ⟨db₀, coord₀, stopped₀, locked₀, joins₀, sent₀⟩ := m₀
  have hcoord := h.coord
  cases h.db
  cases h.locked
  cases op with
  | lock =>
    obtain ⟨hfree, hop⟩ := Option.ite_none_left_eq_some.mp hop
    cases hop
    exact ⟨_, if_neg hfree, rfl, rfl, hcoord⟩
  | coordinatorExists holding =>
    obtain ⟨hfree, hop⟩ := Option.ite_none_left_eq_some.mp hop
    cases hop
    refine ⟨_, ?_, h⟩
    rw [← hcoord]
    exact if_neg hfree
  | takeCoordinator =>
    obtain ⟨hfree, hop⟩ := Option.ite_none_left_eq_some.mp hop
    cases hop
    refine ⟨⟨m.db.forget, none, stopped₀ ++ coord₀.toList, m.locked, joins₀, sent₀⟩, ?_,
      rfl, rfl, rfl⟩
    rw [← hcoord]
    exact if_neg hfree
  | markGroupLeft =>
    refine h.tryWrite ?_ hop
    change (if m.db.storage.group.isSome then _ else _) = _
    split <;> rfl
  | purgeGroupMetadata => exact h.tryWrite rfl hop
  | setGroupCreatorPeerID creatorPeerID =>
    refine h.write ?_ hop
    unfold setGroupCreatorPeerID
    change
      (if m.db.storage.group.isSome ∧ hasText m.db.groupCreatorPeerID = false then _ else _) = _
    split <;> rfl
  | upsertGroupMember preservingRole rec | markGroupMemberLeft peerID
  | saveStoredWelcome ifNewer row | deleteStoredWelcome inviteePeerID | savePendingWelcome row
  | reopenUnacknowledged | markWelcomeDeliveredFor targetPeerID => exact h.write rfl hop
  | savePendingInvite inv =>
    refine h.tryWrite ?_ hop
    unfold savePendingInvite
    dsimp only [forget]
    split <;> rfl
  | markPendingInvite id status =>
    refine h.tryWrite ?_ hop
    unfold markPendingInviteStatus
    dsimp only [forget]
    split <;> rfl
  | reopenRejectedInvite inv =>
    refine h.tryWrite ?_ hop
    have hrows (now : Int) : m.db.forget.reopened now inv = m.db.reopened now inv := rfl
    simp only [forget] at hrows
    simp only [reopenRejectedInvite, hrows]
    split
    · rfl
    · split <;> rfl
  | markWelcomeApplied welcome => exact h.write rfl hop
  | saveGroupRecord groupState treeHash epoch groupType =>
    simp only [joinMachine, Membership.tryStore, Option.some.injEq] at hop ⊢
    rw [saveGroupRecord_forget]
    split at hop
    next storage hsave =>
      cases hop
      simp only [hsave]
      exact ⟨_, rfl, rfl, rfl, hcoord⟩
    next err hsave =>
      cases hop
      simp only [hsave]
      exact ⟨_, rfl, rfl, rfl, hcoord⟩
  | newCoordinator anchor =>
    cases hop
    simp only [joinMachine, bootCoordinator_forget]
    exact ⟨_, rfl, rfl, rfl, hcoord⟩
  | startCoordinator welcome boot =>
    simp only [joinMachine] at hop ⊢
    rcases start_forget { node, w.toWorld with } { boot with storage := m.db.storage } with
      ⟨s, s₀, hstart, hstart₀⟩ | ⟨err, hstart, hstart₀⟩
    · simp only [Boot.forget] at hstart₀
      simp only [hstart, hstart₀] at hop ⊢
      cases hsub : w.subscribe with
      | ok =>
        simp only [hsub] at hop ⊢
        cases hop
        exact ⟨_, rfl, rfl, rfl, rfl⟩
      | error err =>
        simp only [hsub] at hop ⊢
        cases hop
        exact ⟨_, rfl, h⟩
    · simp only [Boot.forget] at hstart₀
      simp only [hstart, hstart₀] at hop ⊢
      cases hop
      exact ⟨_, rfl, h⟩
  | _ =>
    cases hop
    exact ⟨_, rfl, rfl, rfl, hcoord⟩

-- -------- A join keeps them

theorem Storage.SameLeft.refl (db : Storage) : db.SameLeft db := ⟨rfl, rfl, rfl, rfl⟩

theorem bootCoordinator_sameLeft (x : Ctx) (view : List PeerID) (anchor : Option (Nat × Bytes))
    (storage : Storage) : storage.SameLeft (bootCoordinator x view anchor storage).storage := by
  cases anchor with
  | none => exact .refl storage
  | some anchor =>
    simp only [bootCoordinator, seedHistoryAnchor]
    split
    next db hsave =>
      obtain ⟨-, -, rfl⟩ := exec_ok hsave
      exact .refl storage
    · exact .refl storage

theorem joinMachine_sameLeft (hop : joinMachine node w op m = some (r, m')) :
    m.db.storage.SameLeft m'.db.storage := by
  rcases joinMachine_db hop with h | h
  · exact h ▸ .refl _
  generalize m'.db = db at h
  cases op with
  | markGroupLeft =>
    obtain ⟨-, h⟩ := JoinWorld.applies_markGroupLeft h
    exact h ▸ .refl _
  | setGroupCreatorPeerID creatorPeerID =>
    cases h
    rcases m.db.setGroupCreatorPeerID_cases creatorPeerID with h | ⟨-, h⟩
    · rw [h]
      exact .refl _
    · rw [h]
      exact .refl _
  | savePendingInvite inv => exact savePendingInvite_ok h ▸ .refl _
  | markPendingInvite id status => exact markPendingInviteStatus_ok h ▸ .refl _
  | reopenRejectedInvite inv => exact reopenRejectedInvite_ok h ▸ .refl _
  | saveGroupRecord groupState treeHash epoch groupType =>
    obtain ⟨rec, -, -, h⟩ := JoinWorld.applies_saveGroupRecord h
    exact h ▸ .refl _
  | newCoordinator anchor =>
    cases h
    exact bootCoordinator_sameLeft _ _ anchor _
  | _ =>
    cases h
    exact .refl _

theorem Storage.SameLeft.trans {db db' db'' : Storage} (h : db.SameLeft db')
    (h' : db'.SameLeft db'') : db.SameLeft db'' :=
  ⟨h'.1.trans h.1, h'.2.1.trans h.2.1, h'.2.2.1.trans h.2.2.1, h'.2.2.2.trans h.2.2.2⟩

theorem runCall_sameLeft {t : JoinM α} (h : runCall node env t m = some (a, m')) :
    m.db.storage.SameLeft m'.db.storage := by
  refine Program.exec_invariant (M := joinMachine node)
    (fun m' => m.db.storage.SameLeft m'.db.storage)
    ?_ t (.refl _) h
  intro w op m₁ r m₂ hs hop
  exact hs.trans (joinMachine_sameLeft hop)

-- -------- A join starts a coordinator

def leavesCoordinator : JoinContract where
  asks op := op.movesCoordinator = false
  gives _ _ := True

theorem leavesCoordinator_roster (node : Node) : RosterContract node leavesCoordinator := by
  constructor
  all_goals
    intros
    rfl

theorem reconcile_coord (h : runCall node env (reconcileGroupRosterWithMLS node) m = some (a, m')) :
    m'.coord = m.coord :=
  ((leavesCoordinator_roster node).reconcile.exec (fun m' => m'.coord = m.coord)
    (fun _ _ _ _ _ hasks hs hop => ⟨(joinMachine_coord hop hasks).trans hs, trivial⟩)
    rfl h).1

theorem launchCoordinator_started
    (h : runCall node env (launchCoordinator welcome anchor) m = some (.ok (), m')) :
    m'.coord.isSome := by
  obtain ⟨boot, m₁, hnew, hstart⟩ := runCall_ask h
  obtain ⟨r, m₂, hop, hrest⟩ := runCall_ask (f := pure) hstart
  obtain ⟨rfl, rfl⟩ := runCall_pure hrest
  simp only [joinMachine] at hop
  split at hop
  · cases hop
    rfl
  · cases hop
  · cases hop

theorem startJoined_started
    (h : runCall node env (startJoined node welcome anchor) m = some (.ok (), m')) :
    m'.coord.isSome := by
  obtain ⟨_, m₁, -, h⟩ := runCall_ask h
  obtain ⟨r, m₂, hlaunch, h⟩ := runCall_bind h
  split at h
  · cases h
  obtain ⟨_, m₃, hop, h⟩ := runCall_ask h
  obtain ⟨-, rfl⟩ := runCall_pure h
  rw [joinMachine_coord hop rfl]
  exact launchCoordinator_started hlaunch

theorem joinGroupLocked_started
    (h : runCall node env (joinGroupLocked node welcome bundle groupType inviterPeerID anchorEpoch
      anchorHistoryHash) m = some (.ok (), m')) : m'.coord.isSome := by
  obtain ⟨ready, m₁, -, h⟩ := runCall_ask h
  cases ready with
  | error err => cases h
  | ok =>
  obtain ⟨already, m₂, -, h⟩ := runCall_ask h
  split at h
  · cases h
  obtain ⟨identity, m₃, -, h⟩ := runCall_ask h
  cases identity with
  | error err => cases h
  | ok =>
  obtain ⟨joined, m₄, -, h⟩ := runCall_ask h
  cases joined with
  | error err => cases h
  | ok joined =>
  obtain ⟨saved, m₅, -, h⟩ := runCall_ask h
  cases saved with
  | error err => cases h
  | ok =>
  obtain ⟨_, m₆, -, h⟩ := runCall_bind h
  exact startJoined_started h

theorem joinGroupDecoded_started
    (h : runCall node env (joinGroupDecoded node welcome bundle groupType inviterPeerID anchorEpoch
      anchorHistoryHash) m = some (.ok (), m')) : m'.coord.isSome := by
  obtain ⟨_, m₁, -, h⟩ := runCall_ask h
  obtain ⟨result, m₂, hjoin, h⟩ := runCall_bind h
  obtain ⟨_, m₃, hunlock, h⟩ := runCall_ask h
  cases result with
  | error err => cases h
  | ok =>
    obtain ⟨_, m₄, hroster, h⟩ := runCall_bind h
    obtain ⟨-, rfl⟩ := runCall_pure h
    rw [reconcile_coord hroster, joinMachine_coord hunlock rfl]
    exact joinGroupLocked_started hjoin

theorem joinGroupWithWelcome_ok_iff :
    runCall node env (joinGroupWithWelcome node welcome bundle groupType inviterPeerID anchorEpoch
        anchorHistoryHash) m = some (.ok (), m') ↔
      ∃ type raw m₁, normalizeGroupTypeRuntime groupType = some type ∧
        (env .ensureSessionActive).sessionActive = true ∧ bundle = some raw ∧
        runCall node env purgeIfLeft m = some ((), m₁) ∧
        runCall node env (joinGroupDecoded node welcome raw type inviterPeerID anchorEpoch
          anchorHistoryHash) m₁ = some (.ok (), m') := by
  unfold joinGroupWithWelcome
  constructor
  · intro h
    cases htype : normalizeGroupTypeRuntime groupType with
    | none =>
      simp only [htype] at h
      cases h
    | some type =>
    simp only [htype] at h
    obtain ⟨session, m₁, hop, h⟩ := runCall_ask h
    cases hop
    split at h
    · cases h
    rename_i hsession
    obtain ⟨_, m₁, hpurge, h⟩ := runCall_bind h
    cases bundle with
    | none => cases h
    | some raw => exact ⟨type, raw, m₁, rfl, by simpa using hsession, rfl, hpurge, h⟩
  · rintro ⟨type, raw, m₁, htype, hsession, rfl, hpurge, hdecoded⟩
    simp only [htype]
    change runCall node env
      (if (env .ensureSessionActive).sessionActive = false then _ else _) m = _
    rw [if_neg (by simpa using hsession), runCall, Program.exec_bind]
    exact Option.bind_eq_some_iff.mpr ⟨_, hpurge, hdecoded⟩

-- -------- Queries

/-- The coordinator's queries for operations, jobs, events, replays and its own state return the
same. -/
structure QueriesAgree (db db₀ : Storage) : Prop where
  operation : ∀ d id, db.getPendingOperation d id = db₀.getPendingOperation d id
  operationByKey : ∀ d key, Storage.getPendingOperationByIdempotencyKey d db key =
    Storage.getPendingOperationByIdempotencyKey d db₀ key
  operations : ∀ d, Storage.listPendingOperations d db = Storage.listPendingOperations d db₀
  job : ∀ d, Storage.getActiveForkHealingJob d db = Storage.getActiveForkHealingJob d db₀
  events : ∀ d jobID, Storage.listApplicationEvents d db jobID =
    Storage.listApplicationEvents d db₀ jobID
  replays : ∀ d jobID, Storage.listOutboundReplays d db jobID =
    Storage.listOutboundReplays d db₀ jobID
  coord : ∀ d, Storage.getCoordState d db = Storage.getCoordState d db₀

/-- None of the rows that a purge leaves is returned by a query. -/
def Storage.Unseen (db : Storage) : Prop :=
  db.pendingOperations = [] ∧ (∀ job ∈ db.jobs, ¬job.isActive) ∧ db.applicationEvents = [] ∧
    db.outboundReplays = []

def Disk.working : Disk where
  hash _ := []
  nowMs := 0
  works _ _ := true

theorem Disk.working_exec (db : Storage) (op : StorageOp) (name : String) (result : α) :
    working.exec db op name true result = .ok result := rfl

theorem queriesAgree_forget_iff (db : Storage) : QueriesAgree db db.forget ↔ db.Unseen := by
  constructor
  · intro h
    refine ⟨?_, ?_, ?_, ?_⟩
    · have hops := h.operations .working
      simp only [Storage.listPendingOperations, working_exec, Except.ok.injEq] at hops
      simpa [Storage.forget] using congrArg List.length hops
    · have hjob := h.job .working
      simp only [Storage.getActiveForkHealingJob, working_exec, Except.ok.injEq] at hjob
      simpa [Storage.forget] using hjob
    · refine List.eq_nil_iff_forall_not_mem.mpr fun ev hev => ?_
      have hevents := h.events .working ev.jobID
      simp only [Storage.listApplicationEvents, working_exec, Except.ok.injEq] at hevents
      have hlen := congrArg List.length hevents
      simp only [List.length_insertionSort, Storage.forget, List.filter_nil, List.length_nil,
        List.length_eq_zero_iff, List.filter_eq_nil_iff, decide_eq_true_eq] at hlen
      exact hlen ev hev rfl
    · refine List.eq_nil_iff_forall_not_mem.mpr fun req hreq => ?_
      have hreplays := h.replays .working req.jobID
      simp only [Storage.listOutboundReplays, working_exec, Except.ok.injEq, Storage.forget,
        List.filter_nil, List.filter_eq_nil_iff, decide_eq_true_eq] at hreplays
      exact hreplays req hreq rfl
  · rintro ⟨hops, hjobs, hevents, hreplays⟩
    have hfind : db.jobs.find? (·.isActive) = none := by simpa using hjobs
    exact
      { operation := fun d id => by rw [Storage.getPendingOperation, hops]; rfl
        operationByKey := fun d key => by
          rw [Storage.getPendingOperationByIdempotencyKey, hops]; rfl
        operations := fun d => by rw [Storage.listPendingOperations, hops]; rfl
        job := fun d => by rw [Storage.getActiveForkHealingJob, hfind]; rfl
        events := fun d jobID => by rw [Storage.listApplicationEvents, hevents]; rfl
        replays := fun d jobID => by rw [Storage.listOutboundReplays, hreplays]; rfl
        coord := fun d => rfl }

theorem Storage.SameLeft.unseen_iff {db db' : Storage} (h : db.SameLeft db') :
    db'.Unseen ↔ db.Unseen := by
  unfold Unseen
  rw [h.1, h.2.1, h.2.2.1, h.2.2.2]

theorem Storage.SameLeft.clean_iff {db db' : Storage} (h : db.SameLeft db') :
    db'.Clean ↔ db.Clean := by
  unfold Clean
  rw [h.1, h.2.1, h.2.2.1, h.2.2.2]

-- -------- Joining again

/-- The node with nothing of the group but the messages, which a purge is meant to keep. -/
def Membership.fresh (m : Membership) : Membership :=
  { m with db := { storage := { messages := m.db.storage.messages, log := m.db.storage.log } } }

def Membership.coordinator (m : Membership) : Option State :=
  m.coord.map fun s => { s with storage := m.db.storage }

theorem purgeIfLeft_fresh (node : Node) (env : JoinOp → JoinWorld) (m : Membership) :
    runCall node env purgeIfLeft m.fresh = some ((), m.fresh) := by
  have hquery : joinMachine node (env .isGroupActive) .isGroupActive m.fresh =
      some (if (env .isGroupActive).dbWorks then .error errNoRows else .error "database",
        m.fresh) := rfl
  change (joinMachine node (env .isGroupActive) .isGroupActive m.fresh).bind _ = _
  rw [hquery]
  by_cases hworks : (env .isGroupActive).dbWorks
  · rw [if_pos hworks]
    rfl
  · rw [if_neg hworks]
    rfl

theorem Membership.purged_eq_fresh {m : Membership} (h : m.db.storage.Clean) :
    m.withDB m.db.purgeGroupMetadata = m.fresh := by
  have hclean : m.db.storage.purge.forget = m.db.storage.purge :=
    (Storage.forget_eq_iff m.db.storage.purge).mpr h
  unfold Membership.withDB Membership.fresh purgeGroupMetadata
  rw [← hclean]
  rfl

/-- After a purge and a join, the queries of the new coordinator agree with those of a fresh joiner
exactly when no row of the four tables that a purge leaves is seen by one of them; and whatever the
coordinator does is what that of a fresh joiner does exactly when there is no such row. -/
theorem rejoin_is_fresh_iff (hpurges : Purges env m)
    (hjoin : runCall node env (joinGroupWithWelcome node welcome bundle groupType inviterPeerID
      anchorEpoch anchorHistoryHash) m = some (.ok (), m')) :
    ∃ m₀, runCall node env
      (joinGroupWithWelcome node welcome bundle groupType inviterPeerID anchorEpoch
        anchorHistoryHash) m.fresh = some (.ok (), m₀) ∧
      (QueriesAgree m'.db.storage m₀.db.storage ↔ m.db.storage.Unseen) ∧
      ((∀ actions, m'.coordinator.bind (Transition.exec (step node) actions) =
          m₀.coordinator.bind (Transition.exec (step node) actions)) ↔ m.db.storage.Clean) := by
  obtain ⟨type, raw, m₁, htype, hsession, rfl, hpurge, hdecoded⟩ :=
    joinGroupWithWelcome_ok_iff.mp hjoin
  obtain rfl : m₁ = m.withDB m.db.purgeGroupMetadata := by
    rcases purgeIfLeft_cases hpurge with ⟨-, hkept⟩ | ⟨rfl, -⟩
    · exact absurd hpurges hkept
    · rfl
  have hlook : Lookalike (m.withDB m.db.purgeGroupMetadata) m.fresh := ⟨rfl, rfl, rfl⟩
  obtain ⟨m₀, hdecoded₀, hlook'⟩ :=
    Program.exec_simulates (joinMachine_lookalike node) _ hlook hdecoded
  have hjoined := runCall_sameLeft hdecoded
  have hsame : m.db.storage.SameLeft m'.db.storage := hjoined
  refine ⟨m₀, joinGroupWithWelcome_ok_iff.mpr
    ⟨type, raw, m.fresh, htype, hsession, rfl, purgeIfLeft_fresh node env m, hdecoded₀⟩, ?_, ?_, ?_⟩
  · rw [hlook'.db, ← hsame.unseen_iff]
    exact queriesAgree_forget_iff m'.db.storage
  · intro hsteps
    have hnow : m'.coordinator = m₀.coordinator := by simpa [Transition.exec] using hsteps []
    obtain ⟨s, hs⟩ := Option.isSome_iff_exists.mp (joinGroupDecoded_started hdecoded)
    obtain ⟨s₀, hs₀⟩ := Option.isSome_iff_exists.mp
      (hlook'.coord.trans (joinGroupDecoded_started hdecoded))
    rw [Membership.coordinator, Membership.coordinator, hs, hs₀] at hnow
    have hstorage : m'.db.storage = m₀.db.storage := congrArg State.storage (Option.some.inj hnow)
    rw [hlook'.db] at hstorage
    exact hsame.clean_iff.mp ((Storage.forget_eq_iff _).mp hstorage.symm)
  · intro hclean actions
    rw [Membership.purged_eq_fresh hclean] at hdecoded
    cases hdecoded.symm.trans hdecoded₀
    rfl

theorem succeeds_of_check {x : Option (Except String Unit × Membership)} {P : Membership → Prop}
    [DecidablePred P] (h : x.any (fun out => decide (out.1.toOption = some () ∧ P out.2)) = true) :
    ∃ m', x = some (.ok (), m') ∧ P m' := by
  match x, h with
  | some (.ok (), m'), h => exact ⟨m', rfl, (of_decide_eq_true h).2⟩
  | some (.error _, m'), h => simp [Except.toOption] at h

open Reference in
/-- A node that left the group and has no such rows comes back as a fresh one. -/
theorem clean_rejoin_is_fresh :
    ∃ m' m₀, join (fun _ => joinWorld) [8, 5] (leftAt 3) = some (.ok (), m') ∧
      join (fun _ => joinWorld) [8, 5] (leftAt 3).fresh = some (.ok (), m₀) ∧
      QueriesAgree m'.db.storage m₀.db.storage ∧
      ∀ actions, m'.coordinator.bind (Transition.exec (step (member [65])) actions) =
        m₀.coordinator.bind (Transition.exec (step (member [65])) actions) := by
  obtain ⟨m', hjoin, -⟩ : ∃ m', join (fun _ => joinWorld) [8, 5] (leftAt 3) =
      some (.ok (), m') ∧ True := succeeds_of_check (by decide +kernel)
  obtain ⟨m₀, hfresh, hqueries, hsteps⟩ := rejoin_is_fresh_iff ⟨rfl, rfl, rfl⟩ hjoin
  exact ⟨m', m₀, hjoin, hfresh, hqueries.mpr ⟨rfl, by simp [leftAt], rfl, rfl⟩,
    hsteps.mpr ⟨rfl, rfl, rfl, rfl⟩⟩

def Reference.leftHealing : Membership :=
  { Reference.leftAt 3 with
    db := { (Reference.leftAt 3).db with
      storage := { (Reference.leftAt 3).db.storage with
        jobs := [{ jobID := "job", traceID := "trace", status := .proposalSent }] } } }

open Reference in
/-- The coordinator of a node that left while it healed finds the job of the earlier membership and
is about to resume it; that of a fresh joiner is not. -/
theorem healing_rejoin_is_not_fresh :
    ∃ m' m₀, join (fun _ => joinWorld) [8, 5] leftHealing = some (.ok (), m') ∧
      join (fun _ => joinWorld) [8, 5] leftHealing.fresh = some (.ok (), m₀) ∧
      (Storage.getActiveForkHealingJob .working m'.db.storage).toOption.join.isSome ∧
      (Storage.getActiveForkHealingJob .working m₀.db.storage).toOption.join.isNone ∧
      (m'.coordinator.bind (·.resuming)).isSome ∧ (m₀.coordinator.bind (·.resuming)).isNone := by
  obtain ⟨m', hjoin, hjob, hresuming⟩ : ∃ m', join (fun _ => joinWorld) [8, 5]
        leftHealing = some (.ok (), m') ∧
      (Storage.getActiveForkHealingJob .working m'.db.storage).toOption.join.isSome ∧
      (m'.coordinator.bind (·.resuming)).isSome := succeeds_of_check (by decide +kernel)
  obtain ⟨m₀, hfresh, hjob₀, hresuming₀⟩ : ∃ m₀, join (fun _ => joinWorld) [8, 5]
        leftHealing.fresh = some (.ok (), m₀) ∧
      (Storage.getActiveForkHealingJob .working m₀.db.storage).toOption.join.isNone ∧
      (m₀.coordinator.bind (·.resuming)).isNone := succeeds_of_check (by decide +kernel)
  exact ⟨m', m₀, hjoin, hfresh, hjob, hjob₀, hresuming, hresuming₀⟩

end GroupCoordination
