import GroupCoordination.Properties.CallContracts

/-!
# A join that fails

`joinGroupWithWelcome` purges a group that was left, saves the group's record and starts a
coordinator, without a transaction around them. What it leaves behind when it fails, and what a
group that was purged and joined again keeps from before.
-/

namespace GroupCoordination

open Program (exec)

-- -------- Running one call

abbrev runCall (node : Node) (env : JoinOp → JoinWorld) (t : JoinM α) (m : Membership) :
    Option (α × Membership) :=
  t.exec (joinMachine node) env m

theorem runCall_ask {f : JoinOp.Reply op → JoinM β}
    (h : runCall node env (ask op >>= f) m = some out) :
    ∃ r m', joinMachine node (env op) op m = some (r, m') ∧
      runCall node env (f r) m' = some out := by
  obtain ⟨⟨r, m'⟩, hop, hrest⟩ := Option.bind_eq_some_iff.mp h
  exact ⟨r, m', hop, hrest⟩

theorem runCall_bind {t : JoinM α} {f : α → JoinM β} (h : runCall node env (t >>= f) m = some out) :
    ∃ a m', runCall node env t m = some (a, m') ∧ runCall node env (f a) m' = some out := by
  rw [runCall, Program.exec_bind] at h
  obtain ⟨⟨a, m'⟩, hrun, hrest⟩ := Option.bind_eq_some_iff.mp h
  exact ⟨a, m', hrun, hrest⟩

theorem runCall_pure {a b : α} (h : runCall node env (pure a) m = some (b, m')) :
    b = a ∧ m' = m := by
  cases h
  exact ⟨rfl, rfl⟩

-- -------- The lifecycle of the group's row

def MembershipStore.Active (db : MembershipStore) : Prop := db.isGroupActive = .ok true

theorem MembershipStore.active_iff (db : MembershipStore) :
    db.Active ↔ db.storage.group.isSome ∧ db.lifecycle = .active := by
  unfold Active isGroupActive
  by_cases h : db.storage.group.isSome <;> simp [h]

theorem MembershipStore.left_iff (db : MembershipStore) :
    db.isGroupActive = .ok false ↔ db.storage.group.isSome ∧ db.lifecycle = .left := by
  unfold isGroupActive
  by_cases h : db.storage.group.isSome <;> cases hl : db.lifecycle <;> simp [h]

theorem MembershipStore.Active.written {db : MembershipStore} (h : db.Active) {storage : Storage}
    (hgroup : storage.group = db.storage.group) : (db.written storage).Active := by
  rw [active_iff] at h ⊢
  refine ⟨hgroup ▸ h.1, ?_⟩
  simp only [MembershipStore.written, h.2, ite_self]

theorem MembershipStore.active_of_save {db : MembershipStore} {d : Disk} {storage : Storage}
    {rec : GroupRecord} (h : Storage.saveGroupRecord d db.storage rec = .ok storage) :
    (db.written storage).Active := by
  obtain ⟨-, -, rfl⟩ := Disk.exec_ok h
  obtain ⟨stored, hstored, -⟩ := db.storage.putGroupRecord_group rec
  rw [active_iff]
  refine ⟨?_, ?_⟩
  · exact Option.isSome_iff_exists.mpr ⟨stored, hstored⟩
  · have hlog : (db.storage.putGroupRecord rec).log = db.storage.log := rfl
    simp [MembershipStore.written, Storage.written, Storage.writes, hlog, StorageOp.writesGroup]

theorem MembershipStore.Active.setGroupCreatorPeerID {db : MembershipStore} (h : db.Active)
    (creatorPeerID : String) : (db.setGroupCreatorPeerID creatorPeerID).Active := by
  rw [active_iff] at h ⊢
  unfold MembershipStore.setGroupCreatorPeerID
  split <;> exact h

-- -------- A join that fails

def Membership.Stuck (m : Membership) : Prop := m.db.Active ∧ m.coord = none

/-- Every step up to the write of the group's record goes through. -/
def SavesRecord (node : Node) (env : JoinOp → JoinWorld) (m : Membership) (welcome bundle : Bytes)
    (groupType : String) : Prop :=
  (env .runtimeReady).ready = .ok () ∧ m.coord = none ∧ (env .getMLSIdentity).mlsIdentity = .ok () ∧
  ∃ groupState treeHash epoch,
    (env (.processWelcome welcome bundle)).engine.processWelcome welcome node.signingKey bundle
      node.cfg.getMaxPastEpochs = .ok (groupState, treeHash, epoch) ∧
    groupState ≠ [] ∧ bindable epoch ∧
    (env (.saveGroupRecord groupState treeHash epoch groupType)).works m.db.storage.writes
      .saveGroupRecord

theorem Membership.Stuck.write {m : Membership} (h : m.Stuck) {w : JoinWorld} {db : MembershipStore}
    (hdb : db.Active) : (m.write w db).2.Stuck := by
  unfold Membership.write
  split
  · exact ⟨hdb, h.2⟩
  · exact h

theorem resolveInviter_frame
    (h : runCall node env (resolveInviter node inviterPeerID) m = some (r, m')) : m' = m := by
  unfold resolveInviter at h
  split at h
  · exact (runCall_pure h).2
  obtain ⟨row, m₁, hop, h⟩ := runCall_ask h
  cases hop
  split at h <;> exact (runCall_pure h).2

theorem recordInviter_stuck
    (h : runCall node env (recordInviter node inviterPeerID) m = some ((), m'))
    (hm : m.Stuck) : m'.Stuck := by
  obtain ⟨inviter, m₁, hresolve, hset⟩ := runCall_bind h
  cases resolveInviter_frame hresolve
  split at hset
  · cases hset
    exact hm.write (hm.1.setGroupCreatorPeerID inviter)
  · cases hset
    exact hm

theorem bootCoordinator_group (x : Ctx) (view : List PeerID) (anchor : Option (Nat × Bytes))
    (storage : Storage) :
    (bootCoordinator x view anchor storage).storage.group = storage.group := by
  cases anchor with
  | none => rfl
  | some anchor =>
    simp only [bootCoordinator, seedHistoryAnchor]
    split
    next db hsave =>
      obtain ⟨-, -, rfl⟩ := Disk.exec_ok hsave
      rfl
    · rfl

theorem launchCoordinator_stuck
    (h : runCall node env (launchCoordinator welcome anchor) m = some (.error err, m'))
    (hm : m.Stuck) : m'.Stuck := by
  obtain ⟨boot, m₁, hnew, hstart⟩ := runCall_ask h
  cases hnew
  have hm₁ :=
    hm.1.written (bootCoordinator_group { node, (env (.newCoordinator anchor)).toWorld with }
    (env (.newCoordinator anchor)).initialActiveView anchor m.db.storage)
  obtain ⟨r, m₂, hop, hrest⟩ := runCall_ask (f := pure) hstart
  obtain ⟨rfl, rfl⟩ := runCall_pure hrest
  simp only [joinMachine] at hop
  split at hop
  · cases hop
  · cases hop
    exact ⟨hm₁, hm.2⟩
  · cases hop
    exact ⟨hm₁, hm.2⟩

theorem startJoined_stuck (h : runCall node env (startJoined node welcome anchor) m = some
    (.error err, m'))
    (hm : m.Stuck) : m'.Stuck := by
  obtain ⟨u, m₁, hop, h⟩ := runCall_ask h
  have hm₁ : m₁.Stuck := by
    cases hop
    exact hm.write hm.1
  obtain ⟨r, m₂, hlaunch, h⟩ := runCall_bind h
  split at h
  · obtain ⟨-, rfl⟩ := runCall_pure h
    exact launchCoordinator_stuck hlaunch hm₁
  · cases h

/-- A join fails before the group's record is written, and nothing has changed, or after it. -/
theorem joinGroupLocked_error
    (h : runCall node env (joinGroupLocked node welcome bundle groupType inviterPeerID anchorEpoch
      anchorHistoryHash) m = some (.error err, m')) :
    m' = m ∧ ¬SavesRecord node env m welcome bundle groupType ∨
      m'.Stuck ∧ SavesRecord node env m welcome bundle groupType := by
  obtain ⟨ready, m₁, hop, h⟩ := runCall_ask h
  cases hop
  cases hready : (env .runtimeReady).ready with
  | error err =>
    simp only [hready] at h
    exact .inl ⟨(runCall_pure h).2, fun hsaves => by cases hready.symm.trans hsaves.1⟩
  | ok =>
  simp only [hready] at h
  obtain ⟨already, m₁, hop, h⟩ := runCall_ask h
  simp only [joinMachine, Bool.true_eq_false, and_false, if_false] at hop
  cases hop
  cases hcoord : m.coord with
  | some s =>
    simp only [hcoord, Option.isSome_some, if_true] at h
    exact .inl ⟨(runCall_pure h).2, fun hsaves => by cases hcoord.symm.trans hsaves.2.1⟩
  | none =>
  simp only [hcoord, Option.isSome_none, Bool.false_eq_true, if_false] at h
  obtain ⟨identity, m₁, hop, h⟩ := runCall_ask h
  cases hop
  cases hidentity : (env .getMLSIdentity).mlsIdentity with
  | error err =>
    simp only [hidentity] at h
    exact .inl ⟨(runCall_pure h).2, fun hsaves => by cases hidentity.symm.trans hsaves.2.2.1⟩
  | ok =>
  simp only [hidentity] at h
  obtain ⟨joined, m₁, hop, h⟩ := runCall_ask h
  cases hop
  cases hjoined : (env (.processWelcome welcome bundle)).engine.processWelcome welcome
    node.signingKey
      bundle node.cfg.getMaxPastEpochs with
  | error err =>
    simp only [hjoined] at h
    refine .inl ⟨(runCall_pure h).2, fun hsaves => ?_⟩
    obtain ⟨-, -, -, groupState, treeHash, epoch, hok, -⟩ := hsaves
    cases hjoined.symm.trans hok
  | ok joined =>
  obtain ⟨groupState, treeHash, epoch⟩ := joined
  simp only [hjoined] at h
  obtain ⟨saved, m₁, hop, h⟩ := runCall_ask h
  simp only [joinMachine, Membership.tryStore] at hop
  split at hop
  next storage hsave =>
    cases hop
    obtain ⟨_, m₂, hrecord, h⟩ := runCall_bind h
    have hm₁ := recordInviter_stuck hrecord ⟨MembershipStore.active_of_save hsave, hcoord⟩
    obtain ⟨hworks, hsavable, -⟩ := Disk.exec_ok hsave
    simp only [GroupRecord.savable, decide_eq_true_eq] at hsavable
    exact .inr ⟨startJoined_stuck h hm₁, hready, hcoord, hidentity, groupState, treeHash, epoch,
      hjoined, hsavable.1, hsavable.2, hworks⟩
  rename_i err' hsave
  cases hop
  refine .inl ⟨(runCall_pure h).2, fun hsaves => ?_⟩
  obtain ⟨-, -, -, groupState', treeHash', epoch', hok, hstate, hepoch, hworks⟩ := hsaves
  cases hjoined.symm.trans hok
  have hsavable : GroupRecord.savable { groupState, treeHash, epoch } = true := by
    simp [GroupRecord.savable, hstate, hepoch]
  rw [Storage.saveGroupRecord, Disk.write, Disk.exec, if_pos ⟨hworks, hsavable⟩] at hsave
  cases hsave

theorem joinGroupDecoded_error
    (h : runCall node env (joinGroupDecoded node welcome bundle groupType inviterPeerID anchorEpoch
      anchorHistoryHash) m = some (.error err, m')) :
    (m'.db = m.db ∧ m'.coord = m.coord) ∧ ¬SavesRecord node env m welcome bundle groupType ∨
      m'.Stuck ∧ SavesRecord node env m welcome bundle groupType := by
  obtain ⟨_, m₁, hop, h⟩ := runCall_ask h
  obtain ⟨hfree, hop⟩ := Option.ite_none_left_eq_some.mp hop
  cases hop
  obtain ⟨result, m₂, hjoin, h⟩ := runCall_bind h
  obtain ⟨_, m₃, hop, h⟩ := runCall_ask h
  cases hop
  cases result with
  | error err' =>
    obtain ⟨-, rfl⟩ := runCall_pure h
    rcases joinGroupLocked_error hjoin with ⟨rfl, hsaves⟩ | ⟨hstuck, hsaves⟩
    · exact .inl ⟨⟨rfl, rfl⟩, hsaves⟩
    · exact .inr ⟨hstuck, hsaves⟩
  | ok =>
    obtain ⟨_, m₄, -, h⟩ := runCall_bind h
    exact nomatch (runCall_pure h).1

/-- The group was left, and the statements that see it and purge it go through. -/
def Purges (env : JoinOp → JoinWorld) (m : Membership) : Prop :=
  m.db.isGroupActive = .ok false ∧ (env .isGroupActive).dbWorks ∧ (env .purgeGroupMetadata).dbWorks

theorem purgeIfLeft_cases (h : runCall node env purgeIfLeft m = some ((), m')) :
    m' = m ∧ ¬Purges env m ∨ m' = m.withDB m.db.purgeGroupMetadata ∧ Purges env m := by
  obtain ⟨active, m₁, hop, h⟩ := runCall_ask h
  simp only [joinMachine, Membership.query, Option.some.injEq, Prod.mk.injEq] at hop
  obtain ⟨rfl, rfl⟩ := hop
  by_cases hquery : (env .isGroupActive).dbWorks
  · rw [if_pos hquery] at h
    by_cases hleft : m.db.isGroupActive = .ok false
    · simp only [hleft] at h
      obtain ⟨purged, m₁, hop, h⟩ := runCall_ask h
      obtain ⟨-, rfl⟩ := runCall_pure h
      simp only [joinMachine, Membership.tryWrite, Option.some.injEq] at hop
      by_cases hpurge : (env .purgeGroupMetadata).dbWorks
      · rw [if_pos hpurge] at hop
        cases hop
        exact .inr ⟨rfl, hleft, hquery, hpurge⟩
      · rw [if_neg hpurge] at hop
        cases hop
        exact .inl ⟨rfl, fun hp => hpurge hp.2.2⟩
    · split at h
      · exact absurd ‹_› hleft
      · exact .inl ⟨(runCall_pure h).2, fun hp => hleft hp.1⟩
  · rw [if_neg hquery] at h
    exact .inl ⟨(runCall_pure h).2, fun hp => hquery hp.2.1⟩

/-- What a failing join asks of the call, so that it leaves no trace: no group that is recorded as
active without a coordinator; none that the call purges; and an error before the group's record is
written. -/
structure FailsClean (node : Node) (env : JoinOp → JoinWorld) (m : Membership) (welcome : Bytes)
    (bundle : Option Bytes) (groupType : String) : Prop where
  sound : m.db.Active → m.coord.isSome
  kept : (normalizeGroupTypeRuntime groupType).isSome → (env .ensureSessionActive).sessionActive →
    ¬Purges env m
  early : ∀ type ∈ normalizeGroupTypeRuntime groupType, (env .ensureSessionActive).sessionActive →
    ∀ raw ∈ bundle, ¬SavesRecord node env m welcome raw type

/-- A join that fails leaves the tables as they were, and no group that is recorded as active
without a coordinator, exactly on such inputs. -/
theorem failed_join_leaves_no_trace_iff
    (h : runCall node env
      (joinGroupWithWelcome node welcome bundle groupType inviterPeerID anchorEpoch
      anchorHistoryHash) m = some (.error err, m')) :
    (m'.db = m.db ∧ (m'.db.isGroupActive = .ok true → m'.coord.isSome)) ↔
      FailsClean node env m welcome bundle groupType := by
  unfold joinGroupWithWelcome at h
  cases htype : normalizeGroupTypeRuntime groupType with
  | none =>
    simp only [htype] at h
    obtain ⟨-, rfl⟩ := runCall_pure h
    exact ⟨fun hp => ⟨hp.2, by simp [htype], by simp [htype]⟩, fun hc => ⟨rfl, hc.sound⟩⟩
  | some type =>
  simp only [htype] at h
  obtain ⟨session, m₁, hop, h⟩ := runCall_ask h
  cases hop
  by_cases hsession : (env .ensureSessionActive).sessionActive
  swap
  · rw [if_pos (by simpa using hsession)] at h
    obtain ⟨-, rfl⟩ := runCall_pure h
    exact ⟨fun hp => ⟨hp.2, fun _ hs => absurd hs hsession, fun _ _ hs => absurd hs hsession⟩,
      fun hc => ⟨rfl, hc.sound⟩⟩
  rw [if_neg (by simpa using hsession)] at h
  obtain ⟨_, m₁, hpurge, h⟩ := runCall_bind h
  -- the rest of the call leaves `m₁` as it is, or fails with the record written
  have hrest : (m'.db = m₁.db ∧ m'.coord = m₁.coord) ∧
        (∀ raw ∈ bundle, ¬SavesRecord node env m₁ welcome raw type) ∨
      m'.Stuck ∧ ∃ raw ∈ bundle, SavesRecord node env m₁ welcome raw type := by
    cases bundle with
    | none =>
      obtain ⟨-, rfl⟩ := runCall_pure h
      exact .inl ⟨⟨rfl, rfl⟩, by simp⟩
    | some raw =>
      rcases joinGroupDecoded_error h with ⟨hsame, hsaves⟩ | ⟨hstuck, hsaves⟩
      · exact .inl ⟨hsame, by simpa using hsaves⟩
      · exact .inr ⟨hstuck, raw, rfl, hsaves⟩
  have hno : m'.Stuck → ¬(m'.db = m.db ∧ (m'.db.isGroupActive = .ok true → m'.coord.isSome)) := by
    intro hstuck hp
    simpa [hstuck.2] using hp.2 hstuck.1
  rcases purgeIfLeft_cases hpurge with ⟨rfl, hkept⟩ | ⟨rfl, hpurges⟩
  · rcases hrest with ⟨⟨hdb, hcoord⟩, hsaves⟩ | ⟨hstuck, raw, hraw, hsaves⟩
    · rw [hdb, hcoord]
      refine ⟨fun hp => ⟨hp.2, fun _ _ => hkept, ?_⟩, fun hc => ⟨rfl, hc.sound⟩⟩
      intro type' htype' _
      cases Option.some.inj (htype.symm.trans htype')
      exact hsaves
    · exact iff_of_false (hno hstuck) fun hc => hc.early type htype hsession raw hraw hsaves
  · refine iff_of_false ?_ fun hc => hc.kept (by simp [htype]) hsession hpurges
    rcases hrest with ⟨⟨hdb, -⟩, -⟩ | ⟨hstuck, -⟩
    · rintro ⟨hsame, -⟩
      have hgroup := ((MembershipStore.left_iff m.db).mp hpurges.1).1
      rw [← hsame, hdb] at hgroup
      cases hgroup
    · exact hno hstuck

abbrev Reference.join (env : JoinOp → JoinWorld) (welcome : Bytes) (m : Membership) :
    Option (Except String Unit × Membership) :=
  runCall (Reference.member [65]) env
    (joinGroupWithWelcome (Reference.member [65]) welcome (some [6]) "group" "B" 0 []) m

def Reference.invited : Membership where
  db :=
    { members := [{ peerID := "B", role := .creator, status := .active }]
      pendingInvites := [{
        id := "i", groupType := "group", inviterPeerID := "B", welcomeHash := [7],
          welcomeBytes := [7],
        sourcePeerID := "B", status := .pending, receivedAt := 0, updatedAt := 0 }] }

theorem Reference.failsClean_refused {m : Membership} {dbWorks : Bool}
    (hsound : ¬m.db.Active) (hkept : dbWorks = true → m.db.isGroupActive ≠ .ok false) :
    FailsClean (Reference.member [65]) (fun _ => { Reference.joinWorld with dbWorks }) m [7]
      (some [6]) "group" where
  sound hactive := absurd hactive hsound
  kept _ _ hpurges := hkept hpurges.2.1 hpurges.1
  early := by
    rintro type - - raw ⟨⟩ ⟨-, -, -, groupState, treeHash, epoch, hjoined, -⟩
    cases hjoined

theorem fails_of_check {x : Option (Except String Unit × Membership)} {P : Membership → Prop}
    [DecidablePred P] (h : x.any (fun out => decide (out.1.toOption = none ∧ P out.2)) = true) :
    ∃ err m', x = some (.error err, m') ∧ P m' := by
  match x, h with
  | some (.error err, m'), h => exact ⟨err, m', rfl, (of_decide_eq_true h).2⟩
  | some (.ok _, m'), h => simp [Except.toOption] at h

open Reference in
/-- A Welcome that the engine refuses leaves the rows of an invited node as they were, and those of
a group that was left, if it cannot be purged. -/
theorem refused_welcome_leaves_no_trace :
    (∃ err m', join (fun _ => joinWorld) [7] invited = some (.error err, m') ∧
      m'.db = invited.db ∧ (m'.db.isGroupActive = .ok true → m'.coord.isSome)) ∧
    ∃ err m', join (fun _ => { joinWorld with dbWorks := false }) [7] (leftAt 3) =
        some (.error err, m') ∧
      m'.db = (leftAt 3).db ∧ (m'.db.isGroupActive = .ok true → m'.coord.isSome) := by
  obtain ⟨err, m₁, hinvited, -⟩ : ∃ err m', join (fun _ => joinWorld) [7] invited =
      some (.error err, m') ∧ True := fails_of_check (by decide +kernel)
  obtain ⟨err', m₂, hleft, -⟩ : ∃ err m', join (fun _ => { joinWorld with dbWorks := false }) [7]
      (leftAt 3) = some (.error err, m') ∧ True := fails_of_check (by decide +kernel)
  exact ⟨⟨err, m₁, hinvited, (failed_join_leaves_no_trace_iff hinvited).mpr
      (failsClean_refused nofun fun _ => nofun)⟩,
    ⟨err', m₂, hleft, (failed_join_leaves_no_trace_iff hleft).mpr
      (failsClean_refused nofun nofun)⟩⟩

open Reference in
/-- A group that was left is gone after such a Welcome, and a topic that cannot be subscribed to
leaves the group active without a coordinator. -/
theorem failed_join_leaves_traces :
    (∃ err m', join (fun _ => joinWorld) [7] (leftAt 3) =
      some (.error err, m') ∧ m'.db ≠ (leftAt 3).db) ∧
    ∃ err m', join (fun _ => { joinWorld with subscribe := .error "topic" }) [8, 2] {} =
      some (.error err, m') ∧ m'.db.isGroupActive.toOption = some true ∧ m'.coord.isNone :=
  ⟨fails_of_check (by decide +kernel), fails_of_check (by decide +kernel)⟩

end GroupCoordination
