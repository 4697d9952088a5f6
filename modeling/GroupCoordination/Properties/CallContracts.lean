import GroupCoordination.Model.Memberships

/-!
# The operations of the calls

What each operation writes, and which operations the calls ask for. The calls of a membership share
a few programs: the roster is kept, a Welcome is applied, and one that cannot be applied is put
aside. For each of them, what a contract must allow so that the program keeps to it. A property of
all runs then only has to say what its contract allows, and that the writes it allows keep an
invariant.
-/

namespace GroupCoordination

-- -------- What the operations write

def JoinOp.apply (x : Ctx) (view : List PeerID) (unacknowledged : String → Bool) :
    JoinOp → MembershipStore → Except String MembershipStore
  | .markGroupLeft, db => if db.storage.group.isSome then .ok db.markGroupLeft else .error errNoRows
  | .purgeGroupMetadata, db => .ok db.purgeGroupMetadata
  | .setGroupCreatorPeerID creatorPeerID, db => .ok (db.setGroupCreatorPeerID creatorPeerID)
  | .upsertGroupMember preservingRole rec, db =>
    .ok (db.upsertGroupMember
      (if preservingRole then GroupMemberRecord.mergePreservingRole
        else GroupMemberRecord.merge) rec)
  | .markGroupMemberLeft peerID, db => .ok (db.markGroupMemberLeft peerID)
  | .saveStoredWelcome ifNewer row, db =>
    .ok (db.saveStoredWelcome
      (if ifNewer then StoredWelcome.mergeIfNewer else StoredWelcome.merge)
      (if ifNewer then row else { row with createdAt := x.nowSec }))
  | .deleteStoredWelcome inviteePeerID, db => .ok (db.deleteStoredWelcome inviteePeerID)
  | .savePendingWelcome row, db => .ok (db.savePendingWelcome row)
  | .reopenUnacknowledged, db => .ok (db.setDelivered false unacknowledged)
  | .markWelcomeDeliveredFor targetPeerID, db => .ok (db.setDelivered true (· = targetPeerID))
  | .savePendingInvite inv, db =>
    db.savePendingInvite { inv with receivedAt := x.nowSec, updatedAt := x.nowSec }
  | .markPendingInvite id status, db => db.markPendingInviteStatus x.nowSec id status
  | .reopenRejectedInvite inv, db => db.reopenRejectedInvite x.nowSec inv
  | .markWelcomeApplied welcome, db => .ok (db.markWelcomeApplied welcome)
  | .saveGroupRecord groupState treeHash epoch groupType, db =>
    (Storage.saveGroupRecord x.disk db.storage
      { groupState, treeHash, epoch, groupType, myRole := some .member, createdAt := x.now,
        updatedAt := x.now }).map db.written
  | .newCoordinator anchor, db =>
    .ok (db.written (bootCoordinator x view anchor db.storage).storage)
  | _, db => .ok db

def JoinWorld.applies (w : JoinWorld) (node : Node) (op : JoinOp) (db : MembershipStore) :
    Except String MembershipStore :=
  op.apply { node, w.toWorld with } w.initialActiveView w.unacknowledged db

theorem JoinWorld.applies_markGroupLeft {w : JoinWorld}
    (h : w.applies node .markGroupLeft db = .ok db') :
    db.storage.group.isSome ∧ db' = db.markGroupLeft := by
  unfold JoinWorld.applies JoinOp.apply at h
  dsimp only at h
  split at h
  · cases h
    exact ⟨‹_›, rfl⟩
  · cases h

theorem JoinWorld.applies_saveGroupRecord {w : JoinWorld}
    (h : w.applies node (.saveGroupRecord groupState treeHash epoch groupType) db = .ok db') :
    ∃ rec : GroupRecord, rec.groupState = groupState ∧ rec.epoch = epoch ∧
      db' = db.written ((db.storage.putGroupRecord rec).written .saveGroupRecord) := by
  obtain ⟨storage, hsave, rfl⟩ := Fallible.map_ok h
  obtain ⟨-, -, rfl⟩ := Disk.exec_ok hsave
  exact ⟨_, rfl, rfl, rfl⟩

def JoinOp.writesRecord : JoinOp → Bool
  | .saveGroupRecord _ _ _ _ | .newCoordinator _ => true
  | _ => false

theorem JoinWorld.applies_storage {w : JoinWorld} (happlies : w.applies node op db = .ok db')
    (hrecord : op.writesRecord = false) :
    db'.storage = db.storage ∨ op = .purgeGroupMetadata ∧ db'.storage = db.storage.purge := by
  cases op with
  | saveGroupRecord groupState treeHash epoch groupType | newCoordinator anchor => cases hrecord
  | markGroupLeft =>
    obtain ⟨-, rfl⟩ := JoinWorld.applies_markGroupLeft happlies
    exact .inl rfl
  | purgeGroupMetadata =>
    cases happlies
    exact .inr ⟨rfl, rfl⟩
  | setGroupCreatorPeerID creatorPeerID =>
    cases happlies
    rcases db.setGroupCreatorPeerID_cases creatorPeerID with heq | ⟨-, heq⟩
    · exact .inl (congrArg (·.storage) heq)
    · exact .inl (congrArg (·.storage) heq)
  | savePendingInvite inv =>
    rw [MembershipStore.savePendingInvite_ok happlies]
    exact .inl rfl
  | markPendingInvite inviteID status =>
    rw [MembershipStore.markPendingInviteStatus_ok happlies]
    exact .inl rfl
  | reopenRejectedInvite inv =>
    rw [MembershipStore.reopenRejectedInvite_ok happlies]
    exact .inl rfl
  | _ =>
    cases happlies
    exact .inl rfl

theorem Membership.query_ok {m : Membership} (hop : some (m.query w rows) = some (.ok a, m')) :
    rows = .ok a := by
  unfold Membership.query at hop
  split at hop
  · exact (congrArg Prod.fst (Option.some.inj hop))
  · cases hop

inductive RuntimeMove (node : Node) (w : JoinWorld) (m : Membership) : JoinOp → Membership → Prop
  | none (h : db = m.db ∨ w.applies node op m.db = .ok db) : RuntimeMove node w m op (m.withDB db)
  | lock : RuntimeMove node w m .lock { m with locked := true }
  | unlock : RuntimeMove node w m .unlock { m with locked := false }
  | take : RuntimeMove node w m .takeCoordinator
      { m with coord := .none, stopped := m.stopped ++ m.coord.toList }
  | stop : RuntimeMove node w m .stopCoordinators { m with stopped := m.stopped.map stop }
  | send (t : Int) :
      RuntimeMove node w m (.send frame)
        { m with sent := m.sent ++ [{ frame with publishedAt := t }] }
  | start (s : State) (hstart : start x { boot with storage := m.db.storage } = .ok s) :
      RuntimeMove node w m (.startCoordinator welcome boot)
        { m with
          coord := some s
          joins := m.joins ++ (welcome.map fun welcome =>
            { welcome, epoch := s.epoch, historyHash := s.historyHash }).toList }

section

variable {m m' : Membership}

theorem RuntimeMove.same : RuntimeMove node w m op m := .none (.inl rfl : m.db = m.db ∨ _)

theorem Membership.tryWrite_move {db : Except String MembershipStore}
    (hop : some (m.tryWrite w db) = some (r, m')) (h : w.applies node op m.db = db) :
    RuntimeMove node w m op m' := by
  unfold Membership.tryWrite at hop
  split at hop
  · split at hop
    · cases hop
      exact .none (.inr h)
    · cases hop
      exact .same
  · cases hop
    exact .same

theorem Membership.write_move {db : MembershipStore} (hop : some (m.write w db) = some (r, m'))
    (h : w.applies node op m.db = .ok db) : RuntimeMove node w m op m' := by
  unfold Membership.write at hop
  cases hop
  split
  · exact .none (.inr h)
  · exact .same

theorem joinMachine_move (hop : joinMachine node w op m = some (r, m')) :
    RuntimeMove node w m op m' := by
  cases op with
  | lock =>
    obtain ⟨-, hop⟩ := Option.ite_none_left_eq_some.mp hop
    cases hop
    exact .lock
  | unlock =>
    cases hop
    exact .unlock
  | takeCoordinator =>
    obtain ⟨-, hop⟩ := Option.ite_none_left_eq_some.mp hop
    cases hop
    exact .take
  | stopCoordinators =>
    cases hop
    exact .stop
  | send frame =>
    cases hop
    exact .send _
  | coordinatorExists holding =>
    obtain ⟨-, hop⟩ := Option.ite_none_left_eq_some.mp hop
    cases hop
    exact .same
  | startCoordinator welcome boot =>
    simp only [joinMachine] at hop
    split at hop
    · cases hop
      exact .start _ ‹_›
    · cases hop
      exact .same
    · cases hop
      exact .same
  | markGroupLeft | purgeGroupMetadata | savePendingInvite inv | markPendingInvite id status
  | reopenRejectedInvite inv => exact Membership.tryWrite_move hop rfl
  | setGroupCreatorPeerID creatorPeerID | upsertGroupMember preservingRole rec
  | markGroupMemberLeft peerID | saveStoredWelcome ifNewer row | deleteStoredWelcome inviteePeerID
  | savePendingWelcome row | reopenUnacknowledged | markWelcomeDeliveredFor targetPeerID
  | markWelcomeApplied welcome => exact Membership.write_move hop rfl
  | saveGroupRecord groupState treeHash epoch groupType =>
    simp only [joinMachine, Membership.tryStore] at hop
    split at hop
    next storage hsave =>
      cases hop
      exact .none (.inr (congrArg (Except.map m.db.written) hsave))
    · cases hop
      exact .same
  | newCoordinator anchor =>
    cases hop
    exact .none (.inr rfl)
  | _ =>
    cases hop
    exact .same

theorem joinMachine_db (hop : joinMachine node w op m = some (r, m')) :
    m'.db = m.db ∨ w.applies node op m.db = .ok m'.db := by
  cases joinMachine_move hop with
  | none h => exact h
  | _ => exact .inl rfl

end

def JoinOp.movesCoordinator : JoinOp → Bool
  | .takeCoordinator | .startCoordinator _ _ => true
  | _ => false

theorem joinMachine_coord (hop : joinMachine node w op m = some (r, m'))
    (hmoves : op.movesCoordinator = false) : m'.coord = m.coord := by
  cases joinMachine_move hop with
  | take | start => cases hmoves
  | _ => rfl

def JoinOp.unlocks : JoinOp → Bool
  | .unlock => true
  | _ => false

theorem joinMachine_sent {P : WelcomeFrame → Prop} (hop : joinMachine node w op m = some (r, m'))
    (h : ∀ frame ∈ m.sent, P frame)
    (hsend : ∀ frame t, op = .send frame → P { frame with publishedAt := t }) :
    ∀ frame ∈ m'.sent, P frame := by
  cases joinMachine_move hop with
  | send t =>
    refine List.forall_mem_append.mpr ⟨h, ?_⟩
    exact List.forall_mem_singleton.mpr (hsend _ t rfl)
  | _ => exact h

-- -------- Contracts

open Program

abbrev JoinContract (Stage : Type := Empty) := Contract JoinOp.Reply Stage

variable {Stage : Type} {C : JoinContract Stage} {node : Node}

theorem keeps_ask {op : JoinOp} {f : op.Reply → JoinM β} {post : β → Prop} (hasks : C.asks op)
    (hf : ∀ r, C.gives op r → (f r).Keeps C post) : (ask op >>= f).Keeps C post :=
  keeps_perform_bind hasks hf

theorem keeps_ask_last {op : JoinOp} (hasks : C.asks op) : (ask op).Obeys C :=
  keeps_perform hasks fun _ _ => trivial

-- -------- The roster

structure RosterContract (node : Node) (C : JoinContract Stage) : Prop where
  getGroupMember : ∀ peerID, C.asks (.getGroupMember peerID)
  resolveRole : ∀ peerID, C.asks (.resolveGroupMemberRole peerID)
  getGroupRecord : C.asks .getGroupRecord
  listMemberIdentities : ∀ groupState, C.asks (.listMemberIdentities groupState)
  getPeerID : ∀ identity, C.asks (.getPeerIDByPublicKey identity)
  getKnown : C.asks .getKnownGroupMembers
  listActive : C.asks .listActiveMembers
  observe : ∀ {peerID rec role}, C.gives (.getGroupMember peerID) (.ok rec) → rec.status ≠ .left →
    C.gives (.resolveGroupMemberRole peerID) role →
    C.asks (.upsertGroupMember true { peerID, role, status := .active })
  localLeaf : ∀ {groupState identities role}, C.gives (.listMemberIdentities groupState)
    (.ok identities) →
    node.localIdentity ∈ identities → C.gives (.resolveGroupMemberRole node.me) role →
    C.asks (.upsertGroupMember true { peerID := node.me, role, status := .active })
  leaf : ∀ {identity peerID role}, C.gives (.getPeerIDByPublicKey identity) (.ok peerID) →
    C.gives (.resolveGroupMemberRole peerID) role →
    C.asks (.upsertGroupMember true { peerID, role, status := .active })
  depart : ∀ {rows row}, C.gives .listActiveMembers (.ok rows) → row ∈ rows →
    C.asks (.markGroupMemberLeft row.peerID)

namespace RosterContract

variable (h : RosterContract node C)

include h

theorem sync (peerID : String) : (upsertGroupMemberFromRosterSync node peerID).Obeys C := by
  unfold upsertGroupMemberFromRosterSync upsertGroupMemberFromRosterEvidence
  split
  · exact .done
  refine keeps_ask (h.getGroupMember peerID) fun r hr => ?_
  cases r with
  | error err => exact .done
  | ok rec =>
    dsimp only
    split
    · exact .done
    · refine keeps_ask (h.resolveRole peerID) fun role hrole => ?_
      exact keeps_ask_last (h.observe hr ‹_› hrole)

theorem mlsReconcile {peerID : String}
    (hup : ∀ {role}, C.gives (.resolveGroupMemberRole peerID) role →
      C.asks (.upsertGroupMember true { peerID, role, status := .active })) :
    (upsertGroupMemberFromMLSReconcile node peerID).Obeys C := by
  unfold upsertGroupMemberFromMLSReconcile upsertGroupMemberFromRosterEvidence
  split
  · exact .done
  · exact keeps_ask (h.resolveRole peerID) fun role hrole => keeps_ask_last (hup hrole)

theorem leaves {groupState : Bytes} {all : List Bytes}
    (hall : C.gives (.listMemberIdentities groupState) (.ok all)) (identities : List Bytes)
    (hsub : ∀ identity ∈ identities, identity ∈ all) :
    (reconcileLeaves node identities).Obeys C := by
  induction identities with
  | nil => exact .done
  | cons identity rest ih =>
    have hrest := ih fun i hi => hsub i (List.mem_cons_of_mem identity hi)
    unfold reconcileLeaves
    split
    · exact hrest
    split
    next hlocal =>
      have hmem := hlocal ▸ hsub identity List.mem_cons_self
      split
      · refine (h.mlsReconcile (h.localLeaf hall hmem)).bind fun _ _ => ?_
        exact hrest.bind fun _ _ => .done
      · exact hrest.bind fun _ _ => .done
    refine keeps_ask (h.getPeerID identity) fun r hr => ?_
    cases r with
    | error err => exact hrest.bind fun _ _ => .done
    | ok peerID =>
      dsimp only
      split
      · exact hrest.bind fun _ _ => .done
      · refine (h.mlsReconcile (h.leaf hr)).bind fun _ _ => ?_
        exact hrest.bind fun _ _ => .done

theorem reconcile : (reconcileGroupRosterWithMLS node).Obeys C := by
  refine keeps_ask h.getGroupRecord fun r _ => ?_
  cases r with
  | error err => exact .done
  | ok rec =>
    refine keeps_ask (h.listMemberIdentities rec.groupState) fun r hr => ?_
    cases r with
    | error err => exact .done
    | ok identities =>
      dsimp only
      split
      · exact .done
      refine (h.leaves hr identities fun _ hi => hi).bind fun leaves _ => ?_
      obtain ⟨currentPeers, resolved⟩ := leaves
      dsimp only
      split
      · refine keeps_ask h.listActive fun r hr => ?_
        cases r with
        | error err => exact .done
        | ok rows =>
          refine keeps_forEach fun row hrow => ?_
          split
          · exact .done
          · exact keeps_ask_last (h.depart hr hrow)
      · exact .done

theorem backfilled : (ensureGroupRosterBackfilled node).Obeys C := by
  refine (h.sync node.me).bind fun _ _ => keeps_ask h.getKnown fun r _ => ?_
  cases r with
  | error err => exact h.reconcile
  | ok known =>
    refine (keeps_forEach fun peerID _ => ?_).bind fun _ _ => h.reconcile
    split
    · exact h.sync peerID
    · exact .done

end RosterContract

-- -------- Joining

section

variable {S T : String → Prop} {A : Bytes → Nat → Bytes → Prop} {W : Bytes → Prop}

structure JoiningContract (node : Node) (C : JoinContract Stage) (S : String → Prop)
    (A : Bytes → Nat → Bytes → Prop) (W : Bytes → Prop) : Prop where
  session : C.asks .ensureSessionActive
  isGroupActive : C.asks .isGroupActive
  purge : C.gives .isGroupActive (.ok false) → C.asks .purgeGroupMetadata
  lock : C.asks .lock
  unlock : C.asks .unlock
  ready : C.asks .runtimeReady
  coordinatorExists : C.asks (.coordinatorExists true)
  identity : C.asks .getMLSIdentity
  process : ∀ welcome bundle, C.asks (.processWelcome welcome bundle)
  accepted : ∀ {welcome bundle out}, C.gives (.processWelcome welcome bundle) (.ok out) → W welcome
  save : ∀ {welcome bundle groupState treeHash epoch groupType},
    C.gives (.processWelcome welcome bundle) (.ok (groupState, treeHash, epoch)) →
    C.asks (.saveGroupRecord groupState treeHash epoch groupType)
  getStored : C.asks (.getStoredWelcome node.me)
  stored : ∀ {row}, C.gives (.getStoredWelcome node.me) (.ok row) → S row.sourcePeerID
  setCreator : ∀ {creatorPeerID}, S creatorPeerID → creatorPeerID ≠ "" →
    C.asks (.setGroupCreatorPeerID creatorPeerID)
  own : C.asks (.upsertGroupMember false { peerID := node.me, role := .member, status := .active })
  new : ∀ {welcome anchorEpoch anchorHash}, A welcome anchorEpoch anchorHash →
    C.asks (.newCoordinator (usableAnchor anchorEpoch anchorHash))
  start : ∀ {welcome bundle out anchorEpoch anchorHash boot},
    C.gives (.processWelcome welcome bundle) (.ok out) → A welcome anchorEpoch anchorHash →
    C.gives (.newCoordinator (usableAnchor anchorEpoch anchorHash)) boot →
    C.asks (.startCoordinator (some welcome) boot)

namespace JoiningContract

variable (h : JoiningContract node C S A W)

include h

theorem recordInviter {inviterPeerID : String} (hsource : S (trimSpace inviterPeerID)) :
    (recordInviter node inviterPeerID).Obeys C := by
  have hresolve : (resolveInviter node inviterPeerID).Keeps C fun inviter => inviter ≠ "" →
      S inviter := by
    unfold resolveInviter
    split
    · exact keeps_pure fun _ => hsource
    refine keeps_ask h.getStored fun r hr => ?_
    cases r with
    | error err => exact keeps_pure fun hne => absurd rfl hne
    | ok row => exact keeps_pure fun _ => h.stored hr
  refine hresolve.bind fun inviter hinviter => ?_
  split
  · exact keeps_ask_last (h.setCreator (hinviter ‹_›) ‹_›)
  · exact .done

theorem startJoined (hout : C.gives (.processWelcome welcome bundle) (.ok out))
    (hanchor : A welcome anchorEpoch anchorHash) :
    (startJoined node welcome (usableAnchor anchorEpoch anchorHash)).Obeys C := by
  refine keeps_ask h.own fun _ _ => ?_
  have hlaunch :
      (launchCoordinator (some welcome) (usableAnchor anchorEpoch anchorHash)).Obeys C := by
    refine keeps_ask (h.new hanchor) fun boot hboot => ?_
    exact keeps_ask_last (h.start hout hanchor hboot)
  refine hlaunch.bind fun r _ => ?_
  cases r with
  | error err => exact .done
  | ok => exact keeps_ask h.own fun _ _ => .done

theorem joinLocked (hsource : S (trimSpace inviterPeerID))
    (hanchor : A welcome anchorEpoch anchorHash) :
    (joinGroupLocked node welcome bundle groupType inviterPeerID anchorEpoch anchorHash).Keeps C
      fun r => r = .ok () → W welcome := by
  refine keeps_ask h.ready fun r _ => ?_
  cases r with
  | error err => exact keeps_pure nofun
  | ok =>
  refine keeps_ask h.coordinatorExists fun already _ => ?_
  split
  · exact keeps_pure nofun
  refine keeps_ask h.identity fun r _ => ?_
  cases r with
  | error err => exact keeps_pure nofun
  | ok =>
  refine keeps_ask (h.process welcome bundle) fun r hr => ?_
  cases r with
  | error err => exact keeps_pure nofun
  | ok out =>
  refine keeps_ask (h.save hr) fun r _ => ?_
  cases r with
  | error err => exact keeps_pure nofun
  | ok =>
  refine (h.recordInviter hsource).bind fun _ _ => ?_
  exact (h.startJoined hr hanchor).mono fun _ _ _ => h.accepted hr

theorem purgeIfLeft : purgeIfLeft.Obeys C := by
  refine keeps_ask h.isGroupActive fun r hr => ?_
  match r, hr with
  | .ok false, hr => exact keeps_ask (h.purge hr) fun _ _ => .done
  | .ok true, _ => exact .done
  | .error _, _ => exact .done

theorem join (hroster : RosterContract node C) {bundle : Option Bytes}
    (hsource : S (trimSpace inviterPeerID)) (hanchor : A welcome anchorEpoch anchorHash) :
    (joinGroupWithWelcome node welcome bundle groupType inviterPeerID anchorEpoch
      anchorHash).Keeps C fun r => r = .ok () → W welcome := by
  unfold joinGroupWithWelcome
  split
  · exact keeps_pure nofun
  refine keeps_ask h.session fun active _ => ?_
  split
  · exact keeps_pure nofun
  refine h.purgeIfLeft.bind fun _ _ => ?_
  cases bundle with
  | none => exact keeps_pure nofun
  | some raw =>
    refine keeps_ask h.lock fun _ _ => ?_
    refine (h.joinLocked hsource hanchor).bind fun r hr => ?_
    refine keeps_ask h.unlock fun _ _ => ?_
    cases r with
    | error err => exact keeps_pure nofun
    | ok => exact hroster.reconcile.bind fun _ _ => keeps_pure hr

end JoiningContract

-- -------- Welcomes that come in

structure WelcomeContract (node : Node) (C : JoinContract Stage) (S T : String → Prop)
    (A : Bytes → Nat → Bytes → Prop) (W : Bytes → Prop) : Prop where
  roster : RosterContract node C
  sourceless : S ""
  trims : ∀ {sourcePeerID}, S sourcePeerID → S (trimSpace sourcePeerID)
  anchorless : ∀ welcome, A welcome 0 []
  session : C.asks .ensureSessionActive
  isGroupActive : C.asks .isGroupActive
  coordinatorExists : C.asks (.coordinatorExists false)
  joined : C.gives (.coordinatorExists false) true → ∀ welcome, W welcome
  getKPBundle : C.asks .getKPBundle
  join : ∀ {bundle welcome groupType inviterPeerID anchorEpoch anchorHash},
    C.gives .getKPBundle (.ok bundle) → S inviterPeerID → A welcome anchorEpoch anchorHash →
    (joinGroupWithWelcome node welcome (some bundle) groupType inviterPeerID anchorEpoch
      anchorHash).Keeps
      C fun r => r = .ok () → W welcome
  markApplied : ∀ welcome, C.asks (.markWelcomeApplied welcome)
  setCreator : ∀ {creatorPeerID}, S creatorPeerID → creatorPeerID ≠ "" →
    C.asks (.setGroupCreatorPeerID creatorPeerID)
  getStored : C.asks (.getStoredWelcome node.me)
  stored : ∀ {row}, C.gives (.getStoredWelcome node.me) (.ok row) →
    S row.sourcePeerID ∧ A row.welcomeBytes row.anchorEpoch row.anchorHistoryHash
  saveOwn : ∀ {ifNewer row}, row.inviteePeerID = node.me → S row.sourcePeerID →
    A row.welcomeBytes row.anchorEpoch row.anchorHistoryHash →
    C.asks (.saveStoredWelcome ifNewer row)
  saveOther : ∀ {ifNewer row}, row.inviteePeerID ≠ node.me → T row.sourcePeerID →
    A row.welcomeBytes row.anchorEpoch row.anchorHistoryHash →
    C.asks (.saveStoredWelcome ifNewer row)
  getPendingInvite : ∀ id, C.asks (.getPendingInvite id)
  getLatest : C.asks .getLatestPendingInvite
  listPending : C.asks .listPendingInvites
  listed : ∀ {rows inv}, C.gives .listPendingInvites (.ok rows) → inv ∈ rows →
    S inv.sourcePeerID ∧ (W inv.welcomeBytes → C.asks (.markPendingInvite inv.id .accepted))
  saveAccepted : ∀ {groupType welcome sourcePeerID}, W welcome → S sourcePeerID →
    C.asks (.savePendingInvite (node.invite groupType welcome sourcePeerID sourcePeerID .accepted))
  markAccepted : ∀ {welcome}, W welcome →
    C.asks (.markPendingInvite (node.pendingInviteID welcome) .accepted)
  defer : ∀ {r groupType welcome sourcePeerID}, C.gives .getLatestPendingInvite r →
    (∀ latest, r = .ok latest → latest.status ≠ .accepted ∧ latest.status ≠ .rejected) →
      S sourcePeerID →
    C.asks (.savePendingInvite (node.invite groupType welcome sourcePeerID "" .pending))

def ReopeningContract (node : Node) (C : JoinContract Stage) (S : String → Prop) : Prop :=
  ∀ groupType welcome sourcePeerID, S sourcePeerID →
    C.asks (.reopenRejectedInvite
      (node.invite groupType welcome sourcePeerID sourcePeerID .pending)) ∧
    C.asks (.savePendingInvite (node.invite groupType welcome sourcePeerID "" .pending))

namespace WelcomeContract

variable (h : WelcomeContract node C S T A W)

include h

theorem sourceOf (hsource : S sourcePeerID) : S (node.sourceOf sourcePeerID) := by
  unfold Node.sourceOf
  split
  · exact h.sourceless
  · exact h.trims hsource

theorem applyWelcome (hsource : S inviterPeerID) (hanchor : A welcome anchorEpoch anchorHash) :
    (applyWelcome node groupType welcome inviterPeerID anchorEpoch anchorHash).Keeps C
      fun r => r = .ok () → W welcome := by
  refine keeps_ask h.coordinatorExists fun already halready => ?_
  split
  next hexists =>
    subst hexists
    exact keeps_pure fun _ => h.joined halready welcome
  refine keeps_ask h.getKPBundle fun r hr => ?_
  cases r with
  | error err => exact keeps_pure nofun
  | ok bundle =>
  refine (h.join hr hsource hanchor).bind fun r hjoined => ?_
  cases r with
  | error err => exact keeps_pure nofun
  | ok => exact keeps_ask (h.markApplied welcome) fun _ _ => keeps_pure hjoined

theorem recordSource (hsource : S sourcePeerID) : (recordSource node sourcePeerID).Obeys C := by
  unfold GroupCoordination.recordSource
  split
  · exact .done
  · exact keeps_ask (h.setCreator (h.trims hsource) ‹_›) fun _ _ => h.roster.sync sourcePeerID

theorem recordJoined (hW : W welcome) (hsource : S sourcePeerID)
    (hanchor : A welcome anchorEpoch anchorHash) :
    (recordJoinedWelcome node groupType welcome sourcePeerID anchorEpoch anchorHash).Obeys C := by
  refine (h.recordSource hsource).bind fun _ _ => ?_
  refine keeps_ask (h.saveOwn rfl hsource hanchor) fun _ _ => ?_
  refine keeps_ask (h.saveAccepted hW hsource) fun _ _ => ?_
  exact keeps_ask (h.markAccepted hW) fun _ _ => .done

theorem deferWelcome (hreopen : reopenRejected = true → ReopeningContract node C S)
    (hsource : S sourcePeerID) (hanchor : A welcome anchorEpoch anchorHash) :
    (deferWelcome node groupType welcome sourcePeerID reopenRejected anchorEpoch anchorHash).Obeys
      C := by
  refine keeps_ask (h.saveOwn rfl hsource hanchor) fun _ _ => ?_
  refine keeps_ask h.getLatest fun r hr => ?_
  cases r with
  | error err => exact keeps_ask_last (h.defer hr nofun hsource)
  | ok latest =>
  dsimp only
  split
  · exact .done
  split
  · split
    · exact .done
    rename_i hyes
    obtain ⟨hasks, hsave⟩ := hreopen (by simpa using hyes) groupType welcome sourcePeerID hsource
    refine keeps_ask hasks fun r _ => ?_
    cases r with
    | ok => exact .done
    | error err => exact keeps_ask_last hsave
  next haccepted hrejected =>
    refine keeps_ask_last (h.defer hr ?_ hsource)
    rintro _ ⟨⟩
    exact ⟨haccepted, hrejected⟩

theorem nothingToJoin (welcome : Bytes) : (nothingToJoin node welcome).Obeys C := by
  have hpending : (pendingAlready node welcome).Obeys C := by
    refine keeps_ask (h.getPendingInvite _) fun r _ => ?_
    cases r with
    | error err => exact .done
    | ok existing =>
      dsimp only
      split <;> exact .done
  refine keeps_ask h.isGroupActive fun r _ => ?_
  match r with
  | .ok true => exact .done
  | .ok false => exact hpending
  | .error err =>
    dsimp only
    split
    · exact .done
    · exact hpending

theorem savePending (hreopen : reopenRejected = true → ReopeningContract node C S)
    (hsource : S sourcePeerID) (hanchor : A welcome anchorEpoch anchorHash) :
    (savePendingInviteFromWelcome node groupType welcome sourcePeerID reopenRejected anchorEpoch
      anchorHash).Obeys C := by
  unfold savePendingInviteFromWelcome
  split
  · exact .done
  split
  · exact .done
  refine (h.nothingToJoin welcome).bind fun r _ => ?_
  cases r with
  | some result => exact .done
  | none =>
  refine (h.applyWelcome (h.sourceOf hsource) hanchor).bind fun r hr => ?_
  cases r with
  | ok => exact (h.recordJoined (hr rfl) (h.sourceOf hsource) hanchor).bind fun _ _ => .done
  | error err => exact h.deferWelcome hreopen (h.sourceOf hsource) hanchor

theorem savePassive (hsource : S sourcePeerID) (hanchor : A welcome anchorEpoch anchorHash) :
    (savePendingInviteFromWelcome node groupType welcome sourcePeerID false anchorEpoch
      anchorHash).Keeps C fun _ => True := by
  refine h.savePending (fun hyes => ?_) hsource hanchor
  cases hyes

theorem welcomeDelivery (hreopen : ReopeningContract node C S) (hsource : S (frame.source remote))
    (hanchor : A frame.welcome frame.anchorEpoch frame.anchorHistoryHash) :
    (handleWelcomeDelivery node remote frame).Obeys C :=
  (h.savePending (fun _ => hreopen) hsource hanchor).bind fun _ _ => .done

theorem offerFrame (hsource : S sourcePeerID)
    (hanchor : A frame.welcome frame.anchorEpoch frame.anchorHistoryHash) :
    (offerFrame node sourcePeerID frame).Obeys C :=
  (h.savePassive hsource hanchor).bind fun _ _ => .done

theorem welcomeStore (hsource : S (frame.source remote)) (hother : T (frame.source remote))
    (hanchor : A frame.welcome frame.anchorEpoch frame.anchorHistoryHash) :
    (handleWelcomeStore node ifNewer remote frame).Obeys C := by
  unfold handleWelcomeStore
  split
  · exact .done
  generalize frame.source remote = source at hsource hother ⊢
  have hsave : C.asks (.saveStoredWelcome ifNewer (frame.row frame.inviteePeerID source)) := by
    by_cases hme : frame.inviteePeerID = node.me
    · exact h.saveOwn hme hsource hanchor
    · exact h.saveOther hme hother hanchor
  refine keeps_ask hsave fun _ _ => ?_
  split
  · exact h.offerFrame hsource hanchor
  · exact .done

theorem takeAnswer (hsource : S sourcePeerID)
    (hanchor : A frame.welcome frame.anchorEpoch frame.anchorHistoryHash) :
    (takeAnswer node sourcePeerID frame).Obeys C := by
  unfold GroupCoordination.takeAnswer
  split
  · exact .done
  · refine keeps_ask (h.saveOwn rfl hsource hanchor) fun _ _ => ?_
    exact h.offerFrame hsource hanchor

section

variable {answers : List (String × WelcomeFrame)}
  (hanswers : ∀ answer ∈ answers,
    S (if answer.2.sourcePeerID = "" then answer.1 else answer.2.sourcePeerID) ∧
    A answer.2.welcome answer.2.anchorEpoch answer.2.anchorHistoryHash)

include hanswers

theorem refresh : (refreshPendingInvites node answers).Obeys C := by
  have hrest : (forEach (takeListed node) answers).Obeys C :=
    keeps_forEach fun answer hanswer => h.takeAnswer (hanswers answer hanswer).1
      (hanswers answer hanswer).2
  refine keeps_ask h.getStored fun r hr => ?_
  cases r with
  | ok row =>
    exact (h.savePassive (h.stored hr).1 (h.stored hr).2).bind fun _ _ => hrest
  | error err =>
    dsimp only
    split
    · exact .done
    · exact hrest

theorem startup : (processPendingWelcomesOnStartup node answers).Obeys C := by
  refine (h.refresh hanswers).bind fun _ _ => keeps_ask h.listPending fun r hr => ?_
  cases r with
  | error err => exact .done
  | ok rows =>
  refine keeps_forEach fun inv hinv => ?_
  obtain ⟨hsource, hmark⟩ := h.listed hr hinv
  unfold retryPendingInvite
  split
  · exact .done
  refine (h.applyWelcome hsource (h.anchorless inv.welcomeBytes)).bind fun r happlied => ?_
  cases r with
  | error err => exact .done
  | ok =>
  refine (h.recordSource hsource).bind fun _ _ => ?_
  exact keeps_ask (hmark (happlied rfl)) fun _ _ => .done

end

section

variable {answer : Option (String × WelcomeFrame)}
  (hanswer : ∀ remote frame, answer = some (remote, frame) →
    S (frame.source remote) ∧ A frame.welcome frame.anchorEpoch frame.anchorHistoryHash)

include hanswer

theorem fetch :
    (fetchWelcomeFromStorePeers node answer).Keeps C fun r =>
      ∀ welcome groupType source, r = some (welcome, groupType, source) → S source := by
  refine keeps_ask h.getStored fun r hr => ?_
  cases r with
  | ok row =>
    refine (h.savePassive (h.stored hr).1 (h.stored hr).2).bind fun _ _ => keeps_pure ?_
    rintro _ _ _ ⟨⟩
    exact (h.stored hr).1
  | error err =>
  match answer, hanswer with
  | none, _ => exact keeps_pure nofun
  | some (remote, frame), hanswer =>
    obtain ⟨hsource, hanchor⟩ := hanswer remote frame rfl
    dsimp only
    split
    · exact keeps_pure nofun
    refine (h.takeAnswer hsource hanchor).bind fun _ _ => keeps_pure ?_
    rintro _ _ _ ⟨⟩
    exact hsource

theorem checkStored : (checkStoredWelcomes node answer).Obeys C := by
  refine keeps_ask h.coordinatorExists fun already _ => ?_
  split
  · exact .done
  refine (h.fetch hanswer).bind fun r hr => ?_
  match r, hr with
  | none, _ => exact .done
  | some (welcome, groupType, source), hr =>
    exact (h.savePassive (hr _ _ _ rfl) (h.anchorless welcome)).bind fun _ _ => .done

theorem checkDHT : (checkDHTWelcome node answer).Obeys C := by
  refine keeps_ask h.session fun active _ => ?_
  split
  · exact .done
  refine (h.fetch hanswer).bind fun r hr => ?_
  match r, hr with
  | none, _ => exact .done
  | some (welcome, groupType, source), hr =>
    refine (h.applyWelcome (hr _ _ _ rfl) (h.anchorless welcome)).bind fun r happlied => ?_
    cases r with
    | error err => exact .done
    | ok => exact keeps_ask (h.markAccepted (happlied rfl)) fun _ _ => .done

end

theorem joinCall {bundle : Option Bytes}
    (hjoin : (joinGroupWithWelcome node welcome bundle "" "" 0 []).Keeps C fun r =>
      r = .ok () → W welcome) :
    (joinGroupWithWelcomeCall node welcome bundle).Obeys C := by
  refine hjoin.bind fun r hr => ?_
  cases r with
  | error err => exact .done
  | ok =>
  have hblank : S (trimSpace "") := h.trims h.sourceless
  refine keeps_ask (h.markApplied welcome) fun _ _ => ?_
  refine keeps_ask (h.saveOwn rfl hblank (h.anchorless welcome)) fun _ _ => ?_
  refine keeps_ask (h.saveAccepted (hr rfl) hblank) fun _ _ => ?_
  exact keeps_ask (h.markAccepted (hr rfl)) fun _ _ => .done

theorem accept (hhas : C.asks .hasGroup)
    (hpurge : C.gives .isGroupActive (.ok false) → C.asks .purgeGroupMetadata)
    (hinvited : ∀ {id inv}, C.gives (.getPendingInvite id) (.ok inv) → inv.status ≠ .rejected →
      S inv.sourcePeerID ∧ C.asks (.markPendingInvite inv.id .accepted)) :
    (acceptInvite node inviteID).Obeys C := by
  have hjoined : joinedAlready.Obeys C := by
    refine keeps_ask hhas fun r _ => ?_
    match r with
    | .error _ => exact .done
    | .ok false => exact .done
    | .ok true =>
      refine keeps_ask h.isGroupActive fun r hr => ?_
      match r, hr with
      | .ok false, hr => exact keeps_ask (hpurge hr) fun _ _ => .done
      | .ok true, _ => exact .done
      | .error _, _ => exact .done
  unfold acceptInvite
  split
  · exact .done
  refine keeps_ask h.session fun active _ => ?_
  split
  · exact .done
  refine keeps_ask (h.getPendingInvite _) fun r hr => ?_
  cases r with
  | error err => exact .done
  | ok inv =>
  dsimp only
  split
  · exact .done
  obtain ⟨hsource, hmark⟩ := hinvited hr ‹_›
  refine hjoined.bind fun r _ => ?_
  match r with
  | .error _ => exact .done
  | .ok true => exact keeps_ask_last hmark
  | .ok false =>
  refine (h.applyWelcome hsource (h.anchorless inv.welcomeBytes)).bind fun r _ => ?_
  cases r with
  | error err => exact .done
  | ok =>
  have hobserve : (observeSource node inv.sourcePeerID).Obeys C := by
    unfold observeSource
    split
    · exact .done
    · exact h.roster.sync inv.sourcePeerID
  exact hobserve.bind fun _ _ => keeps_ask_last hmark

theorem reject (hmark : C.asks (.markPendingInvite (trimSpace inviteID) .rejected))
    (hdelete : C.asks (.deleteStoredWelcome node.me)) : (rejectInvite node inviteID).Obeys C := by
  unfold rejectInvite
  split
  · exact .done
  refine keeps_ask (h.getPendingInvite _) fun r _ => ?_
  cases r with
  | error err => exact .done
  | ok inv =>
  refine keeps_ask hmark fun r _ => ?_
  cases r with
  | error err => exact .done
  | ok => exact keeps_ask hdelete fun _ _ => .done

end WelcomeContract

-- -------- Welcomes that go out

structure InviterContract (node : Node) (C : JoinContract Stage) (I T : String → Prop)
    (A : Bytes → Nat → Bytes → Prop) : Prop where
  anchorless : ∀ welcome, A welcome 0 []
  awaits : ∀ target, C.asks (.awaitsOtherWelcome target)
  getCreator : C.asks .getGroupCreatorPeerID
  named : ∀ {creator}, C.gives .getGroupCreatorPeerID (.ok creator) → creator ≠ "" → T creator
  unnamed : ∀ {r}, C.gives .getGroupCreatorPeerID r →
    (∀ creator, r = .ok creator → creator = "") → T node.me
  getGroupRecord : C.asks .getGroupRecord
  send : ∀ {frame}, T frame.sourcePeerID →
    A frame.welcome frame.anchorEpoch frame.anchorHistoryHash → C.asks (.send frame)
  saveStored : ∀ {row}, I row.inviteePeerID → T row.sourcePeerID →
    A row.welcomeBytes row.anchorEpoch row.anchorHistoryHash → C.asks (.saveStoredWelcome false row)
  getStored : ∀ inviteePeerID, C.asks (.getStoredWelcome inviteePeerID)
  stored : ∀ {inviteePeerID row}, I inviteePeerID →
    C.gives (.getStoredWelcome inviteePeerID) (.ok row) →
    T row.sourcePeerID ∧ A row.welcomeBytes row.anchorEpoch row.anchorHistoryHash
  getPendingWelcomes : ∀ target, C.asks (.getPendingWelcomes target)
  outgoing : ∀ {target rows row}, C.gives (.getPendingWelcomes target) (.ok rows) → row ∈ rows →
    A row.welcomeBytes row.anchorEpoch row.anchorHistoryHash
  getAny : ∀ target, C.asks (.getAnyPendingWelcome target)
  reopenUnacknowledged : C.asks .reopenUnacknowledged

namespace InviterContract

variable {I : String → Prop} (h : InviterContract node C I T A)

include h

theorem source : (welcomeSource node).Keeps C T := by
  refine keeps_ask h.getCreator fun r hr => ?_
  cases r with
  | error err => exact keeps_pure (h.unnamed hr nofun)
  | ok creator =>
    refine keeps_pure ?_
    split
    · exact h.named hr ‹_›
    refine h.unnamed hr ?_
    rintro _ ⟨⟩
    exact of_not_not ‹_›

theorem sendWelcome (hanchor : A welcome anchorEpoch anchorHash) :
    (sendWelcome node inviteePeerID groupType welcome anchorEpoch anchorHash).Obeys C :=
  h.source.bind fun _ hsource => keeps_ask_last (h.send hsource hanchor)

theorem replicate (htarget : I inviteePeerID) (hanchor : A welcome anchorEpoch anchorHash) :
    (replicateWelcomeToStorePeers node storePeers inviteePeerID groupType welcome anchorEpoch
      anchorHash).Obeys C := by
  unfold replicateWelcomeToStorePeers
  split
  · exact .done
  refine h.source.bind fun creatorID hsource => ?_
  refine keeps_ask (h.saveStored htarget hsource hanchor) fun _ _ => ?_
  refine (h.sendWelcome hanchor).bind fun _ _ => keeps_forEach fun pid _ => ?_
  split
  · exact .done
  · exact h.sendWelcome hanchor

theorem dispatch (htarget : I (trimSpace targetPeerID)) (hanchor : A welcome anchorEpoch anchorHash)
    (hsave : ∀ target,
      C.asks (.savePendingWelcome ⟨target, welcome, false, anchorEpoch, anchorHash⟩)) :
    (dispatchWelcome node storePeers targetPeerID groupType welcome anchorEpoch anchorHash).Obeys
      C := by
  unfold dispatchWelcome
  split
  · exact .done
  refine keeps_ask (hsave _) fun _ _ => ?_
  exact (h.replicate htarget hanchor).bind fun _ _ => h.sendWelcome hanchor

theorem redeliver (htarget : I targetPeerID) (hanchor : A welcome anchorEpoch anchorHash) :
    (redeliverWelcome node storePeers targetPeerID groupType welcome anchorEpoch anchorHash).Obeys
      C :=
  (h.replicate htarget hanchor).bind fun _ _ => h.sendWelcome hanchor

theorem resend (htarget : I targetPeerID) :
    (resendPendingWelcome node storePeers targetPeerID groupType).Obeys C := by
  refine keeps_ask (h.getPendingWelcomes _) fun r hr => ?_
  cases r with
  | error err => exact .done
  | ok rows =>
  dsimp only
  split
  next row hfound =>
    exact h.redeliver htarget (h.outgoing hr (List.mem_of_find?_eq_some hfound))
  refine keeps_ask (h.awaits targetPeerID) fun awaited _ => ?_
  split
  · exact .done
  refine keeps_ask (h.getAny targetPeerID) fun r _ => ?_
  cases r with
  | error err => exact .done
  | ok welcome => exact h.redeliver htarget (h.anchorless welcome)

theorem resendRow {row : OutgoingWelcome}
    (hanchor : A row.welcomeBytes row.anchorEpoch row.anchorHistoryHash) :
    (resendRow node row).Obeys C := by
  have htype : recordedGroupType.Obeys C := by
    refine keeps_ask h.getGroupRecord fun r _ => ?_
    cases r <;> exact .done
  exact htype.bind fun _ _ => h.sendWelcome hanchor

theorem retry : (retryPendingWelcomes node targetPeerID).Obeys C := by
  refine keeps_ask h.reopenUnacknowledged fun _ _ =>
    keeps_ask (h.getPendingWelcomes _) fun r hr => ?_
  cases r with
  | error err => exact .done
  | ok rows => exact keeps_forEach fun row hrow => h.resendRow (h.outgoing hr hrow)

theorem replicatePending : (replicatePendingWelcomesToStorePeer node storePeer).Obeys C := by
  refine keeps_ask h.reopenUnacknowledged fun _ _ =>
    keeps_ask (h.getPendingWelcomes _) fun r hr => ?_
  cases r with
  | error err => exact .done
  | ok rows =>
    refine keeps_forEach fun row hrow => ?_
    split
    · exact .done
    · exact h.resendRow (h.outgoing hr hrow)

theorem serve (htarget : I inviteePeerID) : (serveStoredWelcome inviteePeerID).Obeys C := by
  refine keeps_ask (h.getStored _) fun r hr => ?_
  cases r with
  | error err => exact .done
  | ok row => exact keeps_ask_last (h.send (h.stored htarget hr).1 (h.stored htarget hr).2)

end InviterContract

-- -------- Leaving, and starting the process

structure LeavingContract (node : Node) (C : JoinContract Stage) : Prop where
  session : C.asks .ensureSessionActive
  hasGroup : C.asks .hasGroup
  getOwn : C.asks (.getGroupMember node.me)
  isGroupActive : C.asks .isGroupActive
  take : C.asks .takeCoordinator
  stop : C.asks .stopCoordinators
  markLeft : C.asks .markGroupLeft
  markOwn : C.asks (.markGroupMemberLeft node.me)

namespace LeavingContract

variable (h : LeavingContract node C)

include h

theorem takeAndStop : takeAndStop.Obeys C := by
  refine keeps_ask h.take fun taken _ => ?_
  split
  · exact keeps_ask h.stop fun _ _ => .done
  · exact .done

theorem leaveLocally (active : Bool) : (leaveLocally node active).Obeys C := by
  refine h.takeAndStop.bind fun taken _ => ?_
  split
  · exact .done
  refine keeps_ask h.markLeft fun r _ => ?_
  cases r with
  | error err => exact .done
  | ok => exact keeps_ask h.markOwn fun _ _ => .done

theorem leave : (leaveGroup node).Obeys C := by
  have hrefuses : (refusesLeave node).Obeys C := by
    refine keeps_ask h.hasGroup fun r _ => ?_
    match r with
    | .error _ => exact .done
    | .ok false => exact .done
    | .ok true =>
      refine keeps_ask h.getOwn fun r _ => ?_
      cases r <;> exact .done
  refine keeps_ask h.session fun active _ => ?_
  split
  · exact .done
  refine hrefuses.bind fun r _ => ?_
  cases r with
  | some err => exact .done
  | none =>
  refine keeps_ask h.isGroupActive fun r _ => ?_
  cases r with
  | ok active => exact h.leaveLocally active
  | error err =>
    dsimp only
    split
    · exact .done
    · exact h.leaveLocally false

theorem accessLost (hlock : C.asks .lock) (hunlock : C.asks .unlock) :
    (accessLost node).Obeys C := by
  refine h.takeAndStop.bind fun _ _ => keeps_ask hlock fun _ _ => ?_
  refine keeps_ask h.markLeft fun _ _ => keeps_ask h.markOwn fun _ _ => ?_
  exact keeps_ask_last hunlock

end LeavingContract

structure LoadingContract (node : Node) (C : JoinContract Stage) : Prop where
  lock : C.asks .lock
  unlock : C.asks .unlock
  isGroupActive : C.asks .isGroupActive
  getCoordState : C.asks .getCoordState
  getStored : C.asks (.getStoredWelcome node.me)
  new : ∀ anchor, C.gives .isGroupActive (.ok true) → C.asks (.newCoordinator anchor)
  start : ∀ boot, C.gives .isGroupActive (.ok true) → C.asks (.startCoordinator none boot)

theorem LoadingContract.load (h : LoadingContract node C) : (loadExistingGroup node).Obeys C := by
  have hstored : (storedAnchor node).Obeys C := by
    refine keeps_ask h.getStored fun r _ => ?_
    cases r <;> exact .done
  have hrestored : (restoredAnchor node).Obeys C := by
    refine keeps_ask h.getCoordState fun r _ => ?_
    cases r with
    | error err => exact hstored
    | ok coord =>
      dsimp only
      split
      · exact .done
      · exact hstored
  refine keeps_ask h.lock fun _ _ => keeps_ask h.isGroupActive fun r hr => ?_
  match r, hr with
  | .ok true, hr =>
    refine hrestored.bind fun anchor _ => ?_
    have hlaunch : (launchCoordinator none anchor).Obeys C :=
      keeps_ask (h.new anchor hr) fun boot _ => keeps_ask_last (h.start boot hr)
    exact hlaunch.bind fun _ _ => keeps_ask_last h.unlock
  | .ok false, _ => exact keeps_ask_last h.unlock
  | .error _, _ => exact keeps_ask_last h.unlock

-- -------- Calls

def JoinCall.frames : JoinCall → List (String × WelcomeFrame)
  | .welcomeDelivery remote frame | .welcomeStore _ remote frame => [(remote, frame)]
  | .refreshPendingInvites answers | .processPendingWelcomesOnStartup answers => answers
  | .checkStoredWelcomes answer | .checkDHTWelcome answer => answer.toList
  | _ => []

def JoinCall.invitee : JoinCall → Option String
  | .dispatchWelcome _ targetPeerID _ _ _ _ => some (trimSpace targetPeerID)
  | .resendPendingWelcome _ targetPeerID _ => some targetPeerID
  | .serveStoredWelcome inviteePeerID => some inviteePeerID
  | _ => none

def JoinCall.issued : JoinCall → Option (Bytes × Nat × Bytes)
  | .dispatchWelcome _ _ _ welcome anchorEpoch anchorHash => some (welcome, anchorEpoch, anchorHash)
  | _ => none

structure GoodFrame (S T : String → Prop) (A : Bytes → Nat → Bytes → Prop) (remote : String)
    (frame : WelcomeFrame) : Prop where
  own : S (frame.source remote)
  listed : S (if frame.sourcePeerID = "" then remote else frame.sourcePeerID)
  other : T (frame.source remote)
  anchor : A frame.welcome frame.anchorEpoch frame.anchorHistoryHash

structure CallContract (node : Node) (C : JoinContract Stage) (S I T : String → Prop)
    (A : Bytes → Nat → Bytes → Prop) (W : Bytes → Prop) : Prop where
  welcome : WelcomeContract node C S T A W
  inviter : InviterContract node C I T A
  leaving : LeavingContract node C
  lost : (accessLost node).Obeys C
  load : (loadExistingGroup node).Obeys C
  acknowledge : ∀ peerID, C.asks (.markWelcomeDeliveredFor peerID)

theorem CallContract.keeps {I : String → Prop} (h : CallContract node C S I T A W) (c : JoinCall)
    (hframes : ∀ answer ∈ c.frames, GoodFrame S T A answer.1 answer.2)
    (hinvitee : ∀ target, c.invitee = some target → I target)
    (hissued : ∀ welcome e r, c.issued = some (welcome, e, r) →
      A welcome e r ∧ ∀ target, C.asks (.savePendingWelcome ⟨target, welcome, false, e, r⟩))
    (hreopen : ∀ remote frame, c = .welcomeDelivery remote frame → ReopeningContract node C S)
    (hjoin : ∀ welcome bundle, c = .joinGroupWithWelcome welcome bundle →
      (joinGroupWithWelcomeCall node welcome bundle).Obeys C)
    (haccept : ∀ inviteID, c = .acceptInvite inviteID → (acceptInvite node inviteID).Obeys C)
    (hreject : ∀ inviteID, c = .rejectInvite inviteID → (rejectInvite node inviteID).Obeys C) :
    (c.program node).Obeys C := by
  have hlisted : ∀ answer ∈ c.frames,
      S (if answer.2.sourcePeerID = "" then answer.1 else answer.2.sourcePeerID) ∧
      A answer.2.welcome answer.2.anchorEpoch answer.2.anchorHistoryHash :=
    fun answer hanswer => ⟨(hframes answer hanswer).listed, (hframes answer hanswer).anchor⟩
  cases c with
  | welcomeDelivery remote frame =>
    have hframe := hframes (remote, frame) List.mem_cons_self
    exact h.welcome.welcomeDelivery (hreopen remote frame rfl) hframe.own hframe.anchor
  | welcomeStore ifNewer remote frame =>
    have hframe := hframes (remote, frame) List.mem_cons_self
    exact h.welcome.welcomeStore hframe.own hframe.other hframe.anchor
  | refreshPendingInvites answers => exact h.welcome.refresh hlisted
  | processPendingWelcomesOnStartup answers => exact h.welcome.startup hlisted
  | checkStoredWelcomes answer =>
    refine h.welcome.checkStored fun remote frame heq => ?_
    have hframe := hframes (remote, frame) (Option.mem_toList.mpr heq)
    exact ⟨hframe.own, hframe.anchor⟩
  | checkDHTWelcome answer =>
    refine h.welcome.checkDHT fun remote frame heq => ?_
    have hframe := hframes (remote, frame) (Option.mem_toList.mpr heq)
    exact ⟨hframe.own, hframe.anchor⟩
  | joinGroupWithWelcome welcome bundle => exact hjoin welcome bundle rfl
  | acceptInvite inviteID => exact (haccept inviteID rfl).bind fun _ _ => .done
  | rejectInvite inviteID => exact (hreject inviteID rfl).bind fun _ _ => .done
  | leaveGroup => exact h.leaving.leave.bind fun _ _ => .done
  | accessLost => exact h.lost
  | loadExistingGroup => exact h.load
  | getGroupMembers =>
    refine keeps_ask h.leaving.hasGroup fun r _ => ?_
    match r with
    | .ok true => exact h.welcome.roster.backfilled
    | .ok false => exact .done
    | .error _ => exact .done
  | peerObserved peerID =>
    simp only [JoinCall.program]
    split
    · exact .done
    · exact h.welcome.roster.sync peerID
  | dispatchWelcome storePeers targetPeerID groupType welcome anchorEpoch anchorHash =>
    exact h.inviter.dispatch (hinvitee _ rfl) (hissued _ _ _ rfl).1 (hissued _ _ _ rfl).2
  | resendPendingWelcome storePeers targetPeerID groupType =>
    exact h.inviter.resend (hinvitee _ rfl)
  | retryPendingWelcomes targetPeerID => exact h.inviter.retry
  | replicatePendingWelcomes storePeer => exact h.inviter.replicatePending
  | groupJoinAck peerID => exact keeps_ask_last (h.acknowledge peerID)
  | serveStoredWelcome inviteePeerID =>
    exact h.inviter.serve (hinvitee _ rfl)

end

-- -------- Runs

structure SectionRules (node : Node) (allowed : JoinPool → JoinAction → Prop)
    (C : JoinContract Stage)
    (inv held : Membership → Prop) (known : Stage → Membership → Prop) : Prop where
  call : ∀ {p c}, allowed p (.call c) → (c.program node).Obeys C
  outside : ∀ {p i w op r m'}, allowed p (.advance i w) → p.asked i = some op →
    C.asks op → inv p.state →
    joinMachine node w op p.state = some (r, m') →
    inv m' ∧ C.gives op r ∧ (held p.state → held m' ∧ ∀ g, known g p.state → known g m')
  enter : ∀ {p i w op r m' g}, allowed p (.advance i w) → p.asked i = some op →
    C.enters op = some g →
    inv p.state → joinMachine node w op p.state = some (r, m') →
    inv m' ∧ ¬held p.state ∧ held m' ∧ known g m'
  within : ∀ {p i w op r m' g}, allowed p (.advance i w) → p.asked i = some op → C.asksIn g op →
    held p.state → known g p.state → inv p.state → joinMachine node w op p.state = some (r, m') →
    inv m' ∧ C.givesIn g op r ∧ ∀ g', C.next g op r = some g' → held m' ∧ known g' m'
  coordinate : ∀ {p a s s' m'}, allowed p (.coordinate a) → inv p.state → p.state.coord = some s →
    step node a { s with storage := p.state.db.storage } = some s' →
    m' = { p.state with db := p.state.db.written s'.storage, coord := some s' } →
    inv m' ∧ (held p.state → held m' ∧ ∀ g, known g p.state → known g m')
  late : ∀ {p i a s s' m'}, allowed p (.late i a) → inv p.state → p.state.stopped[i]? = some s →
    step node a { s with storage := p.state.db.storage } = some s' →
    m' = { p.state with db := p.state.db.written s'.storage, stopped := p.state.stopped.set i s' } →
    inv m' ∧ (held p.state → held m' ∧ ∀ g, known g p.state → known g m')
  crash : ∀ {m}, inv m → inv { m with coord := none, stopped := [], locked := false }

namespace SectionRules

variable {allowed : JoinPool → JoinAction → Prop} {inv held : Membership → Prop}
  {known : Stage → Membership → Prop}

theorem step (h : SectionRules node allowed C inv held known)
    (hp : inv p.state ∧ ∃ stage, p.Staged C held known stage) (hok : allowed p e)
    (hstep : membershipStep node e p = some p') :
    inv p'.state ∧ ∃ stage, p'.Staged C held known stage := by
  obtain ⟨hinv, stage, hstaged⟩ := hp
  cases membershipStep_cases hstep with
  | call c => exact ⟨hinv, stage, hstaged.spawn (h.call hok)⟩
  | advance hadvance =>
    exact hstaged.advance hadvance (fun _ _ hasked hasks => h.outside hok hasked hasks hinv)
      (fun _ _ _ hasked henters => h.enter hok hasked henters hinv)
      fun _ _ _ hasked hasks hheld hknown => h.within hok hasked hasks hheld hknown hinv
  | coordinate s s' hcoord hnext =>
    obtain ⟨hinv', hkeep⟩ := h.coordinate hok hinv hcoord hnext rfl
    exact ⟨hinv', stage, hstaged.restate rfl hkeep⟩
  | late s s' hcoord hnext =>
    obtain ⟨hinv', hkeep⟩ := h.late hok hinv hcoord hnext rfl
    exact ⟨hinv', stage, hstaged.restate rfl hkeep⟩
  | crash => exact ⟨h.crash hinv, _, Pool.staged_idle rfl⟩

end SectionRules

/-- A frame that a node of a network has sent, at some time. -/
def SentByNode (net : ι → JoinPool) (frame : WelcomeFrame) : Prop :=
  ∃ i t, { frame with publishedAt := t } ∈ (net i).state.sent

/-- The same of nodes side by side, where what one of them may do can depend on all of them. -/
theorem SectionRules.network [DecidableEq ι] {nodes : ι → Node} {C : ι → JoinContract Stage}
    {allowed : (ι → JoinPool) → ι × JoinAction → Prop} {inv held : ι → Membership → Prop}
    {known : ι → Stage → Membership → Prop}
    (h : ∀ net, (∀ i, inv i (net i).state) → ∀ i,
      SectionRules (nodes i) (fun p e => p = net i ∧ allowed net (i, e)) (C i) (inv i)
        (held i) (known i))
    (hidle : ∀ i, (net i).tasks = []) (hinv : ∀ i, inv i (net i).state)
    (hrun : Transition.Run (Transition.interleave fun i => membershipStep (nodes i))
      allowed net net') :
    ∀ i, inv i (net' i).state := by
  have hall := hrun.invariant_each
    (fun i p => inv i p.state ∧ ∃ stage, p.Staged (C i) (held i) (known i) stage)
    (fun i => ⟨hinv i, _, Pool.staged_idle (hidle i)⟩) fun net hnet i e p' hok hstep =>
      (h net (fun i => (hnet i).1) i).step (hnet i) ⟨rfl, hok⟩ hstep
  exact fun i => (hall i).1

structure MembershipRules (node : Node) (allowed : JoinPool → JoinAction → Prop) (C : JoinContract)
    (inv : Membership → Prop) : Prop where
  call : ∀ {p c}, allowed p (.call c) → (c.program node).Obeys C
  advance : ∀ {p i w op r m'}, allowed p (.advance i w) → p.asked i = some op →
    C.asks op → inv p.state →
    joinMachine node w op p.state = some (r, m') → inv m' ∧ C.gives op r
  coordinate : ∀ {p a s s'}, allowed p (.coordinate a) → inv p.state → p.state.coord = some s →
    GroupCoordination.step node a { s with storage := p.state.db.storage } = some s' →
    inv { p.state with db := p.state.db.written s'.storage, coord := some s' }
  late : ∀ {p i a s s'}, allowed p (.late i a) → inv p.state → p.state.stopped[i]? = some s →
    GroupCoordination.step node a { s with storage := p.state.db.storage } = some s' →
    inv { p.state with db := p.state.db.written s'.storage, stopped := p.state.stopped.set i s' }
  crash : ∀ {m}, inv m → inv { m with coord := none, stopped := [], locked := false }

theorem MembershipRules.sections {allowed : JoinPool → JoinAction → Prop} {inv : Membership → Prop}
    {C : JoinContract} (h : MembershipRules node allowed C inv) :
    SectionRules node allowed C inv (fun _ => True) (fun _ _ => True) where
  call := h.call
  outside hok hasked hasks hinv hop := by
    obtain ⟨hinv', hgives⟩ := h.advance hok hasked hasks hinv hop
    exact ⟨hinv', hgives, fun _ => ⟨trivial, fun _ _ => trivial⟩⟩
  enter := by
    rintro p i w op r m' ⟨⟩
  within := by
    rintro p i w op r m' ⟨⟩
  coordinate hok hinv hcoord hstep hm := by
    subst hm
    exact ⟨h.coordinate hok hinv hcoord hstep, fun _ => ⟨trivial, fun _ _ => trivial⟩⟩
  late hok hinv hcoord hstep hm := by
    subst hm
    exact ⟨h.late hok hinv hcoord hstep, fun _ => ⟨trivial, fun _ _ => trivial⟩⟩
  crash := h.crash

end GroupCoordination
