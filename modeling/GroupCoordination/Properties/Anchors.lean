import GroupCoordination.Properties.Creators
import GroupCoordination.Refinement.Boot

/-!
# The anchor on the way to the joiner

A Welcome is made with an anchor: the epoch that it leads to and the history of that epoch. The pair
goes through the rows of the inviter, of store peers and of the invitee, and through the frames
between them, to the coordinator of the join. The runtime's lock is held from the engine's answer to
the start of the coordinator, so what the join has written in between is what the coordinator starts
from.
-/

namespace GroupCoordination

open Program MembershipStore
open Transition (Run interleave)

variable {anchorOf : Bytes → Option (Nat × Bytes)} {node : Node}

-- -------- Pairs

def OwnAnchor (anchorOf : Bytes → Option (Nat × Bytes)) (welcome : Bytes) (anchorEpoch : Nat)
    (anchorHash : Bytes) : Prop :=
  ∀ anchor, anchorOf welcome = some anchor → anchor = (anchorEpoch, anchorHash)

def CarriesAnchor (anchorOf : Bytes → Option (Nat × Bytes)) (welcome : Bytes) (anchorEpoch : Nat)
    (anchorHash : Bytes) : Prop :=
  anchorEpoch = 0 ∧ anchorHash = [] ∨ OwnAnchor anchorOf welcome anchorEpoch anchorHash

theorem CarriesAnchor.own (h : CarriesAnchor anchorOf welcome e r) (hpos : 0 < e) :
    OwnAnchor anchorOf welcome e r :=
  h.resolve_left fun hnone => hpos.ne' hnone.1

theorem CarriesAnchor.usable (h : CarriesAnchor anchorOf welcome anchorEpoch anchorHash)
    (husable : usableAnchor anchorEpoch anchorHash = some (e, r)) :
    OwnAnchor anchorOf welcome e r := by
  unfold usableAnchor at husable
  split at husable
  · cases husable
    exact h.own ‹_ ∧ _›.1
  · cases husable

def StoredWelcome.Paired (row : StoredWelcome) (anchorOf : Bytes → Option (Nat × Bytes)) : Prop :=
  OwnAnchor anchorOf row.welcomeBytes row.anchorEpoch row.anchorHistoryHash

/-- A row that has no predecessor carries an anchor. One that has replaces both the Welcome and its
anchor or neither, unless the Welcome is the same. -/
def PairsWith (db : MembershipStore) (ifNewer : Bool) (row : StoredWelcome) : Prop :=
  match Table.get StoredWelcome.inviteePeerID db.storedWelcomes row.inviteePeerID with
  | none => 0 < row.anchorEpoch
  | some old => row.welcomeBytes = old.welcomeBytes ∨
      ((ifNewer = true → old.createdAt ≤ row.createdAt) ↔ old.anchorEpoch < row.anchorEpoch)

instance : Decidable (PairsWith db ifNewer row) :=
  match h : Table.get StoredWelcome.inviteePeerID db.storedWelcomes row.inviteePeerID with
  | none => decidable_of_iff (0 < row.anchorEpoch) (by rw [PairsWith, h])
  | some old => decidable_of_iff (row.welcomeBytes = old.welcomeBytes ∨
      ((ifNewer = true → old.createdAt ≤ row.createdAt) ↔ old.anchorEpoch < row.anchorEpoch))
      (by rw [PairsWith, h])

section

variable {ifNewer : Bool} {old new : StoredWelcome}

theorem merged_welcome :
    ((if ifNewer then StoredWelcome.mergeIfNewer else StoredWelcome.merge) old new).welcomeBytes =
      if ifNewer = true → old.createdAt ≤ new.createdAt then new.welcomeBytes
        else old.welcomeBytes := by
  cases ifNewer <;> simp [StoredWelcome.merge, StoredWelcome.mergeIfNewer]

theorem merged_anchor (P : Nat → Bytes → Prop)
    (h : if old.anchorEpoch < new.anchorEpoch then P new.anchorEpoch new.anchorHistoryHash
      else P old.anchorEpoch old.anchorHistoryHash) :
    P ((if ifNewer then StoredWelcome.mergeIfNewer else StoredWelcome.merge) old new).anchorEpoch
      ((if ifNewer then StoredWelcome.mergeIfNewer else StoredWelcome.merge) old
        new).anchorHistoryHash := by
  by_cases hlt : old.anchorEpoch < new.anchorEpoch
  · rw [if_pos hlt] at h
    cases ifNewer <;> simpa [StoredWelcome.merge, StoredWelcome.mergeIfNewer, hlt] using h
  · rw [if_neg hlt] at h
    cases ifNewer <;> simpa [StoredWelcome.merge, StoredWelcome.mergeIfNewer, hlt] using h

/-- What is kept of a row that is written over another one is a Welcome and its own anchor. -/
theorem StoredWelcome.Paired.merged (hold : old.Paired anchorOf)
    (hnew : CarriesAnchor anchorOf new.welcomeBytes new.anchorEpoch new.anchorHistoryHash)
    (hpairs : new.welcomeBytes = old.welcomeBytes ∨
      ((ifNewer = true → old.createdAt ≤ new.createdAt) ↔ old.anchorEpoch < new.anchorEpoch)) :
    ((if ifNewer then StoredWelcome.mergeIfNewer else StoredWelcome.merge) old new).Paired
      anchorOf := by
  unfold StoredWelcome.Paired
  rw [merged_welcome]
  refine merged_anchor _ ?_
  by_cases hlt : old.anchorEpoch < new.anchorEpoch
  · rw [if_pos hlt]
    have hown := hnew.own (Nat.zero_lt_of_lt hlt)
    rcases hpairs with hsame | htakes
    · rw [hsame, ite_self, ← hsame]
      exact hown
    · rw [if_pos (htakes.mpr hlt)]
      exact hown
  · rw [if_neg hlt]
    rcases hpairs with hsame | htakes
    · rw [hsame, ite_self]
      exact hold
    · rw [if_neg fun h => hlt (htakes.mp h)]
      exact hold

end

structure PairedTables (anchorOf : Bytes → Option (Nat × Bytes)) (db : MembershipStore) : Prop where
  keyed : Table.Keyed StoredWelcome.inviteePeerID db.storedWelcomes
  stored : ∀ row ∈ db.storedWelcomes, row.Paired anchorOf
  outgoing : ∀ row ∈ db.pendingWelcomesOut,
    OwnAnchor anchorOf row.welcomeBytes row.anchorEpoch row.anchorHistoryHash

theorem PairedTables.saveStored {ifNewer : Bool} (h : PairedTables anchorOf db)
    (hrow : CarriesAnchor anchorOf row.welcomeBytes row.anchorEpoch row.anchorHistoryHash)
    (hpairs : PairsWith db ifNewer row) :
    PairedTables anchorOf (db.saveStoredWelcome
      (if ifNewer then StoredWelcome.mergeIfNewer else StoredWelcome.merge) row) := by
  have hkey : ∀ old new : StoredWelcome, old.inviteePeerID = new.inviteePeerID →
      ((if ifNewer then StoredWelcome.mergeIfNewer else StoredWelcome.merge) old
        new).inviteePeerID =
        new.inviteePeerID := by
    intro old new heq
    cases ifNewer
    · rfl
    · exact heq
  refine ⟨h.keyed.upsert fun old => hkey old _, fun kept hkept => ?_, h.outgoing⟩
  rcases (Table.mem_upsert h.keyed).mp hkept with rfl | ⟨hold, -⟩
  · unfold PairsWith at hpairs
    unfold Table.upserted
    dsimp only
    split at hpairs
    next hnone =>
      rw [hnone]
      exact hrow.own hpairs
    next old hsome =>
      rw [hsome]
      exact (h.stored old (Table.mem_of_get hsome).1).merged hrow hpairs
  · exact h.stored kept hold

-- -------- The join

/-- A coordinator that was seeded starts from the anchor, if the record has its epoch and no other
history is stored. -/
theorem start_seeded (h : start x boot = .ok s) (hstate : boot.groupState = [])
    (hseed : boot.historyHash = some r)
    (hgroup : ∀ rec, boot.storage.group = some rec → rec.epoch = e)
    (hcoord : ∀ coord, boot.storage.coord = some coord → coord.historyChain = [(e, some r)]) :
    s.epoch = e ∧ s.historyHash = some r := by
  obtain ⟨b₁, b₂, lastCommitHash, hload, hhist, hcore⟩ := start_core h
  obtain ⟨rec, hrec, rfl⟩ := loadGroup_stored hstate hload
  have hepoch : rec.epoch = e := hgroup rec hrec
  have hb₂ : b₂.epoch = e ∧ b₂.historyHash = some r := by
    refine ⟨(loadHistory_rest hhist).2.1.trans hepoch, ?_⟩
    cases hfound : boot.storage.coord with
    | none =>
      unfold loadHistory Storage.getCoordState at hhist
      simp only [hfound, ne_eq, not_true_eq_false, if_false] at hhist
      cases hhist
      exact hseed
    | some coord =>
      have hchain := hcoord coord hfound
      obtain ⟨-, ⟨hnil, -⟩ | ⟨-, rfl⟩⟩ := loadHistory_found (by exact hfound) hhist
      · simp [hnil] at hchain
      · simp [hchain, hepoch, HistoryChain.get]
  have hroot : rootHistory x b₂ = b₂ := by
    unfold rootHistory
    rw [hb₂.2]
  rw [hroot] at hcore
  exact ⟨(congrArg Core.epoch hcore).trans hb₂.1, (congrArg Core.historyHash hcore).trans hb₂.2⟩

inductive JoinStage
  | entered
  | free
  | accepted (welcome : Bytes) (epoch : Nat)
  | saved (welcome : Bytes) (epoch : Nat)
  | built (welcome : Bytes) (epoch : Nat) (anchor : Option (Nat × Bytes))

def JoinStage.Known (anchorOf : Bytes → Option (Nat × Bytes)) : JoinStage → Membership → Prop
  | .entered, _ => True
  | .free, m => m.coord = none
  | .accepted welcome epoch, m =>
    m.coord = none ∧ ∀ anchor, anchorOf welcome = some anchor → anchor.1 = epoch
  | .saved welcome epoch, m =>
    (m.coord = none ∧ ∀ anchor, anchorOf welcome = some anchor → anchor.1 = epoch) ∧
      ∀ rec, m.db.storage.group = some rec → rec.epoch = epoch
  | .built welcome epoch anchor, m =>
    ((m.coord = none ∧ ∀ anchor, anchorOf welcome = some anchor → anchor.1 = epoch) ∧
      ∀ rec, m.db.storage.group = some rec → rec.epoch = epoch) ∧
    ∀ e r, anchor = some (e, r) → OwnAnchor anchorOf welcome e r ∧
      ∀ coord, m.db.storage.coord = some coord → coord.historyChain = [(e, some r)]

/-- Taking a coordinator out of the map and purging the tables change nothing that is known. -/
theorem JoinStage.Known.mono {stage : JoinStage} (h : stage.Known anchorOf m)
    (hcoord : m.coord = none → m'.coord = none)
    (hgroup : ∀ rec, m'.db.storage.group = some rec → m.db.storage.group = some rec)
    (hchain : ∀ coord, m'.db.storage.coord = some coord → m.db.storage.coord = some coord) :
    stage.Known anchorOf m' := by
  cases stage with
  | entered => exact trivial
  | free => exact hcoord h
  | accepted welcome epoch => exact ⟨hcoord h.1, h.2⟩
  | saved welcome epoch => exact ⟨⟨hcoord h.1.1, h.1.2⟩, fun rec hrec => h.2 rec (hgroup rec hrec)⟩
  | built welcome epoch anchor =>
    refine ⟨⟨⟨hcoord h.1.1.1, h.1.1.2⟩, fun rec hrec => h.1.2 rec (hgroup rec hrec)⟩,
      fun e r heq => ?_⟩
    exact ⟨(h.2 e r heq).1, fun coord hfound => (h.2 e r heq).2 coord (hchain coord hfound)⟩

-- -------- The contract

def asksLocked (anchorOf : Bytes → Option (Nat × Bytes)) : JoinStage → JoinOp → Prop
  | .entered => fun
    | .unlock | .runtimeReady | .coordinatorExists _ | .isGroupActive | .getCoordState => True
    | .getStoredWelcome _ | .newCoordinator _ => True
    | .startCoordinator joined _ => joined = none
    | .markGroupLeft | .markGroupMemberLeft _ | .upsertGroupMember _ _ => True
    | _ => False
  | .free => fun
    | .unlock | .getMLSIdentity | .processWelcome _ _ => True
    | _ => False
  | .accepted _ epoch => fun
    | .unlock => True
    | .saveGroupRecord _ _ saved _ => saved = epoch
    | _ => False
  | .saved welcome _ => fun
    | .unlock | .getStoredWelcome _ | .setGroupCreatorPeerID _ | .upsertGroupMember _ _ => True
    | .newCoordinator anchor => ∀ e r, anchor = some (e, r) → OwnAnchor anchorOf welcome e r
    | _ => False
  | .built welcome _ anchor => fun
    | .unlock => True
    | .startCoordinator joined boot =>
      joined = some welcome ∧ boot.groupState = [] ∧ boot.historyHash = anchor.map (·.2)
    | _ => False

def nextLocked : JoinStage → (op : JoinOp) → op.Reply → Option JoinStage
  | .entered => fun
    | .unlock, _ => none
    | .coordinatorExists _, already => some (if already then .entered else .free)
    | _, _ => some .entered
  | .free => fun
    | .unlock, _ => none
    | .processWelcome welcome _, .ok (_, _, epoch) => some (.accepted welcome epoch)
    | _, _ => some .free
  | .accepted welcome epoch => fun
    | .unlock, _ => none
    | .saveGroupRecord _ _ _ _, .ok _ => some (.saved welcome epoch)
    | _, _ => some .free
  | .saved welcome epoch => fun
    | .unlock, _ => none
    | .newCoordinator anchor, _ => some (.built welcome epoch anchor)
    | _, _ => some (.saved welcome epoch)
  | .built _ _ _ => fun
    | .unlock, _ => none
    | _, _ => some .entered

theorem nextLocked_unlock (stage : JoinStage) (r : Unit) : nextLocked stage .unlock r = none := by
  cases stage <;> rfl

theorem asksLocked_unlock (anchorOf : Bytes → Option (Nat × Bytes)) (stage : JoinStage) :
    asksLocked anchorOf stage .unlock := by
  cases stage <;> exact trivial

def anchorContract (anchorOf : Bytes → Option (Nat × Bytes)) : JoinContract JoinStage where
  asks
    | .lock | .unlock | .coordinatorExists true | .processWelcome _ _ => False
    | .saveGroupRecord _ _ _ _ | .newCoordinator _ | .startCoordinator _ _ => False
    | .saveStoredWelcome _ row =>
      CarriesAnchor anchorOf row.welcomeBytes row.anchorEpoch row.anchorHistoryHash
    | .savePendingWelcome row =>
      OwnAnchor anchorOf row.welcomeBytes row.anchorEpoch row.anchorHistoryHash
    | .send frame => CarriesAnchor anchorOf frame.welcome frame.anchorEpoch frame.anchorHistoryHash
    | _ => True
  gives
    | .getStoredWelcome _, .ok row => row.Paired anchorOf
    | .getPendingWelcomes _, .ok rows => ∀ row ∈ rows,
      OwnAnchor anchorOf row.welcomeBytes row.anchorEpoch row.anchorHistoryHash
    | _, _ => True
  enters
    | .lock => some .entered
    | _ => none
  asksIn := asksLocked anchorOf
  givesIn
    | .saved _ _, .newCoordinator anchor, boot =>
      boot.groupState = [] ∧ boot.historyHash = anchor.map (·.2)
    | _, _, _ => True
  next := nextLocked

theorem follows_ask_last {C : JoinContract Stage} {stage : Stage} (op : JoinOp)
    {after : Option Stage → op.Reply → Prop} (hasks : C.asksIn stage op)
    (h : ∀ r, C.givesIn stage op r → after (C.next stage op r) r) :
    (ask op).Follows C after (some stage) :=
  follows_perform hasks h

def StillLocked (stage : Option JoinStage) (_ : α) : Prop := ∃ g, stage = some g

theorem anchor_recordInviter (welcome : Bytes) (epoch : Nat) (inviterPeerID : String) :
    (recordInviter node inviterPeerID).Follows (anchorContract anchorOf)
      (fun stage _ => stage = some (.saved welcome epoch)) (some (.saved welcome epoch)) := by
  have hresolve : (resolveInviter node inviterPeerID).Follows (anchorContract anchorOf)
      (fun stage _ => stage = some (.saved welcome epoch)) (some (.saved welcome epoch)) := by
    unfold resolveInviter
    split
    · exact follows_pure rfl
    refine follows_perform_bind trivial fun r _ => ?_
    cases r with
    | error err | ok row => exact follows_pure rfl
  refine hresolve.bind ?_
  rintro _ inviter rfl
  split
  · exact follows_ask_last (.setGroupCreatorPeerID inviter) trivial fun _ _ => rfl
  · exact follows_pure rfl

theorem anchor_startJoined {anchor : Option (Nat × Bytes)}
    (hown : ∀ e r, anchor = some (e, r) → OwnAnchor anchorOf welcome e r) :
    (startJoined node welcome anchor).Follows (anchorContract anchorOf) StillLocked
      (some (.saved welcome epoch)) := by
  refine follows_perform_bind trivial fun _ _ => ?_
  have hlaunch : (launchCoordinator (some welcome) anchor).Follows (anchorContract anchorOf)
      (fun stage _ => stage = some .entered) (some (.saved welcome epoch)) := by
    refine follows_perform_bind hown fun boot hboot => ?_
    exact follows_ask_last (.startCoordinator (some welcome) boot) ⟨rfl, hboot⟩ fun _ _ => rfl
  refine hlaunch.bind ?_
  rintro _ r rfl
  cases r with
  | error err => exact follows_pure ⟨_, rfl⟩
  | ok => exact follows_perform_bind trivial fun _ _ => follows_pure ⟨_, rfl⟩

theorem anchor_joinLocked (hcarries : CarriesAnchor anchorOf welcome anchorEpoch anchorHash) :
    (joinGroupLocked node welcome bundle groupType inviterPeerID anchorEpoch anchorHash).Follows
      (anchorContract anchorOf) StillLocked (some .entered) := by
  refine follows_perform_bind trivial fun r _ => ?_
  cases r with
  | error err => exact follows_pure ⟨_, rfl⟩
  | ok =>
  refine follows_perform_bind trivial fun already _ => ?_
  cases already with
  | true => exact follows_pure ⟨_, rfl⟩
  | false =>
  refine follows_perform_bind trivial fun r _ => ?_
  cases r with
  | error err => exact follows_pure ⟨_, rfl⟩
  | ok =>
  refine follows_perform_bind trivial fun r _ => ?_
  cases r with
  | error err => exact follows_pure ⟨_, rfl⟩
  | ok out =>
  refine follows_perform_bind rfl fun r _ => ?_
  cases r with
  | error err => exact follows_pure ⟨_, rfl⟩
  | ok =>
  refine (anchor_recordInviter welcome out.2.2 inviterPeerID).bind ?_
  rintro _ _ rfl
  exact anchor_startJoined fun e r heq => hcarries.usable heq

-- -------- Calls

theorem anchor_roster : RosterContract node (anchorContract anchorOf) := by
  constructor <;> (intros; exact trivial)

theorem anchor_purgeIfLeft : purgeIfLeft.Obeys (anchorContract anchorOf) := by
  refine keeps_ask trivial fun r _ => ?_
  match r with
  | .ok false => exact keeps_ask trivial fun _ _ => .done
  | .ok true => exact .done
  | .error _ => exact .done

theorem anchor_join {bundle : Option Bytes}
    (hcarries : CarriesAnchor anchorOf welcome anchorEpoch anchorHash) :
    (joinGroupWithWelcome node welcome bundle groupType inviterPeerID anchorEpoch anchorHash).Keeps
      (anchorContract anchorOf) fun _ => True := by
  unfold joinGroupWithWelcome
  split
  · exact .done
  refine keeps_ask trivial fun active _ => ?_
  split
  · exact .done
  refine anchor_purgeIfLeft.bind fun _ _ => ?_
  cases bundle with
  | none => exact .done
  | some raw =>
    refine keeps_enter rfl fun _ => (anchor_joinLocked hcarries).bind ?_
    rintro _ r ⟨g, rfl⟩
    refine follows_perform_bind (asksLocked_unlock anchorOf g) fun u _ => ?_
    rw [show (anchorContract anchorOf).next g .unlock u = none from nextLocked_unlock g u]
    refine Keeps.follows ?_
    cases r with
    | error err => exact .done
    | ok => exact anchor_roster.reconcile.bind fun _ _ => .done

theorem anchor_welcome :
    WelcomeContract node (anchorContract anchorOf) (fun _ => True) (fun _ => True)
    (CarriesAnchor anchorOf) (fun _ => True) where
  roster := anchor_roster
  sourceless := trivial
  trims _ := trivial
  anchorless _ := .inl ⟨rfl, rfl⟩
  session := trivial
  isGroupActive := trivial
  coordinatorExists := trivial
  joined _ _ := trivial
  getKPBundle := trivial
  join _ _ hcarries := (anchor_join hcarries).mono fun _ _ _ => trivial
  markApplied _ := trivial
  setCreator _ _ := trivial
  getStored := trivial
  stored h := ⟨trivial, .inr h⟩
  saveOwn _ _ hcarries := hcarries
  saveOther _ _ hcarries := hcarries
  getPendingInvite _ := trivial
  getLatest := trivial
  listPending := trivial
  listed _ _ := ⟨trivial, fun _ => trivial⟩
  saveAccepted _ _ := trivial
  markAccepted _ := trivial
  defer _ _ _ := trivial

theorem anchor_inviter :
    InviterContract node (anchorContract anchorOf) (fun _ => True) (fun _ => True)
    (CarriesAnchor anchorOf) where
  anchorless _ := .inl ⟨rfl, rfl⟩
  awaits _ := trivial
  getCreator := trivial
  named _ _ := trivial
  unnamed _ _ := trivial
  getGroupRecord := trivial
  send _ hcarries := hcarries
  saveStored _ _ hcarries := hcarries
  getStored _ := trivial
  stored _ h := ⟨trivial, .inr h⟩
  getPendingWelcomes _ := trivial
  outgoing h hrow := .inr (h _ hrow)
  getAny _ := trivial
  reopenUnacknowledged := trivial

theorem anchor_leaving : LeavingContract node (anchorContract anchorOf) := by
  constructor <;> exact trivial

theorem anchor_accessLost : (accessLost node).Obeys (anchorContract anchorOf) := by
  have hleaving : LeavingContract node (anchorContract anchorOf) := anchor_leaving
  refine hleaving.takeAndStop.bind fun _ _ => keeps_enter rfl fun _ => ?_
  refine follows_perform_bind trivial fun _ _ => follows_perform_bind trivial fun _ _ => ?_
  exact follows_ask_last .unlock trivial fun _ _ => ⟨rfl, trivial⟩

theorem anchor_load : (loadExistingGroup node).Obeys (anchorContract anchorOf) := by
  have hstored : (storedAnchor node).Follows (anchorContract anchorOf)
      (fun stage _ => stage = some .entered) (some .entered) := by
    refine follows_perform_bind trivial fun r _ => ?_
    cases r <;> exact follows_pure rfl
  have hrestored : (restoredAnchor node).Follows (anchorContract anchorOf)
      (fun stage _ => stage = some .entered) (some .entered) := by
    refine follows_perform_bind trivial fun r _ => ?_
    cases r with
    | error err => exact hstored
    | ok coord =>
      dsimp only
      split
      · exact follows_pure rfl
      · exact hstored
  have hunlock : (ask .unlock).Follows (anchorContract anchorOf)
    (fun stage _ => stage = none ∧ True)
      (some .entered) := follows_ask_last .unlock trivial fun _ _ => ⟨rfl, trivial⟩
  refine keeps_enter rfl fun _ => follows_perform_bind trivial fun r _ => ?_
  match r with
  | .ok true =>
    refine hrestored.bind ?_
    rintro _ anchor rfl
    refine follows_perform_bind trivial fun boot _ => ?_
    exact follows_perform_bind rfl fun _ _ => hunlock
  | .ok false => exact hunlock
  | .error _ => exact hunlock

theorem anchor_calls {c : JoinCall}
    (hframes : ∀ answer ∈ c.frames,
      CarriesAnchor anchorOf answer.2.welcome answer.2.anchorEpoch answer.2.anchorHistoryHash)
    (hissued : ∀ welcome e r, c.issued = some (welcome, e, r) → OwnAnchor anchorOf welcome e r) :
    (c.program node).Obeys (anchorContract anchorOf) := by
  have hcalls : CallContract node (anchorContract anchorOf) (fun _ => True) (fun _ => True)
    (fun _ => True)
      (CarriesAnchor anchorOf) (fun _ => True) :=
    ⟨anchor_welcome, anchor_inviter, anchor_leaving, anchor_accessLost, anchor_load,
      fun _ => trivial⟩
  refine hcalls.keeps c ?_ (fun _ _ => trivial) ?_ ?_ ?_ ?_ ?_
  · exact fun answer hanswer => ⟨trivial, trivial, trivial, hframes answer hanswer⟩
  · exact fun welcome e r heq => ⟨.inr (hissued welcome e r heq), fun _ => hissued welcome e r heq⟩
  · rintro remote frame rfl
    exact fun _ _ _ _ => ⟨trivial, trivial⟩
  · rintro welcome bundle rfl
    exact anchor_welcome.joinCall ((anchor_join (.inl ⟨rfl, rfl⟩)).mono fun _ _ _ => trivial)
  · rintro inviteID rfl
    exact anchor_welcome.accept trivial (fun _ => trivial) fun _ _ => ⟨trivial, trivial⟩
  · rintro inviteID rfl
    exact anchor_welcome.reject trivial trivial

-- -------- Operations

theorem PairedTables.setDelivered (h : PairedTables anchorOf db) :
    PairedTables anchorOf (db.setDelivered delivered which) := by
  refine ⟨h.keyed, h.stored, fun row hrow => ?_⟩
  obtain ⟨old, hold, rfl⟩ := List.mem_map.mp hrow
  split <;> exact h.outgoing old hold

theorem PairedTables.applies {w : JoinWorld} (h : PairedTables anchorOf db)
    (hstored : ∀ ifNewer row, op = .saveStoredWelcome ifNewer row →
      CarriesAnchor anchorOf row.welcomeBytes row.anchorEpoch row.anchorHistoryHash ∧
        PairsWith db ifNewer row)
    (hout : ∀ row, op = .savePendingWelcome row →
      OwnAnchor anchorOf row.welcomeBytes row.anchorEpoch row.anchorHistoryHash)
    (happlies : w.applies node op db = .ok db') : PairedTables anchorOf db' := by
  cases op with
  | markGroupLeft =>
    obtain ⟨-, rfl⟩ := JoinWorld.applies_markGroupLeft happlies
    exact ⟨h.keyed, h.stored, h.outgoing⟩
  | purgeGroupMetadata =>
    cases happlies
    exact ⟨Table.keyed_nil, by simp [purgeGroupMetadata],
      by simp [purgeGroupMetadata]⟩
  | setGroupCreatorPeerID source =>
    cases happlies
    unfold setGroupCreatorPeerID
    split
    · exact ⟨h.keyed, h.stored, h.outgoing⟩
    · exact h
  | saveStoredWelcome ifNewer row =>
    cases happlies
    obtain ⟨hcarries, hpairs⟩ := hstored ifNewer row rfl
    cases ifNewer with
    | true => exact h.saveStored hcarries hpairs
    | false => exact h.saveStored hcarries (by simpa [PairsWith] using hpairs)
  | deleteStoredWelcome inviteePeerID =>
    cases happlies
    exact ⟨h.keyed.sublist (List.filter_sublist.map _),
      fun row hrow => h.stored row (List.mem_of_mem_filter hrow), h.outgoing⟩
  | savePendingWelcome row =>
    cases happlies
    refine ⟨h.keyed, h.stored, List.forall_mem_append.mpr ⟨?_, ?_⟩⟩
    · exact fun old hold => h.outgoing old (List.mem_of_mem_filter hold)
    · exact List.forall_mem_singleton.mpr (hout row rfl)
  | reopenUnacknowledged | markWelcomeDeliveredFor targetPeerID =>
    cases happlies
    exact h.setDelivered
  | savePendingInvite inv =>
    rw [savePendingInvite_ok happlies]
    exact ⟨h.keyed, h.stored, h.outgoing⟩
  | markPendingInvite inviteID status =>
    rw [markPendingInviteStatus_ok happlies]
    exact ⟨h.keyed, h.stored, h.outgoing⟩
  | reopenRejectedInvite inv =>
    rw [reopenRejectedInvite_ok happlies]
    exact ⟨h.keyed, h.stored, h.outgoing⟩
  | saveGroupRecord groupState treeHash epoch groupType =>
    obtain ⟨rec, -, -, rfl⟩ := JoinWorld.applies_saveGroupRecord happlies
    exact ⟨h.keyed, h.stored, h.outgoing⟩
  | _ =>
    cases happlies
    exact ⟨h.keyed, h.stored, h.outgoing⟩

theorem joinMachine_locked (hop : joinMachine node w op m = some (r, m'))
    (hlocked : m.locked = true) (hunlock : op.unlocks = false) : m'.locked = true := by
  cases joinMachine_move hop with
  | unlock => cases hunlock
  | lock => rfl
  | _ => exact hlocked

structure AnchorsKept (anchorOf : Bytes → Option (Nat × Bytes)) (m : Membership) : Prop where
  tables : PairedTables anchorOf m.db
  sent : ∀ frame ∈ m.sent,
    CarriesAnchor anchorOf frame.welcome frame.anchorEpoch frame.anchorHistoryHash
  joins : ∀ join ∈ m.joins, ∀ e r, anchorOf join.welcome = some (e, r) →
    join.epoch = e ∧ join.historyHash = some r

/-- The engine takes a Welcome to its epoch. A stored row is replaced as a whole, a join starts a
coordinator that was seeded, and a seed is written unless no history is stored. -/
structure AnchorStep (anchorOf : Bytes → Option (Nat × Bytes)) (node : Node) (w : JoinWorld)
    (m : Membership)
    (op : JoinOp) : Prop where
  epoch : ∀ welcome bundle groupState treeHash epoch anchor,
    w.engine.processWelcome welcome node.signingKey bundle node.cfg.getMaxPastEpochs =
      .ok (groupState, treeHash, epoch) → anchorOf welcome = some anchor → anchor.1 = epoch
  pairs : ∀ ifNewer row, op = .saveStoredWelcome ifNewer row → PairsWith m.db ifNewer row
  seeded : ∀ welcome boot, op = .startCoordinator (some welcome) boot → boot.historyHash ≠ none
  written : ∀ anchor, op = .newCoordinator (some anchor) → m.db.storage.coord = none ∨
    Disk.works (Ctx.disk { node, w.toWorld with }) m.db.storage.writes .saveCoordState = true

theorem AnchorsKept.machine (h : AnchorsKept anchorOf m)
    (hop : joinMachine node w op m = some (r, m'))
    (hstored : ∀ ifNewer row, op = .saveStoredWelcome ifNewer row →
      CarriesAnchor anchorOf row.welcomeBytes row.anchorEpoch row.anchorHistoryHash ∧
        PairsWith m.db ifNewer row)
    (hout : ∀ row, op = .savePendingWelcome row →
      OwnAnchor anchorOf row.welcomeBytes row.anchorEpoch row.anchorHistoryHash)
    (hsend : ∀ frame, op = .send frame →
      CarriesAnchor anchorOf frame.welcome frame.anchorEpoch frame.anchorHistoryHash)
    (hstart : ∀ welcome boot x s, op = .startCoordinator (some welcome) boot →
      start x { boot with storage := m.db.storage } = .ok s →
      ∀ e r, anchorOf welcome = some (e, r) → s.epoch = e ∧ s.historyHash = some r) :
    AnchorsKept anchorOf m' := by
  refine ⟨?_, joinMachine_sent hop h.sent fun frame _ heq => hsend frame heq, ?_⟩
  · rcases joinMachine_db hop with hdb | happlies
    · rw [hdb]
      exact h.tables
    · exact h.tables.applies hstored hout happlies
  cases joinMachine_move hop with
  | start s hs =>
    rename_i x boot welcome
    cases welcome with
    | none => simpa using h.joins
    | some welcome =>
      refine List.forall_mem_append.mpr ⟨h.joins, List.forall_mem_singleton.mpr ?_⟩
      exact hstart welcome boot x s rfl hs
  | _ => exact h.joins

theorem JoinStage.Known.stays {stage : JoinStage} (h : stage.Known anchorOf m)
    (hop : joinMachine node w op m = some (r, m')) (hrecord : op.writesRecord = false)
    (hcoord : m.coord = none → m'.coord = none) : stage.Known anchorOf m' := by
  have hstorage : m'.db.storage = m.db.storage ∨ m'.db.storage = m.db.storage.purge := by
    rcases joinMachine_db hop with hdb | happlies
    · exact .inl (congrArg (·.storage) hdb)
    · exact (JoinWorld.applies_storage happlies hrecord).imp_right And.right
  refine h.mono hcoord ?_ ?_
  · rcases hstorage with heq | heq <;> simp [heq, Storage.purge]
  · rcases hstorage with heq | heq <;> simp [heq, Storage.purge]

theorem AnchorsKept.outside (h : AnchorsKept anchorOf m) (hok : AnchorStep anchorOf node w m op)
    (hasks : (anchorContract anchorOf).asks op) (hop : joinMachine node w op m = some (r, m')) :
    AnchorsKept anchorOf m' ∧ (anchorContract anchorOf).gives op r ∧
      (m.locked = true → m'.locked = true ∧
        ∀ stage : JoinStage, stage.Known anchorOf m → stage.Known anchorOf m') := by
  refine ⟨h.machine hop ?_ ?_ ?_ ?_, ?_, fun hlocked => ⟨?_, fun stage hknown => ?_⟩⟩
  · rintro ifNewer row rfl
    exact ⟨hasks, hok.pairs ifNewer row rfl⟩
  · rintro row rfl
    exact hasks
  · rintro frame rfl
    exact hasks
  · rintro welcome boot x s rfl
    exact hasks.elim
  · cases op with
    | getStoredWelcome inviteePeerID =>
      cases r with
      | error err => exact trivial
      | ok row => exact h.tables.stored row (getStoredWelcome_ok (Membership.query_ok hop)).1
    | getPendingWelcomes targetPeerID =>
      cases r with
      | error err => exact trivial
      | ok rows =>
        cases Membership.query_ok hop
        exact fun row hrow => h.tables.outgoing row (List.mem_of_mem_filter hrow)
    | _ => exact trivial
  · refine joinMachine_locked hop hlocked ?_
    cases op with
    | unlock => exact hasks.elim
    | _ => rfl
  have hrecord : op.writesRecord = false := by
    cases op with
    | saveGroupRecord groupState treeHash epoch groupType | newCoordinator anchor =>
      exact hasks.elim
    | _ => rfl
  refine hknown.stays hop hrecord ?_
  cases joinMachine_move hop with
  | start => exact hasks.elim
  | take => exact fun _ => rfl
  | _ => exact id

/-- A coordinator is built without a group state; a seed sets its history, and is written to a table
that holds no other one. -/
theorem newCoordinator_built
    (hop : joinMachine node w (.newCoordinator anchor) m = some (boot, m')) :
    (boot.groupState = [] ∧ boot.historyHash = anchor.map (·.2)) ∧ m'.coord = m.coord ∧
      m'.db.storage.group = m.db.storage.group ∧
      ∀ e r, anchor = some (e, r) → m.db.storage.coord = none ∨
          Disk.works (Ctx.disk { node, w.toWorld with }) m.db.storage.writes
            .saveCoordState = true →
        ∀ coord, m'.db.storage.coord = some coord → coord.historyChain = [(e, some r)] := by
  cases hop
  cases anchor with
  | none => exact ⟨⟨rfl, rfl⟩, rfl, rfl, nofun⟩
  | some anchor =>
    obtain ⟨e, r⟩ := anchor
    refine ⟨⟨rfl, rfl⟩, rfl, ?_⟩
    simp only [bootCoordinator, seedHistoryAnchor, newCoordinator, Membership.withDB, written]
    split
    next storage hsave =>
      obtain ⟨-, -, rfl⟩ := Disk.exec_ok hsave
      refine ⟨rfl, ?_⟩
      rintro _ _ ⟨⟩ - coord ⟨⟩
      simp [HistoryChain.set]
    next err hsave =>
      refine ⟨rfl, ?_⟩
      rintro _ _ ⟨⟩ (hnone | hworks) coord hfound
      · simp [hnone] at hfound
      · simp [Storage.saveCoordState, Disk.write, Disk.exec, hworks] at hsave

theorem JoinStage.Known.next {stage : JoinStage} (hknown : stage.Known anchorOf m)
    (hok : AnchorStep anchorOf node w m op) (hasks : asksLocked anchorOf stage op)
    (hop : joinMachine node w op m = some (r, m')) (hnext : nextLocked stage op r = some g) :
    g.Known anchorOf m' := by
  cases stage with
  | entered =>
    cases op with
    | coordinatorExists holding =>
      obtain ⟨-, hop⟩ := Option.ite_none_left_eq_some.mp hop
      cases hop
      cases hnext
      split
      · exact trivial
      · exact Option.not_isSome_iff_eq_none.mp ‹_›
    | unlock => cases hnext
    | _ =>
      cases hnext
      exact trivial
  | free =>
    cases op with
    | getMLSIdentity =>
      cases hop
      cases hnext
      exact hknown
    | processWelcome welcome bundle =>
      obtain ⟨hr, rfl⟩ : w.engine.processWelcome welcome node.signingKey bundle
        node.cfg.getMaxPastEpochs = r ∧
          m = m' := by
        cases hop
        exact ⟨rfl, rfl⟩
      match r, hr, hnext with
      | .error err, _, hnext =>
        cases hnext
        exact hknown
      | .ok (groupState, treeHash, epoch), hr, hnext =>
        cases hnext
        exact ⟨hknown, fun anchor hanchor => hok.epoch _ _ _ _ _ anchor hr hanchor⟩
    | unlock => cases hnext
    | _ => exact hasks.elim
  | accepted welcome epoch =>
    cases op with
    | saveGroupRecord groupState treeHash saved groupType =>
      have hcoord : m'.coord = none := (joinMachine_coord hop rfl).trans hknown.1
      simp only [joinMachine, Membership.tryStore] at hop
      split at hop
      next storage hsave =>
        cases hop
        cases hnext
        obtain ⟨-, -, rfl⟩ := Disk.exec_ok hsave
        refine ⟨⟨hcoord, hknown.2⟩, fun rec hrec => ?_⟩
        obtain ⟨stored, hstored, -, hepoch, -⟩ := Storage.putGroupRecord_group m.db.storage _
        cases Option.some.inj (hstored.symm.trans hrec)
        exact hepoch.trans hasks
      · cases hop
        cases hnext
        exact hcoord
    | unlock => cases hnext
    | _ => exact hasks.elim
  | saved welcome epoch =>
    cases op with
    | newCoordinator anchor =>
      cases hnext
      obtain ⟨-, hcoord, hgroup, hchain⟩ := newCoordinator_built hop
      obtain ⟨⟨hfree, hepoch⟩, hrecord⟩ := hknown
      refine ⟨⟨⟨hcoord.trans hfree, hepoch⟩, fun rec hrec => hrecord rec (hgroup ▸ hrec)⟩, ?_⟩
      rintro anchorEpoch anchorHash rfl
      exact ⟨hasks _ _ rfl, hchain _ _ rfl (hok.written (anchorEpoch, anchorHash) rfl)⟩
    | unlock => cases hnext
    | getStoredWelcome inviteePeerID | setGroupCreatorPeerID creatorPeerID
    | upsertGroupMember preservingRole rec =>
      cases hnext
      exact hknown.stays hop rfl (joinMachine_coord hop rfl).trans
    | _ => exact hasks.elim
  | built welcome epoch anchor =>
    cases op with
    | startCoordinator joined boot =>
      cases hnext
      exact trivial
    | unlock => cases hnext
    | _ => exact hasks.elim

theorem AnchorsKept.within {stage : JoinStage} (h : AnchorsKept anchorOf m)
    (hok : AnchorStep anchorOf node w m op) (hasks : asksLocked anchorOf stage op)
    (hlocked : m.locked = true) (hknown : stage.Known anchorOf m)
    (hop : joinMachine node w op m = some (r, m')) :
    AnchorsKept anchorOf m' ∧ (anchorContract anchorOf).givesIn stage op r ∧
      ∀ g, nextLocked stage op r = some g → m'.locked = true ∧ g.Known anchorOf m' := by
  refine ⟨h.machine hop ?_ ?_ ?_ ?_, ?_, fun g hnext => ⟨joinMachine_locked hop hlocked ?_, ?_⟩⟩
  · rintro ifNewer row rfl
    cases stage <;> exact hasks.elim
  · rintro row rfl
    cases stage <;> exact hasks.elim
  · rintro frame rfl
    cases stage <;> exact hasks.elim
  · rintro welcome boot x s rfl hstart e anchorHash hanchor
    cases stage with
    | entered => cases hasks
    | built welcome' epoch anchor =>
      obtain ⟨⟨⟩, hstate, hhash⟩ := hasks
      obtain ⟨⟨⟨-, hepoch⟩, hrecord⟩, hbuilt⟩ := hknown
      obtain rfl : e = epoch := hepoch _ hanchor
      cases anchor with
      | none => exact absurd hhash (hok.seeded welcome boot rfl)
      | some anchor =>
        obtain ⟨hown, hchain⟩ := hbuilt anchor.1 anchor.2 rfl
        cases hown _ hanchor
        exact start_seeded hstart hstate hhash hrecord hchain
    | _ => exact hasks.elim
  · cases stage with
    | saved welcome epoch =>
      cases op with
      | newCoordinator anchor => exact (newCoordinator_built hop).1
      | _ => exact trivial
    | _ => exact trivial
  · cases op with
    | unlock =>
      rw [nextLocked_unlock] at hnext
      cases hnext
    | _ => rfl
  · exact hknown.next hok hasks hop hnext

-- -------- The network

/-- Frames from elsewhere carry the anchor of their Welcome or none, a Welcome is issued with its
anchor, the steps of the calls meet their condition, and a coordinator that was stopped does nothing
more. -/
def AnchorsHandedOn (nodes : ι → Node) (anchorOf : Bytes → Option (Nat × Bytes))
    (net : ι → JoinPool) :
    ι × JoinAction → Prop
  | (_, .call c) =>
    (∀ answer ∈ c.frames, SentByNode net answer.2 ∨
      CarriesAnchor anchorOf answer.2.welcome answer.2.anchorEpoch answer.2.anchorHistoryHash) ∧
    ∀ welcome e r, c.issued = some (welcome, e, r) → OwnAnchor anchorOf welcome e r
  | (i, .advance k w) =>
    ∀ op, (net i).asked k = some op → AnchorStep anchorOf (nodes i) w (net i).state op
  | (_, .late _ _) => False
  | _ => True

structure Uninvited (p : JoinPool) : Prop where
  idle : p.tasks = []
  stored : p.state.db.storedWelcomes = []
  outgoing : p.state.db.pendingWelcomesOut = []
  joins : p.state.joins = []
  sent : p.state.sent = []

theorem Uninvited.kept (h : Uninvited p) : AnchorsKept anchorOf p.state := by
  refine ⟨⟨?_, ?_, ?_⟩, ?_, ?_⟩
  · rw [h.stored]
    exact Table.keyed_nil
  · simp [h.stored]
  · simp [h.outgoing]
  · simp [h.sent]
  · simp [h.joins]

theorem anchor_rules {nodes : ι → Node} (hnet : ∀ i, AnchorsKept anchorOf (net i).state) (i : ι) :
    SectionRules (nodes i) (fun p e => p = net i ∧ AnchorsHandedOn nodes anchorOf net (i, e))
      (anchorContract anchorOf) (AnchorsKept anchorOf) (fun m => m.locked = true)
      (JoinStage.Known anchorOf) where
  call := by
    rintro p c ⟨-, hframes, hissued⟩
    refine anchor_calls (fun answer hanswer => ?_) hissued
    rcases hframes answer hanswer with ⟨j, t, hsent⟩ | hcarries
    · have hcarries := (hnet j).sent _ hsent
      exact hcarries
    · exact hcarries
  outside := by
    rintro p k w op r m' ⟨rfl, hok⟩ hasked hasks hinv hop
    exact hinv.outside (hok op hasked) hasks hop
  enter := by
    rintro p k w op r m' g - - henters hinv hop
    cases op with
    | lock =>
      cases henters
      obtain ⟨hfree, hop⟩ := Option.ite_none_left_eq_some.mp hop
      cases hop
      exact ⟨⟨hinv.tables, hinv.sent, hinv.joins⟩, hfree, rfl, trivial⟩
    | _ => cases henters
  within := by
    rintro p k w op r m' g ⟨rfl, hok⟩ hasked hasks hlocked hknown hinv hop
    exact hinv.within (hok op hasked) hasks hlocked hknown hop
  coordinate := by
    rintro p a s s' m' - hinv hcoord - rfl
    refine ⟨⟨⟨hinv.tables.keyed, hinv.tables.stored, hinv.tables.outgoing⟩,
      hinv.sent, hinv.joins⟩, ?_⟩
    refine fun hlocked => ⟨hlocked, fun g hknown => ?_⟩
    have hnone : p.state.coord ≠ none := by simp [hcoord]
    cases g with
    | entered => exact trivial
    | free => exact absurd hknown hnone
    | accepted welcome epoch => exact absurd hknown.1 hnone
    | saved welcome epoch => exact absurd hknown.1.1 hnone
    | built welcome epoch anchor => exact absurd hknown.1.1.1 hnone
  late := by
    rintro p k a s s' m' ⟨-, hok⟩
    exact hok.elim
  crash h := ⟨h.tables, h.sent, h.joins⟩

/-- In a network that hands the anchors on, every node that joins by a Welcome is in the epoch of
its anchor with the history of its anchor, and every stored row pairs a Welcome with its own
anchor. -/
theorem anchors_reach_the_joiner [DecidableEq ι] (nodes : ι → Node)
    (anchorOf : Bytes → Option (Nat × Bytes))
    (net net' : ι → JoinPool) (hstart : ∀ i, Uninvited (net i))
    (hrun : Run (interleave fun i => membershipStep (nodes i))
      (AnchorsHandedOn nodes anchorOf) net net')
    (i : ι) :
    (∀ join ∈ (net' i).state.joins, ∀ e r, anchorOf join.welcome = some (e, r) →
      join.epoch = e ∧ join.historyHash = some r) ∧
    (∀ row ∈ (net' i).state.db.storedWelcomes, ∀ anchor, anchorOf row.welcomeBytes = some anchor →
      anchor = (row.anchorEpoch, row.anchorHistoryHash)) ∧
    ∀ row ∈ (net' i).state.db.pendingWelcomesOut, ∀ anchor,
      anchorOf row.welcomeBytes = some anchor →
      anchor = (row.anchorEpoch, row.anchorHistoryHash) := by
  have hkept := SectionRules.network (fun net hnet i => anchor_rules hnet i)
    (fun i => (hstart i).idle) (fun i => (hstart i).kept) hrun
  exact ⟨(hkept i).joins, (hkept i).tables.stored, (hkept i).tables.outgoing⟩

namespace Reference

def welcomeAnchor : Bytes → Option (Nat × Bytes)
  | [8, e] => some (e, [e + 6])
  | _ => none

theorem welcomeAnchor_epoch {reached : Nat}
    (h : engine.processWelcome welcome key bundle past = .ok (groupState, treeHash, reached))
    (hanchor : welcomeAnchor welcome = some anchor) : anchor.1 = reached := by
  unfold welcomeAnchor at hanchor
  split at hanchor
  · cases hanchor
    cases h
    rfl
  · cases hanchor

def anchorStepChecked (m : Membership) : JoinOp → Bool
  | .saveStoredWelcome ifNewer row => PairsWith m.db ifNewer row
  | .startCoordinator (some _) boot => boot.historyHash.isSome
  | .newCoordinator (some _) => m.db.storage.coord.isNone
  | _ => true

theorem anchorStepChecked_sound (h : anchorStepChecked m op = true) :
    AnchorStep welcomeAnchor node joinWorld m op where
  epoch _ _ _ _ _ _ haccepted hanchor := welcomeAnchor_epoch haccepted hanchor
  pairs := by
    rintro ifNewer row rfl
    exact of_decide_eq_true h
  seeded := by
    rintro welcome boot rfl hnone
    simp [anchorStepChecked, hnone] at h
  written := by
    rintro anchor rfl
    exact .inl (Option.isNone_iff_eq_none.mp h)

def anchorsChecked (net : Bool → JoinPool) : Bool × JoinAction → Bool
  | (_, .call c) =>
    relayed net c ∧ c.issued.all fun issued => welcomeAnchor issued.1 = some issued.2
  | (i, .advance k _) => ((net i).asked k).all (anchorStepChecked (net i).state)
  | _ => false

theorem invitation_world (h : (i, .advance k w) ∈ invitation a b) : w = joinWorld := by
  rcases List.mem_append.mp h with hfirst | hsecond
  · rcases List.mem_cons.mp hfirst with heq | hrest
    · cases heq
    · cases List.eq_of_mem_replicate hrest
      rfl
  · rcases List.mem_cons.mp hsecond with heq | hrest
    · cases heq
    · cases List.eq_of_mem_replicate hrest
      rfl

theorem anchorsChecked_sound (e : Bool × JoinAction) (he : e ∈ invitation a b)
    (h : anchorsChecked net e = true) : AnchorsHandedOn (twoNodes a b) welcomeAnchor net e := by
  obtain ⟨i, action⟩ := e
  cases action with
  | call c =>
    obtain ⟨hrelayed, hissued⟩ := of_decide_eq_true h
    refine ⟨fun answer hanswer => .inl (relayed_sound hrelayed answer hanswer), ?_⟩
    intro welcome e r hissue anchor hanchor
    rw [hissue] at hissued
    exact Option.some.inj (hanchor.symm.trans (of_decide_eq_true hissued))
  | advance k w =>
    obtain rfl := invitation_world he
    intro op hasked
    refine anchorStepChecked_sound ?_
    simpa [anchorsChecked, hasked] using h
  | _ => cases h

end Reference

theorem Reference.twoStart_uninvited (recorded : String) (i : Bool) :
    Uninvited (Reference.twoStart recorded i) := by
  cases i <;> exact ⟨rfl, rfl, rfl, rfl, rfl⟩

open Reference in
/-- A node that is invited with an anchor starts from it. -/
theorem invited_node_starts_from_anchor :
    ∃ net', Run (interleave fun i => membershipStep (twoNodes [65] [66] i))
        (AnchorsHandedOn (twoNodes [65] [66]) welcomeAnchor) (twoStart "A") net' ∧
      ∃ join ∈ (net' true).state.joins, join.welcome = [8, 1] ∧ join.epoch = 1 ∧
        join.historyHash = some [7] := by
  obtain ⟨net', hrun, hjoined⟩ : ∃ net',
      Run (interleave fun i => membershipStep (twoNodes [65] [66] i))
        (AnchorsHandedOn (twoNodes [65] [66]) welcomeAnchor) (twoStart "A") net' ∧
      ∃ join ∈ (net' true).state.joins, join.welcome = [8, 1] :=
    Run.exists_of_checked (invitation [65] [66]) anchorsChecked
      (fun _ => anchorsChecked_sound) (by decide +kernel)
  obtain ⟨join, hjoin, hwelcome⟩ := hjoined
  have hanchor := (anchors_reach_the_joiner _ welcomeAnchor _ net' (twoStart_uninvited "A")
    hrun true).1 join hjoin 1 [7] (by rw [hwelcome]; rfl)
  exact ⟨net', hrun, join, hjoin, hwelcome, hanchor⟩

def FramesAnchored (anchorOf : Bytes → Option (Nat × Bytes)) (_ : JoinPool) (e : JoinAction) :
    Prop :=
  ∀ c, e = .call c → ∀ answer ∈ c.frames,
    OwnAnchor anchorOf answer.2.welcome answer.2.anchorEpoch answer.2.anchorHistoryHash

namespace Reference

def framesAnchored (_ : JoinPool) : JoinAction → Bool
  | .call c => c.frames.all fun answer =>
    welcomeAnchor answer.2.welcome = some (answer.2.anchorEpoch, answer.2.anchorHistoryHash)
  | _ => true

theorem framesAnchored_sound (h : framesAnchored p e = true) :
    FramesAnchored welcomeAnchor p e := by
  rintro c rfl answer hanswer anchor hanchor
  have hown := of_decide_eq_true (List.all_eq_true.mp h answer hanswer)
  exact Option.some.inj (hanchor.symm.trans hown)

def acceptedLater : List JoinAction :=
  .call (.welcomeDelivery "A" (welcomeFrom "A" "B")) ::
    List.replicate 7 (.advance 0 { joinWorld with kpBundle := .error "no bundle" }) ++
  .call (.acceptInvite ((member [66]).pendingInviteID [8, 1])) :: List.replicate 24
    (.advance 1 joinWorld)

def storedTwice : List JoinAction :=
  [.call (.welcomeStore false "A"
    { welcomeFrom "A" "B" with welcome := [8, 2], anchorEpoch := 2, anchorHistoryHash := [8] }),
    .advance 0 joinWorld, .call (.welcomeStore false "A" (welcomeFrom "A" "B")),
    .advance 1 joinWorld]

end Reference

open Reference in
/-- `AcceptInvite` joins without the anchor, and a stored Welcome keeps the anchor of another
one. -/
theorem anchors_lost_on_the_way :
    (∃ p', Run (membershipStep (member [66])) (FramesAnchored welcomeAnchor)
        { state := {} } p' ∧
      ∃ join ∈ p'.state.joins, join.welcome = [8, 1] ∧ join.epoch = 1 ∧
        join.historyHash ≠ some [7]) ∧
    ∃ p', Run (membershipStep (member [67])) (FramesAnchored welcomeAnchor)
        { state := {} } p' ∧
      ∃ row ∈ p'.state.db.storedWelcomes, row.welcomeBytes = [8, 1] ∧ row.anchorEpoch = 2 ∧
        row.anchorHistoryHash = [8] := by
  constructor
  · exact Run.exists_of_checked acceptedLater framesAnchored
      (fun _ _ _ => framesAnchored_sound) (by decide +kernel)
  · exact Run.exists_of_checked storedTwice framesAnchored
      (fun _ _ _ => framesAnchored_sound) (by decide +kernel)

end GroupCoordination
