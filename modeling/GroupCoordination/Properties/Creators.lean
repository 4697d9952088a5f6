import GroupCoordination.Properties.CallContracts

/-!
# The creator of a group

A node that joins takes the creator from the source of a Welcome, and a node that sends a Welcome
names the creator that it has recorded, or itself if it has none. The creator that is recorded is
the right one in a network whose frames from elsewhere name the creator, and whose nodes know the
creator when they name a source: then every stored source, and every frame that is sent, names no
one else.
-/

namespace GroupCoordination

open MembershipStore StoredWelcome

open Transition (Run interleave)

variable {creator : String} {node : Node}

-- -------- Sources

def Names (creator source : String) : Prop := trimSpace source = creator

def NamesNoOther (creator source : String) : Prop := trimSpace source = "" ∨ Names creator source

theorem Names.trim (h : Names creator source) : Names creator (trimSpace source) :=
  (trimSpace_idem source).trans h

theorem NamesNoOther.trim (h : NamesNoOther creator source) :
    NamesNoOther creator (trimSpace source) := by
  unfold NamesNoOther Names
  rw [trimSpace_idem]
  exact h

/-- A frame that names the creator, or that comes from the creator and names no one. -/
def WelcomeFrame.FromCreator (frame : WelcomeFrame) (creator remote : String) : Prop :=
  Names creator frame.sourcePeerID ∨ frame.sourcePeerID = "" ∧ Names creator remote

theorem WelcomeFrame.FromCreator.good (hcreator : creator ≠ "")
    (h : frame.FromCreator creator remote) :
    GoodFrame (NamesNoOther creator) (Names creator) (fun _ _ _ => True) remote frame := by
  have hsource : Names creator (frame.source remote) := by
    unfold WelcomeFrame.source
    rcases h with hnames | ⟨hblank, hremote⟩
    · rw [if_pos (hnames.trans_ne hcreator)]
      exact hnames.trim
    · rw [if_neg (by simp [hblank, show trimSpace "" = "" from rfl])]
      exact hremote
  refine ⟨.inr hsource, .inr ?_, hsource, trivial⟩
  rcases h with hnames | ⟨hblank, hremote⟩
  · rw [if_neg]
    · exact hnames
    intro hblank
    rw [hblank] at hnames
    exact hcreator hnames.symm
  · rwa [if_pos hblank]

-- -------- Tables

def StoredWelcome.Sourced (row : StoredWelcome) (node : Node) (creator : String) : Prop :=
  Names creator row.sourcePeerID ∨ row.inviteePeerID = node.me ∧ trimSpace row.sourcePeerID = ""

theorem StoredWelcome.Sourced.noOther {row : StoredWelcome} (h : row.Sourced node creator) :
    NamesNoOther creator row.sourcePeerID := h.elim .inr fun hblank => .inl hblank.2

structure CreatorTables (node : Node) (creator : String) (db : MembershipStore) : Prop where
  recorded : db.groupCreatorPeerID = "" ∨ db.groupCreatorPeerID = creator
  stored : ∀ row ∈ db.storedWelcomes, row.Sourced node creator
  invites : ∀ inv ∈ db.pendingInvites, NamesNoOther creator inv.sourcePeerID

structure CreatorKept (node : Node) (creator : String) (m : Membership) : Prop where
  tables : CreatorTables node creator m.db
  sent : ∀ frame ∈ m.sent, Names creator frame.sourcePeerID

theorem StoredWelcome.Sourced.merged {ifNewer : Bool} {old new : StoredWelcome}
    (hold : old.Sourced node creator)
    (hnew : new.Sourced node creator) (hkey : old.inviteePeerID = new.inviteePeerID) :
    ((if ifNewer then mergeIfNewer else merge) old new).Sourced node creator := by
  cases ifNewer with
  | false =>
    simp only [Bool.false_eq_true, if_false]
    unfold merge StoredWelcome.Sourced
    dsimp only
    split
    · exact hnew
    · rw [← hkey]
      exact hold
  | true =>
    simp only [if_true]
    unfold mergeIfNewer StoredWelcome.Sourced
    dsimp only
    split
    · rw [hkey]
      exact hnew
    · exact hold

namespace CreatorTables

variable (h : CreatorTables node creator db)

include h

theorem saveStored {ifNewer : Bool} (hrow : row.Sourced node creator) :
    CreatorTables node creator (db.saveStoredWelcome
      (if ifNewer then mergeIfNewer else merge) row) := by
  have htrimmed : StoredWelcome.Sourced
      { row with
        groupType := normalizeGroupType row.groupType, sourcePeerID := trimSpace row.sourcePeerID }
      node creator := by
    refine hrow.imp Names.trim (And.imp_right fun hblank => ?_)
    exact (trimSpace_idem _).trans hblank
  exact ⟨h.recorded,
    Table.forall_mem_upsert h.stored htrimmed fun old hold => .merged (h.stored old hold) htrimmed,
    h.invites⟩

theorem setCreator (hsource : NamesNoOther creator source) :
    CreatorTables node creator (db.setGroupCreatorPeerID source) := by
  rcases db.setGroupCreatorPeerID_cases source with heq | ⟨-, heq⟩
  · rw [heq]
    exact h
  · rw [heq]
    exact ⟨hsource, h.stored, h.invites⟩

theorem saveInvite (hsave : db.savePendingInvite inv = .ok db')
    (hsource : NamesNoOther creator inv.sourcePeerID) : CreatorTables node creator db' := by
  rw [savePendingInvite_ok hsave]
  refine ⟨h.recorded, h.stored, Table.forall_mem_upsert h.invites hsource fun old hold _ => ?_⟩
  unfold PendingInvite.merge
  dsimp only
  split
  · exact hsource
  · exact h.invites old hold

theorem markInvite (hmark : db.markPendingInviteStatus now inviteID status = .ok db') :
    CreatorTables node creator db' := by
  rw [markPendingInviteStatus_ok hmark]
  refine ⟨h.recorded, h.stored, fun inv hinv => ?_⟩
  obtain ⟨old, hold, rfl⟩ := List.mem_map.mp hinv
  split
  · exact h.invites old hold
  · exact h.invites old hold

theorem reopenInvite (hsource : NamesNoOther creator inv.sourcePeerID)
    (hreopen : db.reopenRejectedInvite now inv = .ok db') : CreatorTables node creator db' := by
  rw [reopenRejectedInvite_ok hreopen]
  refine ⟨h.recorded, h.stored, fun row hrow => ?_⟩
  obtain ⟨old, hold, rfl⟩ := List.mem_map.mp hrow
  split
  · unfold PendingInvite.reopen
    dsimp only
    split
    · exact hsource.trim
    · exact h.invites old hold
  · exact h.invites old hold

end CreatorTables

-- -------- Operations

def creatorContract (node : Node) (creator : String) : JoinContract where
  asks
    | .setGroupCreatorPeerID source => NamesNoOther creator source
    | .saveStoredWelcome _ row => row.Sourced node creator
    | .savePendingInvite inv | .reopenRejectedInvite inv => NamesNoOther creator inv.sourcePeerID
    | .send frame => Names creator frame.sourcePeerID
    | _ => True
  gives
    | .getStoredWelcome inviteePeerID, .ok row =>
      row.inviteePeerID = inviteePeerID ∧ row.Sourced node creator
    | .getPendingInvite _, .ok inv => NamesNoOther creator inv.sourcePeerID
    | .listPendingInvites, .ok rows => ∀ inv ∈ rows, NamesNoOther creator inv.sourcePeerID
    | .getGroupCreatorPeerID, r =>
      (∀ named, r = .ok named → named ≠ "" → Names creator named) ∧
        ((∀ named, r = .ok named → named = "") → Names creator node.me)
    | _, _ => True

theorem CreatorTables.applies {w : JoinWorld} (h : CreatorTables node creator db)
    (hasks : (creatorContract node creator).asks op) (happlies : w.applies node op db = .ok db') :
    CreatorTables node creator db' := by
  cases op with
  | markGroupLeft =>
    obtain ⟨-, rfl⟩ := JoinWorld.applies_markGroupLeft happlies
    exact ⟨h.recorded, h.stored, h.invites⟩
  | purgeGroupMetadata =>
    cases happlies
    exact ⟨.inl rfl, by simp [purgeGroupMetadata], by simp [purgeGroupMetadata]⟩
  | setGroupCreatorPeerID source =>
    cases happlies
    exact h.setCreator hasks
  | saveStoredWelcome ifNewer row =>
    cases happlies
    refine h.saveStored ?_
    split
    · exact hasks
    · exact hasks
  | deleteStoredWelcome inviteePeerID =>
    cases happlies
    exact ⟨h.recorded, fun row hrow => h.stored row (List.mem_of_mem_filter hrow), h.invites⟩
  | savePendingInvite inv => exact h.saveInvite happlies hasks
  | markPendingInvite inviteID status => exact h.markInvite happlies
  | reopenRejectedInvite inv => exact h.reopenInvite hasks happlies
  | saveGroupRecord groupState treeHash epoch groupType =>
    obtain ⟨rec, -, -, rfl⟩ := JoinWorld.applies_saveGroupRecord happlies
    exact ⟨h.recorded, h.stored, h.invites⟩
  | _ =>
    cases happlies
    exact ⟨h.recorded, h.stored, h.invites⟩

/-- A node knows the creator when it is asked for it: it has a record of the creator, or is the
creator. -/
def KnowsCreator (node : Node) (creator : String) (w : JoinWorld) (m : Membership) : Prop :=
  node.me = creator ∨ w.dbWorks ∧ m.db.storage.group.isSome ∧ m.db.groupCreatorPeerID ≠ ""

theorem CreatorTables.named (hcreator : trimSpace creator = creator)
    (h : CreatorTables node creator m.db) (hknows : KnowsCreator node creator w m)
    (hop : joinMachine node w .getGroupCreatorPeerID m = some (r, m')) :
    (creatorContract node creator).gives .getGroupCreatorPeerID r := by
  have hself : Names creator creator := hcreator
  refine ⟨?_, fun hblank => ?_⟩
  · rintro named rfl hne
    have hreply := Membership.query_ok hop
    split at hreply
    · cases hreply
      rcases h.recorded with hcol | hcol
      · rw [hcol] at hne
        exact absurd rfl hne
      · rw [hcol]
        exact hself.trim
    · cases hreply
  · rcases hknows with hme | ⟨hworks, hgroup, hrecorded⟩
    · rw [hme]
      exact hself
    have hcol := h.recorded.resolve_left hrecorded
    simp only [joinMachine, Membership.query, hworks, hgroup, if_true, hcol, hcreator] at hop
    cases hop
    exact absurd (hcol.trans (hblank creator rfl)) hrecorded

theorem CreatorKept.advance (hcreator : trimSpace creator = creator)
    (h : CreatorKept node creator m) (hasks : (creatorContract node creator).asks op)
    (hknows : op = .getGroupCreatorPeerID → KnowsCreator node creator w m)
    (hop : joinMachine node w op m = some (r, m')) :
    CreatorKept node creator m' ∧ (creatorContract node creator).gives op r := by
  refine ⟨⟨?_, joinMachine_sent hop h.sent ?_⟩, ?_⟩
  · rcases joinMachine_db hop with hdb | happlies
    · rw [hdb]
      exact h.tables
    · exact h.tables.applies hasks happlies
  · rintro frame t rfl
    exact hasks
  cases op with
  | getStoredWelcome inviteePeerID =>
    cases r with
    | error err => exact trivial
    | ok row =>
      obtain ⟨hrow, hkey⟩ := getStoredWelcome_ok (Membership.query_ok hop)
      exact ⟨hkey, h.tables.stored row hrow⟩
  | getPendingInvite inviteID =>
    cases r with
    | error err => exact trivial
    | ok inv =>
      obtain ⟨hinv, -⟩ := getPendingInvite_ok (Membership.query_ok hop)
      exact h.tables.invites inv hinv
  | listPendingInvites =>
    cases r with
    | error err => exact trivial
    | ok rows =>
      cases Membership.query_ok hop
      intro inv hinv
      exact h.tables.invites inv (mem_listPendingInvites.mp hinv).1
  | getGroupCreatorPeerID => exact h.tables.named hcreator (hknows rfl) hop
  | _ => exact trivial

-- -------- Calls

theorem creator_roster : RosterContract node (creatorContract node creator) := by
  constructor <;> (intros; exact trivial)

theorem creator_joining : JoiningContract node (creatorContract node creator) (NamesNoOther creator)
    (fun _ _ _ => True) (fun _ => True) where
  session := trivial
  isGroupActive := trivial
  purge _ := trivial
  lock := trivial
  unlock := trivial
  ready := trivial
  coordinatorExists := trivial
  identity := trivial
  process _ _ := trivial
  accepted _ := trivial
  save _ := trivial
  getStored := trivial
  stored h := h.2.noOther
  setCreator h _ := h
  own := trivial
  new _ := trivial
  start _ _ _ := trivial

theorem creator_welcome : WelcomeContract node (creatorContract node creator) (NamesNoOther creator)
    (Names creator) (fun _ _ _ => True) (fun _ => True) where
  roster := creator_roster
  sourceless := .inl rfl
  trims := NamesNoOther.trim
  anchorless _ := trivial
  session := trivial
  isGroupActive := trivial
  coordinatorExists := trivial
  joined _ _ := trivial
  getKPBundle := trivial
  join _ hsource hanchor := creator_joining.join creator_roster hsource.trim hanchor
  markApplied _ := trivial
  setCreator h _ := h
  getStored := trivial
  stored h := ⟨h.2.noOther, trivial⟩
  saveOwn hme hsource _ := hsource.elim (fun hblank => .inr ⟨hme, hblank⟩) .inl
  saveOther _ hsource _ := .inl hsource
  getPendingInvite _ := trivial
  getLatest := trivial
  listPending := trivial
  listed h hinv := ⟨h _ hinv, fun _ => trivial⟩
  saveAccepted _ hsource := hsource
  markAccepted _ := trivial
  defer _ _ hsource := hsource

theorem creator_inviter :
    InviterContract node (creatorContract node creator) (· ≠ node.me) (Names creator)
    (fun _ _ _ => True) where
  anchorless _ := trivial
  awaits _ := trivial
  getCreator := trivial
  named h hne := h.1 _ rfl hne
  unnamed h hblank := h.2 hblank
  getGroupRecord := trivial
  send hsource _ := hsource
  saveStored _ hsource _ := .inl hsource
  getStored _ := trivial
  stored hother h := ⟨h.2.resolve_right fun hown => hother (h.1.symm.trans hown.1), trivial⟩
  getPendingWelcomes _ := trivial
  outgoing _ _ := trivial
  getAny _ := trivial
  reopenUnacknowledged := trivial

theorem creator_leaving : LeavingContract node (creatorContract node creator) := by
  constructor <;> exact trivial

theorem creator_loading : LoadingContract node (creatorContract node creator) := by
  constructor <;> (intros; exact trivial)

theorem creator_calls {c : JoinCall} (hframes : ∀ answer ∈ c.frames,
      GoodFrame (NamesNoOther creator) (Names creator) (fun _ _ _ => True) answer.1 answer.2)
    (hinvitee : c.invitee ≠ some node.me) :
    (c.program node).Obeys (creatorContract node creator) := by
  have hcalls : CallContract node (creatorContract node creator)
    (NamesNoOther creator) (· ≠ node.me)
      (Names creator) (fun _ _ _ => True) (fun _ => True) :=
    ⟨creator_welcome, creator_inviter, creator_leaving, creator_leaving.accessLost trivial trivial,
      creator_loading.load, fun _ => trivial⟩
  have hblank : NamesNoOther creator (trimSpace "") := .inl rfl
  refine hcalls.keeps c hframes ?_ (fun _ _ _ _ => ⟨trivial, fun _ => trivial⟩) ?_ ?_ ?_ ?_
  · rintro target htarget rfl
    exact hinvitee htarget
  · rintro remote frame rfl
    exact fun _ _ _ hsource => ⟨hsource, hsource⟩
  · rintro welcome bundle rfl
    exact creator_welcome.joinCall (creator_joining.join creator_roster hblank trivial)
  · rintro inviteID rfl
    exact creator_welcome.accept trivial (fun _ => trivial) fun hinv _ => ⟨hinv, trivial⟩
  · rintro inviteID rfl
    exact creator_welcome.reject trivial trivial

-- -------- The network

/-- The frames that come in were sent by a node, or name the creator; no node sends itself a
Welcome; and a node that is asked for the creator knows it. -/
def CreatorNamed (nodes : ι → Node) (creator : String) (net : ι → JoinPool) : ι × JoinAction → Prop
  | (i, .call c) =>
    (∀ answer ∈ c.frames, SentByNode net answer.2 ∨ answer.2.FromCreator creator answer.1) ∧
      c.invitee ≠ some (nodes i).me
  | (i, .advance k w) => (net i).asked k = some .getGroupCreatorPeerID →
      KnowsCreator (nodes i) creator w (net i).state
  | _ => True

structure Unwelcomed (creator : String) (p : JoinPool) : Prop where
  idle : p.tasks = []
  recorded : p.state.db.groupCreatorPeerID = "" ∨ p.state.db.groupCreatorPeerID = creator
  stored : p.state.db.storedWelcomes = []
  invites : p.state.db.pendingInvites = []
  sent : p.state.sent = []

theorem Unwelcomed.kept (h : Unwelcomed creator p) : CreatorKept node creator p.state := by
  refine ⟨⟨h.recorded, ?_, ?_⟩, ?_⟩
  · simp [h.stored]
  · simp [h.invites]
  · simp [h.sent]

theorem creator_rules {nodes : ι → Node} (hcreator : creator ≠ "")
    (htrim : trimSpace creator = creator)
    (hnet : ∀ i, CreatorKept (nodes i) creator (net i).state) (i : ι) :
    MembershipRules (nodes i) (fun p e => p = net i ∧ CreatorNamed nodes creator net (i, e))
      (creatorContract (nodes i) creator) (CreatorKept (nodes i) creator) where
  call := by
    rintro p c ⟨-, hframes, hinvitee⟩
    refine creator_calls (fun answer hanswer => ?_) hinvitee
    rcases hframes answer hanswer with ⟨j, t, hsent⟩ | hfrom
    · have hnames := (hnet j).sent _ hsent
      exact WelcomeFrame.FromCreator.good hcreator (.inl hnames)
    · exact hfrom.good hcreator
  advance := by
    rintro p k w op r m' ⟨rfl, hknows⟩ hasked hasks hinv hop
    refine hinv.advance htrim hasks ?_ hop
    rintro rfl
    exact hknows hasked
  coordinate _ h _ _ := ⟨⟨h.tables.recorded, h.tables.stored, h.tables.invites⟩, h.sent⟩
  late _ h _ _ := ⟨⟨h.tables.recorded, h.tables.stored, h.tables.invites⟩, h.sent⟩
  crash h := ⟨h.tables, h.sent⟩

/-- In a network whose frames from elsewhere name the creator, and whose nodes know the creator when
they name a source, no node ever records another creator. -/
theorem recorded_creator_is_creator [DecidableEq ι] (nodes : ι → Node) (creator : String)
    (hcreator : creator ≠ "") (htrim : trimSpace creator = creator) (net net' : ι → JoinPool)
    (hstart : ∀ i, Unwelcomed creator (net i))
    (hrun : Run (interleave fun i => membershipStep (nodes i))
      (CreatorNamed nodes creator) net net')
    (i : ι) (hrecorded : (net' i).state.db.groupCreatorPeerID ≠ "") :
    (net' i).state.db.groupCreatorPeerID = creator := by
  have hkept :=
    SectionRules.network (fun net hnet i => (creator_rules hcreator htrim hnet i).sections)
    (fun i => (hstart i).idle) (fun i => (hstart i).kept) hrun
  exact (hkept i).tables.recorded.resolve_left hrecorded

-- -------- Runs of two nodes

namespace Reference

def twoNodes (a b : PeerID) : Bool → Node
  | false => member a
  | true => member b

def twoStart (recorded : String) : Bool → JoinPool
  | false =>
    { state :=
        { db :=
            { storage := { group := some { groupState := [1, 1], epoch := 1, treeHash := [1] } }
              groupCreatorPeerID := recorded } } }
  | true => { state := {} }

theorem twoStart_unwelcomed (h : recorded = "" ∨ recorded = creator) (i : Bool) :
    Unwelcomed creator (twoStart recorded i) := by
  cases i with
  | false => exact ⟨rfl, h, rfl, rfl, rfl⟩
  | true => exact ⟨rfl, .inl rfl, rfl, rfl, rfl⟩

def welcomeFrom (source target : String) : WelcomeFrame where
  inviteePeerID := target
  groupType := "group"
  welcome := [8, 1]
  sourcePeerID := source
  anchorEpoch := 1
  anchorHistoryHash := [7]
  publishedAt := 0

def invitation (a b : PeerID) : List (Bool × JoinAction) :=
  (false, .call (.dispatchWelcome [] (member b).me "group" [8, 1] 1 [7])) ::
    List.replicate 7 (false, .advance 0 joinWorld) ++
  (true, .call (.welcomeDelivery (member a).me (welcomeFrom (member a).me (member b).me))) ::
    List.replicate 26 (true, .advance 0 joinWorld)

def relayed (net : Bool → JoinPool) (c : JoinCall) : Bool :=
  c.frames.all fun answer => { answer.2 with publishedAt := 0 } ∈
    (net false).state.sent.map fun frame => { frame with publishedAt := 0 }

theorem relayed_sound {c : JoinCall} (h : relayed net c = true) :
    ∀ answer ∈ c.frames, SentByNode net answer.2 := by
  intro answer hanswer
  obtain ⟨sent, hsent, heq⟩ :=
    List.mem_map.mp (of_decide_eq_true (List.all_eq_true.mp h answer hanswer))
  have hsame : { answer.2 with publishedAt := sent.publishedAt } = sent :=
    congrArg (fun frame : WelcomeFrame => { frame with publishedAt := sent.publishedAt }) heq.symm
  exact ⟨false, sent.publishedAt, hsame ▸ hsent⟩

def framesRelayed (net : Bool → JoinPool) (e : Bool × JoinAction) : Bool :=
  match e.2 with
  | .call c => relayed net c
  | _ => true

def creatorChecked (nodes : Bool → Node) (net : Bool → JoinPool) : Bool × JoinAction → Bool
  | (i, .call c) => relayed net c ∧ c.invitee ≠ some (nodes i).me
  | (i, .advance k _) => i = false ∨ ((net i).asked k).all fun op => match op with
    | .getGroupCreatorPeerID => false
    | _ => true
  | _ => true

theorem creatorChecked_sound (e : Bool × JoinAction)
    (h : creatorChecked (twoNodes a b) net e = true) :
    CreatorNamed (twoNodes a b) (member a).me net e := by
  match e, h with
  | (i, .call c), h =>
    obtain ⟨hrelayed, hinvitee⟩ := of_decide_eq_true h
    exact ⟨fun answer hanswer => .inl (relayed_sound hrelayed answer hanswer), hinvitee⟩
  | (i, .advance k w), h =>
    intro hasked
    rcases of_decide_eq_true h with rfl | hother
    · exact .inl rfl
    · simp [hasked] at hother
  | (_, .coordinate _), _ => exact trivial
  | (_, .late _ _), _ => exact trivial
  | (_, .crash), _ => exact trivial

end Reference

open Reference in
/-- A node that is invited by the creator records the creator. -/
theorem invited_node_records_creator :
    ∃ net', Run (interleave fun i => membershipStep (twoNodes [65] [66] i))
        (CreatorNamed (twoNodes [65] [66]) "A") (twoStart "A") net' ∧
      (net' true).state.db.groupCreatorPeerID = "A" := by
  obtain ⟨net', hrun, hrecorded⟩ : ∃ net',
    Run (interleave fun i => membershipStep (twoNodes [65] [66] i))
      (CreatorNamed (twoNodes [65] [66]) "A") (twoStart "A") net' ∧
      (net' true).state.db.groupCreatorPeerID ≠ "" :=
    Run.exists_of_checked (invitation [65] [66])
      (creatorChecked (twoNodes [65] [66])) (fun _ e _ => creatorChecked_sound e)
      (by decide +kernel)
  exact ⟨net', hrun, recorded_creator_is_creator _ "A" (by decide) (by decide) _ net'
    (twoStart_unwelcomed (.inr rfl)) hrun true hrecorded⟩

open Reference in
/-- A peer that delivers a Welcome with its own name becomes the creator. So does a member of the
group that issues a Welcome without a record of the creator, where every frame was sent by a
node. -/
theorem forged_and_unrecorded_creators :
    (∃ net', Run (interleave fun i => membershipStep (twoNodes [65] [66] i)) (fun _ _ => True)
        (twoStart "A") net' ∧ (net' true).state.db.groupCreatorPeerID = "M") ∧
    ∃ net', Run (interleave fun i => membershipStep (twoNodes [66] [67] i))
        (fun net e => ∀ c, e.2 = .call c → ∀ answer ∈ c.frames, SentByNode net answer.2)
        (twoStart "") net' ∧ (net' true).state.db.groupCreatorPeerID = "B" := by
  constructor
  · let forged : List (Bool × JoinAction) :=
      (true, .call (.welcomeDelivery "M" (welcomeFrom "M" "B"))) ::
        List.replicate 26 (true, .advance 0 joinWorld)
    exact Run.exists_of_checked forged (fun _ _ => true) (fun _ _ _ _ => trivial)
      (by decide +kernel)
  · refine Run.exists_of_checked (invitation [66] [67]) framesRelayed ?_ (by decide +kernel)
    rintro net ⟨i, e⟩ - hok c rfl
    exact relayed_sound hok

end GroupCoordination
