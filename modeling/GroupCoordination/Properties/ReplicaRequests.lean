import Mathlib.Algebra.BigOperators.Group.List.Basic
import Mathlib.Data.Finset.Card
import Mathlib.Data.Nat.Cast.Basic
import GroupCoordination.Properties.ReplicaCursors

/-!
# Requests that a peer accepts

A node collects the keys of a request by limits of its own, and a peer that runs the same code
refuses a request with too many keys or too long a text. The pull of the namespaces ends at the
first refusal.
-/

namespace GroupCoordination

open ReplicaStore

-- -------- Keys

theorem mem_addKeys {keys more : List String} {key : String} :
    key ∈ addKeys keys more ↔ key ∈ keys ∨ key ∈ more := by
  unfold addKeys
  induction more generalizing keys with
  | nil => simp
  | cons k more ih =>
    rw [List.foldl_cons, ih]
    split
    next hk =>
      simp only [List.mem_cons]
      constructor
      · rintro (h | h)
        · exact .inl h
        · exact .inr (.inr h)
      rintro (h | rfl | h)
      · exact .inl h
      · exact .inl hk
      · exact .inr h
    · simp [or_assoc]

theorem nodup_addKeys {keys more : List String} (h : keys.Nodup) : (addKeys keys more).Nodup := by
  unfold addKeys
  induction more generalizing keys with
  | nil => exact h
  | cons k more ih =>
    rw [List.foldl_cons]
    split
    · exact ih h
    rename_i hk
    refine ih ?_
    rw [← List.concat_eq_append]
    exact h.concat hk

theorem length_addKeys {keys more : List String} (h : keys.Nodup) :
    (addKeys keys more).length = (keys.toFinset ∪ more.toFinset).card := by
  rw [← List.toFinset_card_of_nodup (nodup_addKeys h)]
  congr 1
  ext key
  simp [mem_addKeys]

theorem length_addKeys_singleton {key : String} {more : List String} :
    (addKeys [key] more).length = (more.toFinset.erase key).card + 1 := by
  rw [length_addKeys (List.nodup_singleton key), ← Finset.card_insert_of_notMem
    (Finset.notMem_erase key _)]
  congr 1
  ext k
  by_cases hk : k = key
  · simp [hk]
  · simp [hk]

theorem length_listJoinedGroupChatIDs {db : ReplicaStore} {limit : Nat} :
    (db.listJoinedGroupChatIDs limit).length ≤ limit := by
  unfold listJoinedGroupChatIDs
  refine (List.length_filter_le _ _).trans ?_
  rw [List.length_map]
  exact List.length_take_le _ _

-- -------- Requests

def ReplicaStore.pullBytes (db : ReplicaStore) (sizes : ReplicaSizes) (remote me : String)
    (ns : ReplicaNamespace) : Nat :=
  ((db.pullKeys remote me ns).map fun key => sizes.quoted key + 1).sum +
    ((addKeys [] (db.pullKeys remote me ns)).map fun key => sizes.quoted key +
      (toString (getReplicatedPullCursor db.cursors remote ns key)).length + 2).sum

/-- The tables are within the limits of the requests. -/
structure PullLimits (sizes : ReplicaSizes) (db : ReplicaStore) (remote me : String) : Prop where
  profiles : ((db.directory.listKnownProfilePeerIDs me 256).toFinset.erase remote).card < 256
  roles : db.groupRoleKeys.toFinset.card ≤ 512
  bytes : ∀ ns, db.pullKeys remote me ns ≠ [] →
    sizes.quoted ns.text + db.pullBytes sizes remote me ns + 41 ≤ maxReplicaReqBytes

theorem commaSeparated_add_one {lengths : List Nat} (h : lengths ≠ []) :
    commaSeparated lengths + 1 = (lengths.map (· + 1)).sum := by
  have hpos : 0 < lengths.length := List.length_pos_iff.mpr h
  have hsum : (lengths.map (· + 1)).sum = lengths.sum + lengths.length := by simp [List.sum_map_add]
  unfold commaSeparated
  omega

theorem buildPullRequest_some {db : ReplicaStore} {remote me : String} {ns : ReplicaNamespace}
    {req : ReplicaPullRequest} (h : db.buildPullRequest remote me ns = some req) :
    db.pullKeys remote me ns ≠ [] ∧ req =
      { ns
        keys := db.pullKeys remote me ns
        cursors := (addKeys [] (db.pullKeys remote me ns)).map fun key =>
          (key, getReplicatedPullCursor db.cursors remote ns key) } := by
  simp only [buildPullRequest] at h
  split at h
  · cases h
  next hkeys =>
    exact ⟨hkeys, (Option.some.inj h).symm⟩

theorem buildPullRequest_of_keys {db : ReplicaStore} {remote me : String} {ns : ReplicaNamespace}
    (h : db.pullKeys remote me ns ≠ []) : ∃ req, db.buildPullRequest remote me ns = some req := by
  simp [buildPullRequest, h]

theorem request_size {sizes : ReplicaSizes} {db : ReplicaStore} {remote me : String}
    {ns : ReplicaNamespace} {req : ReplicaPullRequest}
    (h : db.buildPullRequest remote me ns = some req) :
    sizes.request req = sizes.quoted ns.text + db.pullBytes sizes remote me ns + 41 := by
  obtain ⟨hkeys, rfl⟩ := buildPullRequest_some h
  obtain ⟨key, hkey⟩ := List.exists_mem_of_ne_nil _ hkeys
  have hdistinct : addKeys [] (db.pullKeys remote me ns) ≠ [] :=
    List.ne_nil_of_mem (mem_addKeys.mpr (.inr hkey))
  have hlist : commaSeparated ((db.pullKeys remote me ns).map sizes.quoted) + 1 =
      ((db.pullKeys remote me ns).map fun key => sizes.quoted key + 1).sum := by
    rw [commaSeparated_add_one (by simpa using hkeys), List.map_map]
    rfl
  have hmap : commaSeparated ((addKeys [] (db.pullKeys remote me ns)).map fun key =>
        sizes.quoted key + 1 +
          (toString (getReplicatedPullCursor db.cursors remote ns key)).length) + 1 =
      ((addKeys [] (db.pullKeys remote me ns)).map fun key =>
        sizes.quoted key + (toString (getReplicatedPullCursor db.cursors remote ns key)).length
          + 2).sum := by
    rw [commaSeparated_add_one (by simpa using hdistinct), List.map_map]
    congr 2
    funext key
    simp only [Function.comp_apply]
    omega
  have hopen : "\x7b\"v\":1,\"namespace\":".length + ",\"keys\":[".length +
    "],\"cursors\":\x7b".length +
      "\x7d\x7d".length = 43 := rfl
  unfold ReplicaSizes.request pullBytes
  rw [List.map_map]
  rw [← hlist, ← hmap]
  have hcolon : ":".length = 1 := rfl
  simp only [Function.comp_def, hcolon]
  omega

-- -------- Acceptance

/-- The request fits its frame, and no peer refuses it: one whose records can be sent answers it to
the end. -/
def ReplicaPullRequest.Accepted (sizes : ReplicaSizes) (req : ReplicaPullRequest) : Prop :=
  sizes.request req ≤ maxReplicaReqBytes ∧
    ∀ (server : ReplicaStore) (blob : ReplicaNamespace → String → Bytes),
      (∀ key ∈ req.keys, ∀ frame, server.serveKey blob req key = some frame → frame.fits sizes) →
      (server.serveReplicaStoreP2P sizes blob req).ended = true

theorem accepted_iff {sizes : ReplicaSizes} {req : ReplicaPullRequest} :
    req.Accepted sizes ↔
      sizes.request req ≤ maxReplicaReqBytes ∧ req.keys.length ≤ maxPullKeys req.ns := by
  unfold ReplicaPullRequest.Accepted serveReplicaStoreP2P
  refine and_congr_right fun _ => ⟨fun h => ?_, fun hkeys server blob hfits => ?_⟩
  · by_contra hkeys
    have hempty := h {} (fun _ _ => []) fun key _ frame hframe => by
      simp [serveKey, getReplicatedRecord, Table.get] at hframe
    rw [if_pos (not_le.mp hkeys)] at hempty
    cases hempty
  · rw [if_neg (not_lt.mpr hkeys)]
    refine List.all_eq_true.mpr fun frame hframe => ?_
    obtain ⟨key, hkey, hserve⟩ := List.mem_filterMap.mp hframe
    exact hfits key hkey frame hserve

theorem pullKeys_length_iff {db : ReplicaStore} {remote me : String} :
    (∀ ns, (db.pullKeys remote me ns).length ≤ maxPullKeys ns) ↔
      ((db.directory.listKnownProfilePeerIDs me 256).toFinset.erase remote).card < 256 ∧
        db.groupRoleKeys.toFinset.card ≤ 512 := by
  have hprofiles : (db.pullKeys remote me .userProfile).length =
      ((db.directory.listKnownProfilePeerIDs me 256).toFinset.erase remote).card + 1 :=
    length_addKeys_singleton
  have hroles : (db.pullKeys remote me .groupRole).length = db.groupRoleKeys.toFinset.card := by
    simp [pullKeys, length_addKeys]
  constructor
  · intro h
    have hp := h .userProfile
    rw [hprofiles] at hp
    exact ⟨hp, hroles ▸ h .groupRole⟩
  rintro ⟨hp, hr⟩ ns
  cases ns with
  | userProfile => exact hprofiles ▸ hp
  | groupAvatar => exact length_listJoinedGroupChatIDs
  | groupRole => exact hroles ▸ hr
  | groupInvitePolicy => exact length_listJoinedGroupChatIDs

theorem requests_accepted_iff {sizes : ReplicaSizes} {db : ReplicaStore} {remote me : String} :
    (∀ ns req, db.buildPullRequest remote me ns = some req → req.Accepted sizes) ↔
      PullLimits sizes db remote me := by
  constructor
  · intro h
    have hlength : ∀ ns, (db.pullKeys remote me ns).length ≤ maxPullKeys ns := by
      intro ns
      by_cases hkeys : db.pullKeys remote me ns = []
      · rw [hkeys]
        exact Nat.zero_le _
      obtain ⟨req, hreq⟩ := buildPullRequest_of_keys hkeys
      obtain ⟨-, hle⟩ := accepted_iff.mp (h ns req hreq)
      obtain ⟨-, rfl⟩ := buildPullRequest_some hreq
      exact hle
    obtain ⟨hprofiles, hroles⟩ := pullKeys_length_iff.mp hlength
    refine ⟨hprofiles, hroles, fun ns hkeys => ?_⟩
    obtain ⟨req, hreq⟩ := buildPullRequest_of_keys hkeys
    rw [← request_size hreq]
    exact (h ns req hreq).1
  · intro h ns req hreq
    refine accepted_iff.mpr ⟨?_, ?_⟩
    · rw [request_size hreq]
      exact h.bytes ns (buildPullRequest_some hreq).1
    · obtain ⟨-, rfl⟩ := buildPullRequest_some hreq
      exact pullKeys_length_iff.mpr ⟨h.profiles, h.roles⟩ ns

-- -------- Pulls

variable {node : ReplicaNode} {sizes : ReplicaSizes} {remote : String}

theorem pullRecord_ok {ns : ReplicaNamespace} {frame : ReplicaFrame}
    {env : ReplicaOp → ReplicaWorld} {s : ReplicaState} (hworks : ∀ op, (env op).dbWorks = true) :
    (pullRecord node remote ns frame).Ensures (replicaMachine node) env
      (fun r _ => r = .ok ()) s := by
  have hcursor : ∀ (cursor : ReplicatedPullCursor) (s : ReplicaState),
      (request (.upsertReplicatedPullCursor cursor)).Ensures (replicaMachine node) env
        (fun r _ => r = .ok ()) s := by
    intro cursor s
    refine ensures_request _ fun r s' hop => ?_
    simp only [replicaMachine, ReplicaState.tryWrite, hworks] at hop
    cases hop
    rfl
  unfold pullRecord
  split
  · exact Program.ensures_pure rfl
  refine Program.Ensures.bind (Program.ensures_iff.mpr fun r s' _ => ?_)
  split
  · exact hcursor _ _
  · exact hcursor _ _
  · exact Program.ensures_pure rfl

theorem pullFrames_ok {ns : ReplicaNamespace} {frames : List ReplicaFrame}
    {env : Nat → ReplicaOp → ReplicaWorld} {s : ReplicaState}
    (hworks : ∀ i op, (env i op).dbWorks = true) :
    (pullFrames node remote ns env frames s).1 = .ok () := by
  induction frames generalizing s env with
  | nil => rfl
  | cons frame rest ih =>
    unfold pullFrames
    split
    · exact ih fun i => hworks (i + 1)
    next err s' hexec =>
      have := Program.ensures_iff.mp (pullRecord_ok (hworks 0)) _ _ hexec
      cases this
    · rfl

-- -------- What a pull leaves of the later requests

/-- The columns that the keys of groups and roles are collected from. -/
def ReplicaStore.roll (db : ReplicaStore) :
    List (String × String × Lifecycle) × List (String × String × Lifecycle) :=
  (db.groups.map fun group => (group.groupID, group.groupType, group.lifecycle),
    db.members.map fun row => (row.groupID, row.peerID, row.status))

theorem listJoinedGroupChatIDs_roll (db : ReplicaStore) (limit : Nat) :
    db.listJoinedGroupChatIDs limit =
      (((db.roll.1.filter fun g => g.2.1 = "group" ∧ g.2.2 = .active).take limit).map
        fun g => trimSpace g.1).filter (· ≠ "") := by
  simp [listJoinedGroupChatIDs, roll, List.filter_map, List.map_take, Function.comp_def]

theorem groupRoleKeys_roll (db : ReplicaStore) :
    db.groupRoleKeys = ((db.listJoinedGroupChatIDs 256).flatMap fun groupID =>
      (db.roll.2.filter fun row => row.1 = groupID ∧ row.2.1 ≠ "" ∧ row.2.2 = .active).map
        fun row => groupRoleRecordKey groupID row.2.1).filter (· ≠ "|") := by
  simp [groupRoleKeys, roll, List.filter_map, Function.comp_def]

theorem updateGroup_roll (db : ReplicaStore) (groupID : String) {f : ReplicaGroup → ReplicaGroup}
    (h : ∀ g, (f g).groupID = g.groupID ∧ (f g).groupType = g.groupType ∧
      (f g).lifecycle = g.lifecycle) : (db.updateGroup groupID f).roll = db.roll := by
  refine congrArg (·, _) ?_
  rw [updateGroup, List.map_map]
  refine List.map_congr_left fun g _ => ?_
  simp only [Function.comp_apply]
  split
  · simp [h g]
  · rfl

theorem setGroupMemberRole_roll {db db' : ReplicaStore}
    (h : db.setGroupMemberRole groupID peerID role = .ok db') : db'.roll = db.roll := by
  obtain ⟨_, -, h⟩ := Fallible.bind_ok h
  obtain ⟨_, -, h⟩ := Fallible.bind_ok h
  obtain ⟨_, -, h⟩ := Fallible.bind_ok h
  obtain ⟨_, -, h⟩ := Fallible.bind_ok h
  obtain ⟨_, -, h⟩ := Fallible.bind_ok h
  cases h
  refine congrArg (_, ·) ?_
  rw [List.map_map]
  refine List.map_congr_left fun row _ => ?_
  simp only [Function.comp_apply]
  split <;> rfl

theorem setGroupInvitePolicy_roll {db db' : ReplicaStore}
    (h : db.setGroupInvitePolicy groupID policy = .ok db') : db'.roll = db.roll := by
  obtain ⟨_, -, h⟩ := Fallible.bind_ok h
  obtain ⟨_, -, h⟩ := Fallible.bind_ok h
  obtain ⟨_, -, h⟩ := Fallible.bind_ok h
  cases h
  exact updateGroup_roll db _ fun _ => ⟨rfl, rfl, rfl⟩

theorem replicaMachine_roll {w : ReplicaWorld} {op : ReplicaOp} {r : op.Reply} {s s' : ReplicaState}
    (h : replicaMachine node w op s = some (r, s')) : s'.db.roll = s.db.roll := by
  have hwrite {x : Except ReplicaError ReplicaStore} {r : Except ReplicaError Unit}
      (hx : ∀ db, x = .ok db → db.roll = s.db.roll) (h : some (s.tryWrite w x) = some (r, s')) :
      s'.db.roll = s.db.roll := by
    obtain ⟨db, hdb, -, rfl⟩ | ⟨rfl, -⟩ := ReplicaState.tryWrite_eq (Option.some.inj h)
    · exact hx db hdb
    · rfl
  have hrecord {x : Except ReplicaError (List ReplicatedRecordRow)} {r : Except ReplicaError Unit}
      (h : some (s.tryWriteRecord w x) = some (r, s')) : s'.db.roll = s.db.roll := by
    obtain ⟨_, -, -, rfl⟩ | ⟨rfl, -⟩ := ReplicaState.tryWriteRecord_eq (Option.some.inj h)
    · rfl
    · rfl
  have hprofile {row : LocalProfileRow} {r : Except ReplicaError Unit}
      (h : some (s.tryWriteProfile w row) = some (r, s')) : s'.db.roll = s.db.roll := by
    unfold ReplicaState.tryWriteProfile at h
    split at h <;> cases h <;> rfl
  cases op with
  | savePeerProfile =>
    cases h
    split <;> rfl
  | upsertPeerProfileWithKey | inferPeerKey | upsertPeerDirectorySigned
  | upsertReplicatedPullCursor =>
    exact hwrite (fun db hdb => by cases hdb; rfl) h
  | tryMergeReplicatedRecord | putReplicatedRecordForce => exact hrecord h
  | setGroupMemberRole => exact hwrite (fun _ => setGroupMemberRole_roll) h
  | setGroupInvitePolicy => exact hwrite (fun _ => setGroupInvitePolicy_roll) h
  | setGroupChatAvatar | clearGroupChatAvatar =>
    refine hwrite (fun db hdb => ?_) h
    cases hdb
    exact updateGroup_roll _ _ fun _ => ⟨rfl, rfl, rfl⟩
  | saveLocalProfileContacts | saveLocalProfileAvatar | clearLocalProfileAvatar => exact hprofile h
  | _ =>
    cases h
    rfl

/-- A pull of a namespace leaves what the requests of the others are built from. -/
structure LeavesRequests (remote : String) (ns : ReplicaNamespace) (s s' : ReplicaState) :
    Prop where
  roll : s'.db.roll = s.db.roll
  cursors : ∀ ns' key, ns' ≠ ns → getReplicatedPullCursor s'.db.cursors remote ns' key =
    getReplicatedPullCursor s.db.cursors remote ns' key

theorem LeavesRequests.trans (h : LeavesRequests remote ns s s')
    (h' : LeavesRequests remote ns s' s'') : LeavesRequests remote ns s s'' :=
  ⟨h'.roll.trans h.roll, fun ns' key hne => (h'.cursors ns' key hne).trans (h.cursors ns' key hne)⟩

theorem LeavesRequests.buildPullRequest (h : LeavesRequests remote ns s s') (hne : ns' ≠ ns)
    (hprofile : ns' ≠ .userProfile) :
    s'.db.buildPullRequest remote me ns' = s.db.buildPullRequest remote me ns' := by
  have hjoined (limit : Nat) : s'.db.listJoinedGroupChatIDs limit =
      s.db.listJoinedGroupChatIDs limit := by
    rw [listJoinedGroupChatIDs_roll, listJoinedGroupChatIDs_roll, h.roll]
  have hkeys : s'.db.pullKeys remote me ns' = s.db.pullKeys remote me ns' := by
    cases ns' with
    | userProfile => exact absurd rfl hprofile
    | groupAvatar | groupInvitePolicy => exact hjoined 256
    | groupRole => simp only [pullKeys, groupRoleKeys_roll, hjoined, h.roll]
  simp only [ReplicaStore.buildPullRequest, hkeys, h.cursors ns' _ hne]

theorem pullRecord_leaves {frame : ReplicaFrame} {env : ReplicaOp → ReplicaWorld}
    {s s' : ReplicaState}
    (h : (pullRecord node remote ns frame).exec (replicaMachine node) env s = some (r, s')) :
    LeavesRequests remote ns s s' := by
  refine ⟨Program.exec_invariant (M := replicaMachine node) (fun t => t.db.roll = s.db.roll)
    (fun _ _ _ _ _ ht hop => (replicaMachine_roll hop).trans ht) _ rfl h, ?_⟩
  -- only the last operation moves a cursor, and it is one of the namespace
  have hadvance (s₁ : ReplicaState) : (request (.upsertReplicatedPullCursor
      { remotePeerID := remote, ns, recordKey := frame.key,
        lastRevision := frame.revision })).Ensures
      (replicaMachine node) env (fun _ s' => ∀ ns' key, ns' ≠ ns →
        getReplicatedPullCursor s'.db.cursors remote ns' key =
          getReplicatedPullCursor s₁.db.cursors remote ns' key) s₁ := by
    refine ensures_request _ fun r s' hop ns' key hne => ?_
    obtain ⟨db, hdb, -, rfl⟩ | ⟨rfl, -⟩ := ReplicaState.tryWrite_eq (Option.some.inj hop)
    · cases hdb
      unfold getReplicatedPullCursor upsertReplicatedPullCursor
      rw [Table.get_upsert_of_ne _ fun _ h => h]
      exact fun heq => hne (Prod.mk.inj (Prod.mk.inj heq).2).1
    · rfl
  suffices hall : (pullRecord node remote ns frame).Ensures (replicaMachine node) env
      (fun _ s' => ∀ ns' key, ns' ≠ ns → getReplicatedPullCursor s'.db.cursors remote ns' key =
        getReplicatedPullCursor s.db.cursors remote ns' key) s from
    Program.ensures_iff.mp hall _ _ h
  unfold pullRecord
  split
  · exact Program.ensures_pure fun _ _ _ => rfl
  rename_i apply happly
  refine Program.Ensures.bind ((applies_applyPulled happly env s).run.mono ?_)
  rintro (err | ⟨⟩) s₁ happlied
  · cases err with
    | stale => exact happlied.1.cursors ▸ hadvance s₁
    | conflict | unknownPublicKey | other msg =>
      exact Program.ensures_pure fun _ _ _ => by rw [happlied.1.cursors]
  · exact happlied.1.cursors ▸ hadvance s₁

theorem pullFrames_leaves {frames : List ReplicaFrame} {env : Nat → ReplicaOp → ReplicaWorld}
    {s : ReplicaState} : LeavesRequests remote ns s (pullFrames node remote ns env frames s).2 := by
  induction frames generalizing s env with
  | nil => exact ⟨rfl, fun _ _ _ => rfl⟩
  | cons frame rest ih =>
    unfold pullFrames
    split
    next hexec => exact (pullRecord_leaves hexec).trans ih
    next hexec => exact pullRecord_leaves hexec
    · exact ⟨rfl, fun _ _ _ => rfl⟩

-- -------- The pull of the namespaces

section

variable {req : ReplicaPullRequest} {server : ReplicaStore}
  {blob : ReplicaNamespace → String → Bytes}
  {env : ReplicaNamespace → Nat → ReplicaOp → ReplicaWorld} {s s' : ReplicaState}

/-- The records that a peer has for the request fit their frames. -/
def ReplicaStore.Fits (server : ReplicaStore) (sizes : ReplicaSizes)
    (blob : ReplicaNamespace → String → Bytes) (req : ReplicaPullRequest) : Prop :=
  ∀ key ∈ req.keys, ∀ frame, server.serveKey blob req key = some frame → frame.fits sizes

theorem serveReplicaStoreP2P_ended :
    (server.serveReplicaStoreP2P sizes blob req).ended = true ↔
      req.keys.length ≤ maxPullKeys req.ns ∧ server.Fits sizes blob req := by
  unfold serveReplicaStoreP2P
  split
  next hmany => simp [not_le.mpr hmany]
  next hfew =>
    rw [and_iff_right (not_lt.mp hfew)]
    simp only [List.all_eq_true, List.mem_filterMap, forall_exists_index, and_imp, Fits]
    exact ⟨fun h key hkey frame => h frame key hkey, fun h frame key hkey => h key hkey frame⟩

theorem pullReplicaStoreRecords_ok_iff (hworks : ∀ ns i op, (env ns i op).dbWorks = true) :
    (pullReplicaStoreRecords node sizes env remote
      (server.serveReplicaStoreP2P sizes blob) req s).1 =
        .ok () ↔
      req.Accepted sizes ∧ server.Fits sizes blob req := by
  rw [accepted_iff, and_assoc, ← serveReplicaStoreP2P_ended]
  unfold pullReplicaStoreRecords
  split
  next hlarge => simp [not_le.mpr hlarge]
  rename_i hsize
  rw [and_iff_right (not_lt.mp hsize)]
  split
  next err s' hpull =>
    have hok : (pullFrames node remote req.ns (env req.ns)
        (server.serveReplicaStoreP2P sizes blob req).frames s).1 = .ok () :=
      pullFrames_ok (hworks req.ns)
    rw [hpull] at hok
    cases hok
  · split <;> simp_all

theorem pullReplicaStoreRecords_leaves (out : ReplicaPullRequest → ServedStream) :
    LeavesRequests remote req.ns s (pullReplicaStoreRecords node sizes env remote out req s).2 := by
  have hframes : LeavesRequests remote req.ns s
      (pullFrames node remote req.ns (env req.ns) (out req).frames s).2 := pullFrames_leaves
  unfold pullReplicaStoreRecords
  split
  · exact ⟨rfl, fun _ _ _ => rfl⟩
  split
  next hpull =>
    rw [hpull] at hframes
    exact hframes
  next hpull =>
    rw [hpull] at hframes
    exact hframes

/-- Profiles come first, so the request of each namespace is the one that the tables at the start
give. -/
theorem pullNamespaces_ok_iff (hworks : ∀ ns i op, (env ns i op).dbWorks = true)
    {order : List ReplicaNamespace}
    (horder : order.Pairwise fun ns ns' => ns' ≠ ns ∧ ns' ≠ .userProfile) :
    (pullNamespaces node sizes env remote (server.serveReplicaStoreP2P sizes blob) order s).1 =
        .ok () ↔
      ∀ ns ∈ order, ∀ req, s.db.buildPullRequest remote node.me ns = some req →
        req.Accepted sizes ∧ server.Fits sizes blob req := by
  induction order generalizing s with
  | nil => simp [pullNamespaces]
  | cons ns rest ih =>
    obtain ⟨hahead, hrest⟩ := List.pairwise_cons.mp horder
    rw [List.forall_mem_cons]
    unfold pullNamespaces
    cases hreq : s.db.buildPullRequest remote node.me ns with
    | none => simpa using ih hrest
    | some req =>
      obtain rfl : req.ns = ns := by rw [(buildPullRequest_some hreq).2]
      have hleaves : LeavesRequests remote req.ns s (pullReplicaStoreRecords node sizes env remote
          (server.serveReplicaStoreP2P sizes blob) req s).2 := pullReplicaStoreRecords_leaves _
      have hiff : (pullReplicaStoreRecords node sizes env remote
          (server.serveReplicaStoreP2P sizes blob) req s).1 = .ok () ↔
            req.Accepted sizes ∧ server.Fits sizes blob req := pullReplicaStoreRecords_ok_iff hworks
      simp only [Option.some.injEq, forall_eq', ← hiff]
      split
      next err s₁ hpull => simp [hpull]
      next s₁ hpull =>
        rw [hpull] at hleaves ⊢
        rw [ih hrest, and_iff_right rfl]
        refine forall₂_congr fun ns' hns' => ?_
        rw [hleaves.buildPullRequest (hahead ns' hns').1 (hahead ns' hns').2]

theorem pullNamespaces_refused
    (h : 256 ≤ ((s.db.directory.listKnownProfilePeerIDs node.me 256).toFinset.erase remote).card) :
    ∃ err, pullNamespaces node sizes env remote
      (server.serveReplicaStoreP2P sizes blob) pullOrder s = (.error err, s) := by
  have hkeys : s.db.pullKeys remote node.me .userProfile ≠ [] :=
    List.ne_nil_of_mem (mem_addKeys.mpr (.inl (List.mem_singleton_self remote)))
  obtain ⟨req, hreq⟩ := buildPullRequest_of_keys hkeys
  have hlength : 256 < req.keys.length ∧ req.ns = .userProfile := by
    obtain ⟨-, rfl⟩ := buildPullRequest_some hreq
    refine ⟨?_, rfl⟩
    have hcount : (s.db.pullKeys remote node.me .userProfile).length = _ := length_addKeys_singleton
    dsimp only
    omega
  obtain ⟨hlength, hns⟩ := hlength
  unfold pullOrder pullNamespaces
  simp only [hreq, pullReplicaStoreRecords, serveReplicaStoreP2P, hns, maxPullKeys,
    gt_iff_lt, if_pos hlength]
  by_cases hsize : maxReplicaReqBytes < sizes.request req
  · rw [if_pos hsize]
    exact ⟨_, rfl⟩
  · rw [if_neg hsize]
    exact ⟨_, rfl⟩

end

/-- All requests that are built from the tables are accepted iff the tables are within the limits. A
pull of the four namespaces from a peer with the same code goes through iff the tables are within
them before it begins, and each record the peer has for a request fits its frame. -/
theorem pull_requests_within_limits (sizes : ReplicaSizes) :
    (∀ (db : ReplicaStore) (remote me : String),
      (∀ ns req, db.buildPullRequest remote me ns = some req → req.Accepted sizes) ↔
        PullLimits sizes db remote me) ∧
    ∀ (node : ReplicaNode) (remote : String) (server : ReplicaStore)
      (blob : ReplicaNamespace → String → Bytes)
      (env : ReplicaNamespace → Nat → ReplicaOp → ReplicaWorld) (s : ReplicaState),
      (∀ ns i op, (env ns i op).dbWorks = true) →
      ((pullNamespaces node sizes env remote
        (server.serveReplicaStoreP2P sizes blob) pullOrder s).1 =
          .ok () ↔
        PullLimits sizes s.db remote node.me ∧
          ∀ ns req, s.db.buildPullRequest remote node.me ns = some req →
            server.Fits sizes blob req) := by
  refine ⟨fun db remote me => requests_accepted_iff, ?_⟩
  intro node remote server blob env s hworks
  rw [pullNamespaces_ok_iff hworks (by decide), ← requests_accepted_iff]
  have hall : ∀ ns, ns ∈ pullOrder := fun ns => by cases ns <;> decide
  exact ⟨fun h => ⟨fun ns req hreq => (h ns (hall ns) req hreq).1,
    fun ns req hreq => (h ns (hall ns) req hreq).2⟩,
    fun h ns _ req hreq => ⟨h.1 ns req hreq, h.2 ns req hreq⟩⟩

namespace CrowdReference

def plain : ReplicaSizes := ⟨fun text => text.length + 2, fun _ _ => 64⟩

def peerWith (bodyJSON : String) : ReplicaStore where
  records := [
    { ns := .userProfile, recordKey := "bob", ownerPeerID := "bob", revision := 1, bodyJSON
      bodyHash := "", signature := [1], signingPublicKeyHex := "" }]

theorem peerWith_fits (h : (stringBytes bodyJSON).length ≤ maxReplicaWireBytes)
    (req : ReplicaPullRequest) : (peerWith bodyJSON).Fits plain (fun _ _ => []) req := by
  intro key _ frame hserve
  simp only [serveKey] at hserve
  split at hserve
  · cases hserve
  obtain ⟨row, hrow, hserve⟩ := Option.bind_eq_some_iff.mp hserve
  obtain rfl := List.mem_singleton.mp (Table.mem_of_get hrow).1
  split at hserve
  · cases hserve
  · cases hserve
    simp [ReplicaFrame.fits, plain, h, maxReplicaMetaBytes, maxReplicaSigBytes, maxReplicaBlobBytes]

/-- A node with a group, a member of it and two known peers, that asks for all four namespaces. -/
def joined : ReplicaStore where
  directory :=
    [{ peerID := "bob", displayName := "Bob" }, { peerID := "carol", displayName := "C" }]
  groups := [{ groupID := "g" }]
  members := [{ groupID := "g", peerID := "bob", role := .member, status := .active }]

theorem joined_limits : PullLimits plain joined "bob" "alice" where
  profiles := by decide +kernel
  roles := by decide +kernel
  bytes ns _ := by cases ns <;> decide +kernel

end CrowdReference

open CrowdReference PullReference in
theorem joined_node_pulls :
    (∀ ns, (joined.buildPullRequest "bob" alice.me ns).isSome) ∧
      (pullNamespaces alice plain (fun _ _ _ => {}) "bob"
        ((peerWith "1").serveReplicaStoreP2P plain fun _ _ => []) pullOrder { db := joined }).1 =
          .ok () := by
  refine ⟨fun ns => by cases ns <;> decide +kernel,
    ((pull_requests_within_limits plain).2 alice "bob"
    (peerWith "1") (fun _ _ => []) (fun _ _ _ => {}) { db := joined } fun _ _ _ => rfl).mpr
    ⟨joined_limits, fun _ req _ => peerWith_fits (by decide +kernel) req⟩⟩

namespace CrowdReference

def name (i : Nat) : String := String.ofList (List.replicate (i + 1) 'a')

def crowd : ReplicaStore where
  directory := (List.range 256).map fun i => { peerID := name i, displayName := "peer" }

theorem name_inj {i j : Nat} (h : name i = name j) : i = j := by
  have := congrArg List.length (String.ofList_inj.mp h)
  simpa using this

theorem trimSpace_name (i : Nat) : trimSpace (name i) = name i := by
  have hkept : (List.replicate (i + 1) 'a').dropWhile isSpace = List.replicate (i + 1) 'a' :=
    List.dropWhile_cons_of_neg (by decide)
  unfold trimSpace name
  rw [String.toList_ofList, hkept, List.reverse_replicate, hkept, List.reverse_replicate]

theorem name_ne {i : Nat} {text : String} (h : 'a' ∉ text.toList) : name i ≠ text := by
  rintro rfl
  simp [name, List.replicate_succ] at h

theorem listed : crowd.directory.listKnownProfilePeerIDs "me" 256 = (List.range 256).map name := by
  have htext : ∀ i, hasText (name i) = true := fun i => by simp [hasText, name, List.replicate_succ]
  have hme : ∀ i, name i ≠ trimSpace "me" := fun i => name_ne (by decide +kernel)
  have hblank : ∀ key ∈ (List.range 256).map name, decide (key ≠ "") = true := by
    intro key hkey
    obtain ⟨i, -, rfl⟩ := List.mem_map.mp hkey
    exact decide_eq_true (name_ne (by decide))
  have hrows : crowd.directory.filter
      (fun row => hasText row.peerID ∧ row.peerID ≠ trimSpace "me") = crowd.directory := by
    refine List.filter_eq_self.mpr fun row hrow => ?_
    obtain ⟨i, -, rfl⟩ := List.mem_map.mp hrow
    simp [htext, hme]
  unfold PeerDirectory.listKnownProfilePeerIDs
  dsimp only
  rw [hrows, List.take_of_length_le (by simp [crowd]), crowd, List.map_map]
  simp only [Function.comp_def, trimSpace_name]
  exact List.filter_eq_self.mpr hblank

theorem card_listed :
    ((crowd.directory.listKnownProfilePeerIDs "me" 256).toFinset.erase "remote").card = 256 := by
  have hremote : "remote" ∉ ((List.range 256).map name).toFinset := by
    simp only [List.mem_toFinset, List.mem_map, not_exists, not_and]
    rintro i -
    exact name_ne (by decide)
  have hnodup : ((List.range 256).map name).Nodup := List.nodup_range.map fun _ _ h => name_inj h
  rw [listed, Finset.erase_eq_of_notMem hremote, List.toFinset_card_of_nodup hnodup]
  simp

theorem exists_long_text (limit : Nat) : ∃ text : String, limit < (stringBytes text).length := by
  refine ⟨String.ofList (List.replicate (limit + 1) 'a'), ?_⟩
  have hchar : 'a'.utf8Size = 1 := by decide
  simp [stringBytes, List.utf8Encode, hchar]

end CrowdReference

open CrowdReference in
/-- A node that knows 256 peers asks another one for 257 profiles. It is refused, and asks for
nothing else. One that is within the limits gets no further with a peer whose profile is longer than
a frame. -/
theorem crowd_never_pulled :
    (∀ sizes, ¬ PullLimits sizes crowd "remote" "me") ∧
      (∀ (node : ReplicaNode) (sizes : ReplicaSizes)
        (env : ReplicaNamespace → Nat → ReplicaOp → ReplicaWorld)
        (server : ReplicaStore) (blob : ReplicaNamespace → String → Bytes) (s : ReplicaState),
        ∃ err, pullNamespaces { node with me := "me" } sizes env "remote"
          (server.serveReplicaStoreP2P sizes blob) pullOrder { s with db := crowd } =
            (.error err, { s with db := crowd })) ∧
      PullLimits plain joined "bob" "alice" ∧
      ∃ bodyJSON, ∀ node : ReplicaNode,
        (pullNamespaces { node with me := "alice" } plain (fun _ _ _ => {}) "bob"
          ((peerWith bodyJSON).serveReplicaStoreP2P plain fun _ _ => []) pullOrder
            { db := joined }).1 ≠ .ok () := by
  obtain ⟨text, hlong⟩ := exists_long_text maxReplicaWireBytes
  refine ⟨fun sizes h => ?_, fun _ _ _ _ _ _ => pullNamespaces_refused card_listed.ge,
    joined_limits,
    text, fun node hpulled => ?_⟩
  · have := h.profiles
    rw [card_listed] at this
    exact lt_irrefl _ this
  obtain ⟨req, hreq⟩ : ∃ req, joined.buildPullRequest "bob" "alice" .userProfile = some req :=
    buildPullRequest_of_keys (by decide +kernel)
  have hfits := ((pullNamespaces_ok_iff (fun _ _ _ => rfl) (by decide)).mp hpulled .userProfile
    (by decide) req hreq).2
  obtain ⟨-, rfl⟩ := buildPullRequest_some hreq
  have hframe := hfits "bob" (by decide +kernel) ⟨"bob", 1, ⟨text, [1]⟩, []⟩ rfl
  simp only [ReplicaFrame.fits, decide_eq_true_eq] at hframe
  exact absurd hframe.2.1 (not_le.mpr hlong)

end GroupCoordination
