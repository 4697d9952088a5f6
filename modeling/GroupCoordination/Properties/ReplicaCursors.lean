import GroupCoordination.Model.Reference
import GroupCoordination.Properties.ReplicaSteps

/-!
# Cursors of the pulls

A pull applies what the signed body says, but remembers what the header of the frame says. If the
two agree, no cursor ever gets ahead of the record that is stored, so a replica that has a later
revision still sends it.
-/

namespace GroupCoordination

open Fallible ReplicaStore

open Program (Failing attempt observe check)

variable {node : ReplicaNode} {ns : ReplicaNamespace} {text : SignedText}

-- -------- Checks

theorem notStale_signerKey {existing : PeerDirectoryRow} : NotStale (signerKey existing) := by
  unfold signerKey
  split
  · split
    · exact notStale_ok
    · exact notStale_error (other_ne_stale _)
  · exact notStale_error (other_ne_stale _)

theorem notStale_readSigned {codec : WireCodec α} {version : α → Int} {key : Bytes} :
    NotStale (node.readSigned codec version key text) := by
  refine NotStale.bind ?_ fun _ => NotStale.bind ?_ fun _ => ?_
  · exact NotStale.bind (notStale_require (other_ne_stale _)) fun _ =>
      notStale_require (other_ne_stale _)
  · cases codec.decode text.wireJSON with
    | none => exact notStale_error (other_ne_stale _)
    | some w => exact notStale_ok
  · exact .required notStale_ok

theorem readSigned_decodes {codec : WireCodec α} {version : α → Int} {key : Bytes} {w : α}
    (h : node.readSigned codec version key text = .ok w) : codec.decode text.wireJSON = some w := by
  obtain ⟨_, -, h⟩ := bind_ok h
  obtain ⟨w', hdecode, h⟩ := bind_ok h
  obtain ⟨_, -, h⟩ := bind_ok h
  cases h
  cases hw : codec.decode text.wireJSON with
  | none => simp [hw] at hdecode
  | some w' => simpa [hw] using hdecode

theorem notStale_validateAvatarImageBytes {data : Bytes} :
    NotStale (validateAvatarImageBytes data) := by
  refine .required ?_
  refine .required ?_
  split
  · exact notStale_ok
  split
  · exact notStale_ok
  split
  · exact notStale_ok
  · exact notStale_error (other_ne_stale _)

theorem notStale_checkAvatarBlob {avatarHash avatarMime : String} {avatarBlob : Bytes} :
    NotStale (node.checkAvatarBlob avatarHash avatarMime avatarBlob) := by
  unfold ReplicaNode.checkAvatarBlob
  split
  · exact notStale_ok
  refine .required ?_
  refine .required ?_
  exact NotStale.bind notStale_validateAvatarImageBytes fun _ => notStale_require (other_ne_stale _)

-- -------- Pushes

def ReplicaNode.describes (node : ReplicaNode) (text : SignedText) :
    ReplicaNamespace → Option (String × Int)
  | .userProfile => (node.codec.profile.decode text.wireJSON).map fun w => (w.peerID, w.revision)
  | .groupAvatar =>
    (node.codec.groupAvatar.decode text.wireJSON).map fun w => (w.groupID, w.revision)
  | .groupRole => (node.codec.groupRole.decode text.wireJSON).map fun w =>
    (groupRoleRecordKey w.groupID w.targetPeerID, w.revision)
  | .groupInvitePolicy => (node.codec.groupInvitePolicy.decode text.wireJSON).map fun w =>
    (w.groupID, w.revision)

structure Later (s s' : ReplicaState) : Prop where
  cursors : s'.db.cursors = s.db.cursors
  revision : ∀ ns key, recordRevision s.db.records ns key ≤ recordRevision s'.db.records ns key

theorem SameRecords.later {s s' : ReplicaState} (h : SameRecords s s') : Later s s' where
  cursors := h.2
  revision ns key := by rw [h.1]

theorem Later.trans {s s' s'' : ReplicaState} (h : Later s s') (h' : Later s' s'') :
    Later s s'' where
  cursors := h'.cursors.trans h.cursors
  revision ns key := (h.revision ns key).trans (h'.revision ns key)

def StoredRevision (node : ReplicaNode) (ns : ReplicaNamespace) (text : SignedText)
    (s : ReplicaState) : Prop :=
  ∃ key revision, node.describes text ns = some (key, revision) ∧
    revision ≤ recordRevision s.db.records ns key

def AppliesText (node : ReplicaNode) (ns : ReplicaNamespace) (text : SignedText)
    (t : ReplicaF Unit) : Prop :=
  ∀ env s, Failing.Ensures (replicaMachine node) env t s
    (fun _ s' => Later s s' ∧ StoredRevision node ns text s')
    fun err s' => Later s s' ∧ (err = .stale → StoredRevision node ns text s')

theorem Silent.applies {t : ReplicaF α} {f : α → ReplicaF Unit} (ht : Silent node t)
    (hf : ∀ a, AppliesText node ns text (f a)) : AppliesText node ns text (t >>= f) := by
  intro env s
  refine Failing.Ensures.bind ((ht env s).mono (fun a s' hs => ?_) fun err s' h => ?_)
  · refine (hf a env s').mono (fun _ _ h => ?_) fun _ _ h => ?_
    · exact ⟨hs.later.trans h.1, h.2⟩
    · exact ⟨hs.later.trans h.1, h.2⟩
  · exact ⟨h.1.later, fun hstale => absurd hstale h.2⟩

theorem applies_check {cond : Prop} {_ : Decidable cond} {err : ReplicaError}
    {f : Unit → ReplicaF Unit} (h : err ≠ .stale) (hf : AppliesText node ns text (f ())) :
    AppliesText node ns text (check cond err >>= f) := by
  intro env s
  refine Failing.Ensures.bind (Failing.ensures_check (fun _ => hf env s) fun _ => ?_)
  exact ⟨(SameRecords.refl s).later, fun hstale => absurd hstale h⟩

theorem applies_of_pure {x : Except ReplicaError α} {f : α → ReplicaF Unit} (hx : NotStale x)
    (hf : ∀ a, x = .ok a → AppliesText node ns text (f a)) :
    AppliesText node ns text (attempt (pure x) >>= f) := by
  intro env s
  refine Failing.Ensures.bind
    (Failing.ensures_attempt_pure (fun a ha => hf a ha env s) fun err herr => ?_)
  exact ⟨(SameRecords.refl s).later, fun hstale => absurd hstale (hx err herr)⟩

theorem applies_of_merge (row : ReplicatedRecordRow) {t : ReplicaF Unit} (ht : Silent node t)
    (hrow : ∃ key, node.describes text row.ns = some (key, row.revision) ∧
      trimSpace key = trimSpace row.recordKey) :
    AppliesText node row.ns text
      (attempt (request (.tryMergeReplicatedRecord row)) >>= fun _ => t) := by
  intro env s
  obtain ⟨key, hdescribes, hkey⟩ := hrow
  have hstored : ∀ s', row.revision ≤ recordRevision s'.db.records row.ns row.recordKey →
      StoredRevision node row.ns text s' := by
    intro s' hle
    refine ⟨key, row.revision, hdescribes, ?_⟩
    rwa [← recordRevision_trim, hkey, recordRevision_trim]
  refine Failing.Ensures.bind
    (Failing.ensures_attempt (ensures_request (.tryMergeReplicatedRecord row) fun r s' hop => ?_))
  have houtcome : MergeOutcome s.db.records row
      (tryMergeReplicatedRecord node.hash s.db.records row) :=
    tryMergeReplicatedRecord_cases
  rcases ReplicaState.tryWriteRecord_eq (Option.some.inj hop) with
    ⟨records, hmerge, hr, rfl⟩ | ⟨rfl, err, rfl, hmerge | rfl⟩
  · rw [hmerge] at houtcome
    obtain ⟨hself, hmono⟩ := houtcome.revision_le
    have hlater : Later s { s with db := { s.db with records } } := ⟨rfl, hmono⟩
    rcases hr with rfl | rfl
    · refine (ht env _).mono (fun _ s' h => ?_) fun err s' h => ?_
      · refine ⟨hlater.trans h.later, hstored s' (hself.trans_eq ?_)⟩
        rw [h.1]
      · exact ⟨hlater.trans h.1.later, fun hstale => absurd hstale h.2⟩
    · exact ⟨hlater, nofun⟩
  · rw [hmerge] at houtcome
    refine ⟨(SameRecords.refl _).later, ?_⟩
    rintro rfl
    exact hstored _ houtcome.revision_of_stale
  · exact ⟨(SameRecords.refl _).later, nofun⟩

theorem silent_ensureSessionActive : Silent node (attempt (request .ensureSessionActive)) := by
  refine silent_of_read fun env s => ⟨_, rfl, ?_⟩
  split
  · exact notStale_ok
  · exact notStale_error (other_ne_stale _)

theorem silent_getPeerDirectoryProfile {peerID : String} :
    Silent node (attempt (request (.getPeerDirectoryProfile peerID))) := by
  refine silent_of_read fun env s => ⟨_, rfl, NotStale.query ?_⟩
  split
  · exact notStale_ok
  · exact notStale_error (other_ne_stale _)

theorem silent_saveAvatarBlob {avatarBlob : Bytes} : Silent node (saveAvatarBlob avatarBlob) := by
  unfold saveAvatarBlob
  split
  · exact silent_pure
  · exact silent_of_read fun env s => ⟨_, rfl, notStale_ok.query⟩

theorem silent_mergePeerDirectoryProfile {peerID : String} {u : ProfileUpdate} {signature : Bytes} :
    Silent node (mergePeerDirectoryProfile peerID u signature) := by
  unfold mergePeerDirectoryProfile
  dsimp only
  refine silent_check_bind (other_ne_stale _) (silent_check_bind (other_ne_stale _) ?_)
  refine silent_getPeerDirectoryProfile.bind fun existing => silent_check_bind (other_ne_stale _) ?_
  split
  · exact silent_pure
  refine silent_of_write fun env s => ⟨_, _, rfl, notStale_ok, ?_⟩
  intro db h
  obtain rfl := Except.ok.inj h
  exact ⟨rfl, rfl⟩

theorem applies_profile {peerID : String} {avatarBlob : Bytes} :
    AppliesText node .userProfile text
      (applySignedRemoteProfilePush node peerID text avatarBlob) := by
  unfold applySignedRemoteProfilePush
  dsimp only
  refine silent_ensureSessionActive.applies fun _ => applies_check (other_ne_stale _) ?_
  refine silent_getPeerDirectoryProfile.applies fun existing => applies_check nofun ?_
  refine applies_of_pure notStale_signerKey fun key _ => applies_of_pure ?_ fun w hcheck => ?_
  · refine NotStale.bind notStale_readSigned fun w => ?_
    refine .required ?_
    refine .required ?_
    exact NotStale.bind notStale_checkAvatarBlob fun _ => notStale_ok
  obtain ⟨w', hread, hcheck⟩ := bind_ok hcheck
  obtain ⟨_, hpeer, hcheck⟩ := bind_ok hcheck
  obtain ⟨_, -, hcheck⟩ := bind_ok hcheck
  obtain ⟨_, -, hcheck⟩ := bind_ok hcheck
  cases hcheck
  refine silent_saveAvatarBlob.applies fun _ => ?_
  refine applies_of_merge (node.record .userProfile _ _ _ _ _) silent_mergePeerDirectoryProfile
    ⟨w.peerID, ?_, ?_⟩
  · simp [ReplicaNode.record, ReplicaNode.describes, readSigned_decodes hread]
  · exact (require_ok hpeer).trans (trimSpace_idem _).symm

theorem notStale_getGroupMember {db : ReplicaStore} {groupID peerID : String} :
    NotStale (db.getGroupMember groupID peerID) := by
  unfold getGroupMember
  split
  · exact notStale_ok
  · exact notStale_error (other_ne_stale _)

theorem silent_setGroupMemberRole {groupID peerID : String} {role : GroupMemberRole} :
    Silent node (attempt (request (.setGroupMemberRole groupID peerID role))) := by
  refine silent_of_write fun env s => ⟨_, _, rfl, ?_, ?_⟩
  · refine .required ?_
    refine .required ?_
    refine NotStale.bind notStale_getGroupMember fun _ => ?_
    refine .required ?_
    exact .required notStale_ok
  intro db h
  obtain ⟨_, -, h⟩ := bind_ok h
  obtain ⟨_, -, h⟩ := bind_ok h
  obtain ⟨_, -, h⟩ := bind_ok h
  obtain ⟨_, -, h⟩ := bind_ok h
  obtain ⟨_, -, h⟩ := bind_ok h
  cases h
  exact ⟨rfl, rfl⟩

theorem applies_groupRole {actorPeerID : String} :
    AppliesText node .groupRole text (applySignedRemoteGroupRolePush node actorPeerID text) := by
  unfold applySignedRemoteGroupRolePush
  dsimp only
  refine applies_check (other_ne_stale _) <|
    silent_getPeerDirectoryProfile.applies fun profile => ?_
  refine applies_of_pure notStale_signerKey fun key _ => applies_of_pure ?_ fun w hcheck => ?_
  · refine NotStale.bind notStale_readSigned fun w => ?_
    exact .required notStale_ok
  obtain ⟨w', hread, hcheck⟩ := bind_ok hcheck
  obtain ⟨_, -, hcheck⟩ := bind_ok hcheck
  cases hcheck
  refine Silent.applies (silent_of_read fun env s => ⟨_, rfl, notStale_ok.query⟩) fun creator => ?_
  refine applies_check (other_ne_stale _) ?_
  refine Silent.applies ?_ fun target => applies_check (other_ne_stale _) ?_
  · intro env s
    refine Failing.ensures_observe (ensures_request (.getGroupMember _ _) fun r s' hop => ?_)
    obtain ⟨rfl, -⟩ := ReplicaState.query_eq (Option.some.inj hop)
    exact SameRecords.refl _
  refine applies_of_merge (node.record .groupRole _ _ _ _ _) ?_ ⟨_, ?_, rfl⟩
  · split
    · exact silent_setGroupMemberRole
    · exact silent_pure
  · simp [ReplicaNode.record, ReplicaNode.describes, readSigned_decodes hread]

theorem notStale_normalizeGroupInvitePolicy {policy : String} :
    NotStale (normalizeGroupInvitePolicy policy) := by
  unfold normalizeGroupInvitePolicy
  dsimp only
  split
  · exact notStale_ok
  split
  · exact notStale_ok
  · exact notStale_error (other_ne_stale _)

theorem silent_setGroupInvitePolicy {groupID policy : String} :
    Silent node (attempt (request (.setGroupInvitePolicy groupID policy))) := by
  refine silent_of_write fun env s => ⟨_, _, rfl, ?_, ?_⟩
  · refine .required ?_
    refine NotStale.bind notStale_normalizeGroupInvitePolicy fun _ => ?_
    exact .required notStale_ok
  intro db h
  obtain ⟨_, -, h⟩ := bind_ok h
  obtain ⟨_, -, h⟩ := bind_ok h
  obtain ⟨_, -, h⟩ := bind_ok h
  cases h
  exact ⟨rfl, rfl⟩

theorem silent_isActiveGroupAuthorizedPeer {groupID peerID : String} :
    Silent node (attempt (request (.isActiveGroupAuthorizedPeer groupID peerID))) := by
  refine silent_of_read fun env s => ⟨_, rfl, NotStale.query ?_⟩
  unfold isActiveGroupAuthorizedPeer
  dsimp only
  split
  · exact notStale_ok
  refine NotStale.bind notStale_getGroupMember fun row => ?_
  split
  · exact notStale_ok
  · exact notStale_ok

theorem applies_groupInvitePolicy {actorPeerID : String} :
    AppliesText node .groupInvitePolicy text
      (applySignedRemoteGroupInvitePolicyPush node actorPeerID text) := by
  unfold applySignedRemoteGroupInvitePolicyPush
  dsimp only
  refine applies_check (other_ne_stale _) <|
    silent_getPeerDirectoryProfile.applies fun profile => ?_
  refine applies_of_pure notStale_signerKey fun key _ => applies_of_pure ?_ fun w hcheck => ?_
  · refine NotStale.bind notStale_readSigned fun w => ?_
    refine .required ?_
    exact NotStale.bind notStale_normalizeGroupInvitePolicy fun _ => notStale_ok
  obtain ⟨w', hread, hcheck⟩ := bind_ok hcheck
  obtain ⟨_, -, hcheck⟩ := bind_ok hcheck
  obtain ⟨_, -, hcheck⟩ := bind_ok hcheck
  cases hcheck
  refine silent_isActiveGroupAuthorizedPeer.applies fun _ => applies_check (other_ne_stale _) ?_
  refine applies_of_merge (node.record .groupInvitePolicy _ _ _ _ _) silent_setGroupInvitePolicy
    ⟨w.groupID, ?_, (trimSpace_idem _).symm⟩
  simp [ReplicaNode.record, ReplicaNode.describes, readSigned_decodes hread]

theorem applies_groupAvatar {signerPeerID : String} {avatarBlob : Bytes} :
    AppliesText node .groupAvatar text
      (applySignedRemoteGroupAvatarPush node signerPeerID text avatarBlob) := by
  unfold applySignedRemoteGroupAvatarPush
  dsimp only
  refine silent_ensureSessionActive.applies fun _ => applies_check (other_ne_stale _) ?_
  refine silent_getPeerDirectoryProfile.applies fun existing => applies_check nofun ?_
  refine applies_of_pure notStale_signerKey fun key _ => applies_of_pure ?_ fun w hcheck => ?_
  · refine NotStale.bind notStale_readSigned fun w => ?_
    refine .required ?_
    exact .required notStale_ok
  obtain ⟨w', hread, hcheck⟩ := bind_ok hcheck
  obtain ⟨_, -, hcheck⟩ := bind_ok hcheck
  obtain ⟨_, -, hcheck⟩ := bind_ok hcheck
  cases hcheck
  refine Silent.applies (silent_of_read fun env s => ⟨_, rfl, notStale_ok.query⟩) fun has => ?_
  refine applies_check (other_ne_stale _) <| silent_isActiveGroupAuthorizedPeer.applies fun _ => ?_
  refine applies_check (other_ne_stale _) ?_
  refine (silent_attempt_pure notStale_checkAvatarBlob).applies fun _ => ?_
  refine silent_saveAvatarBlob.applies fun _ => ?_
  refine applies_of_merge (node.record .groupAvatar _ _ _ _ _) ?_
    ⟨w.groupID, ?_, (trimSpace_idem _).symm⟩
  · split
    · refine silent_of_write fun env s => ⟨_, _, rfl, notStale_ok, ?_⟩
      intro db h
      obtain rfl := Except.ok.inj h
      exact ⟨rfl, rfl⟩
    refine silent_check_bind (other_ne_stale _) ?_
    refine silent_of_write fun env s => ⟨_, _, rfl, notStale_ok, ?_⟩
    intro db h
    obtain rfl := Except.ok.inj h
    exact ⟨rfl, rfl⟩
  · simp [ReplicaNode.record, ReplicaNode.describes, readSigned_decodes hread]

theorem applies_applyPulled {frame : ReplicaFrame} {apply : ReplicaF Unit}
    (h : applyPulled node frame ns = some apply) : AppliesText node ns frame.text apply := by
  cases ns with
  | userProfile =>
    obtain rfl := Option.some.inj h
    exact applies_profile
  | groupAvatar =>
    obtain ⟨w, -, h⟩ := Option.bind_eq_some_iff.mp h
    split at h
    · cases h
    · obtain rfl := Option.some.inj h
      exact applies_groupAvatar
  | groupRole =>
    obtain ⟨w, -, h⟩ := Option.bind_eq_some_iff.mp h
    split at h
    · cases h
    · obtain rfl := Option.some.inj h
      exact applies_groupRole
  | groupInvitePolicy =>
    obtain ⟨w, -, h⟩ := Option.bind_eq_some_iff.mp h
    split at h
    · cases h
    · obtain rfl := Option.some.inj h
      exact applies_groupInvitePolicy

-- -------- Cursors

/-- No cursor is ahead of the record that is stored. -/
def CursorsSound (db : ReplicaStore) : Prop :=
  ∀ remote ns key, getReplicatedPullCursor db.cursors remote ns key ≤
    recordRevision db.records ns key

/-- The header names the key of the signed body, and no later revision than the body has. -/
def ReplicaFrame.HeaderHonest (node : ReplicaNode) (ns : ReplicaNamespace) (frame : ReplicaFrame) :
    Prop :=
  ∀ key revision, node.describes frame.text ns = some (key, revision) →
    trimSpace frame.key = trimSpace key ∧ frame.revision ≤ revision

theorem getReplicatedPullCursor_upsert_le {cursors : List ReplicatedPullCursor}
    {cursor : ReplicatedPullCursor} {remote key : String} {bound : Int}
    (hold : getReplicatedPullCursor cursors remote ns key ≤ bound)
    (hnew : cursor.ns = ns → trimSpace cursor.recordKey = trimSpace key →
      cursor.lastRevision ≤ bound) :
    getReplicatedPullCursor (upsertReplicatedPullCursor cursors cursor) remote ns key ≤ bound := by
  unfold getReplicatedPullCursor at *
  unfold upsertReplicatedPullCursor
  set row : ReplicatedPullCursor :=
    { cursor with
      remotePeerID := trimSpace cursor.remotePeerID, recordKey := trimSpace cursor.recordKey }
    with hrow
  by_cases hkey : (trimSpace remote, ns, trimSpace key) = row.key
  · have hle : row.lastRevision ≤ bound := by
      simp only [hrow, ReplicatedPullCursor.key, Prod.mk.injEq] at hkey
      exact hnew hkey.2.1.symm hkey.2.2.symm
    rw [hkey, Table.get_upsert_self fun old h => h]
    rw [hkey] at hold
    unfold Table.upserted
    split
    next old hget =>
      rw [hget] at hold
      exact max_le hold hle
    · exact hle
  · rwa [Table.get_upsert_of_ne hkey fun old h => h]

theorem CursorsSound.later {s s' : ReplicaState} (hs : CursorsSound s.db) (h : Later s s') :
    CursorsSound s'.db := by
  intro remote ns key
  rw [h.cursors]
  exact (hs remote ns key).trans (h.revision ns key)

theorem CursorsSound.advance {s : ReplicaState} {remote : String} {frame : ReplicaFrame}
    {env : ReplicaOp → ReplicaWorld} (hs : CursorsSound s.db) (hhonest : frame.HeaderHonest node ns)
    (hstored : StoredRevision node ns frame.text s) :
    (request (.upsertReplicatedPullCursor
      { remotePeerID := remote, ns, recordKey := frame.key,
        lastRevision := frame.revision })).Ensures
      (replicaMachine node) env (fun _ s' => CursorsSound s'.db) s := by
  refine ensures_request _ fun r s' hop => ?_
  obtain ⟨key, revision, hdescribes, hrevision⟩ := hstored
  obtain ⟨hkey, hle⟩ := hhonest key revision hdescribes
  rcases ReplicaState.tryWrite_eq (Option.some.inj hop) with ⟨db, hdb, hr, rfl⟩ | ⟨rfl, -⟩
  · obtain rfl := Except.ok.inj hdb
    intro remote' ns' key'
    refine getReplicatedPullCursor_upsert_le (hs remote' ns' key') ?_
    rintro rfl hkey'
    rw [← recordRevision_trim, ← hkey', hkey, recordRevision_trim]
    exact hle.trans hrevision
  · exact hs

theorem CursorsSound.pullRecord {s : ReplicaState} {remote : String} {frame : ReplicaFrame}
    {env : ReplicaOp → ReplicaWorld} (hs : CursorsSound s.db)
    (hhonest : frame.HeaderHonest node ns) :
    (pullRecord node remote ns frame).Ensures (replicaMachine node) env
      (fun _ s' => CursorsSound s'.db) s := by
  unfold GroupCoordination.pullRecord
  split
  · exact Program.ensures_pure hs
  rename_i apply happly
  refine Program.Ensures.bind ((applies_applyPulled happly env s).run.mono ?_)
  rintro (err | ⟨⟩) s' h
  · obtain ⟨hlater, hstale⟩ := h
    cases err with
    | stale => exact (hs.later hlater).advance hhonest (hstale rfl)
    | conflict | unknownPublicKey | other msg => exact Program.ensures_pure (hs.later hlater)
  · exact (hs.later h.1).advance hhonest h.2

theorem CursorsSound.pullFrames {remote : String} {frames : List ReplicaFrame}
    {env : Nat → ReplicaOp → ReplicaWorld} {s : ReplicaState} (hs : CursorsSound s.db)
    (hhonest : ∀ frame ∈ frames, frame.HeaderHonest node ns) :
    CursorsSound (pullFrames node remote ns env frames s).2.db := by
  induction frames generalizing s env with
  | nil => exact hs
  | cons frame rest ih =>
    have hframe : ∀ r s', (GroupCoordination.pullRecord node remote ns frame).exec
      (replicaMachine node)
        (env 0) s = some (r, s') → CursorsSound s'.db :=
      Program.ensures_iff.mp (hs.pullRecord (hhonest frame (by simp)))
    unfold GroupCoordination.pullFrames
    split
    next s' hexec =>
      exact ih (hframe _ _ hexec) fun frame h => hhonest frame (by simp [h])
    next err s' hexec =>
      exact hframe _ _ hexec
    · exact hs

-- -------- Later pulls

theorem buildPullRequest_cursor {db : ReplicaStore} {remote self : String}
    {req : ReplicaPullRequest} (h : db.buildPullRequest remote self ns = some req) :
    req.ns = ns ∧ ∀ key revision, req.cursors.lookup key = some revision →
      revision = getReplicatedPullCursor db.cursors remote ns key := by
  simp only [buildPullRequest] at h
  split at h
  · cases h
  obtain rfl := Option.some.inj h
  refine ⟨rfl, fun key revision hlookup => ?_⟩
  obtain ⟨before, after, heq, -⟩ := List.lookup_eq_some_iff.mp hlookup
  have hmem : (key, revision) ∈ before ++ (key, revision) :: after := by simp
  rw [← heq] at hmem
  obtain ⟨other, -, hother⟩ := List.mem_map.mp hmem
  cases hother
  rfl

/-- A peer that has a later revision sends it, if the cursors of the one who asks are sound. -/
theorem CursorsSound.serveKey {db server : ReplicaStore} {remote self key : String}
    {req : ReplicaPullRequest} {row : ReplicatedRecordRow}
    {blob : ReplicaNamespace → String → Bytes}
    (hs : CursorsSound db) (hreq : db.buildPullRequest remote self ns = some req)
    (hkey : trimSpace key ≠ "") (hrow : getReplicatedRecord server.records ns key = some row)
    (hpos : 0 < row.revision) (hnewer : recordRevision db.records ns key < row.revision) :
    server.serveKey blob req key =
      some ⟨trimSpace key, row.revision, ⟨row.bodyJSON, row.signature⟩, blob ns row.bodyJSON⟩ := by
  obtain ⟨rfl, hcursor⟩ := buildPullRequest_cursor hreq
  have hle : (req.cursors.lookup (trimSpace key)).getD 0 < row.revision := by
    cases hlookup : req.cursors.lookup (trimSpace key) with
    | none => exact hpos
    | some revision =>
      rw [Option.getD_some, hcursor _ revision hlookup, getReplicatedPullCursor,
        trimSpace_idem]
      exact (hs remote _ key).trans_lt hnewer
  unfold serveKey
  simp [hkey, getReplicatedRecord_trim, hrow, not_le.mpr hle]

/-- A stream of honest frames never puts a cursor ahead of its record, whichever frames are refused
and whichever statements fail. So whatever a peer has that is newer than the stored record is asked
for. -/
theorem pull_never_skips_a_revision (remote : String) (frames : List ReplicaFrame)
    (env : Nat → ReplicaOp → ReplicaWorld) (s s' : ReplicaState) (hs : CursorsSound s.db)
    (hhonest : ∀ frame ∈ frames, frame.HeaderHonest node ns)
    (hs' : s' = (pullFrames node remote ns env frames s).2) :
    CursorsSound s'.db ∧
      ∀ (peer : String) (ns : ReplicaNamespace) (req : ReplicaPullRequest) (server : ReplicaStore)
        (blob : ReplicaNamespace → String → Bytes) (key : String) (row : ReplicatedRecordRow),
        s'.db.buildPullRequest peer node.me ns = some req → key ∈ req.keys → trimSpace key ≠ "" →
        getReplicatedRecord server.records ns key = some row → 0 < row.revision →
        recordRevision s'.db.records ns key < row.revision →
        ∃ frame, server.serveKey blob req key = some frame ∧ frame.revision = row.revision ∧
          frame.text = ⟨row.bodyJSON, row.signature⟩ := by
  have hsound : CursorsSound s'.db := hs' ▸ hs.pullFrames hhonest
  refine ⟨hsound, fun peer ns req server blob key row hreq _ hkey hrow hpos hnewer => ?_⟩
  exact ⟨_, hsound.serveKey hreq hkey hrow hpos hnewer, rfl, rfl⟩

namespace PullReference

/-- The texts "1" and "2" are two revisions of Bob's profile. -/
def decodeProfile (text : String) : Option ProfileWire :=
  if text = "1" then
    some { v := 1, peerID := "bob", displayName := "Bob", revision := 1, email := "b@x" }
  else if text = "2" then
    some { v := 1, peerID := "bob", displayName := "Bob", revision := 2, email := "bob@x" }
  else none

def codec : ReplicaCodec where
  profile := ⟨fun w => if w.revision = 1 then "1" else "2", decodeProfile⟩
  groupAvatar := ⟨fun _ => "", fun _ => none⟩
  groupRole := ⟨fun _ => "", fun _ => none⟩
  groupInvitePolicy := ⟨fun _ => "", fun _ => none⟩
  sign key text := List.replicate 63 (key.headD 0) ++ [Fin.ofNat 256 text.length]
  verify key text signature :=
    signature = List.replicate 63 (key.headD 0) ++ [Fin.ofNat 256 text.length]

def bobKey : Bytes := List.replicate 32 7

def alice : ReplicaNode where
  codec := codec
  hash := Reference.hash
  me := "alice"
  displayName := "Alice"
  publicKey := List.replicate 32 5
  signingKey := List.replicate 32 5

def frame (key : String) (revision : Int) (text : String) : ReplicaFrame :=
  ⟨key, revision, ⟨text, codec.sign bobKey text⟩, []⟩

def knowsBob : ReplicaState where
  db :=
    { directory := [{ peerID := "bob", displayName := "Bob", publicKeyHex := hexEncode bobKey }] }

def pull (frames : List ReplicaFrame) : ReplicaState :=
  (pullFrames alice "eve" .userProfile (fun _ _ => {}) frames knowsBob).2

end PullReference

open PullReference in
theorem pull_of_two_revisions :
    recordRevision (pull [frame "bob" 1 "1", frame "bob" 2 "2"]).db.records .userProfile "bob" = 2 ∧
      CursorsSound (pull [frame "bob" 1 "1", frame "bob" 2 "2"]).db := by
  refine ⟨by decide +kernel, ?_⟩
  have hhonest : ∀ f ∈ [frame "bob" 1 "1", frame "bob" 2 "2"],
      f.HeaderHonest alice .userProfile := by
    simp [ReplicaFrame.HeaderHonest, ReplicaNode.describes, frame, alice, codec, decodeProfile]
  have hstart : CursorsSound knowsBob.db := fun _ _ _ => le_rfl
  have hend : pull [frame "bob" 1 "1", frame "bob" 2 "2"] = (pullFrames alice "eve" .userProfile
    (fun _ _ => {}) [frame "bob" 1 "1", frame "bob" 2 "2"] knowsBob).2 := by unfold pull; rfl
  exact (pull_never_skips_a_revision _ _ _ _ _ hstart hhonest hend).1

open PullReference in
/-- Eve sends Bob's first profile under a header of her own, and never again has to send a later
one. -/
theorem pulled_header_hides_revision :
    ∃ req, (pull [frame "bob" 100 "1"]).db.buildPullRequest "eve" alice.me .userProfile = some req ∧
      "bob" ∈ req.keys ∧
      recordRevision (pull [frame "bob" 100 "1"]).db.records .userProfile "bob" = 1 ∧
      getReplicatedPullCursor (pull [frame "bob" 100 "1"]).db.cursors "eve"
        .userProfile "bob" = 100 ∧
      recordRevision (pull [frame "bob" 2 "2"]).db.records .userProfile "bob" = 2 ∧
      (pull [frame "bob" 2 "2"]).db.serveKey (fun _ _ => []) req "bob" = none := by
  refine ⟨⟨.userProfile, ["eve", "bob"], [("eve", 0), ("bob", 100)]⟩, ?_⟩
  decide +kernel

end GroupCoordination
