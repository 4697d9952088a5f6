import GroupCoordination.Lib.Merge
import GroupCoordination.Model.Reference
import GroupCoordination.Properties.ReplicaSteps

/-!
# Records of several writers

The invite policy of a group and the role of a member are registers that merge by revision: what is
stored and what is effective depend on the set of records that came in, but for records that share
the greatest revision.
-/

namespace GroupCoordination

open Fallible ReplicatedRecordRow ReplicaState

open Program (Failing attempt observe check)

-- -------- Merges of valid rows

theorem digitChar_plain : ∀ n < 16, isSpace (Nat.digitChar n) = false ∧
    lowerRune (Nat.digitChar n) = Nat.digitChar n := by decide +kernel

theorem hexEncode_chars {bytes : Bytes} {c : Char} (h : c ∈ (hexEncode bytes).toList) :
    isSpace c = false ∧ lowerRune c = c := by
  unfold hexEncode at h
  rw [String.toList_ofList, List.mem_flatMap] at h
  obtain ⟨b, hb, hc⟩ := h
  obtain ⟨byte, -, hbyte⟩ := List.mem_flatMap.mp hb
  obtain rfl := List.mem_singleton.mp hbyte
  have hlt := byte.isLt
  rcases List.mem_cons.mp hc with rfl | hc
  · exact digitChar_plain _ (by omega)
  · obtain rfl := List.mem_singleton.mp hc
    exact digitChar_plain _ (by omega)

theorem trimSpace_of_plain {text : String} (h : ∀ c ∈ text.toList, isSpace c = false) :
    trimSpace text = text := by
  have hkept : ∀ l : List Char, (∀ c ∈ l, isSpace c = false) → l.dropWhile isSpace = l := by
    intro l hl
    cases l with
    | nil => rfl
    | cons c l => exact List.dropWhile_cons_of_neg (by simp [hl c List.mem_cons_self])
  unfold trimSpace
  rw [hkept _ h, hkept _ fun c hc => h c (List.mem_reverse.mp hc), List.reverse_reverse,
    String.ofList_toList]

theorem trimSpace_ne_empty {text : String} {c : Char} (hc : c ∈ text.toList)
    (hspace : isSpace c = false) : trimSpace text ≠ "" := by
  unfold trimSpace
  intro h
  have hnil := String.ofList_eq_empty_iff.mp h
  rw [List.reverse_eq_nil_iff, List.dropWhile_eq_nil_iff] at hnil
  have hfront : text.toList.dropWhile isSpace = [] := by
    by_contra hne
    have hblank := hnil _ (List.mem_reverse.mpr (List.head_mem hne))
    rw [List.head_dropWhile_not isSpace hne] at hblank
    cases hblank
  rw [List.dropWhile_eq_nil_iff] at hfront
  rw [hfront c hc] at hspace
  cases hspace

@[simp] theorem trimSpace_hexEncode {bytes : Bytes} :
    trimSpace (hexEncode bytes) = hexEncode bytes :=
  trimSpace_of_plain fun _ h => (hexEncode_chars h).1

@[simp] theorem toLower_hexEncode {bytes : Bytes} :
    toLower (hexEncode bytes) = hexEncode bytes := by
  unfold toLower
  rw [List.map_congr_left fun c h => (hexEncode_chars h).2, List.map_id', String.ofList_toList]

section

variable {hash : Hash} {rows : List ReplicatedRecordRow}
  {row current : ReplicatedRecordRow} {u : Unit}

theorem validate_bodyHash (h : row.validate hash = .ok u) :
    replicatedBodyHash hash row.bodyJSON = row.bodyHash := by
  obtain ⟨_, _, h⟩ := bind_ok h
  obtain ⟨_, _, h⟩ := bind_ok h
  obtain ⟨_, _, h⟩ := bind_ok h
  exact require_ok h

section

variable (h : row.normalize.validate hash = .ok u)

include h

theorem tryMergeReplicatedRecord_of_valid :
    tryMergeReplicatedRecord hash rows row =
      match getReplicatedRecord rows row.ns row.recordKey with
      | none => .ok (putRecord rows row.normalize)
      | some current =>
        if current.revision > row.revision then .error .stale
        else if current.revision = row.revision then
          if toLower (trimSpace current.bodyHash) = toLower row.normalize.bodyHash then .ok rows
          else .error .conflict
        else .ok (putRecord rows row.normalize) := by
  have hget : getReplicatedRecord rows row.normalize.ns row.normalize.recordKey =
      getReplicatedRecord rows row.ns row.recordKey := getReplicatedRecord_trim
  unfold tryMergeReplicatedRecord
  dsimp only [bind, Except.bind]
  rw [h, hget]
  rfl

theorem merge_fresh (hnone : getReplicatedRecord rows row.ns row.recordKey = none) :
    tryMergeReplicatedRecord hash rows row = .ok (putRecord rows row.normalize) := by
  rw [tryMergeReplicatedRecord_of_valid h, hnone]

theorem merge_newer (hcurrent : getReplicatedRecord rows row.ns row.recordKey = some current)
    (hlt : current.revision < row.revision) :
    tryMergeReplicatedRecord hash rows row = .ok (putRecord rows row.normalize) := by
  rw [tryMergeReplicatedRecord_of_valid h, hcurrent]
  dsimp only
  rw [if_neg hlt.not_gt, if_neg hlt.ne]

theorem merge_older (hcurrent : getReplicatedRecord rows row.ns row.recordKey = some current)
    (hlt : row.revision < current.revision) :
    tryMergeReplicatedRecord hash rows row = .error .stale := by
  rw [tryMergeReplicatedRecord_of_valid h, hcurrent]
  exact if_pos hlt

theorem merge_equal (hcurrent : getReplicatedRecord rows row.ns row.recordKey = some current)
    (heq : row.revision = current.revision) :
    tryMergeReplicatedRecord hash rows row = .ok rows ∨
      tryMergeReplicatedRecord hash rows row = .error .conflict := by
  rw [tryMergeReplicatedRecord_of_valid h, hcurrent]
  dsimp only
  rw [if_neg heq.ge.not_gt, if_pos heq.symm]
  split
  · exact .inl rfl
  · exact .inr rfl

theorem merge_again
    (hcurrent : getReplicatedRecord rows row.ns row.recordKey = some row.normalize) :
    tryMergeReplicatedRecord hash rows row = .ok rows := by
  have hsame : toLower (trimSpace row.normalize.bodyHash) = toLower row.normalize.bodyHash := by
    rw [← validate_bodyHash h]
    simp [replicatedBodyHash]
  rw [tryMergeReplicatedRecord_of_valid h, hcurrent]
  simp [hsame]

end

end

-- -------- Signed records

def storedRow (hash : Hash) (ns : ReplicaNamespace) (recordKey ownerPeerID : String)
    (revision : Int) (text : SignedText) (key : Bytes) : ReplicatedRecordRow :=
  { ns, recordKey, ownerPeerID, revision
    bodyJSON := text.wireJSON
    bodyHash := replicatedBodyHash hash text.wireJSON
    signature := text.signature
    signingPublicKeyHex := hexEncode key }

section

variable {node : ReplicaNode} {ns : ReplicaNamespace} {recordKey ownerPeerID : String}
  {revision : Int}
  {text : SignedText} {key : Bytes}

theorem record_normalize :
    (node.record ns recordKey ownerPeerID revision text (hexEncode key)).normalize =
      storedRow node.hash ns (trimSpace recordKey) (trimSpace ownerPeerID) revision text key := by
  simp [ReplicaNode.record, ReplicatedRecordRow.normalize, storedRow, replicatedBodyHash]

theorem replicatedBodyHash_ne {hash : Hash} {bodyJSON : String} :
    replicatedBodyHash hash bodyJSON ≠ "" :=
  hexEncode_ne_empty (hash.sum_ne_nil _)

theorem storedRow_validate {hash : Hash} (hkey : recordKey ≠ "") (howner : ownerPeerID ≠ "")
    (hpos : 0 < revision) :
    (storedRow hash ns recordKey ownerPeerID revision text key).validate hash = .ok () := by
  unfold validate storedRow require
  simp [hkey, howner, hpos, replicatedBodyHash_ne, bind, Except.bind]

end

structure SignedRecord {α : Type} (codec : ReplicaCodec) (wires : WireCodec α)
    (version : α → Int) where
  text : SignedText
  wire : α
  key : Bytes
  decodes : wires.decode text.wireJSON = some wire
  version_eq : version wire = wireVersion
  size : text.signature.length = ed25519SignatureSize
  verified : codec.verify key text.wireJSON text.signature = true

theorem SignedRecord.readSigned {node : ReplicaNode} {wires : WireCodec α} {version : α → Int}
    (e : SignedRecord node.codec wires version) :
    node.readSigned wires version e.key e.text = .ok e.wire := by
  unfold ReplicaNode.readSigned ReplicaNode.verifyProfileWire require
  simp [e.decodes, e.version_eq, e.size, e.verified, bind, Except.bind, pure, Except.pure]

def ReplicaNode.receive (node : ReplicaNode) (ns : ReplicaNamespace)
    (env : ReplicaOp → ReplicaWorld) (s : ReplicaState) (text : SignedText) : ReplicaState :=
  match applyPulled node ⟨"", 0, text, []⟩ ns with
  | none => s
  | some apply => (apply.run.exec (replicaMachine node) env s).elim s (·.2)

section

variable {node : ReplicaNode} {env : ReplicaOp → ReplicaWorld} {s s' : ReplicaState}
  {ns : ReplicaNamespace}
  {text : SignedText} {record : ReplicatedRecordRow}

theorem receive_of_exec {apply : ReplicaF Unit}
    (happly : applyPulled node ⟨"", 0, text, []⟩ ns = some apply)
    (hexec : apply.run.exec (replicaMachine node) env s = some (r, s')) :
    node.receive ns env s text = s' := by
  unfold ReplicaNode.receive
  rw [happly]
  dsimp only
  rw [hexec]
  rfl

theorem exec_profile (hw : StatementsWork env) {peerID : String} (hpeer : trimSpace peerID = peerID)
    (hrow : s.db.directory.row peerID = some profile) :
    (request (.getPeerDirectoryProfile peerID)).exec (replicaMachine node) env s = some
      (.ok profile, s) := by
  rw [exec_request]
  simp [replicaMachine, query_works (hw.db _), hpeer, hrow]

theorem exec_merge (hw : StatementsWork env)
    (hmerge : tryMergeReplicatedRecord node.hash s.db.records record = .ok records) :
    (request (.tryMergeReplicatedRecord record)).exec (replicaMachine node) env s =
      some (.ok (), { s with db := { s.db with records } }) := by
  rw [exec_request]
  simp [replicaMachine, tryWriteRecord, hw.db, hw.refs, hmerge]

theorem exec_merge_refused (hw : StatementsWork env)
    (hmerge : tryMergeReplicatedRecord node.hash s.db.records record = .error err) :
    (request (.tryMergeReplicatedRecord record)).exec (replicaMachine node) env s = some
      (.error err, s) := by
  rw [exec_request]
  simp [replicaMachine, tryWriteRecord, hw.db, hmerge]

end

structure RecordDelivery (hash : Hash) (ns : ReplicaNamespace) (key : String)
    (k : Merge.Entries ε ReplicatedRecordRow ν)
    (es : List ε) (deliver : ReplicaState → ε → ReplicaState) (effective : ReplicaState → ν)
    (Ready : ReplicaState → Prop) (record : ε → ReplicatedRecordRow) : Prop where
  ns_eq : ∀ e, (record e).ns = ns
  key_eq : ∀ e, trimSpace (record e).recordKey = trimSpace key
  row_eq : ∀ e, (record e).normalize = k.row e
  rev_eq : ∀ e, (record e).revision = k.rev e
  valid : ∀ e, (record e).normalize.validate hash = .ok ()
  refused : ∀ s e err, e ∈ es → Ready s →
    tryMergeReplicatedRecord hash s.db.records (record e) = .error err → deliver s e = s
  merged : ∀ s e records, e ∈ es → Ready s →
    tryMergeReplicatedRecord hash s.db.records (record e) = .ok records →
    Ready (deliver s e) ∧ (deliver s e).db.records = records ∧
      (getReplicatedRecord records ns key = some (k.row e) → effective (deliver s e) = k.value e)

section

variable {ε ν : Type} {hash : Hash} {ns : ReplicaNamespace} {key : String}
  {k : Merge.Entries ε ReplicatedRecordRow ν} {es : List ε}
  {deliver : ReplicaState → ε → ReplicaState}
  {effective : ReplicaState → ν} {Ready : ReplicaState → Prop} {record : ε → ReplicatedRecordRow}
  {s : ReplicaState} {e : ε}

section

variable (h : RecordDelivery hash ns key k es deliver effective Ready record)

include h

theorem RecordDelivery.get_eq (e : ε) (rows : List ReplicatedRecordRow) :
    getReplicatedRecord rows (record e).ns (record e).recordKey =
      getReplicatedRecord rows ns key := by
  rw [h.ns_eq, ← getReplicatedRecord_trim, h.key_eq, getReplicatedRecord_trim]

theorem RecordDelivery.get_put (e : ε) (rows : List ReplicatedRecordRow) :
    getReplicatedRecord (putRecord rows (record e).normalize) ns key = some (k.row e) := by
  rw [getReplicatedRecord_put, if_pos ⟨(h.ns_eq e).symm, (h.key_eq e).symm⟩, h.row_eq]

theorem RecordDelivery.stores (he : e ∈ es)
    (hs : Ready s) (hmerge : tryMergeReplicatedRecord hash s.db.records (record e) =
      .ok (putRecord s.db.records (record e).normalize)) :
    getReplicatedRecord (deliver s e).db.records ns key = some (k.row e) ∧
      effective (deliver s e) = k.value e := by
  obtain ⟨-, hrecords, heffective⟩ := h.merged s e _ he hs hmerge
  rw [hrecords]
  exact ⟨h.get_put e _, heffective (h.get_put e _)⟩

end

def RecordDelivery.register (h : RecordDelivery hash ns key k es deliver effective Ready record) :
    Merge.Register k es ReplicaState where
  deliver := deliver
  stored s := getReplicatedRecord s.db.records ns key
  effective := effective
  Ready := Ready
  ready_deliver {s e} he hs := by
    cases hmerge : tryMergeReplicatedRecord hash s.db.records (record e) with
    | error err => exact (h.refused s e err he hs hmerge).symm ▸ hs
    | ok records => exact (h.merged s e records he hs hmerge).1
  fresh {s e} he hs hnone := h.stores he hs (merge_fresh (h.valid e) ((h.get_eq e _).trans hnone))
  newer {s c e} hc he hs hold hlt := by
    refine h.stores he hs (merge_newer (h.valid e) ((h.get_eq e _).trans hold) ?_)
    rw [h.rev_eq, ← h.row_eq, normalize_revision, h.rev_eq]
    exact hlt
  older {s c e} hc he hs hold hlt := by
    have hmerge := merge_older (h.valid e) ((h.get_eq e _).trans hold) (by
      rw [h.rev_eq, ← h.row_eq, normalize_revision, h.rev_eq]
      exact hlt)
    rw [h.refused s e _ he hs hmerge]
    exact ⟨hold, rfl⟩
  equal {s c e} hc he hs hold heq := by
    have hmerge := merge_equal (h.valid e) ((h.get_eq e _).trans hold) (by
      rw [h.rev_eq, ← h.row_eq, normalize_revision, h.rev_eq]
      exact heq)
    rcases hmerge with hmerge | hmerge
    · rw [(h.merged s e _ he hs hmerge).2.1]
      exact hold
    · rw [h.refused s e _ he hs hmerge]
      exact hold
  again {s e} he hs hold := by
    have hmerge := merge_again (h.valid e) ((h.get_eq e _).trans (hold.trans (by rw [h.row_eq])))
    exact (h.merged s e _ he hs hmerge).2.2 hold

end

-- -------- Invite policies

structure SignedPolicy (codec : ReplicaCodec) (groupID : String) extends
    SignedRecord codec codec.groupInvitePolicy (·.v) where
  policy : GroupInvitePolicy
  group : trimSpace wire.groupID = groupID
  named : groupID ≠ ""
  actor : trimSpace wire.actorPeerID ≠ ""
  normalized : normalizeGroupInvitePolicy wire.policy = .ok policy
  positive : 0 < wire.revision

section

variable {node : ReplicaNode} {groupID : String} {env : ReplicaOp → ReplicaWorld}
  {es : List (SignedPolicy node.codec groupID)} {e : SignedPolicy node.codec groupID}
  {s : ReplicaState}

def SignedPolicy.actorPeerID {codec : ReplicaCodec} (e : SignedPolicy codec groupID) : String :=
  trimSpace e.wire.actorPeerID

def policyEntries (codec : ReplicaCodec) (hash : Hash) (groupID : String) :
    Merge.Entries (SignedPolicy codec groupID) ReplicatedRecordRow (Option GroupInvitePolicy) where
  row e := storedRow hash .groupInvitePolicy groupID e.actorPeerID e.wire.revision e.text e.key
  rev e := e.wire.revision
  value e := some e.policy

/-- The node knows the group and the keys of the writers, and takes them for authorised. -/
structure ReadyForPolicies (node : ReplicaNode) (env : ReplicaOp → ReplicaWorld)
    (es : List (SignedPolicy node.codec groupID)) (s : ReplicaState) : Prop where
  group : (s.db.group groupID).isSome
  keys : ∀ e ∈ es, ∃ profile, s.db.directory.row e.actorPeerID = some profile ∧
    signerKey profile = .ok e.key
  authorized : ∀ e ∈ es, s.db.isActiveGroupAuthorizedPeer
    (env (.isActiveGroupAuthorizedPeer e.wire.groupID e.actorPeerID)).creatorHint e.wire.groupID
    e.actorPeerID = .ok true

theorem SignedPolicy.check (e : SignedPolicy node.codec groupID) :
    node.checkGroupInvitePolicy e.key e.actorPeerID e.text = .ok e.wire := by
  unfold ReplicaNode.checkGroupInvitePolicy require
  simp [e.readSigned, e.normalized, SignedPolicy.actorPeerID, bind, Except.bind, pure, Except.pure]

theorem SignedPolicy.setGroupInvitePolicy (e : SignedPolicy node.codec groupID) {db : ReplicaStore}
    (h : (db.group groupID).isSome) :
    db.setGroupInvitePolicy e.wire.groupID e.wire.policy =
      .ok (db.updateGroup groupID fun group => { group with invitePolicy := e.policy }) := by
  unfold ReplicaStore.setGroupInvitePolicy require
  simp [e.group, e.named, e.normalized, h, bind, Except.bind, pure, Except.pure]

def ReplicaStore.mergedPolicy (db : ReplicaStore) (records : List ReplicatedRecordRow)
    (groupID : String) (policy : GroupInvitePolicy) : ReplicaStore :=
  ({ db with records } : ReplicaStore).updateGroup groupID fun group =>
    { group with invitePolicy := policy }

section

variable {db : ReplicaStore} {records : List ReplicatedRecordRow} {policy : GroupInvitePolicy}
  {other : String}

theorem group_mergedPolicy : (db.mergedPolicy records groupID policy).group other =
    (db.group other).map fun group =>
      if group.groupID = groupID then { group with invitePolicy := policy } else group := by
  refine Table.get_map fun group => ?_
  split <;> rfl

theorem creator_mergedPolicy :
    ((db.mergedPolicy records groupID policy).group other).map (·.creatorPeerID) =
    (db.group other).map (·.creatorPeerID) := by
  rw [group_mergedPolicy, Option.map_map]
  congr 1
  funext group
  simp only [Function.comp_apply]
  split <;> rfl

theorem policy_mergedPolicy (h : (db.group groupID).isSome) :
    ((db.mergedPolicy records groupID policy).group groupID).map (·.invitePolicy) =
      some policy := by
  obtain ⟨group, hgroup⟩ := Option.isSome_iff_exists.mp h
  have hid : group.groupID = groupID := (Table.mem_of_get hgroup).2
  rw [group_mergedPolicy, hgroup]
  simp [hid]

end

theorem exec_policyPush (hw : StatementsWork env)
    (hs : ReadyForPolicies node env es s) (he : e ∈ es)
    (record : ReplicatedRecordRow) (hrecord : record = node.record .groupInvitePolicy
      (trimSpace e.wire.groupID) e.actorPeerID e.wire.revision e.text (hexEncode e.key)) :
    (∀ err, tryMergeReplicatedRecord node.hash s.db.records record = .error err →
      (applySignedRemoteGroupInvitePolicyPush node e.actorPeerID e.text).run.exec
        (replicaMachine node) env s =
        some (.error err, s)) ∧
    ∀ records, tryMergeReplicatedRecord node.hash s.db.records record = .ok records →
      (applySignedRemoteGroupInvitePolicyPush node e.actorPeerID e.text).run.exec
        (replicaMachine node) env s =
        some (.ok (), { s with db := s.db.mergedPolicy records groupID e.policy }) := by
  obtain ⟨profile, hrow, hkey⟩ := hs.keys e he
  have hactor : trimSpace e.actorPeerID = e.actorPeerID := trimSpace_idem _
  have hnamed : e.actorPeerID ≠ "" := e.actor
  have hauthorized : (request (.isActiveGroupAuthorizedPeer e.wire.groupID e.actorPeerID)).exec
      (replicaMachine node) env s = some (.ok true, s) := by
    rw [exec_request]
    simp [replicaMachine, query_works (hw.db _), hs.authorized e he]
  unfold applySignedRemoteGroupInvitePolicyPush
  dsimp only
  rw [hactor, Failing.exec_check_bind hnamed, Failing.exec_attempt_bind
    (exec_profile hw hactor hrow),
    Failing.exec_attempt_pure_bind hkey, Failing.exec_attempt_pure_bind e.check,
    Failing.exec_attempt_bind hauthorized, Failing.exec_check_bind rfl, ← hrecord]
  constructor
  · intro err hmerge
    exact Failing.exec_attempt_bind_error (exec_merge_refused hw hmerge)
  intro records hmerge
  rw [Failing.exec_attempt_bind (exec_merge hw hmerge)]
  refine (exec_request _ env _).trans ?_
  have hgroup : (({ s.db with records } : ReplicaStore).group groupID).isSome := hs.group
  have hset := e.setGroupInvitePolicy hgroup
  simp [replicaMachine, tryWrite, hw.db, hset, ReplicaStore.mergedPolicy]

theorem SignedPolicy.applied (e : SignedPolicy node.codec groupID) :
    applyPulled node ⟨"", 0, e.text, []⟩ .groupInvitePolicy =
      some (applySignedRemoteGroupInvitePolicyPush node e.actorPeerID e.text) := by
  simp [applyPulled, e.decodes, e.actor, SignedPolicy.actorPeerID]

theorem isActiveGroupAuthorizedPeer_congr {db db' : ReplicaStore} {hint : String → String}
    {group peerID : String} (hmembers : db'.members = db.members)
    (hcreator : ∀ g, (db'.group g).map (·.creatorPeerID) = (db.group g).map (·.creatorPeerID)) :
    db'.isActiveGroupAuthorizedPeer hint group peerID = db.isActiveGroupAuthorizedPeer hint
      group peerID := by
  unfold ReplicaStore.isActiveGroupAuthorizedPeer ReplicaStore.isActiveGroupCreatorPeer
    ReplicaStore.getGroupMember ReplicaStore.member
  simp only [hmembers, hcreator]

theorem ReadyForPolicies.merged (hs : ReadyForPolicies node env es s)
    {records : List ReplicatedRecordRow} {policy : GroupInvitePolicy} :
    ReadyForPolicies node env es { s with db := s.db.mergedPolicy records groupID policy } where
  group := by
    rw [group_mergedPolicy, Option.isSome_map]
    exact hs.group
  keys := hs.keys
  authorized e he := by
    rw [← hs.authorized e he]
    exact isActiveGroupAuthorizedPeer_congr rfl fun g => creator_mergedPolicy

theorem SignedPolicy.record_normalize (e : SignedPolicy node.codec groupID) :
    (node.record .groupInvitePolicy (trimSpace e.wire.groupID) e.actorPeerID e.wire.revision e.text
      (hexEncode e.key)).normalize = (policyEntries node.codec node.hash groupID).row e := by
  rw [GroupCoordination.record_normalize, trimSpace_idem, e.group]
  simp [policyEntries, SignedPolicy.actorPeerID, trimSpace_idem]

theorem policyDelivery (node : ReplicaNode) (hw : StatementsWork env)
    (es : List (SignedPolicy node.codec groupID)) :
    RecordDelivery node.hash .groupInvitePolicy groupID
      (policyEntries node.codec node.hash groupID) es
      (fun s e => node.receive .groupInvitePolicy env s e.text)
      (fun s => (s.db.group groupID).map (·.invitePolicy)) (ReadyForPolicies node env es)
      (fun e => node.record .groupInvitePolicy
        (trimSpace e.wire.groupID) e.actorPeerID e.wire.revision e.text
        (hexEncode e.key)) where
  ns_eq e := rfl
  key_eq e := by
    change trimSpace (trimSpace e.wire.groupID) = _
    rw [e.group]
  row_eq e := e.record_normalize
  rev_eq e := rfl
  valid e := by
    rw [e.record_normalize]
    exact storedRow_validate e.named e.actor e.positive
  refused s e err he hs hmerge :=
    receive_of_exec e.applied ((exec_policyPush hw hs he _ rfl).1 err hmerge)
  merged s e records he hs hmerge := by
    rw [receive_of_exec e.applied ((exec_policyPush hw hs he _ rfl).2 records hmerge)]
    exact ⟨hs.merged, rfl, fun _ => policy_mergedPolicy hs.group⟩

end

-- -------- Roles

structure SignedRole (codec : ReplicaCodec) (groupID targetPeerID : String) extends
    SignedRecord codec codec.groupRole (·.v) where
  role : GroupMemberRole
  group : trimSpace wire.groupID = groupID
  target : trimSpace wire.targetPeerID = targetPeerID
  named : groupID ≠ "" ∧ targetPeerID ≠ ""
  actor : trimSpace wire.actorPeerID ≠ ""
  named_role : toLower (trimSpace wire.newRole) = "admin" ∧ role = .admin ∨
    toLower (trimSpace wire.newRole) = "member" ∧ role = .member
  body : text.wireJSON ≠ ""
  positive : 0 < wire.revision

/-- The role that a node acts on: that of the active row, or the one a new row would get. -/
def ReplicaNode.effectiveRole (node : ReplicaNode) (db : ReplicaStore) (groupID peerID : String) :
    GroupMemberRole :=
  (activeRole (db.getGroupMember groupID peerID)).getD
    (node.resolveGroupMemberRole db groupID peerID)

section

variable {node : ReplicaNode} {groupID targetPeerID : String} {env : ReplicaOp → ReplicaWorld}
  {es : List (SignedRole node.codec groupID targetPeerID)}
  {e : SignedRole node.codec groupID targetPeerID}
  {s : ReplicaState}

def SignedRole.actorPeerID {codec : ReplicaCodec} (e : SignedRole codec groupID targetPeerID) :
    String :=
  trimSpace e.wire.actorPeerID

def roleEntries (codec : ReplicaCodec) (hash : Hash) (groupID targetPeerID : String) :
    Merge.Entries (SignedRole codec groupID targetPeerID) ReplicatedRecordRow GroupMemberRole where
  row e :=
    storedRow hash .groupRole (trimSpace (groupRoleRecordKey groupID targetPeerID)) e.actorPeerID
    e.wire.revision e.text e.key
  rev e := e.wire.revision
  value e := e.role

/-- The node knows the keys of the writers and takes them for the creator, and the member is not the
creator. -/
structure ReadyForRoles (node : ReplicaNode) (env : ReplicaOp → ReplicaWorld)
    (es : List (SignedRole node.codec groupID targetPeerID)) (s : ReplicaState) : Prop where
  keys : ∀ e ∈ es, ∃ profile, s.db.directory.row e.actorPeerID = some profile ∧
    signerKey profile = .ok e.key
  creator : ∀ e ∈ es, s.db.isActiveGroupCreatorPeer
    (env (.isActiveGroupCreatorPeer e.wire.groupID e.actorPeerID)).creatorHint e.wire.groupID
    e.actorPeerID = true
  member : activeRole (s.db.getGroupMember groupID targetPeerID) ≠ some .creator
  recorded : trimSpace ((s.db.group groupID).map (·.creatorPeerID) |>.getD "") ≠ targetPeerID

theorem SignedRole.role_ne_creator (e : SignedRole node.codec groupID targetPeerID) :
    e.role ≠ .creator := by
  rcases e.named_role with ⟨-, h⟩ | ⟨-, h⟩
  · rw [h]
    nofun
  · rw [h]
    nofun

theorem SignedRole.pushed (e : SignedRole node.codec groupID targetPeerID) :
    (if toLower (trimSpace e.wire.newRole) = "admin" then GroupMemberRole.admin
      else .member) = e.role := by
  rcases e.named_role with ⟨h, hrole⟩ | ⟨h, hrole⟩
  · rw [h, hrole]
    rfl
  · rw [h, hrole]
    rfl

theorem SignedRole.parsed {codec : ReplicaCodec} (e : SignedRole codec groupID targetPeerID) :
    parseGroupMemberRole e.wire.newRole = e.role := by
  unfold parseGroupMemberRole
  rcases e.named_role with ⟨h, hrole⟩ | ⟨h, hrole⟩
  · rw [h, hrole]
    rfl
  · rw [h, hrole]
    rfl

theorem SignedRole.check (e : SignedRole node.codec groupID targetPeerID) :
    node.checkGroupRole e.key e.actorPeerID e.text = .ok e.wire := by
  unfold ReplicaNode.checkGroupRole require
  simp [e.readSigned, SignedRole.actorPeerID, bind, Except.bind, pure, Except.pure]

def ReplicaStore.mergedRole (db : ReplicaStore) (records : List ReplicatedRecordRow)
    (groupID peerID : String) (role : GroupMemberRole) : ReplicaStore :=
  { db with
    records
    members := if (activeRole (db.getGroupMember groupID peerID)).isSome then
        db.members.map fun row =>
          if row.groupID = groupID ∧ row.peerID = peerID ∧ row.status = .active ∧
            row.role ≠ .creator then
            { row with role }
          else row
      else db.members }

theorem SignedRole.trim_group (e : SignedRole node.codec groupID targetPeerID) :
    trimSpace groupID = groupID := by
  rw [← e.group, trimSpace_idem]

theorem SignedRole.trim_target (e : SignedRole node.codec groupID targetPeerID) :
    trimSpace targetPeerID = targetPeerID := by
  rw [← e.target, trimSpace_idem]

theorem SignedRole.getGroupMember (e : SignedRole node.codec groupID targetPeerID)
    (db : ReplicaStore) :
    db.getGroupMember e.wire.groupID e.wire.targetPeerID =
      db.getGroupMember groupID targetPeerID := by
  unfold ReplicaStore.getGroupMember
  rw [e.group, e.target, e.trim_group, e.trim_target]

theorem activeRole_of_getGroupMember {db : ReplicaStore} {role : GroupMemberRole}
    (h : activeRole (db.getGroupMember groupID targetPeerID) = some role) :
    ∃ row, db.member (trimSpace groupID) (trimSpace targetPeerID) = some row ∧
      row.status = .active ∧
      row.role = role := by
  unfold activeRole ReplicaStore.getGroupMember at h
  cases hrow : db.member (trimSpace groupID) (trimSpace targetPeerID) with
  | none => simp [hrow, Except.toOption] at h
  | some row =>
    rw [hrow] at h
    simp only [Except.toOption, Option.map_eq_some_iff, Option.filter_eq_some_iff,
      decide_eq_true_eq] at h
    obtain ⟨_, ⟨heq, hactive⟩, hrole⟩ := h
    cases heq
    exact ⟨row, rfl, hactive, hrole⟩

theorem SignedRole.setGroupMemberRole (e : SignedRole node.codec groupID targetPeerID)
    {db : ReplicaStore} {records : List ReplicatedRecordRow} {role : GroupMemberRole}
    (h : activeRole (db.getGroupMember groupID targetPeerID) = some role)
    (hrole : role ≠ .creator) :
    ({ db with records } : ReplicaStore).setGroupMemberRole e.wire.groupID
      e.wire.targetPeerID e.role = .ok (db.mergedRole records groupID targetPeerID e.role) := by
  obtain ⟨row, hrow, hactive, rfl⟩ := activeRole_of_getGroupMember h
  have hget : ({ db with records } : ReplicaStore).getGroupMember groupID
      targetPeerID = .ok row := by
    unfold ReplicaStore.getGroupMember
    rw [show ({ db with records } : ReplicaStore).member (trimSpace groupID)
      (trimSpace targetPeerID) = _ from hrow]
  unfold ReplicaStore.setGroupMemberRole require ReplicaStore.mergedRole
  simp [e.group, e.target, e.named, e.role_ne_creator, hget, hactive, hrole, h, bind,
    Except.bind, pure,
    Except.pure]

theorem exec_rolePush (hw : StatementsWork env) (hs : ReadyForRoles node env es s) (he : e ∈ es)
    (record : ReplicatedRecordRow) (hrecord : record = node.record .groupRole
      (groupRoleRecordKey e.wire.groupID e.wire.targetPeerID) e.actorPeerID e.wire.revision e.text
      (hexEncode e.key)) :
    (∀ err, tryMergeReplicatedRecord node.hash s.db.records record = .error err →
      (applySignedRemoteGroupRolePush node e.actorPeerID e.text).run.exec
        (replicaMachine node) env s =
        some (.error err, s)) ∧
    ∀ records, tryMergeReplicatedRecord node.hash s.db.records record = .ok records →
      (applySignedRemoteGroupRolePush node e.actorPeerID e.text).run.exec
        (replicaMachine node) env s =
        some (.ok (), { s with db := s.db.mergedRole records groupID targetPeerID e.role }) := by
  obtain ⟨profile, hrow, hkey⟩ := hs.keys e he
  have hactor : trimSpace e.actorPeerID = e.actorPeerID := trimSpace_idem _
  have hnamed : e.actorPeerID ≠ "" := e.actor
  have hcreator : (request (.isActiveGroupCreatorPeer e.wire.groupID e.actorPeerID)).exec
      (replicaMachine node) env s = some (.ok true, s) := by
    rw [exec_request]
    simp [replicaMachine, query_works (hw.db _), hs.creator e he]
  have hmember : (request (.getGroupMember e.wire.groupID e.wire.targetPeerID)).exec
      (replicaMachine node) env s = some (s.db.getGroupMember groupID targetPeerID, s) := by
    rw [exec_request]
    simp [replicaMachine, query_works (hw.db _), e.getGroupMember]
  unfold applySignedRemoteGroupRolePush
  dsimp only
  rw [hactor, Failing.exec_check_bind hnamed, Failing.exec_attempt_bind
    (exec_profile hw hactor hrow),
    Failing.exec_attempt_pure_bind hkey, Failing.exec_attempt_pure_bind e.check,
    Failing.exec_attempt_bind hcreator, Failing.exec_check_bind rfl,
    Failing.exec_observe_bind hmember,
    Failing.exec_check_bind hs.member, ← hrecord, e.pushed]
  constructor
  · intro err hmerge
    exact Failing.exec_attempt_bind_error (exec_merge_refused hw hmerge)
  intro records hmerge
  rw [Failing.exec_attempt_bind (exec_merge hw hmerge)]
  cases hactive : activeRole (s.db.getGroupMember groupID targetPeerID) with
  | none =>
    have hsame : s.db.mergedRole records groupID targetPeerID e.role = { s.db with records } := by
      simp [ReplicaStore.mergedRole, hactive]
    rw [hsame]
    rfl
  | some role =>
    have hrole : role ≠ .creator := fun h => hs.member (hactive.trans (congrArg some h))
    refine (exec_request _ env _).trans ?_
    simp [replicaMachine, tryWrite, hw.db, e.setGroupMemberRole hactive hrole]

theorem SignedRole.applied (e : SignedRole node.codec groupID targetPeerID) :
    applyPulled node ⟨"", 0, e.text, []⟩ .groupRole =
      some (applySignedRemoteGroupRolePush node e.actorPeerID e.text) := by
  simp [applyPulled, e.decodes, e.actor, SignedRole.actorPeerID]

section

variable {db : ReplicaStore} {records : List ReplicatedRecordRow} {role : GroupMemberRole}

theorem activeRole_mergedRole (hgroup : trimSpace groupID = groupID)
    (htarget : trimSpace targetPeerID = targetPeerID)
    (h : activeRole (db.getGroupMember groupID targetPeerID) ≠ some .creator) :
    activeRole
      ((db.mergedRole records groupID targetPeerID role).getGroupMember groupID targetPeerID) =
      (activeRole (db.getGroupMember groupID targetPeerID)).map fun _ => role := by
  cases hactive : activeRole (db.getGroupMember groupID targetPeerID) with
  | none =>
    have hmembers : (db.mergedRole records groupID targetPeerID role).members = db.members := by
      simp [ReplicaStore.mergedRole, hactive]
    unfold ReplicaStore.getGroupMember ReplicaStore.member at hactive ⊢
    rw [hmembers]
    exact hactive
  | some old =>
    obtain ⟨row, hrow, hstatus, rfl⟩ := activeRole_of_getGroupMember hactive
    rw [hgroup, htarget] at hrow
    have hkey : row.groupID = groupID ∧ row.peerID = targetPeerID :=
      Prod.mk.inj (Table.mem_of_get hrow).2
    have hcreator : row.role ≠ .creator := fun hc => h (hactive.trans (congrArg some hc))
    have hnew : (db.mergedRole records groupID targetPeerID role).member groupID targetPeerID =
        some { row with role } := by
      unfold ReplicaStore.mergedRole ReplicaStore.member
      dsimp only
      rw [hactive, if_pos Option.isSome_some, Table.get_map fun row => by split <;> rfl]
      rw [show Table.get _ db.members (groupID, targetPeerID) = _ from hrow]
      simp [hkey, hstatus, hcreator]
    unfold ReplicaStore.getGroupMember
    rw [hgroup, htarget, hnew]
    simp [activeRole, Except.toOption, hstatus]

theorem isActiveGroupCreatorPeer_mergedRole {hint : String → String} {group peerID : String}
    (hrole : role ≠ .creator) :
    (db.mergedRole records groupID targetPeerID role).isActiveGroupCreatorPeer hint group peerID =
      db.isActiveGroupCreatorPeer hint group peerID := by
  have hany : ∀ g p, (db.mergedRole records groupID targetPeerID role).members.any (fun row =>
        row.groupID = g ∧ row.status = .active ∧ trimSpace row.peerID = p ∧ row.role = .creator) =
      db.members.any (fun row =>
        row.groupID = g ∧ row.status = .active ∧ trimSpace row.peerID = p ∧
          row.role = .creator) := by
    intro g p
    unfold ReplicaStore.mergedRole
    dsimp only
    split
    · rw [List.any_map]
      congr 1
      funext row
      simp only [Function.comp_apply]
      split
      next hchanged =>
        simp [hrole, hchanged.2.2.2]
      · rfl
    · rfl
  have hcreator : (db.mergedRole records groupID targetPeerID role).group = db.group := rfl
  unfold ReplicaStore.isActiveGroupCreatorPeer
  simp only [hany, hcreator]

end

theorem ReadyForRoles.merged (hs : ReadyForRoles node env es s)
    (e : SignedRole node.codec groupID targetPeerID) {records : List ReplicatedRecordRow} :
    ReadyForRoles node env es
      { s with db := s.db.mergedRole records groupID targetPeerID e.role } where
  keys := hs.keys
  creator e' he' := (isActiveGroupCreatorPeer_mergedRole e.role_ne_creator).trans
    (hs.creator e' he')
  member := by
    rw [activeRole_mergedRole e.trim_group e.trim_target hs.member]
    intro h
    obtain ⟨_, -, h⟩ := Option.map_eq_some_iff.mp h
    exact e.role_ne_creator h
  recorded := hs.recorded

theorem SignedRole.effective (hs : ReadyForRoles node env es s)
    (e : SignedRole node.codec groupID targetPeerID) {records : List ReplicatedRecordRow}
    (hrow : getReplicatedRecord records .groupRole (groupRoleRecordKey groupID targetPeerID) =
      some ((roleEntries node.codec node.hash groupID targetPeerID).row e)) :
    node.effectiveRole (s.db.mergedRole records groupID targetPeerID e.role) groupID
      targetPeerID = e.role := by
  unfold ReplicaNode.effectiveRole
  rw [activeRole_mergedRole e.trim_group e.trim_target hs.member]
  cases hactive : activeRole (s.db.getGroupMember groupID targetPeerID) with
  | some _ => rfl
  | none =>
    have hbody : ((roleEntries node.codec node.hash groupID targetPeerID).row e).bodyJSON =
        e.text.wireJSON := rfl
    have hrecord : getReplicatedRecord
      (s.db.mergedRole records groupID targetPeerID e.role).records .groupRole
        (groupRoleRecordKey groupID targetPeerID) =
          some ((roleEntries node.codec node.hash groupID targetPeerID).row e) := hrow
    have hcreator : ¬
      (trimSpace (((s.db.mergedRole records groupID targetPeerID e.role).group groupID).map
        (·.creatorPeerID) |>.getD "") ≠ "" ∧
        targetPeerID = trimSpace (((s.db.mergedRole records groupID
          targetPeerID e.role).group groupID).map (·.creatorPeerID) |>.getD "")) :=
      fun h => hs.recorded h.2.symm
    unfold ReplicaNode.resolveGroupMemberRole
    dsimp only [Option.map_none, Option.getD_none]
    rw [e.trim_group, e.trim_target, if_neg (by simp [e.named]), if_neg hcreator, hrecord]
    simp [hbody, e.body, e.decodes, e.parsed]

theorem SignedRole.record_normalize (e : SignedRole node.codec groupID targetPeerID) :
    (node.record .groupRole (groupRoleRecordKey e.wire.groupID e.wire.targetPeerID) e.actorPeerID
      e.wire.revision
      e.text (hexEncode e.key)).normalize =
        (roleEntries node.codec node.hash groupID targetPeerID).row e := by
  rw [GroupCoordination.record_normalize]
  unfold groupRoleRecordKey
  rw [e.group, e.target]
  simp [roleEntries, SignedRole.actorPeerID, trimSpace_idem, groupRoleRecordKey, e.trim_group,
    e.trim_target]

theorem roleDelivery (node : ReplicaNode) (hw : StatementsWork env)
    (es : List (SignedRole node.codec groupID targetPeerID)) :
    RecordDelivery node.hash .groupRole (groupRoleRecordKey groupID targetPeerID)
      (roleEntries node.codec node.hash groupID targetPeerID) es
      (fun s e => node.receive .groupRole env s e.text)
      (fun s => node.effectiveRole s.db groupID targetPeerID) (ReadyForRoles node env es)
      (fun e => node.record .groupRole
        (groupRoleRecordKey e.wire.groupID e.wire.targetPeerID) e.actorPeerID
        e.wire.revision e.text (hexEncode e.key)) where
  ns_eq e := rfl
  key_eq e := by
    change trimSpace (groupRoleRecordKey e.wire.groupID e.wire.targetPeerID) = _
    unfold groupRoleRecordKey
    rw [e.group, e.target, e.trim_group, e.trim_target]
  row_eq e := e.record_normalize
  rev_eq e := rfl
  valid e := by
    rw [e.record_normalize]
    refine storedRow_validate (trimSpace_ne_empty ?_ (by decide : isSpace '|' = false))
      e.actor e.positive
    simp [groupRoleRecordKey]
  refused s e err he hs hmerge :=
    receive_of_exec e.applied ((exec_rolePush hw hs he _ rfl).1 err hmerge)
  merged s e records he hs hmerge := by
    rw [receive_of_exec e.applied ((exec_rolePush hw hs he _ rfl).2 records hmerge)]
    exact ⟨hs.merged e, rfl, fun hrow => e.effective hs hrow⟩

end

-- -------- Convergence

theorem SignedPolicy.value_of_row {codec : ReplicaCodec} {hash : Hash} {groupID : String}
    (a b : SignedPolicy codec groupID)
    (h : (policyEntries codec hash groupID).row a = (policyEntries codec hash groupID).row b) :
    (policyEntries codec hash groupID).value a = (policyEntries codec hash groupID).value b := by
  have hbody : a.text.wireJSON = b.text.wireJSON := congrArg bodyJSON h
  have hwire : a.wire = b.wire := by
    have ha := a.decodes
    rw [hbody, b.decodes] at ha
    exact (Option.some.inj ha).symm
  have hpolicy := a.normalized
  rw [hwire, b.normalized] at hpolicy
  exact congrArg some (Except.ok.inj hpolicy).symm

theorem SignedRole.value_of_row {codec : ReplicaCodec} {hash : Hash} {groupID targetPeerID : String}
    (a b : SignedRole codec groupID targetPeerID)
    (h : (roleEntries codec hash groupID targetPeerID).row a =
      (roleEntries codec hash groupID targetPeerID).row b) :
    (roleEntries codec hash groupID targetPeerID).value a =
      (roleEntries codec hash groupID targetPeerID).value b := by
  have hbody : a.text.wireJSON = b.text.wireJSON := congrArg bodyJSON h
  have hwire : a.wire = b.wire := by
    have ha := a.decodes
    rw [hbody, b.decodes] at ha
    exact (Option.some.inj ha).symm
  calc a.role
    _ = parseGroupMemberRole a.wire.newRole := a.parsed.symm
    _ = parseGroupMemberRole b.wire.newRole := by rw [hwire]
    _ = b.role := b.parsed

section

variable (codec : ReplicaCodec) (hash : Hash)

abbrev ReplicaNode.running (node : ReplicaNode) : ReplicaNode := { node with codec, hash }

/-- Two nodes that receive the same signed records, each in an order of its own and any number of
times, end with the same record and the same policy or role, whatever the orders, iff all records of
the greatest revision are the same. -/
theorem signed_records_converge_iff (node₁ node₂ : ReplicaNode)
    (env₁ env₂ : ReplicaOp → ReplicaWorld)
    (hw₁ : StatementsWork env₁) (hw₂ : StatementsWork env₂) (s₁ s₂ : ReplicaState) :
    (∀ (groupID : String) (es : List (SignedPolicy codec groupID)),
      ReadyForPolicies (node₁.running codec hash) env₁ es s₁ →
      ReadyForPolicies (node₂.running codec hash) env₂ es s₂ →
      getReplicatedRecord s₁.db.records .groupInvitePolicy groupID = none →
      getReplicatedRecord s₂.db.records .groupInvitePolicy groupID = none →
      (s₁.db.group groupID).map (·.invitePolicy) = (s₂.db.group groupID).map (·.invitePolicy) →
      ((∀ l₁ l₂ : List (SignedPolicy codec groupID),
        (∀ e, e ∈ l₁ ↔ e ∈ es) → (∀ e, e ∈ l₂ ↔ e ∈ es) →
        let s₁' := l₁.foldl (fun s e =>
          (node₁.running codec hash).receive .groupInvitePolicy env₁ s e.text) s₁
        let s₂' := l₂.foldl (fun s e =>
          (node₂.running codec hash).receive .groupInvitePolicy env₂ s e.text) s₂
        getReplicatedRecord s₁'.db.records .groupInvitePolicy groupID =
            getReplicatedRecord s₂'.db.records .groupInvitePolicy groupID ∧
          (s₁'.db.group groupID).map (·.invitePolicy) =
            (s₂'.db.group groupID).map (·.invitePolicy)) ↔
        (policyEntries codec hash groupID).OneLatest es)) ∧
    ∀ (groupID targetPeerID : String) (es : List (SignedRole codec groupID targetPeerID)),
      ReadyForRoles (node₁.running codec hash) env₁ es s₁ →
      ReadyForRoles (node₂.running codec hash) env₂ es s₂ →
      getReplicatedRecord s₁.db.records .groupRole
        (groupRoleRecordKey groupID targetPeerID) = none →
      getReplicatedRecord s₂.db.records .groupRole
        (groupRoleRecordKey groupID targetPeerID) = none →
      (node₁.running codec hash).effectiveRole s₁.db groupID targetPeerID =
        (node₂.running codec hash).effectiveRole s₂.db groupID targetPeerID →
      ((∀ l₁ l₂ : List (SignedRole codec groupID targetPeerID),
        (∀ e, e ∈ l₁ ↔ e ∈ es) → (∀ e, e ∈ l₂ ↔ e ∈ es) →
        let s₁' := l₁.foldl (fun s e =>
          (node₁.running codec hash).receive .groupRole env₁ s e.text) s₁
        let s₂' := l₂.foldl (fun s e =>
          (node₂.running codec hash).receive .groupRole env₂ s e.text) s₂
        getReplicatedRecord s₁'.db.records .groupRole (groupRoleRecordKey groupID targetPeerID) =
            getReplicatedRecord s₂'.db.records .groupRole
              (groupRoleRecordKey groupID targetPeerID) ∧
          (node₁.running codec hash).effectiveRole s₁'.db groupID targetPeerID =
            (node₂.running codec hash).effectiveRole s₂'.db groupID targetPeerID) ↔
        (roleEntries codec hash groupID targetPeerID).OneLatest es) := by
  constructor
  · intro groupID es h₁ h₂ hnone₁ hnone₂ hstart
    exact Merge.agree_iff (policyDelivery (node₁.running codec hash) hw₁ es).register
      (policyDelivery (node₂.running codec hash) hw₂ es).register SignedPolicy.value_of_row h₁ h₂
        hnone₁ hnone₂ hstart
  · intro groupID targetPeerID es h₁ h₂ hnone₁ hnone₂ hstart
    exact Merge.agree_iff (roleDelivery (node₁.running codec hash) hw₁ es).register
      (roleDelivery (node₂.running codec hash) hw₂ es).register SignedRole.value_of_row h₁ h₂
        hnone₁ hnone₂ hstart

end

namespace MergeReference

def decodePolicy (text : String) : Option GroupInvitePolicyWire :=
  if text = "open" then some ⟨1, "g", "any_member", "ann", 0, 1⟩
  else if text = "closed" then some ⟨1, "g", "creator_approval", "bob", 0, 1⟩
  else if text = "reopened" then some ⟨1, "g", "any_member", "bob", 0, 2⟩
  else none

def decodeRole (text : String) : Option GroupRoleWire :=
  if text = "admin" then some ⟨1, "e", "g", "cid", "admin", "ann", 0, 1, 0⟩ else none

def codec : ReplicaCodec where
  profile := ⟨fun _ => "", fun _ => none⟩
  groupAvatar := ⟨fun _ => "", fun _ => none⟩
  groupRole := ⟨fun _ => "", decodeRole⟩
  groupInvitePolicy := ⟨fun _ => "", decodePolicy⟩
  sign key text := List.replicate 63 (key.headD 0) ++ [Fin.ofNat 256 text.length]
  verify key text signature :=
    signature = List.replicate 63 (key.headD 0) ++ [Fin.ofNat 256 text.length]

def annKey : Bytes := List.replicate 32 1
def bobKey : Bytes := List.replicate 32 2

def signedPolicy (text : String) (wire : GroupInvitePolicyWire) (key : Bytes)
    (policy : GroupInvitePolicy) (decodes : decodePolicy text = some wire) (current : wire.v = 1)
    (group : trimSpace wire.groupID = "g") (actor : trimSpace wire.actorPeerID ≠ "")
    (normalized : normalizeGroupInvitePolicy wire.policy = .ok policy)
    (positive : 0 < wire.revision) : SignedPolicy codec "g" where
  text := ⟨text, codec.sign key text⟩
  wire := wire
  key := key
  policy := policy
  decodes := decodes
  version_eq := current
  size := by simp [codec, ed25519SignatureSize]
  verified := by simp [codec]
  group := group
  named := by decide
  actor := actor
  normalized := normalized
  positive := positive

def openAll : SignedPolicy codec "g" :=
  signedPolicy "open" ⟨1, "g", "any_member", "ann", 0, 1⟩ annKey .anyMember (by decide) rfl
    (by decide +kernel) (by decide +kernel) (by decide +kernel) (by decide)

def closeAll : SignedPolicy codec "g" :=
  signedPolicy "closed" ⟨1, "g", "creator_approval", "bob", 0, 1⟩ bobKey .creatorApproval
    (by decide) rfl
    (by decide +kernel) (by decide +kernel) (by decide +kernel) (by decide)

def reopenAll : SignedPolicy codec "g" :=
  signedPolicy "reopened" ⟨1, "g", "any_member", "bob", 0, 2⟩ bobKey .anyMember (by decide) rfl
    (by decide +kernel) (by decide +kernel) (by decide +kernel) (by decide)

def promoteCid : SignedRole codec "g" "cid" where
  text := ⟨"admin", codec.sign annKey "admin"⟩
  wire := ⟨1, "e", "g", "cid", "admin", "ann", 0, 1, 0⟩
  key := annKey
  role := .admin
  decodes := by decide
  version_eq := rfl
  size := by decide
  verified := by decide
  group := by decide +kernel
  target := by decide +kernel
  named := by decide
  actor := by decide +kernel
  named_role := .inl ⟨by decide +kernel, rfl⟩
  body := by decide
  positive := by decide

def node : ReplicaNode where
  codec := codec
  hash := Reference.hash
  me := "dan"
  displayName := "Dan"
  publicKey := List.replicate 32 5
  signingKey := List.replicate 32 5

def directory : PeerDirectory := [
  { peerID := "ann", displayName := "Ann", publicKeyHex := hexEncode annKey },
  { peerID := "bob", displayName := "Bob", publicKeyHex := hexEncode bobKey }]

def joined (members : List GroupMemberRow) : ReplicaState where
  db :=
    { directory
      groups := [{ groupID := "g", creatorPeerID := "ann" }]
      members := [
        { groupID := "g", peerID := "ann", role := .creator, status := .active },
        { groupID := "g", peerID := "bob", role := .admin, status := .active }] ++ members }

def cidRow : GroupMemberRow :=
  { groupID := "g", peerID := "cid", role := .member, status := .active }

def policyAfter (entries : List (SignedPolicy codec "g")) : Option GroupInvitePolicy :=
  ((entries.foldl (fun s e => node.receive .groupInvitePolicy (fun _ => {}) s e.text)
    (joined [])).db.group
    "g").map (·.invitePolicy)

def roleAfter (members : List GroupMemberRow) (entries : List (SignedRole codec "g" "cid")) :
    GroupMemberRole :=
  node.effectiveRole (entries.foldl (fun s e => node.receive .groupRole (fun _ => {}) s e.text)
    (joined members)).db "g" "cid"

theorem knows_ann :
    ∃ profile, directory.row "ann" = some profile ∧ signerKey profile = .ok annKey :=
  ⟨{ peerID := "ann", displayName := "Ann", publicKeyHex := hexEncode annKey }, by decide +kernel⟩

theorem knows_bob :
    ∃ profile, directory.row "bob" = some profile ∧ signerKey profile = .ok bobKey :=
  ⟨{ peerID := "bob", displayName := "Bob", publicKeyHex := hexEncode bobKey }, by decide +kernel⟩

theorem ready_policies : ReadyForPolicies (node.running codec Reference.hash) (fun _ => {})
    [openAll, reopenAll] (joined []) where
  group := rfl
  keys e he := by
    simp only [List.mem_cons, List.not_mem_nil, or_false] at he
    rcases he with rfl | rfl
    · exact knows_ann
    · exact knows_bob
  authorized e he := by
    simp only [List.mem_cons, List.not_mem_nil, or_false] at he
    rcases he with rfl | rfl
    · decide +kernel
    · decide +kernel

theorem ready_roles (members : List GroupMemberRow)
    (hcreator : (joined members).db.isActiveGroupCreatorPeer
      (fun _ => "") "g" promoteCid.actorPeerID = true)
    (hmember : activeRole ((joined members).db.getGroupMember "g" "cid") ≠ some .creator)
    (hrecorded : trimSpace
      (((joined members).db.group "g").map (·.creatorPeerID) |>.getD "") ≠ "cid") :
    ReadyForRoles (node.running codec Reference.hash) (fun _ => {}) [promoteCid]
      (joined members) where
  keys e he := by
    obtain rfl := List.mem_singleton.mp he
    exact knows_ann
  creator e he := by
    obtain rfl := List.mem_singleton.mp he
    exact hcreator
  member := hmember
  recorded := hrecorded

end MergeReference

open MergeReference in
/-- Two policies of different revisions in two orders, and a role at a node that has no row for the
member yet. -/
theorem converges_in_two_orders :
    policyAfter [openAll, reopenAll] = policyAfter [reopenAll, openAll, openAll] ∧
      roleAfter [cidRow] [promoteCid] = roleAfter [] [promoteCid, promoteCid] := by
  have hwork : StatementsWork fun _ => {} := ⟨fun _ => rfl, fun _ => rfl⟩
  refine ⟨?_, ?_⟩
  · have hlatest : (policyEntries codec Reference.hash "g").OneLatest [openAll, reopenAll] := by
      have hopen : ¬ (policyEntries codec Reference.hash "g").Latest [openAll, reopenAll] openAll :=
        fun h => absurd (h.2 reopenAll (by simp)) (by decide)
      rintro a b ha hb
      have hre : ∀ e, (policyEntries codec Reference.hash "g").Latest [openAll, reopenAll] e →
          e = reopenAll := by
        intro e he
        rcases List.mem_cons.mp he.1 with rfl | hmem
        · exact absurd he hopen
        · exact List.mem_singleton.mp hmem
      rw [hre a ha, hre b hb]
    have horder : ∀ e, e ∈ [reopenAll, openAll, openAll] ↔ e ∈ [openAll, reopenAll] := by
      intro e
      simp [or_comm]
    exact (((signed_records_converge_iff codec Reference.hash node node (fun _ => {})
      (fun _ => {}) hwork hwork
      (joined []) (joined [])).1 "g" [openAll, reopenAll] ready_policies ready_policies rfl rfl
        rfl).mpr hlatest
      [openAll, reopenAll] [reopenAll, openAll, openAll] (fun _ => Iff.rfl) horder).2
  · have hlatest : (roleEntries codec Reference.hash "g" "cid").OneLatest [promoteCid] := by
      rintro a b ha hb
      rw [List.mem_singleton.mp ha.1, List.mem_singleton.mp hb.1]
    exact (((signed_records_converge_iff codec Reference.hash node node (fun _ => {})
      (fun _ => {}) hwork hwork
      (joined [cidRow]) (joined [])).2 "g" "cid" [promoteCid]
      (ready_roles _ (by decide +kernel) (by decide +kernel) (by decide +kernel))
      (ready_roles _ (by decide +kernel) (by decide +kernel) (by decide +kernel)) rfl rfl
        (by decide +kernel)).mpr hlatest
      [promoteCid] [promoteCid, promoteCid] (fun _ => Iff.rfl) (fun e => by simp)).2

open MergeReference in
/-- Ann opens the group and Bob closes it, both from the same revision. Each node keeps what it
hears first. -/
theorem first_policy_stays :
    policyAfter [openAll, closeAll] = some .anyMember ∧
      policyAfter [closeAll, openAll] = some .creatorApproval := by
  decide +kernel

end GroupCoordination
