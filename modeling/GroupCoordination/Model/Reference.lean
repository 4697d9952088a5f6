import GroupCoordination.Lib.Fallible
import GroupCoordination.Model.System

/-!
# A reference engine

A small engine with the behaviour the coordinator relies on, and a node that runs on it.
Its group state is a mark, the epoch and the pending proposals; a proposal is its epoch
and an identifier, and is its own reference. Like the engine of `mls.rs` it stores what it
creates or processes until the epoch changes, refuses proposals and commits of another
epoch, commits only when the expected references are the pending ones, and stages a commit
only when it knows every proposal in it.
-/

namespace GroupCoordination

namespace Reference

def pending : Bytes → List Bytes
  | 1 :: e :: ids => ids.map ([e, ·])
  | _ => []

def epoch : Bytes → Nat
  | 1 :: e :: _ => e
  | _ => 0

def store (e : Byte) (ids : Bytes) (id : Byte) : Bytes :=
  if id ∈ ids then 1 :: e :: ids else 1 :: e :: (ids ++ [id])

def createProposal (groupState : Bytes) (pType : ProposalType) (data : Bytes) :
    Except String CreateProposalResult :=
  match groupState with
  | 1 :: e :: ids =>
    if 2 < pType.code then .error "unknown proposal type"
    else
      let id : Byte := Fin.ofNat 256 (pType.code + (data.map Fin.val).sum)
      .ok { proposalBytes := [e, id], proposalRef := [e, id], newGroupState := store e ids id }
  | _ => .error "import_state"

def processProposal (groupState proposalBytes : Bytes) : Except String ProcessProposalResult :=
  match groupState, proposalBytes with
  | 1 :: e :: ids, [e', id] =>
    if e' ≠ e then .error "process_message (proposal): WrongEpoch"
    else .ok { proposalRef := [e, id], newGroupState := store e ids id }
  | _, _ => .error "deserialize proposal"

def createCommit (groupState : Bytes) (expectedRefs : List Bytes) :
    Except String CreateCommitResult :=
  match groupState with
  | 1 :: e :: ids =>
    let refs := ids.dedup.map ([e, ·])
    if expectedRefs ≠ [] ∧ !proposalRefSetsEqual refs expectedRefs then
      .error "pending proposal refs mismatch"
    else if ids = [] then .error "no pending proposals to commit"
    else if e = 255 then .error "epoch"
    else .ok
      { commitBytes := 7 :: e :: ids
        welcomeBytes := [8, e + 1]
        committedProposalRefs := refs
        newGroupState := [1, e + 1]
        newTreeHash := [e + 1] }
  | _ => .error "import_state"

def stage (groupState commitData : Bytes) (included : List Bytes) :
    Except String (Byte × List Bytes) :=
  match groupState, commitData with
  | 1 :: e :: ids, 7 :: e' :: committed =>
    if e' ≠ e then .error "process_message (commit): WrongEpoch"
    else if !included.all (fun p => p.length = 2 ∧ p.head? = some e) then
      .error "process_message (proposal): WrongEpoch"
    else if !committed.all (fun id => id ∈ ids ∨ [e, id] ∈ included) then
      .error "process_message (commit): MissingProposal"
    else if e = 255 then .error "epoch"
    else .ok (e, committed.map ([e, ·]))
  | _, _ => .error "deserialize commit"

def engine : MLSEngine where
  createGroup _ _ _ := .ok ([1, 0], [0])
  createProposal := createProposal
  processProposal := processProposal
  createCommit := createCommit
  stageCommit groupState commitData included := (stage groupState commitData included).map (·.2)
  processCommit groupState commitData included :=
    (stage groupState commitData included).map fun (e, _) => ([1, e + 1], [e + 1])
  processWelcome welcome _ _ _ := match welcome with
    | [8, e] => .ok ([1, e], [e], e)
    | _ => .error "deserialize welcome"
  generateKeyPackage _ := .ok ([5], [6])
  hasMember _ _ := .ok true
  encryptMessage groupState plaintext := match groupState with
    | 1 :: e :: _ => .ok (9 :: e :: plaintext, groupState)
    | _ => .error "import_state"
  decryptMessage groupState ciphertext := match groupState, ciphertext with
    | 1 :: e :: _, 9 :: e' :: plaintext =>
      if e' ≤ e then .ok (plaintext, groupState) else .error "process_message: WrongEpoch"
    | _, _ => .error "deserialize message"

theorem epoch_succ {e : Byte} (h : e ≠ 255) : (e + 1).val = e.val + 1 := by
  have hlt : e.val + 1 < 256 := by
    have hne : e.val ≠ 255 := fun heq => h (Fin.ext heq)
    have := e.isLt
    omega
  exact Fin.val_add_one_of_lt' hlt

theorem createProposal_ok (h : createProposal groupState pType data = .ok result) :
    ∃ e ids id, groupState = 1 :: e :: ids ∧
      id = Fin.ofNat 256 (pType.code + (data.map Fin.val).sum) ∧
      result = { proposalBytes := [e, id], proposalRef := [e, id],
                 newGroupState := store e ids id } := by
  unfold createProposal at h
  split at h
  · split at h <;> cases h
    exact ⟨_, _, _, rfl, rfl, rfl⟩
  · cases h

theorem processProposal_ok (h : processProposal groupState data = .ok result) :
    ∃ e ids id, groupState = 1 :: e :: ids ∧ data = [e, id] ∧
      result = { proposalRef := [e, id], newGroupState := store e ids id } := by
  unfold processProposal at h
  split at h
  · split at h
    · cases h
    next he =>
      cases h
      exact ⟨_, _, _, rfl, by rw [not_not.mp he], rfl⟩
  · cases h

theorem createCommit_ok (h : createCommit groupState refs = .ok result) :
    ∃ e ids, groupState = 1 :: e :: ids ∧ e ≠ 255 ∧ result.newGroupState = [1, e + 1] := by
  unfold createCommit at h
  split at h
  · dsimp only at h
    split at h
    · cases h
    split at h
    · cases h
    split at h <;> cases h
    next he => exact ⟨_, _, rfl, he, rfl⟩
  · cases h

theorem stage_ok (h : stage groupState commitData included = .ok (e, refs)) :
    ∃ ids, ∃ committed : Bytes, groupState = 1 :: e :: ids ∧ e ≠ 255 ∧
      refs = committed.map ([e, ·]) ∧
      ∀ p ∈ included, p.length = 2 ∧ p.head? = some e := by
  unfold stage at h
  split at h
  · split at h
    · cases h
    split at h
    · cases h
    rename_i hall
    split at h
    · cases h
    split at h <;> cases h
    next he => exact ⟨_, _, rfl, he, rfl, by simpa using hall⟩
  · cases h

theorem encryptMessage_ok
    (h : engine.encryptMessage groupState plaintext = .ok (ciphertext, newState)) :
    newState = groupState ∧ groupState ≠ [] := by
  simp only [engine] at h
  split at h <;> cases h
  exact ⟨rfl, List.cons_ne_nil _ _⟩

theorem decryptMessage_ok (h : engine.decryptMessage groupState ciphertext = .ok
    (plaintext, newState)) : newState = groupState ∧ groupState ≠ [] := by
  simp only [engine] at h
  split at h
  · split at h <;> cases h
    exact ⟨rfl, List.cons_ne_nil _ _⟩
  · cases h

def hash : Hash where
  sum input := (input.reverse ++ List.replicate 32 0).take 32
  size input := by simp

def payloadBytes : Payload → Bytes
  | .commit msg => msg.commitData ++ (msg.includedProposals.map (·.data)).flatten
  | .application ciphertext => ciphertext
  | .applicationBatched ciphertext => ciphertext
  | .proposal msg => msg.data
  | _ => []

def typeByte : MessageType → Byte
  | .proposal => 1
  | .commit => 2
  | .application => 3
  | .applicationBatched => 4
  | _ => 0

def codec : Codec where
  wireBytes
    | .json env spelling =>
      [typeByte env.type, Fin.ofNat 256 env.epoch, Fin.ofNat 256 spelling,
        Fin.ofNat 256 env.timestamp.counter] ++ payloadBytes env.payload
    | .raw bytes => 255 :: bytes
  encodeBatch events := events.flatMap (·.plaintext.getD [])
  decodeBatch bytes := some (bytes.map fun b => { eventID := "event", plaintext := some [b] })

def peers : PeerCodec where
  toString pid := String.ofList (pid.map fun b : Byte => Char.ofNat b.val)
  decode name := if name = "" then none else some (name.toList.map fun c => Fin.ofNat 256 c.toNat)

theorem toNat_ofNat_byte (b : Byte) : (Char.ofNat b.val).toNat = b.val := by
  have hb := b.isLt
  have hv : b.val.isValidChar := .inl (by omega)
  rw [Char.ofNat, dif_pos hv]
  rfl

theorem peers_toString_ne {pid : PeerID} (hne : pid ≠ []) : peers.toString pid ≠ "" := by
  intro h
  have hnil := congrArg String.toList h
  simp only [peers, String.toList_ofList] at hnil
  exact hne (List.map_eq_nil_iff.mp hnil)

theorem peers_lawful : peers.Lawful where
  toString_ne _ := peers_toString_ne
  decode_toString pid hne := by
    have hname := peers_toString_ne hne
    simp only [peers] at hname
    simp only [peers, hname, if_false, String.toList_ofList, List.map_map]
    congr 1
    refine (List.map_congr_left fun b _ => ?_).trans (List.map_id pid)
    exact Fin.ext (by simp [toNat_ofNat_byte])
  decode_ne_nil name pid h := by
    rintro rfl
    simp only [peers] at h
    split at h
    · cases h
    next hne =>
      simp at h
      exact hne h

def node (cfg : CoordinatorConfig) (valid : cfg.validate = .ok ()) (localID : PeerID) : Node where
  cfg := cfg
  valid := valid
  localID := localID
  groupID := "g"
  signingKey := [3]
  localIdentity := [4]
  hash := hash
  codec := codec
  peers := peers
  onSyncRequired := false

def member (pid : PeerID) : Node := node .testConfig CoordinatorConfig.testConfig_valid pid

def world : World where
  now := 0
  engine := engine
  authorized := none
  works _ _ := true
  connectedPeers := []
  sealer := { sealPayload := fun _ p => .ok (p, [0]), openPayload := fun p _ => .ok p }
  freshID := "fresh"
  rotation := 0

def receiver : Ctx := { member [65], world with }

def commitMsg (e id : Byte) (proposal : ProposalMsg) : CommitMsg where
  commitData := [7, e, id]
  newTreeHash := [e + 1]
  includedProposals := [{ proposal with data := [e, id], proposalRef := [e, id] }]
  committedProposalRefs := [[e, id]]

def wire (e : Byte) (sender : PeerID) (msgType : MessageType) (payload : Payload) : Wire :=
  Envelope.marshal
    { type := msgType, groupID := "g", epoch := e, «from» := peers.toString sender, timestamp := {},
      payload }

theorem world_writesSucceed : world.WritesSucceed := fun _ _ _ => rfl

def action (op : Op) : Action := { world, fuel := 4, op }

def boot (node : Node) (view : List PeerID) : Option State :=
  let x : Ctx := { node, world with }
  (createGroup x (newCoordinator x view {})).toOption.bind fun b => (start x b).toOption

def trace (node : Node) (view : List PeerID) (actions : List Action) : Option State :=
  (boot node view).bind (Transition.exec (step node) actions)

theorem boot_booted {node : Node} {allowed : World → Prop} (h : boot node view = some s)
    (ok : allowed world) : Booted node allowed s := by
  unfold boot at h
  obtain ⟨b, hcreate, hstart⟩ := Option.bind_eq_some_iff.mp h
  exact .created world ok view {} (Fallible.toOption_eq_some hcreate)
    (Fallible.toOption_eq_some hstart)

def foundsOver (db : Storage) (pid : PeerID) : Option State :=
  let x : Ctx := { member pid, world with }
  (createGroup x (newCoordinator x [pid] db)).toOption.bind fun b => (start x b).toOption

theorem foundsOver_booted {allowed : World → Prop} (h : foundsOver db pid = some s)
    (ok : allowed world) : Booted (member pid) allowed s := by
  unfold foundsOver at h
  obtain ⟨b, hcreate, hstart⟩ := Option.bind_eq_some_iff.mp h
  exact .created world ok [pid] db (Fallible.toOption_eq_some hcreate)
    (Fallible.toOption_eq_some hstart)

theorem trace_run {node : Node} (h : trace node view actions = some s) :
    ∃ s₀, Booted node (fun _ => True) s₀ ∧
      Transition.Run (step node) (fun _ _ => True) s₀ s := by
  obtain ⟨s₀, hboot, hexec⟩ := Option.bind_eq_some_iff.mp h
  exact ⟨s₀, boot_booted hboot trivial, .of_exec hexec fun _ _ _ => trivial⟩

end Reference

end GroupCoordination
