import GroupCoordination.Model.Replica

/-!
# Pulling records from a peer

The requests that a node builds from its tables, what a peer serves, and the pull of the four
namespaces one after the other, from `replicated_sync.go` and `replicated_store_wire.go`. Both sides
are verified and the stream carries what is written to it. A peer that refuses a request, or cannot
write a record, closes the stream without the frame that ends it, which the puller sees as an error.
-/

namespace GroupCoordination

structure ReplicaPullRequest where
  ns : ReplicaNamespace
  keys : List String
  cursors : List (String × Int)
  deriving DecidableEq

/-- The sizes of the JSON texts on the stream: of a string with its quotes, and of the header of a
record. -/
structure ReplicaSizes where
  quoted : String → Nat
  header : String → Int → Nat

def ReplicaNamespace.text : ReplicaNamespace → String
  | .userProfile => "user.profile.v1"
  | .groupAvatar => "group.avatar.v1"
  | .groupRole => "group.role.v1"
  | .groupInvitePolicy => "group.invite_policy.v1"

def commaSeparated (lengths : List Nat) : Nat := lengths.sum + (lengths.length - 1)

def ReplicaSizes.request (sizes : ReplicaSizes) (req : ReplicaPullRequest) : Nat :=
  "\x7b\"v\":1,\"namespace\":".length + sizes.quoted req.ns.text +
    ",\"keys\":[".length + commaSeparated (req.keys.map sizes.quoted) +
    "],\"cursors\":\x7b".length +
    commaSeparated (req.cursors.map fun (key, cursor) =>
      sizes.quoted key + ":".length + (toString cursor).length) +
    "\x7d\x7d".length

def maxReplicaMetaBytes : Nat := 4096
def maxReplicaWireBytes : Nat := 64 * 1024
def maxReplicaSigBytes : Nat := 128
def maxReplicaBlobBytes : Nat := 256 * 1024
def maxReplicaReqBytes : Nat := 64 * 1024

-- -------- Requests

def addKeys (keys : List String) (more : List String) : List String :=
  more.foldl (fun keys key => if key ∈ keys then keys else keys ++ [key]) keys

variable (db : ReplicaStore)

def ReplicaStore.listJoinedGroupChatIDs (limit : Nat) : List String :=
  (((db.groups.filter fun group => group.groupType = "group" ∧
    group.lifecycle = .active).take limit).map
    fun group => trimSpace group.groupID).filter (· ≠ "")

def ReplicaStore.groupRoleKeys : List String :=
  ((db.listJoinedGroupChatIDs 256).flatMap fun groupID =>
    (db.members.filter fun row => row.groupID = groupID ∧ row.peerID ≠ "" ∧
      row.status = .active).map
      fun row => groupRoleRecordKey groupID row.peerID).filter (· ≠ "|")

def ReplicaStore.pullKeys (remote self : String) : ReplicaNamespace → List String
  | .userProfile => addKeys [remote] (db.directory.listKnownProfilePeerIDs self 256)
  | .groupAvatar => db.listJoinedGroupChatIDs 256
  | .groupRole => addKeys [] db.groupRoleKeys
  | .groupInvitePolicy => db.listJoinedGroupChatIDs 256

def ReplicaStore.buildPullRequest (remote self : String) (ns : ReplicaNamespace) :
    Option ReplicaPullRequest :=
  let keys := db.pullKeys remote self ns
  if keys = [] then none
  else some
    { ns, keys
      cursors := (addKeys [] keys).map fun key =>
        (key, getReplicatedPullCursor db.cursors remote ns key) }

-- -------- Serving

def maxPullKeys : ReplicaNamespace → Nat
  | .groupRole => 512
  | _ => 256

def ReplicaStore.serveKey (blob : ReplicaNamespace → String → Bytes)
    (req : ReplicaPullRequest) (key : String) : Option ReplicaFrame := do
  let key := trimSpace key
  if key = "" then none
  else
    let row ← getReplicatedRecord db.records req.ns key
    if row.revision ≤ (req.cursors.lookup key).getD 0 then none
    else some ⟨key, row.revision, ⟨row.bodyJSON, row.signature⟩, blob req.ns row.bodyJSON⟩

def ReplicaFrame.fits (sizes : ReplicaSizes) (frame : ReplicaFrame) : Bool :=
  sizes.header frame.key frame.revision ≤ maxReplicaMetaBytes ∧
    (stringBytes frame.text.wireJSON).length ≤ maxReplicaWireBytes ∧
    frame.text.signature.length ≤ maxReplicaSigBytes ∧ frame.blob.length ≤ maxReplicaBlobBytes

structure ServedStream where
  frames : List ReplicaFrame
  ended : Bool

/-- `serveReplicaStoreP2P` behind the handler of the stream: records are written until one does not
fit. -/
def ReplicaStore.serveReplicaStoreP2P (sizes : ReplicaSizes)
    (blob : ReplicaNamespace → String → Bytes) (req : ReplicaPullRequest) : ServedStream :=
  if req.keys.length > maxPullKeys req.ns then ⟨[], false⟩
  else
    let frames := req.keys.filterMap (db.serveKey blob req)
    ⟨frames.takeWhile (·.fits sizes), frames.all (·.fits sizes)⟩

-- -------- Pulling

/-- The loop of `PullReplicaStoreRecords`. The frame in place `i` is applied in the world `env
i`. -/
def pullFrames (node : ReplicaNode) (remote : String) (ns : ReplicaNamespace)
    (env : Nat → ReplicaOp → ReplicaWorld) :
    List ReplicaFrame → ReplicaState → Except ReplicaError Unit × ReplicaState
  | [], s => (.ok (), s)
  | frame :: rest, s =>
    match (pullRecord node remote ns frame).exec (replicaMachine node) (env 0) s with
    | some (.ok (), s') => pullFrames node remote ns (fun i => env (i + 1)) rest s'
    | some (.error err, s') => (.error err, s')
    | none => (.ok (), s)

def pullReplicaStoreRecords (node : ReplicaNode) (sizes : ReplicaSizes)
    (env : ReplicaNamespace → Nat → ReplicaOp → ReplicaWorld) (remote : String)
    (server : ReplicaPullRequest → ServedStream) (req : ReplicaPullRequest) (s : ReplicaState) :
    Except ReplicaError Unit × ReplicaState :=
  if sizes.request req > maxReplicaReqBytes then
    (.error (.other "replica pull request too large"), s)
  else
    match pullFrames node remote req.ns (env req.ns) (server req).frames s with
    | (.error err, s') => (.error err, s')
    | (.ok (), s') => (if (server req).ended then .ok () else .error (.other "EOF"), s')

def pullNamespaces (node : ReplicaNode) (sizes : ReplicaSizes)
    (env : ReplicaNamespace → Nat → ReplicaOp → ReplicaWorld) (remote : String)
    (server : ReplicaPullRequest → ServedStream) :
    List ReplicaNamespace → ReplicaState → Except ReplicaError Unit × ReplicaState
  | [], s => (.ok (), s)
  | ns :: rest, s =>
    match s.db.buildPullRequest remote node.me ns with
    | none => pullNamespaces node sizes env remote server rest s
    | some req =>
      match pullReplicaStoreRecords node sizes env remote server req s with
      | (.error err, s') => (.error err, s')
      | (.ok (), s') => pullNamespaces node sizes env remote server rest s'

def pullOrder :
    List ReplicaNamespace := [.userProfile, .groupAvatar, .groupRole, .groupInvitePolicy]

end GroupCoordination
