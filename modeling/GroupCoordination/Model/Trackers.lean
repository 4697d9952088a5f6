import GroupCoordination.Model.Config

/-!
# Epochs, peers and branches

What a coordinator keeps track of. `epoch.go`: the local epoch and the messages of later epochs kept
until it is reached. The map of future messages is a function whose absent keys are empty.

`active_view.go`: the peers believed online, with the number of liveness checks
each has missed. The local peer is in the view from the start and no operation
removes it, so the structure carries that fact.

`fork_healing.go`: which branches of the group are announced by whom, which
commits were rejected here, and which of two branches wins. A branch is
identified by its history hash.
-/

namespace GroupCoordination

-- -------- The epoch tracker

def validateEpoch (msgEpoch localEpoch : Nat) : EpochAction :=
  if msgEpoch = localEpoch then .process
  else if msgEpoch < localEpoch then .rejectStale
  else .bufferFuture

theorem validateEpoch_process : validateEpoch m l = .process ↔ m = l := by
  unfold validateEpoch
  split
  · simp [*]
  · split <;> simp [*]

theorem validateEpoch_future : validateEpoch m l = .bufferFuture ↔ l < m := by
  unfold validateEpoch
  split
  · simp; omega
  · split <;> simp <;> omega

structure EpochTracker where
  epoch : Nat
  treeHash : Bytes
  futureBuffer : Nat → List Wire := fun _ => []

namespace EpochTracker

def new (epoch : Nat) (treeHash : Bytes) : EpochTracker := { epoch, treeHash }

def validate (t : EpochTracker) (msgEpoch : Nat) : EpochAction := validateEpoch msgEpoch t.epoch

def advance (t : EpochTracker) (newEpoch : Nat) (newTreeHash : Bytes) : EpochTracker × List Wire :=
  ({ epoch := newEpoch
     treeHash := newTreeHash
     futureBuffer := fun e => if e ≤ newEpoch then [] else t.futureBuffer e },
   t.futureBuffer newEpoch)

def bufferFuture (t : EpochTracker) (epoch : Nat) (raw : Wire) : EpochTracker :=
  if epoch ≤ t.epoch then t
  else { t with
    futureBuffer := fun e => if e = epoch then t.futureBuffer e ++ [raw] else t.futureBuffer e }

@[simp] theorem bufferFuture_epoch (t : EpochTracker) : (t.bufferFuture e raw).epoch = t.epoch := by
  unfold bufferFuture
  split <;> rfl

theorem bufferFuture_of_lt {t : EpochTracker} (h : t.epoch < e) :
    (t.bufferFuture e raw).futureBuffer =
      fun k => if k = e then t.futureBuffer k ++ [raw] else t.futureBuffer k := by
  unfold bufferFuture
  rw [if_neg (by omega)]

end EpochTracker

-- -------- The active view

structure ActiveView where
  localID : PeerID
  members : List (PeerID × Nat)
  local_mem : localID ∈ members.map Prod.fst

namespace ActiveView

def new (localID : PeerID) : ActiveView where
  localID := localID
  members := [(localID, 0)]
  local_mem := by simp

variable (v : ActiveView)

def contains (pid : PeerID) : Bool := pid ∈ v.members.map Prod.fst

def insert (pid : PeerID) : ActiveView :=
  if v.contains pid then v
  else { v with
    members := v.members ++ [(pid, 0)]
    local_mem := by simp [v.local_mem] }

def seed (ids : List PeerID) : ActiveView :=
  ids.foldl (fun v pid => if pid = [] then v else v.insert pid) v

def recordHeartbeat (pid : PeerID) : ActiveView × Bool :=
  if v.contains pid then
    ({ v with
        members := v.members.map fun m => if m.1 = pid then (m.1, 0) else m
        local_mem := by
          have h : (v.members.map fun m => if m.1 = pid then (m.1, 0) else m).map Prod.fst =
              v.members.map Prod.fst := by
            rw [List.map_map]
            refine List.map_congr_left fun m _ => ?_
            by_cases hm : m.1 = pid <;> simp [hm]
          rw [h]
          exact v.local_mem }, false)
  else (v.insert pid, true)

def survives (cfg : CoordinatorConfig) (localID : PeerID) (m : PeerID × Nat) : Bool :=
  m.1 = localID ∨ ((m.2 + 1 : Nat) : Int) < cfg.peerDeadAfter

def checkLiveness (cfg : CoordinatorConfig) (v : ActiveView) : ActiveView where
  localID := v.localID
  members := (v.members.filter (survives cfg v.localID)).map fun m =>
    if m.1 = v.localID then m else (m.1, m.2 + 1)
  local_mem := by
    obtain ⟨m, hm, he⟩ := List.mem_map.mp v.local_mem
    have hs : survives cfg v.localID m = true := by simp [survives, he]
    rw [List.map_map]
    exact List.mem_map.mpr ⟨m, List.mem_filter.mpr ⟨hm, hs⟩, by simp [he]⟩

def evict (pid : PeerID) : ActiveView where
  localID := v.localID
  members := v.members.filter fun m => m.1 = v.localID ∨ m.1 ≠ pid
  local_mem := by
    obtain ⟨m, hm, he⟩ := List.mem_map.mp v.local_mem
    exact List.mem_map.mpr ⟨m, List.mem_filter.mpr ⟨hm, by simp [he]⟩, he⟩

def sortedMembers : List PeerID :=
  (v.members.map Prod.fst).insertionSort (· ≤ ·)

def size : Nat := v.members.length

theorem mem_sortedMembers {v : ActiveView} : pid ∈ v.sortedMembers ↔ pid ∈ v.members.map Prod.fst :=
  (List.perm_insertionSort _ _).mem_iff

end ActiveView

-- -------- The fork detector

def branchKey (ann : GroupStateAnnouncement) : Bytes := ann.historyHash

def sameBranch (a b : GroupStateAnnouncement) : Bool := branchKey a = branchKey b

theorem sameBranch_iff : sameBranch a b = true ↔ a.historyHash = b.historyHash := decide_eq_true_iff

/-- `compareBranchWeightWithSupport`: valid before invalid, then support, online
members, epoch, greater commit hash, smaller tree hash. -/
def compareBranchWeightWithSupport (loc remote : GroupStateAnnouncement)
    (localSupport remoteSupport : Nat) (localInvalid remoteInvalid : Bool) : BranchResult :=
  if sameBranch loc remote then .equal
  else if localInvalid ≠ remoteInvalid then (if localInvalid then .remote else .local)
  else if localSupport ≠ remoteSupport then
    (if localSupport > remoteSupport then .local else .remote)
  else if loc.memberCount ≠ remote.memberCount then
    (if loc.memberCount > remote.memberCount then .local else .remote)
  else if loc.epoch ≠ remote.epoch then (if loc.epoch > remote.epoch then .local else .remote)
  else if loc.commitHash > remote.commitHash then .local
  else if loc.commitHash < remote.commitHash then .remote
  else if loc.treeHash < remote.treeHash then .local
  else .remote

structure ForkEvent where
  groupID : String := ""
  remotePeer : PeerID
  localAnnounce : GroupStateAnnouncement := {}
  remoteAnnounce : GroupStateAnnouncement
  remoteEpoch : Nat
  result : BranchResult := .remote
  needExternalJoin : Bool
  winnerPeers : List PeerID := []
  partitionStartedAt : Option Int := none
  deriving DecidableEq

structure BranchInfo where
  announcement : GroupStateAnnouncement
  peers : List PeerID
  firstSeenAt : Int
  deriving DecidableEq

structure ForkDetector where
  «local» : Option GroupStateAnnouncement := none
  known : List (Bytes × BranchInfo) := []
  invalidCommits : List Bytes := []
  deriving DecidableEq

namespace ForkDetector

variable (fd : ForkDetector)

def updateLocal (ann : GroupStateAnnouncement) : ForkDetector :=
  let known := match fd.local with
    | some old => if ann.epoch > old.epoch then [] else fd.known
    | none => fd.known
  { fd with «local» := some ann, known := known }

def markInvalidCommit (commitHash : Bytes) : ForkDetector :=
  if commitHash = [] ∨ commitHash ∈ fd.invalidCommits then fd
  else { fd with invalidCommits := commitHash :: fd.invalidCommits }

def isInvalidCommit (commitHash : Bytes) : Bool :=
  commitHash ≠ [] ∧ commitHash ∈ fd.invalidCommits

def reset : ForkDetector := { fd with known := [] }

def find (fd : ForkDetector) (key : Bytes) : Option BranchInfo :=
  (fd.known.find? (·.1 = key)).map Prod.snd

def branchSupport (ann : GroupStateAnnouncement) : Nat :=
  1 + ((fd.find (branchKey ann)).map (·.peers.length)).getD 0

def record (observedAt : Int) (peer : PeerID)
    (ann : GroupStateAnnouncement) : ForkDetector × BranchInfo :=
  match fd.find (branchKey ann) with
  | some bi =>
    let bi' := { bi with
      announcement := ann
      peers := if peer ∈ bi.peers then bi.peers else bi.peers ++ [peer] }
    ({ fd with known := fd.known.map fun e => if e.1 = branchKey ann then (e.1, bi') else e }, bi')
  | none =>
    let bi : BranchInfo := { announcement := ann, peers := [peer], firstSeenAt := observedAt }
    ({ fd with known := fd.known ++ [(branchKey ann, bi)] }, bi)

def processRemote (observedAt : Int) (peer : PeerID) (remoteEpoch : Nat)
    (ann : GroupStateAnnouncement) : ForkDetector × Option ForkEvent :=
  match fd.local with
  | none => (fd, none)
  | some loc =>
    let (fd', bi) := fd.record observedAt peer ann
    if sameBranch ann loc then (fd', none)
    else
      let result := compareBranchWeightWithSupport loc ann (fd'.branchSupport loc)
        bi.peers.length (fd'.isInvalidCommit loc.commitHash) (fd'.isInvalidCommit ann.commitHash)
      (fd', some {
        remotePeer := peer
        localAnnounce := loc
        remoteAnnounce := ann
        remoteEpoch := remoteEpoch
        result := result
        needExternalJoin := result = .remote
        winnerPeers := peer :: bi.peers.filter (· ≠ peer)
        partitionStartedAt := some bi.firstSeenAt })

/-- `CompareWithPeer`. The source ranges over a map, so `start` says where the
iteration begins. -/
def compareWithPeer (start : Nat) (peer : PeerID) : BranchResult × GroupStateAnnouncement × Bool :=
  match fd.local with
  | none => (.remote, {}, false)
  | some loc =>
    match (fd.known.rotate start).find? fun e => peer ∈ e.2.peers with
    | none => (.remote, {}, false)
    | some (_, bi) =>
      (compareBranchWeightWithSupport loc bi.announcement (fd.branchSupport loc) bi.peers.length
        (fd.isInvalidCommit loc.commitHash) (fd.isInvalidCommit bi.announcement.commitHash),
       bi.announcement, true)

end ForkDetector

end GroupCoordination
