import GroupCoordination.Model.Config

/-!
# The single-writer protocol

`single_writer.go`: the election of the token holder and the proposal buffer of
the current epoch. The token holder is the eligible peer of the active view with
the least hash of group, epoch and peer; a peer is eligible if application policy
authorizes it for the batch, the batch does not remove it and it is not suspended.

`SingleWriter` keeps what the source's struct mutates. The active view, the
policy and the configuration it points to are arguments here.
-/

namespace GroupCoordination

def electionHash (H : Hash) (groupID : String) (epoch : Nat) (pid : PeerID) : Bytes :=
  H.sum (stringBytes groupID ++ le64 epoch ++ pid)

def hashLess : Bytes → Bytes → Bool
  | a :: as, b :: bs => if a ≠ b then a < b else hashLess as bs
  | _, _ => false

theorem hashLess_iff {a b : Bytes} (h : a.length = b.length) : hashLess a b = true ↔ a < b := by
  induction a generalizing b with
  | nil => simp_all [hashLess, List.length_eq_zero_iff.mp h.symm]
  | cons x as ih =>
    cases b with
    | nil => cases h
    | cons y bs =>
      have hrest := ih (Nat.succ.inj h)
      by_cases hxy : x = y
      · simp [hashLess, hxy, hrest]
      · simp [hashLess, hxy, List.cons_lt_cons_iff]

def electionLoop (hash : PeerID → Bytes) :
    Option (PeerID × Bytes) → List PeerID → Option (PeerID × Bytes)
  | best, [] => best
  | none, pid :: rest => electionLoop hash (some (pid, hash pid)) rest
  | some (best, bestHash), pid :: rest =>
    electionLoop hash
      (if hashLess (hash pid) bestHash then some (pid, hash pid) else some (best, bestHash)) rest

theorem electionLoop_argmin (H : Hash) (groupID : String) (epoch : Nat) (view : List PeerID) :
    (electionLoop (electionHash H groupID epoch) none view).map Prod.fst =
      view.argmin (electionHash H groupID epoch) := by
  have hloop : ∀ (best : Option PeerID),
      electionLoop (electionHash H groupID epoch)
          (best.map fun pid => (pid, electionHash H groupID epoch pid)) view =
        (view.foldl (List.argAux fun b c =>
          electionHash H groupID epoch b < electionHash H groupID epoch c) best).map
            fun pid => (pid, electionHash H groupID epoch pid) := by
    induction view with
    | nil => intro best; cases best <;> rfl
    | cons pid view ih =>
      rintro (_ | best)
      · exact ih (some pid)
      have hsize : (electionHash H groupID epoch pid).length =
          (electionHash H groupID epoch best).length := (H.size _).trans (H.size _).symm
      simp only [Option.map_some, electionLoop, List.foldl_cons, List.argAux, hashLess_iff hsize]
      rw [← ih]
      split <;> rfl
  have h := congrArg (Option.map Prod.fst) (hloop none)
  rw [Option.map_map] at h
  exact h.trans Option.map_id'

/-- `ComputeTokenHolder`. Its loop, `electionLoop`, keeps the first peer whose hash no later
peer undercuts, which is `List.argmin`. -/
def computeTokenHolder (H : Hash) (groupID : String) (activeView : List PeerID) (epoch : Nat) :
    Except String PeerID :=
  match activeView.argmin (electionHash H groupID epoch) with
  | some best => .ok best
  | none => .error "coordination: active view is empty"

def intersectPeerIDs (active authorized : List PeerID) : List PeerID :=
  active.filter fun pid => pid ∈ authorized ∧ pid ≠ []

def removedByBatch (batch : List BufferedProposal) : List String :=
  (batch.filter fun p => p.type = .remove ∧ p.targetPeerID ≠ "").map (·.targetPeerID)

def filterRemovedByBatch (C : PeerCodec) (candidates : List PeerID)
    (batch : List BufferedProposal) : List PeerID :=
  candidates.filter fun pid => C.toString pid ∉ removedByBatch batch

def filterSuspended (candidates suspended : List PeerID) : List PeerID :=
  candidates.filter (· ∉ suspended)

/-- The order in which a batch is committed: refs first, byte by byte; proposals
without a ref by type and data. -/
def proposalRefLess (a b : BufferedProposal) : Bool :=
  if a.proposalRef.length = 0 ∨ b.proposalRef.length = 0 then
    if a.proposalRef.length ≠ b.proposalRef.length then
      a.proposalRef.length > b.proposalRef.length
    else if a.type ≠ b.type then a.type.code < b.type.code
    else a.data < b.data
  else a.proposalRef < b.proposalRef

def sortProposals (batch : List BufferedProposal) : List BufferedProposal :=
  batch.insertionSort fun a b => ¬ proposalRefLess b a

theorem mem_sortProposals {batch : List BufferedProposal} : p ∈ sortProposals batch ↔ p ∈ batch :=
  (List.perm_insertionSort _ _).mem_iff

structure SingleWriter where
  epoch : Nat
  proposals : List BufferedProposal := []
  suspended : List PeerID := []
  deriving DecidableEq

/-- What an election reads besides the buffer: the hash, the peer codec, the
group, the active view and the policy. -/
@[ext] structure Electorate where
  hash : Hash
  codec : PeerCodec
  groupID : String
  members : List PeerID
  authorized : Option AuthorizedCommittersProvider

namespace Electorate

def authorizedMembers (E : Electorate) (epoch : Nat) (batch : List BufferedProposal) :
    Except String (List PeerID) :=
  match E.authorized with
  | none => .ok E.members
  | some provider => (provider E.groupID epoch batch).map (intersectPeerIDs E.members)

def computeHolder (E : Electorate) (epoch : Nat) (batch : List BufferedProposal)
    (suspended : List PeerID) : Except String PeerID := do
  let eligible ← E.authorizedMembers epoch batch
  computeTokenHolder E.hash E.groupID
    (filterSuspended (filterRemovedByBatch E.codec eligible batch) suspended) epoch

end Electorate

namespace SingleWriter

def new (epoch : Nat) : SingleWriter := { epoch }

variable (w : SingleWriter)

def suspend (pid : PeerID) : SingleWriter :=
  if pid ∈ w.suspended then w else { w with suspended := pid :: w.suspended }

section

variable (cfg : CoordinatorConfig) (w : SingleWriter)

def snapshotNextBatch : List BufferedProposal :=
  let batch := sortProposals w.proposals
  if (batch.length : Int) > cfg.maxBatchedProposals then
    batch.take cfg.maxBatchedProposals.toNat
  else batch

def currentTokenHolder (E : Electorate) (cfg : CoordinatorConfig) (w : SingleWriter) :
    Except String PeerID :=
  E.computeHolder w.epoch (w.snapshotNextBatch cfg) w.suspended

def isTokenHolder (E : Electorate) (cfg : CoordinatorConfig) (localID : PeerID)
    (w : SingleWriter) : Bool :=
  match w.currentTokenHolder E cfg with
  | .ok holder => holder = localID
  | .error _ => false

def holderForBatch (E : Electorate) (w : SingleWriter) (batch : List BufferedProposal) :
    Except String PeerID :=
  E.computeHolder w.epoch batch w.suspended

def holdsRef (ref : Bytes) : Bool :=
  ref ≠ [] ∧ ref ∈ w.proposals.map (·.proposalRef)

def isFull : Bool :=
  (w.proposals.length : Int) ≥ cfg.maxBatchedProposals

def drops (p : BufferedProposal) : Bool :=
  !w.holdsRef p.proposalRef ∧ w.isFull cfg

/-- `BufferProposal`: a known ref is kept once, and a full buffer drops the
proposal without a word. -/
def bufferProposal (p : BufferedProposal) : SingleWriter :=
  if w.holdsRef p.proposalRef then w
  else if w.isFull cfg then w
  else { w with proposals := w.proposals ++ [p] }

end

theorem mem_bufferProposal {w : SingleWriter} (h : q ∈ (w.bufferProposal cfg p).proposals) :
    q ∈ w.proposals ∨ q = p := by
  unfold bufferProposal at h
  split at h
  · exact .inl h
  split at h
  · exact .inl h
  · simpa using h

def drainBatchByRefs (refs : List Bytes) : SingleWriter × List BufferedProposal :=
  if refs = [] ∨ w.proposals = [] then (w, [])
  else ({ w with proposals := w.proposals.filter (·.proposalRef ∉ refs) },
    sortProposals (w.proposals.filter (·.proposalRef ∈ refs)))

def drainBatchByData (datas : List Bytes) : SingleWriter × List BufferedProposal :=
  if datas = [] ∨ w.proposals = [] then (w, [])
  else ({ w with proposals := w.proposals.filter (·.data ∉ datas) },
    w.proposals.filter (·.data ∈ datas))

theorem drainBatchByRefs_of_not_mem {w : SingleWriter}
    (h : ∀ p ∈ w.proposals, p.proposalRef ∉ refs) : (w.drainBatchByRefs refs).1 = w := by
  unfold drainBatchByRefs
  split
  · rfl
  · rw [List.filter_eq_self.mpr fun p hp => decide_eq_true (h p hp)]

theorem drainBatchByData_of_not_mem {w : SingleWriter} (h : ∀ p ∈ w.proposals, p.data ∉ datas) :
    (w.drainBatchByData datas).1 = w := by
  unfold drainBatchByData
  split
  · rfl
  · rw [List.filter_eq_self.mpr fun p hp => decide_eq_true (h p hp)]

theorem mem_of_mem_drainBatchByRefs {w : SingleWriter}
    (h : p ∈ (w.drainBatchByRefs refs).1.proposals) : p ∈ w.proposals := by
  unfold drainBatchByRefs at h
  split at h
  · exact h
  · exact List.mem_of_mem_filter h

theorem mem_of_mem_drainBatchByData {w : SingleWriter}
    (h : p ∈ (w.drainBatchByData datas).1.proposals) : p ∈ w.proposals := by
  unfold drainBatchByData at h
  split at h
  · exact h
  · exact List.mem_of_mem_filter h

theorem mem_of_mem_snapshotNextBatch {w : SingleWriter} (h : p ∈ w.snapshotNextBatch cfg) :
    p ∈ w.proposals := by
  unfold snapshotNextBatch at h
  dsimp only at h
  split at h
  · exact mem_sortProposals.mp (List.mem_of_mem_take h)
  · exact mem_sortProposals.mp h

def proposalCount : Nat := w.proposals.length

def advanceEpoch (_ : SingleWriter) (newEpoch : Nat) : SingleWriter := { epoch := newEpoch }

@[simp] theorem suspend_epoch : (w.suspend pid).epoch = w.epoch := by
  unfold suspend
  split <;> rfl

@[simp] theorem suspend_proposals : (w.suspend pid).proposals = w.proposals := by
  unfold suspend
  split <;> rfl

theorem mem_suspend {w : SingleWriter} :
    q ∈ (w.suspend pid).suspended ↔ q = pid ∨ q ∈ w.suspended := by
  unfold suspend
  split
  next h =>
    exact ⟨.inr, fun hq => hq.elim (fun he => he ▸ h) fun hm => hm⟩
  · simp

@[simp] theorem bufferProposal_epoch :
    (w.bufferProposal cfg p).epoch = w.epoch := by
  unfold bufferProposal
  split
  · rfl
  · split <;> rfl

@[simp] theorem bufferProposal_suspended :
    (w.bufferProposal cfg p).suspended = w.suspended := by
  unfold bufferProposal
  split
  · rfl
  · split <;> rfl

@[simp] theorem drainBatchByRefs_epoch :
    (w.drainBatchByRefs refs).1.epoch = w.epoch := by
  unfold drainBatchByRefs
  split <;> rfl

@[simp] theorem drainBatchByData_epoch :
    (w.drainBatchByData datas).1.epoch = w.epoch := by
  unfold drainBatchByData
  split <;> rfl

end SingleWriter

end GroupCoordination
