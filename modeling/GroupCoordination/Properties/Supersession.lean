import GroupCoordination.Model.Reference
import GroupCoordination.Refinement.Heal

/-!
# What a commit does to the operations

A commit settles the open operations that it carries or whose effect it has, and then supersedes
the ones that it undoes. Both depend only on the commit and on the row, so a reconciliation is a
map over the rows.
-/

namespace GroupCoordination

open CommitMsg

def PendingOperation.savable (op : PendingOperation) : Bool :=
  op.semanticPayload ≠ [] ∧ op.preconditionEpoch.all bindable

def CommitMsg.overtakes (commit : CommitMsg) (op : PendingOperation) : Bool :=
  commit.supersedes op && op.savable

-- -------- Reconciliation

section Reconcile

variable {x : Ctx} {s : State} {commit : CommitMsg}

def PendingOperation.asSuperseded (x : Ctx) (op : PendingOperation) : PendingOperation :=
  { op with status := .superseded, idempotencyKey := none, updatedAt := x.nowSec }

theorem savePendingOperation_closed (hdisk : x.DiskWorks) (db : Storage) {op : PendingOperation}
    (hclosed : op.isOpen = false) :
    Storage.savePendingOperation x.disk db op =
      if op.savable then .ok ({ db with
        pendingOperations := Table.upsert PendingOperation.operationID
          (fun old new => { new with createdAt := old.createdAt }) db.pendingOperations
          { op with idempotencyKey := op.idempotencyKey.filter (· ≠ "") } }.written
            .savePendingOperation)
      else .error "SavePendingOperation" := by
  have hfree (key : Option String) : db.keyTaken { op with idempotencyKey := key } = false := by
    have hsame : { op with idempotencyKey := key }.isOpen = op.isOpen := rfl
    simp [Storage.keyTaken, hsame, hclosed]
  simp [Storage.savePendingOperation, PendingOperation.savable, hfree, Disk.write,
    Disk.exec, Ctx.disk,
    hdisk _ _]

theorem supersedeOperation_operations (hdisk : x.DiskWorks) (s : State) (op : PendingOperation) :
    (supersedeOperation x commit s op).storage.pendingOperations =
      if commit.overtakes op then Table.upsert PendingOperation.operationID
        (fun old new => { new with createdAt := old.createdAt }) s.storage.pendingOperations
        (op.asSuperseded x) else s.storage.pendingOperations := by
  unfold supersedeOperation overtakes
  have hsave : Storage.savePendingOperation x.disk s.storage (op.asSuperseded x) = _ :=
    savePendingOperation_closed hdisk s.storage rfl
  have hsame : (op.asSuperseded x).savable = op.savable := rfl
  unfold PendingOperation.asSuperseded at hsave hsame ⊢
  cases hs : commit.supersedes op <;> cases hw : op.savable
  all_goals simp [State.saveOperation, hsave, hsame, hw, Storage.written, State.emit]

theorem foldl_rows {f : State → PendingOperation → State} {p : PendingOperation → Bool}
    {g : PendingOperation → PendingOperation}
    (hf : ∀ s op, (f s op).storage.pendingOperations =
      if p op then Table.upsert PendingOperation.operationID
      (fun old new => { new with createdAt := old.createdAt }) s.storage.pendingOperations (g op)
      else s.storage.pendingOperations)
    (hg : ∀ op, (g op).operationID = op.operationID)
    (hk : Table.Keyed PendingOperation.operationID s.storage.pendingOperations)
    (ops : List PendingOperation) (hops : ops.Perm s.storage.pendingOperations) :
    (ops.foldl f s).storage.pendingOperations =
      s.storage.pendingOperations.map fun op =>
        if p op then { g op with createdAt := op.createdAt } else op := by
  have hfold : (ops.foldl f s).storage.pendingOperations =
      ops.foldl (fun rows op => if p op then Table.upsert PendingOperation.operationID
        (fun old new => { new with createdAt := old.createdAt }) rows (g op) else rows)
        s.storage.pendingOperations :=
    (List.foldl_hom (fun s : State => s.storage.pendingOperations) fun s op => (hf s op).symm).symm
  have hlisted : Table.Keyed PendingOperation.operationID ops := (hops.map _).nodup_iff.mpr hk
  rw [hfold, Table.foldl_upsert hk hg ?_ hlisted fun _ => hops.mem_iff.mp]
  · refine List.map_congr_left fun op hop => ?_
    simp [hops.mem_iff.mpr hop]
  · exact fun _ _ => rfl

theorem listPendingOperations_works (hdisk : x.DiskWorks) (db : Storage) :
    Storage.listPendingOperations x.disk db =
      .ok (db.pendingOperations.insertionSort (·.createdAt ≤ ·.createdAt)) := by
  simp [Storage.listPendingOperations, Disk.exec, Ctx.disk, hdisk _ _]

section

variable (commit : CommitMsg)

def CommitMsg.overtaken (x : Ctx) (op : PendingOperation) : PendingOperation :=
  if commit.overtakes op then { op.asSuperseded x with createdAt := op.createdAt } else op

theorem supersedeStaleMembershipOpsLocked_rows (hdisk : x.DiskWorks)
    (hk : Table.Keyed PendingOperation.operationID s.storage.pendingOperations) :
    (supersedeStaleMembershipOpsLocked x commit s).storage.pendingOperations =
      s.storage.pendingOperations.map (commit.overtaken x) := by
  unfold supersedeStaleMembershipOpsLocked
  split
  next hnone =>
    have hno op : commit.overtaken x op = op := by
      have hnot : commit.overtakes op = false := by
        unfold overtakes supersedes
        split <;> simp [hnone]
      simp [overtaken, hnot]
    rw [funext hno, List.map_id']
  · rw [listPendingOperations_works hdisk]
    exact foldl_rows (supersedeOperation_operations hdisk) (fun _ => rfl) hk _
      (List.perm_insertionSort _ _)

theorem orphanOwnMessage_operations (s : State) (msg : StoredMessage) :
    (orphanOwnMessage x s msg).storage.pendingOperations = s.storage.pendingOperations := by
  unfold orphanOwnMessage
  split
  · dsimp only
    split
    · rfl
    unfold State.storeOrWarn
    split
    next hsave =>
      obtain ⟨-, -, rfl⟩ := Disk.exec_ok hsave
      rfl
    · rfl
  · rfl

theorem reconcileOperationsAfterCommitLocked_rows (hdisk : x.DiskWorks) :
    (reconcileOperationsAfterCommitLocked x commit s).storage.pendingOperations =
      (supersedeStaleMembershipOpsLocked x commit
        ((s.storage.pendingOperations.insertionSort (·.createdAt ≤ ·.createdAt)).foldl
          (settleOperation x commit) s)).storage.pendingOperations := by
  unfold reconcileOperationsAfterCommitLocked
  rw [listPendingOperations_works hdisk]
  dsimp only
  split
  · rfl
  rename_i msgs _
  exact List.foldlRecOn msgs (orphanOwnMessage x)
    (motive := fun t => t.storage.pendingOperations =
      (supersedeStaleMembershipOpsLocked x commit _).storage.pendingOperations) rfl
    fun t ht msg _ => (orphanOwnMessage_operations t msg).trans ht

-- -------- Open operations

def CommitMsg.reaches (op : PendingOperation) : Bool :=
  op.isOpen && (commit.settles op).isSome && op.savable

def CommitMsg.settled (x : Ctx) (op : PendingOperation) : PendingOperation :=
  if commit.reaches op then { op with
    status := (commit.settles op).getD op.status
    updatedAt := x.nowSec
    idempotencyKey := op.idempotencyKey.filter (· ≠ "") } else op

end

theorem CommitMsg.settles_reached {commit : CommitMsg} (h : commit.settles op = some status) :
    status = .committed ∨ status = .satisfiedByOther := by
  unfold settles at h
  split at h
  all_goals
    obtain ⟨d, -, rfl⟩ := Option.map_eq_some_iff.mp h
    split <;> simp

theorem settleOperation_operations (hdisk : x.DiskWorks) (s : State) (op : PendingOperation) :
    (settleOperation x commit s op).storage.pendingOperations =
      if commit.reaches op then Table.upsert PendingOperation.operationID
        (fun old new => { new with createdAt := old.createdAt }) s.storage.pendingOperations
        (commit.settled x op) else s.storage.pendingOperations := by
  unfold settleOperation settled reaches
  cases hopen : op.isOpen with
  | false => simp
  | true =>
    cases hsettles : commit.settles op with
    | none => simp
    | some status =>
      have hclosed : { op with status, updatedAt := x.nowSec }.isOpen = false := by
        rcases settles_reached hsettles with rfl | rfl <;> rfl
      have hsame : { op with status, updatedAt := x.nowSec }.savable = op.savable := rfl
      cases hsave : op.savable <;>
        simp [State.saveOperation,
          savePendingOperation_closed hdisk s.storage hclosed, hsame, hsave,
          Storage.written]

theorem reconcileOperationsAfterCommitLocked_map (commit : CommitMsg) (hdisk : x.DiskWorks)
    (hk : Table.Keyed PendingOperation.operationID s.storage.pendingOperations) :
    (reconcileOperationsAfterCommitLocked x commit s).storage.pendingOperations =
      s.storage.pendingOperations.map fun op => commit.overtaken x (commit.settled x op) := by
  have hid op : (commit.settled x op).operationID = op.operationID := by
    unfold settled
    split <;> rfl
  have hsettled : ((s.storage.pendingOperations.insertionSort (·.createdAt ≤ ·.createdAt)).foldl
      (settleOperation x commit) s).storage.pendingOperations =
        s.storage.pendingOperations.map (commit.settled x) := by
    rw [foldl_rows (settleOperation_operations hdisk) hid hk _ (List.perm_insertionSort _ _)]
    refine List.map_congr_left fun op _ => ?_
    unfold settled
    split <;> rfl
  have hk' : Table.Keyed PendingOperation.operationID
      (s.storage.pendingOperations.map (commit.settled x)) := by
    unfold Table.Keyed at *
    rwa [List.map_map, show PendingOperation.operationID ∘ commit.settled x = _ from funext hid]
  rw [reconcileOperationsAfterCommitLocked_rows commit hdisk,
    supersedeStaleMembershipOpsLocked_rows commit hdisk (hsettled ▸ hk'), hsettled, List.map_map]
  rfl

-- -------- Operations and membership

section

variable (commit : CommitMsg)

def CommitMsg.LeavesInside (target : String) : Prop :=
  target ∈ commit.adds.map (·.targetPeerID)

def CommitMsg.LeavesOutside (target : String) : Prop :=
  target ∈ commit.removes.map (·.targetPeerID) ∧ ¬ commit.LeavesInside target

/-- What the rows say after a commit is what it did: nothing that it undoes counts as reached, and
nothing that it establishes was superseded by it. -/
def CommitMsg.Matches (rows rows' : List PendingOperation) : Prop :=
  ∀ op' ∈ rows', ∀ target, op'.targetMemberID = some target →
    (op'.opType = .addMember → commit.LeavesOutside target → op'.isReached = false) ∧
    (op'.opType = .removeMember → commit.LeavesInside target → op'.isReached = false) ∧
    (op'.opType = .addMember ∧ commit.LeavesInside target ∨
      op'.opType = .removeMember ∧ commit.LeavesOutside target →
      op'.status = .superseded → ∃ op ∈ rows, op.operationID = op'.operationID ∧
      op.status = .superseded)

def CommitMsg.Reached (op : PendingOperation) : Prop :=
  op.isReached = true ∨ op.isOpen = true ∧ (commit.settles op).isSome = true

def CommitMsg.carries (operationID : String) : Prop :=
  operationID ∈ commit.adds.map (·.operationID) ++ commit.removes.map (·.operationID)

/-- The commit is at odds with an operation that is reached: it removes the target of an addition
and adds it again, or carries the operation's id and has the opposite effect. -/
def CommitMsg.Clashes (op : PendingOperation) : Prop :=
  commit.Reached op ∧ ∃ target, op.targetMemberID = some target ∧
    (op.opType = .addMember ∧ commit.LeavesOutside target ∧ commit.carries op.operationID ∨
      op.opType = .addMember ∧ commit.LeavesInside target ∧
        target ∈ commit.removes.map (·.targetPeerID) ∧ ¬ commit.carries op.operationID ∨
      op.opType = .removeMember ∧ commit.LeavesInside target ∧ commit.carries op.operationID)

end

section

variable {op : PendingOperation}

theorem CommitMsg.settled_same (commit : CommitMsg) (op : PendingOperation) :
    (commit.settled x op).operationID = op.operationID ∧ (commit.settled x op).opType = op.opType ∧
      (commit.settled x op).targetMemberID = op.targetMemberID ∧
      (commit.settled x op).savable = op.savable := by
  unfold settled
  split <;> exact ⟨rfl, rfl, rfl, rfl⟩

theorem CommitMsg.settled_reached (commit : CommitMsg) (hsave : op.savable = true) :
    ((commit.settled x op).isReached = true ↔ commit.Reached op) ∧
      ((commit.settled x op).status = .superseded ↔ op.status = .superseded) := by
  unfold settled reaches Reached
  cases hsettles : commit.settles op with
  | none => simp
  | some status =>
    have hreached := settles_reached hsettles
    cases hopen : op.isOpen with
    | false => simp
    | true =>
      have hstatus : op.status = .pending ∨ op.status = .proposed := of_decide_eq_true hopen
      rcases hreached with rfl | rfl <;> rcases hstatus with hs | hs <;>
        simp [PendingOperation.isReached, hsave, hs]

theorem CommitMsg.overtakes_settled (commit : CommitMsg) (hsave : op.savable = true)
    (htarget : op.targetMemberID = some target) :
    commit.overtakes (commit.settled x op) = true ↔
      commit.Reached op ∧ ¬ commit.carries op.operationID ∧
        (op.opType = .addMember ∧ target ∈ commit.removes.map (·.targetPeerID) ∨
          op.opType = .removeMember ∧ commit.LeavesInside target) := by
  obtain ⟨hid, htype, htarget', hsave'⟩ := commit.settled_same (x := x) op
  have hnamed : target ∈ commit.removes.map (·.targetPeerID) ∨ commit.LeavesInside target →
      target ≠ "" := by
    rintro (h | h) <;> obtain ⟨p, hp, rfl⟩ := List.mem_map.mp h
    · exact (of_decide_eq_true (List.mem_filter.mp hp).2).2
    · exact of_decide_eq_true (List.mem_filter.mp hp).2
  rw [← (commit.settled_reached (x := x) hsave).1]
  unfold overtakes supersedes carries LeavesInside at *
  rw [htarget', htarget, hsave', hsave, hid, htype]
  simp only [Bool.and_true, decide_eq_true_eq]
  tauto

end

/-- After a commit the operations say what it did iff it is at odds with none of them. -/
theorem reconciled_matches_iff (x : Ctx) (commit : CommitMsg) (s : State) (hdisk : x.DiskWorks)
    (hk : Table.Keyed PendingOperation.operationID s.storage.pendingOperations)
    (hsave : ∀ op ∈ s.storage.pendingOperations, op.savable = true) :
    commit.Matches s.storage.pendingOperations
        (reconcileOperationsAfterCommitLocked x commit s).storage.pendingOperations ↔
      ∀ op ∈ s.storage.pendingOperations, ¬ commit.Clashes op := by
  rw [reconcileOperationsAfterCommitLocked_map commit hdisk hk]
  unfold CommitMsg.Matches CommitMsg.Clashes
  rw [List.forall_mem_map]
  refine forall₂_congr fun op hop => ?_
  obtain ⟨hid, htype, htarget', -⟩ := commit.settled_same (x := x) op
  obtain ⟨hreached, hstatus⟩ := commit.settled_reached (x := x) (hsave op hop)
  have hbefore : (∃ old ∈ s.storage.pendingOperations, old.operationID = op.operationID ∧
      old.status = .superseded) ↔ op.status = .superseded := by
    constructor
    · rintro ⟨old, hold, hsame, hold'⟩
      rwa [← List.inj_on_of_nodup_map hk hold hop hsame]
    · exact fun h => ⟨op, hop, rfl, h⟩
  cases htarget : op.targetMemberID with
  | none =>
    have hnone : (commit.overtaken x (commit.settled x op)).targetMemberID = none := by
      unfold overtaken
      split <;> exact htarget'.trans htarget
    simp [hnone]
  | some target =>
    have hovertakes := commit.overtakes_settled (x := x) (hsave op hop) htarget
    have hlive : commit.Reached op → op.status ≠ .superseded := by
      rintro (h | ⟨h, -⟩) hs <;> simp [PendingOperation.isReached, PendingOperation.isOpen, hs] at h
    unfold overtaken CommitMsg.LeavesOutside
    by_cases hover : commit.overtakes (commit.settled x op) = true
    · -- the row is superseded
      rw [if_pos hover]
      have hundone := hovertakes.mp hover
      have hlive := hlive hundone.1
      simp only [PendingOperation.asSuperseded, hid, htype, htarget', htarget, hbefore,
        Option.some.injEq,
        forall_eq', exists_eq_left', PendingOperation.isReached]
      cases hkind : op.opType <;> simp_all
    rw [if_neg hover]
    have hstays := fun h => hover (hovertakes.mpr h)
    simp only [hid, htype, htarget', htarget, hbefore, hstatus, Option.some.injEq, forall_eq',
      exists_eq_left',
      ← Bool.not_eq_true, hreached]
    cases hkind : op.opType with
    | addMember =>
      simp only [hkind, true_and, reduceCtorEq, false_and, or_false] at hstays ⊢
      clear hovertakes hreached hstatus hbefore
      grind
    | removeMember =>
      simp only [hkind, true_and, reduceCtorEq, false_and, false_or] at hstays ⊢
      clear hovertakes hreached hstatus hbefore
      grind

def holding (rows : List PendingOperation) : State where
  groupState := [1, 1]
  treeHash := [1]
  epoch := 1
  activeView := .new [65]
  singleWriter := .new 1
  epochTracker := { epoch := 1, treeHash := [1] }
  hlc := { id := "A" }
  storage := { pendingOperations := rows }

def aboutBob (operationID : String) (opType : OpType) (status : OpStatus) : PendingOperation where
  operationID
  opType
  idempotencyKey := none
  preconditionEpoch := some 1
  targetMemberID := some "bob"
  semanticPayload := [1]
  status

def addsBob : CommitMsg := { addDeliveries := [{ operationID := "a", targetPeerID := "bob" }] }

def bobsRows : List PendingOperation :=
  [aboutBob "a" .addMember .proposed, aboutBob "r" .removeMember .committed]

theorem addition_matches : addsBob.Matches bobsRows
    (reconcileOperationsAfterCommitLocked Reference.receiver addsBob
      (holding bobsRows)).storage.pendingOperations := by
  have hkeyed : Table.Keyed PendingOperation.operationID
      (holding bobsRows).storage.pendingOperations := by
    simp [Table.Keyed, holding, bobsRows, aboutBob]
  refine (reconciled_matches_iff Reference.receiver addsBob (holding bobsRows)
    (fun _ _ => rfl) hkeyed
    (by decide)).mpr ?_
  rintro op hop ⟨-, target, -, h⟩
  simp only [holding, bobsRows, List.mem_cons, List.not_mem_nil, or_false] at hop
  rcases hop with rfl | rfl <;>
    simp [aboutBob, addsBob, CommitMsg.LeavesOutside, removes, carries, adds] at h

/-- A peer asks to join again, and the commit removes and adds it: the addition that brought it in
is superseded. A commit that carries out a removal and an addition keeps the removal. -/
theorem rejoin_supersedes_addition :
    (reconcileOperationsAfterCommitLocked Reference.receiver
        { includedProposals := [{ proposalType := .remove, targetPeerID := "bob" }]
          addDeliveries := [{ operationID := "j", targetPeerID := "bob" }] }
        (holding [aboutBob "a" .addMember .committed])).storage.pendingOperations.map (·.status) =
      [.superseded] ∧
    (reconcileOperationsAfterCommitLocked Reference.receiver
        { includedProposals :=
            [{ proposalType := .remove, operationID := "r", targetPeerID := "bob" }]
          addDeliveries := [{ operationID := "j", targetPeerID := "bob" }] }
        (holding [aboutBob "r" .removeMember .proposed])).storage.pendingOperations.map (·.status) =
      [.committed] := by
  decide +kernel

end Reconcile

end GroupCoordination
