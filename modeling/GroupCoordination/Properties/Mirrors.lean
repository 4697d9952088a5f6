import GroupCoordination.Model.InviteRequests

/-!
# Mirrors and the authority's rows

A member keeps a mirror of a request that an admin decides on. Mirrors and the rows that a node
decides on itself are in one table, and a mirror is written by `INSERT OR REPLACE`, so what a write
takes away is decided by the two unique keys of the table alone: the request id, and the group and
target of an active request.
-/

namespace GroupCoordination

open InviteRequests

variable {w : InviteWorld} {rows : InviteRequests}

def InviteRequests.authority (rows : InviteRequests) : InviteRequests :=
  rows.filter (·.isMirror = false)

def GroupInviteRequestRecord.displaces (rec old : GroupInviteRequestRecord) : Bool :=
  old.requestID = rec.requestID ∨ rec.clashes old

-- -------- One frame

/-- The record that a write of a mirror is about, unless it is refused. -/
def GroupInviteRequestRecord.mirrored (w : InviteWorld) (rec : GroupInviteRequestRecord) :
    Option GroupInviteRequestRecord :=
  if trimSpace rec.requestID = "" ∨ trimSpace rec.groupID = "" ∨
    trimSpace rec.requesterPeerID = "" ∨
      trimSpace rec.targetPeerID = "" ∨ rec.expiresAt ≤ 0 ∨ w.works = false then none
  else some { rec.stored w with isMirror := true }

def InviteRequests.replace (rows : InviteRequests) :
    Option GroupInviteRequestRecord → InviteRequests
  | none => rows
  | some rec => rows.filter (fun old => ¬ rec.displaces old) ++ [rec]

theorem upsertGroupInviteRequestMirror_eq (rec : GroupInviteRequestRecord) :
    upsertGroupInviteRequestMirror w rec rows = rows.replace (rec.mirrored w) := by
  unfold upsertGroupInviteRequestMirror GroupInviteRequestRecord.mirrored
  dsimp only
  split
  · rfl
  · simp only [replace, GroupInviteRequestRecord.displaces, decide_eq_true_eq]
    rfl

/-- The record that a frame is about, unless it is refused before the write. -/
def MirrorFrame.record (w : InviteWorld) : MirrorFrame → Option GroupInviteRequestRecord
  | .push op record =>
    if toLower (trimSpace op) ≠ "push" ∨ trimSpace record.groupID = "" ∨
      w.permitted = false then none
    else some (inviteWireToRecord record)
  | .submitReply ok record | .syncReply ok record =>
    if ok = false ∨ w.permitted = false then none
    else record.map fun wire => { inviteWireToRecord wire with isMirror := true }

def MirrorFrame.mirrored (w : InviteWorld) (frame : MirrorFrame) :
    Option GroupInviteRequestRecord :=
  (frame.record w).bind (·.mirrored w)

theorem storeInviteReply_eq (ok : Bool) (record : Option InviteRequestRecordWire) :
    storeInviteReply w ok record rows = rows.replace
      ((MirrorFrame.submitReply ok record).mirrored w) := by
  unfold storeInviteReply MirrorFrame.mirrored MirrorFrame.record
  by_cases hrefused : ok = false ∨ w.permitted = false
  · simp only [if_pos hrefused, Option.bind_none]
    cases record <;> rfl
  simp only [if_neg hrefused]
  cases record with
  | none => rfl
  | some wire => simp only [Option.map_some, Option.bind_some, upsertGroupInviteRequestMirror_eq]

theorem MirrorFrame.apply_eq (frame : MirrorFrame) :
    frame.apply w rows = rows.replace (frame.mirrored w) := by
  cases frame with
  | push op record =>
    unfold apply applyInviteRequestPushFromCreator mirrored MirrorFrame.record
    by_cases hrefused :
        toLower (trimSpace op) ≠ "push" ∨ trimSpace record.groupID = "" ∨ w.permitted = false
    · simp only [if_pos hrefused, Option.bind_none, replace]
    · simp only [if_neg hrefused, Option.bind_some, upsertGroupInviteRequestMirror_eq]
  | submitReply ok record | syncReply ok record => exact storeInviteReply_eq ok record

theorem MirrorFrame.isMirror_of_mirrored {frame : MirrorFrame} {rec : GroupInviteRequestRecord}
    (h : frame.mirrored w = some rec) : rec.isMirror = true := by
  obtain ⟨sent, -, h⟩ := Option.bind_eq_some_iff.mp h
  unfold GroupInviteRequestRecord.mirrored at h
  split at h
  · cases h
  · exact Option.some.inj h ▸ rfl

/-- No row that this node decides on stands in the way of what the frame has stored. -/
def MirrorFrame.Spares (w : InviteWorld) (rows : InviteRequests) (frame : MirrorFrame) : Prop :=
  ∀ rec, frame.mirrored w = some rec → ∀ row ∈ rows, row.isMirror = false →
    row.requestID ≠ rec.requestID ∧
      ¬ (rec.status.isActive ∧ row.status.isActive ∧
        row.groupID = rec.groupID ∧ row.targetPeerID = rec.targetPeerID)

theorem GroupInviteRequestRecord.displaces_eq_false {rec old : GroupInviteRequestRecord} :
    rec.displaces old = false ↔
      old.requestID ≠ rec.requestID ∧
        ¬ (rec.status.isActive ∧ old.status.isActive ∧
          old.groupID = rec.groupID ∧ old.targetPeerID = rec.targetPeerID) := by
  unfold displaces clashes
  simp only [decide_eq_false_iff_not, decide_eq_true_eq, not_or, eq_comm (a := rec.groupID),
    eq_comm (a := rec.targetPeerID)]

theorem MirrorFrame.authority_apply_iff (frame : MirrorFrame) :
    (frame.apply w rows).authority = rows.authority ↔ frame.Spares w rows := by
  rw [apply_eq]
  cases hrec : frame.mirrored w with
  | none => simp [Spares, hrec, replace]
  | some rec =>
    have hmirror := isMirror_of_mirrored hrec
    have hleft : (rows.replace (some rec)).authority =
        rows.authority.filter fun old => ¬ rec.displaces old := by
      unfold authority replace
      rw [List.filter_append, List.filter_comm]
      simp [hmirror]
    simp only [hleft, List.filter_eq_self, Spares, hrec, Option.some.injEq, forall_eq']
    simp only [authority, List.mem_filter, decide_eq_true_eq, Bool.not_eq_true,
      GroupInviteRequestRecord.displaces_eq_false, and_imp]

-- -------- Sequences of frames

def MirrorFrame.applyAll (rows : InviteRequests) (frames : List (InviteWorld × MirrorFrame)) :
    InviteRequests :=
  frames.foldl (fun rows f => f.2.apply f.1 rows) rows

theorem MirrorFrame.applyAll_take_succ {frames : List (InviteWorld × MirrorFrame)} {n : Nat}
    {frame : MirrorFrame} (h : frames[n]? = some (w, frame)) :
    applyAll rows (frames.take (n + 1)) = frame.apply w (applyAll rows (frames.take n)) := by
  unfold applyAll
  rw [List.take_add_one, h, Option.toList_some, List.foldl_append, List.foldl_cons, List.foldl_nil]

theorem MirrorFrame.applyAll_take_of_none {frames : List (InviteWorld × MirrorFrame)} {n : Nat}
    (h : frames[n]? = none) :
    applyAll rows (frames.take (n + 1)) = applyAll rows (frames.take n) := by
  unfold applyAll
  rw [List.take_add_one, h, Option.toList_none, List.append_nil]

/-- Whatever records remote peers push or reply with, the rows that this node decides on stay as
they are through the whole sequence exactly if each frame that is stored finds no such row under its
request id, and none that is active for the same target of the same group while the record is. -/
theorem mirrors_keep_authority_rows_iff (frames : List (InviteWorld × MirrorFrame))
    (rows : InviteRequests) :
    (∀ n, (MirrorFrame.applyAll rows (frames.take n)).authority = rows.authority) ↔
      ∀ (n : Nat) (w : InviteWorld) (frame : MirrorFrame), frames[n]? = some (w, frame) →
        frame.Spares w (MirrorFrame.applyAll rows (frames.take n)) := by
  constructor
  · intro hkept n w frame hn
    rw [← MirrorFrame.authority_apply_iff, ← MirrorFrame.applyAll_take_succ hn, hkept, hkept]
  intro hspares n
  induction n with
  | zero => rfl
  | succ n ih =>
    cases hn : frames[n]? with
    | none => rw [MirrorFrame.applyAll_take_of_none hn, ih]
    | some f =>
      obtain ⟨w, frame⟩ := f
      rw [MirrorFrame.applyAll_take_succ hn, (frame.authority_apply_iff).mpr
        (hspares n w frame hn), ih]

namespace Reference

def awaitedRequest : GroupInviteRequestRecord where
  requestID := "r1"
  groupID := "g"
  requesterPeerID := "member"
  targetPeerID := "target"
  status := .pending
  maxAttempts := 5
  expiresAt := 100
  createdAt := 1
  updatedAt := 1

def pushedRequest (requestID status : String) : MirrorFrame :=
  .push "push"
    { requestID
      groupID := "g"
      requesterPeerID := "member"
      targetPeerID := "target"
      status
      expiresAt := 100 }

/-- A push under the id of a request that this node decides on replaces the row, and a push of an
active request for the same target under an id of its own deletes it. -/
theorem pushes_take_authority_rows : (MirrorFrame.applyAll [awaitedRequest]
      [({ now := 2 }, pushedRequest "r1" "rejected")]).authority = [] ∧
    (MirrorFrame.applyAll [awaitedRequest]
        [({ now := 2 }, pushedRequest "r2" "pending")]).authority = [] ∧
      authority [awaitedRequest] = [awaitedRequest] := by
  decide +kernel

end Reference

end GroupCoordination
