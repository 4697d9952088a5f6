import GroupCoordination.Model.AddOperations
import GroupCoordination.Model.Memberships

/-!
# What the row of an add operation says, and what a join acknowledgement completes
-/

namespace GroupCoordination

open AddOpStatus

namespace AddOperation

/-- Once an attempt's Add is proposed or committed, the row says so: it is as far, and not
failed. -/
def Truthful (s : AddOperation) : Prop :=
  ∀ reached ∈ s.reached, ∃ status ∈ s.row, status ≠ .failed ∧ reached.rank ≤ status.rank

/-- The writes of an attempt work. One that errs has proposed nothing and no earlier one has, or
its Welcome is delivered; one that finds the member there has proposed nothing, or the row is as
far; one that adds finds no failed row. -/
def Unspoilt (s : AddOperation) : AddOpEvent → Prop
  | .invite outcome createWorks markWorks => (createWorks ∧ markWorks) ∧
    match outcome with
    | .refused proposed => proposed = false ∧ s.reached = none ∨ s.row = some .welcomeDelivered
    | .already proposed => proposed = true → s.row ∉ [none, some .approved, some .failed]
    | .deferred | .committed => s.row ≠ some .failed
  | .mark _ => True

instance (s : AddOperation) (e : AddOpEvent) : Decidable (s.Unspoilt e) := by
  unfold Unspoilt
  split
  · split <;> infer_instance
  · infer_instance

/-- The row tells the truth of an attempt that came no further than it. -/
theorem Truthful.reaching (hs : Truthful s) {new status : AddOpStatus} (hne : status ≠ .failed)
    (hle : new.rank ≤ status.rank) (hkept : ∀ old ∈ s.row, old.rank ≤ status.rank) :
    Truthful ⟨some status, some ((s.reached.map (transition new)).getD new)⟩ := by
  rintro r ⟨⟩
  refine ⟨status, rfl, hne, ?_⟩
  cases hreached : s.reached with
  | none => exact hle
  | some r =>
    obtain hr | hr := transition_cases new r
    · simpa [hr] using hle
    obtain ⟨old, hold, -, hrank⟩ := hs r hreached
    simpa [hr] using hrank.trans (hkept old hold)

theorem step_truthful (hs : Truthful s) (ok : s.Unspoilt e) (next : step e s = some s') :
    s'.Truthful := by
  cases e with
  | mark delivered =>
    cases next
    intro r hr
    obtain ⟨status, hrow, hne, hle⟩ := hs r hr
    have hmark : (if delivered then welcomeDelivered else .commitObserved) ≠ .failed := by
      cases delivered <;> decide
    exact ⟨_, Option.mem_map_of_mem _ hrow, (transition_reaches hmark hne).1,
      Nat.le_trans hle (rank_le_transition _ _)⟩
  | invite outcome createWorks markWorks =>
    obtain ⟨⟨rfl, rfl⟩, ok⟩ := ok
    cases next
    -- an attempt that adds moves a row that is not failed up to its own mark
    have hmoves : ∀ new : AddOpStatus, new ≠ .failed → s.row ≠ some .failed →
        Truthful ⟨(some (s.row.getD .approved)).map (transition new),
          some ((s.reached.map (transition new)).getD new)⟩ := by
      intro new hnew hrow
      have hold : s.row.getD .approved ≠ .failed := by
        cases hs : s.row <;> simp_all
      obtain ⟨hne, hle⟩ := transition_reaches hnew hold
      refine hs.reaching hne hle fun status hstatus => ?_
      rw [Option.mem_def.mp hstatus]
      exact rank_le_transition new status
    -- one that proposes and marks nothing needs a row that is as far
    have hstays : s.row ∉ [none, some .approved, some .failed] →
        Truthful ⟨s.row, some ((s.reached.map (transition .proposalBroadcast)).getD
          .proposalBroadcast)⟩ := by
      intro hrow
      cases hstatus : s.row with
      | none => simp [hstatus] at hrow
      | some status =>
        refine hs.reaching ?_ ?_ (by simp [hstatus]) <;> cases status <;> simp_all [rank]
    cases outcome with
    | refused proposed =>
      rcases ok with ⟨rfl, hnone⟩ | hdelivered
      · intro r hr
        cases hnone.symm.trans hr
      · cases proposed with
        | false =>
          simpa [AddOutcome.mark, AddOutcome.reaches, hdelivered, Truthful, transition, rank]
            using hs
        | true =>
          simpa [AddOutcome.mark, AddOutcome.reaches, hdelivered, transition, rank]
            using hstays (by simp [hdelivered])
    | already proposed =>
      cases proposed with
      | false =>
        intro r hr
        obtain ⟨status, hrow, hstatus⟩ := hs r hr
        exact ⟨status, by simp [AddOutcome.mark, Option.mem_def.mp hrow], hstatus⟩
      | true =>
        have hrow := ok rfl
        have hsome : some (s.row.getD .approved) = s.row := by
          cases hs : s.row <;> simp_all
        simpa [AddOutcome.mark, AddOutcome.reaches, hsome] using hstays hrow
    | deferred => exact hmoves .proposalBroadcast (by decide) ok
    | committed => exact hmoves .welcomeQueued (by decide) ok

/-- In every run whose attempts are unspoilt the row tells the truth, and no event lowers its
rank. -/
theorem add_operation_truthful (s : AddOperation) :
    (Transition.Run step Unspoilt {} s → s.Truthful) ∧
    ∀ e s', step e s = some s' → ∀ old ∈ s.row, ∃ new ∈ s'.row, old.rank ≤ new.rank := by
  refine ⟨fun run => run.invariant Truthful (by simp [Truthful]) fun _ _ _ hs ok next =>
    step_truthful hs ok next, ?_⟩
  rintro e s' next old hold
  have hold := Option.mem_def.mp hold
  cases e with
  | mark delivered =>
    cases next
    exact ⟨_, Option.mem_map_of_mem _ hold, rank_le_transition _ _⟩
  | invite outcome createWorks markWorks =>
    cases next
    cases outcome <;> cases createWorks <;> cases markWorks <;>
      simp [hold, AddOutcome.mark, rank_le_transition]

/-- An Add is proposed, its commit is seen, a retry finds the member there, the Welcome is
delivered, and a last retry errs after it proposed the Add again. -/
theorem delivered_add_stays_truthful :
    ∃ s, Transition.Run step Unspoilt {} s ∧ s.row = some .welcomeDelivered ∧
      s.reached = some .proposalBroadcast ∧ s.Truthful := by
  obtain ⟨s, hrun, hrow, hreached⟩ : ∃ s, Transition.Run step Unspoilt {} s ∧
      s.row = some .welcomeDelivered ∧ s.reached = some .proposalBroadcast :=
    Transition.Run.exists_of_checked
      [.invite .deferred true true, .mark false, .invite (.already true) true true, .mark true,
        .invite (.refused true) true true]
      (fun s e => decide (s.Unspoilt e)) (fun _ _ _ => of_decide_eq_true) (by decide)
  exact ⟨s, hrun, hrow, hreached, (add_operation_truthful s).1 hrun⟩

/-- An attempt is refused, and the retry that is proposed leaves the row failed; so does one
attempt that errs after it proposed its Add. -/
theorem retries_leave_failed :
    let failed : AddOperation := ⟨some .failed, some .proposalBroadcast⟩
    Transition.exec step [.invite (.refused false) true true, .invite .deferred true true] {} =
        some failed ∧
      Transition.exec step [.invite (.refused true) true true] {} = some failed ∧
      Transition.Run step (fun _ _ => True) {} failed ∧ ¬failed.Truthful := by
  intro failed
  have hexec : Transition.exec step [.invite (.refused true) true true] {} = some failed := rfl
  refine ⟨rfl, hexec, .of_exec hexec fun _ _ _ => trivial, fun h => ?_⟩
  obtain ⟨status, ⟨⟩, hne, -⟩ := h _ rfl
  exact hne rfl

end AddOperation

open Fallible AddOpStatus

-- -------- Add operations

theorem delivered_of_not_failed (status : AddOpStatus) :
    transition .welcomeDelivered status = if status = .failed then .failed
      else .welcomeDelivered := by
  cases status <;> rfl

theorem foldl_markAddWelcomeDelivered (ids : List String) (ops : List GroupAddOperation) :
    ids.foldl markAddWelcomeDelivered ops = ops.map fun op =>
      if op.operationID ∈ ids then { op with status := .transition .welcomeDelivered op.status }
        else op := by
  induction ids generalizing ops with
  | nil => simp
  | cons id ids ih =>
    rw [List.foldl_cons, ih, markAddWelcomeDelivered, List.map_map]
    refine List.map_congr_left fun op _ => ?_
    by_cases hid : op.operationID = id <;> by_cases hids : op.operationID ∈ ids <;>
      simp_all [delivered_of_not_failed]

theorem operations_delivered (h : op ∈ ((listGroupAddOperationsForTarget ops peerID).map
      (·.operationID)).foldl markAddWelcomeDelivered ops)
    (hpeer : op.targetPeerID = trimSpace peerID) (hfailed : op.status ≠ .failed) :
    op.status = .welcomeDelivered := by
  rw [foldl_markAddWelcomeDelivered] at h
  obtain ⟨old, hold, rfl⟩ := List.mem_map.mp h
  split at hpeer
  next hlisted =>
    rw [if_pos hlisted] at hfailed ⊢
    simp_all [delivered_of_not_failed]
  rename_i hlisted
  rw [if_neg hlisted] at hfailed ⊢
  by_contra hpending
  refine hlisted (List.mem_map_of_mem (List.mem_filter.mpr ⟨hold, ?_⟩))
  simp [hpeer, hfailed, hpending]

-- -------- The roster

/-- No row is lost, reactivated or given another role. -/
def RosterKept (db db' : MembershipStore) : Prop :=
  ∀ row ∈ db.members, ∃ row' ∈ db'.members, row'.peerID = row.peerID ∧ row'.role = row.role ∧
    (row.status = .left → row'.status = .left)

theorem RosterKept.refl (db : MembershipStore) : RosterKept db db :=
  fun row hrow => ⟨row, hrow, rfl, rfl, id⟩

theorem rosterSync_kept {db : MembershipStore}
    (hkeyed : Table.Keyed GroupMemberRecord.peerID db.members)
    (h : db.rosterSync node w peerID = .ok db') : RosterKept db db' := by
  obtain ⟨_, -, h⟩ := bind_ok h
  obtain ⟨_, -, h⟩ := bind_ok h
  obtain ⟨rec, hget, h⟩ := bind_ok h
  cases h
  split
  · exact .refl db
  rename_i hactive
  unfold MembershipStore.getGroupMember at hget
  split at hget
  next hget' =>
    cases hget
    obtain ⟨hmem, hkey⟩ := Table.mem_of_get hget'
    intro row hrow
    refine ⟨if row.peerID = trimSpace peerID then { row with status := .active } else row, ?_, ?_⟩
    · rw [MembershipStore.upsertGroupMember, Table.upsert,
        if_pos (List.mem_map.mpr ⟨rec, hmem, hkey⟩)]
      exact List.mem_map_of_mem hrow
    split
    next hsame =>
      rw [← hsame, Table.get_eq_some hkeyed hrow] at hget'
      cases hget'
      exact ⟨rfl, rfl, fun hleft => absurd hleft hactive⟩
    · exact ⟨rfl, rfl, id⟩
  · cases hget

-- -------- The handler

/-- The handler reads the acknowledgement: it names the group and its authenticated sender, whose
printed form has no blanks around it and decodes. -/
structure GroupJoinAck.Valid (node : Node) (verified : Bool) (remote : PeerID) (msg : GroupJoinAck)
    (db : MembershipStore) : Prop where
  verified : verified = true
  version : msg.v = 1
  group : msg.groupID = node.groupID ∧ trimSpace node.groupID ≠ "" ∧ db.storage.group ≠ none
  sender : node.peers.toString remote = msg.peerID
  plain : trimSpace msg.peerID = msg.peerID
  decodes : node.isValidPeerID msg.peerID = true

/-- The peer has a row, its Welcome is delivered, and so is each of its operations that has not
failed. -/
def AddCompleted (peerID : String) (db : MembershipStore)
    (out : MembershipStore × List GroupAddOperation) : Prop :=
  (peerID ∉ db.members.map (·.peerID) → ∃ row ∈ out.1.members, row.peerID = peerID ∧
    row.status = .active) ∧
  (∀ row ∈ out.1.pendingWelcomesOut, row.targetPeerID = peerID → row.delivered = true) ∧
  ∀ op ∈ out.2, op.targetPeerID = peerID → op.status ≠ .failed → op.status = .welcomeDelivered

section

variable (h : GroupJoinAck.Valid node ok remote msg db)

include h

theorem GroupJoinAck.Valid.hasText : msg.peerID ≠ "" := by
  have hdecodes := h.decodes
  simp only [Node.isValidPeerID, h.plain, Bool.decide_and, Bool.and_eq_true,
    decide_eq_true_eq] at hdecodes
  exact hdecodes.1

theorem GroupJoinAck.Valid.handled :
    handleGroupJoinAckStream node w ok remote msg db ops =
      completeAdd node w msg.peerID db ops := by
  have hpeer : msg.peerID ≠ "" := h.hasText
  obtain ⟨rfl, hv, ⟨hgroup, htext, hhas⟩, hsender, hplain, -⟩ := h
  simp [handleGroupJoinAckStream, hv, hgroup, htext, hplain, hpeer, hsender, hhas]

theorem GroupJoinAck.Valid.synced :
    (∃ db', db.rosterSync node w msg.peerID = .ok db') ↔ msg.peerID ∈ db.members.map
      (·.peerID) := by
  have hpeer : msg.peerID ≠ "" := h.hasText
  unfold MembershipStore.rosterSync MembershipStore.getGroupMember
  simp only [h.plain, h.decodes, require_eq_ok hpeer, require_eq_ok trivial]
  cases hget : Table.get GroupMemberRecord.peerID db.members msg.peerID with
  | none => simpa [bind, Except.bind] using Table.get_eq_none.mp hget
  | some row =>
    obtain ⟨hmem, hkey⟩ := Table.mem_of_get hget
    exact ⟨fun _ => hkey ▸ List.mem_map_of_mem hmem, fun _ => ⟨_, rfl⟩⟩

end

/-- Whatever comes, the handler keeps the roster; a valid acknowledgement completes the add exactly
when the peer has a row already. -/
theorem join_ack_completes_iff (node : Node) (w : JoinWorld) (verified : Bool) (remote : PeerID)
    (msg : GroupJoinAck) (db : MembershipStore) (ops : List GroupAddOperation)
    (hkeyed : Table.Keyed GroupMemberRecord.peerID db.members) :
    RosterKept db (handleGroupJoinAckStream node w verified remote msg db ops).1 ∧
    (msg.Valid node verified remote db →
      (AddCompleted msg.peerID db (handleGroupJoinAckStream node w verified remote msg db ops) ↔
        msg.peerID ∈ db.members.map (·.peerID))) := by
  constructor
  · have hadd : RosterKept db (completeAdd node w msg.peerID db ops).1 := by
      unfold completeAdd
      split
      · exact .refl db
      next hsync =>
        have hkept := rosterSync_kept hkeyed hsync
        exact hkept
    unfold handleGroupJoinAckStream
    split_ifs
    exacts [.refl db, .refl db, .refl db, .refl db, hadd]
  intro hvalid
  have hsynced := hvalid.synced (w := w)
  rw [hvalid.handled, completeAdd]
  cases hsync : db.rosterSync node w msg.peerID with
  | error err =>
    have hnone : msg.peerID ∉ db.members.map (·.peerID) := by simpa [hsync] using hsynced.not
    refine iff_of_false (fun hdone => ?_) hnone
    obtain ⟨row, hmem, hpeer, -⟩ := hdone.1 hnone
    exact hnone (List.mem_map.mpr ⟨row, hmem, hpeer⟩)
  | ok db' =>
    have hrow := hsynced.mp ⟨db', hsync⟩
    refine iff_of_true ⟨absurd hrow, fun row hmem hpeer => ?_, fun op hop hpeer =>
      operations_delivered hop (hpeer.trans hvalid.plain.symm)⟩ hrow
    obtain ⟨old, -, rfl⟩ := List.mem_map.mp hmem
    split at hpeer <;> simp_all

namespace Reference

def awaitingB (members : List GroupMemberRecord) : MembershipStore where
  storage := { group := some { groupState := [1, 0], epoch := 0, treeHash := [] } }
  members := members
  pendingWelcomesOut := [⟨"B", [8, 1], false, 1, [7]⟩]

def ackOfB : GroupJoinAck := { v := 1, groupID := "g", peerID := "B" }

theorem ackOfB_valid : ackOfB.Valid (member [65]) true [66] (awaitingB members) where
  verified := rfl
  version := rfl
  group := ⟨rfl, by decide +kernel, nofun⟩
  sender := by decide +kernel
  plain := by decide +kernel
  decodes := by decide +kernel

end Reference

open Reference in
/-- A peer that was seen before: its acknowledgement completes the add. -/
theorem known_peer_completes : AddCompleted "B" (awaitingB [⟨"B", .admin, .active⟩])
    (handleGroupJoinAckStream (member [65]) joinWorld true [66] ackOfB
      (awaitingB [⟨"B", .admin, .active⟩]) [⟨"op", "B", .welcomeQueued⟩]) :=
  ((join_ack_completes_iff _ joinWorld _ _ ackOfB (awaitingB [⟨"B", .admin, .active⟩]) _
    (List.nodup_singleton _)).2 ackOfB_valid).mpr (.head _)

open Reference in
/-- A new peer: the handler returns with the lookup's error, and nothing is recorded. -/
theorem new_peer_never_completes :
    handleGroupJoinAckStream (member [65]) joinWorld true [66] ackOfB (awaitingB [])
      [⟨"op", "B", .welcomeQueued⟩] = (awaitingB [], [⟨"op", "B", .welcomeQueued⟩]) ∧
    ¬AddCompleted "B" (awaitingB []) (awaitingB [], [⟨"op", "B", .welcomeQueued⟩]) := by
  refine ⟨by decide +kernel, fun h => ?_⟩
  obtain ⟨row, hrow, -⟩ := h.1 nofun
  cases hrow

end GroupCoordination
