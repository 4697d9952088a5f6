import Mathlib.Data.Finset.Max
import GroupCoordination.Properties.Creators

/-!
# Invites that have ended

An invite that was accepted or rejected keeps its status through a save. A mark gives it any status,
also the other of the two, and a purge deletes it with its group. Reopening takes one rejected
invite back.
-/

namespace GroupCoordination

def PendingInvite.KeptIn (inv : PendingInvite) (rows : List PendingInvite) : Prop :=
  ∃ row ∈ rows, row.id = inv.id ∧ row.welcomeHash = inv.welcomeHash ∧ row.status = inv.status

/-- The operation does not mark the invite with another status, and neither reopens nor purges. -/
def JoinOp.respects (inv : PendingInvite) : JoinOp → Bool
  | .markPendingInvite id status => id = inv.id → status = inv.status
  | .reopenRejectedInvite _ | .purgeGroupMetadata => false
  | _ => true

def JoinAction.respects (inv : PendingInvite) (p : JoinPool) : JoinAction → Bool
  | .advance i _ => (p.asked i).all (·.respects inv)
  | _ => true

section

variable {inv : PendingInvite}

theorem PendingInvite.KeptIn.map {rows : List PendingInvite} (h : inv.KeptIn rows)
    (f : PendingInvite → PendingInvite)
    (hf : ∀ row, row.id = inv.id → row.status = inv.status →
      (f row).id = row.id ∧ (f row).welcomeHash = row.welcomeHash ∧ (f row).status = row.status) :
    inv.KeptIn (rows.map f) := by
  obtain ⟨row, hrow, hid, hhash, hstatus⟩ := h
  obtain ⟨hid', hhash', hstatus'⟩ := hf row hid hstatus
  exact ⟨f row, List.mem_map_of_mem hrow, hid'.trans hid, hhash'.trans hhash,
    hstatus'.trans hstatus⟩

theorem JoinWorld.applies_keptIn {w : JoinWorld} (hended : inv.status = .accepted ∨
    inv.status = .rejected)
    (happlies : w.applies node op db = .ok db') (hop : op.respects inv = true)
    (h : inv.KeptIn db.pendingInvites) : inv.KeptIn db'.pendingInvites := by
  cases op with
  | purgeGroupMetadata | reopenRejectedInvite new => cases hop
  | savePendingInvite new =>
    rw [MembershipStore.savePendingInvite_ok happlies]
    dsimp only
    unfold Table.upsert
    split
    · refine h.map _ fun row _ hstatus => ?_
      rw [← hstatus] at hended
      split
      · exact ⟨rfl, rfl, if_pos hended⟩
      · exact ⟨rfl, rfl, rfl⟩
    · obtain ⟨row, hrow, hsame⟩ := h
      exact ⟨row, List.mem_append_left _ hrow, hsame⟩
  | markPendingInvite id status =>
    rw [MembershipStore.markPendingInviteStatus_ok happlies]
    refine h.map _ fun row hid hstatus => ?_
    split
    next heq =>
      have hmark := of_decide_eq_true hop (heq.symm.trans hid)
      exact ⟨rfl, rfl, hmark.trans hstatus.symm⟩
    · exact ⟨rfl, rfl, rfl⟩
  | markGroupLeft =>
    obtain ⟨-, rfl⟩ := JoinWorld.applies_markGroupLeft happlies
    exact h
  | setGroupCreatorPeerID creatorPeerID =>
    cases happlies
    rcases db.setGroupCreatorPeerID_cases creatorPeerID with heq | ⟨-, heq⟩ <;> (rw [heq]; exact h)
  | saveGroupRecord groupState treeHash epoch groupType =>
    obtain ⟨rec, -, -, rfl⟩ := JoinWorld.applies_saveGroupRecord happlies
    exact h
  | _ =>
    cases happlies
    exact h

theorem membershipStep_keptIn (hended : inv.status = .accepted ∨ inv.status = .rejected)
    (hok : e.respects inv p = true) (hstep : membershipStep node e p = some p')
    (h : inv.KeptIn p.state.db.pendingInvites) : inv.KeptIn p'.state.db.pendingInvites := by
  cases membershipStep_cases hstep with
  | advance hadvance =>
    obtain ⟨op, _, r, -, hasked, hrun, -⟩ := Program.Pool.advance_cases hadvance
    rw [JoinAction.respects, hasked] at hok
    rcases joinMachine_db hrun with hsame | happlies
    · rw [hsame]
      exact h
    · exact JoinWorld.applies_keptIn hended happlies hok h
  | _ => exact h

theorem MembershipStore.exists_newest {db : MembershipStore}
    (h : ¬ db.pendingInvites.all (·.status ≠ .rejected) = true) :
    ∃ row ∈ db.pendingInvites, row.status = .rejected ∧
      (db.pendingInvites.filter (·.status = .rejected)).all
        (·.updatedAt ≤ row.updatedAt) = true := by
  obtain ⟨row, hrow, hmax⟩ :=
    (db.pendingInvites.filter (·.status = .rejected)).toFinset.exists_max_image
    (·.updatedAt) (by simpa [Finset.Nonempty] using h)
  rw [List.mem_toFinset, List.mem_filter, decide_eq_true_eq] at hrow
  refine ⟨row, hrow.1, hrow.2, List.all_eq_true.mpr fun other hother => ?_⟩
  exact decide_eq_true (hmax other (List.mem_toFinset.mpr hother))

theorem MembershipStore.reopenRejectedInvite_one {db : MembershipStore}
    (h : db.reopenRejectedInvite now new = .ok db') :
    ∃ before row after, row.status = .rejected ∧ db.pendingInvites = before ++ row :: after ∧
      db' = { db with pendingInvites := before ++ PendingInvite.reopen now new row :: after } := by
  rw [reopenRejectedInvite_ok h]
  unfold reopenRejectedInvite at h
  dsimp only at h
  split at h
  · cases h
  rename_i hany
  split at h
  next hunique =>
    obtain ⟨row, hrow, hnewest⟩ := exists_newest hany
    obtain ⟨before, after, hrows, hreopened⟩ :=
      Table.update_one hunique.1 hrow hnewest fun _ _ => rfl
    exact ⟨before, row, after, hnewest.1, hrows,
      congrArg (fun rows => { db with pendingInvites := rows }) hreopened⟩
  · cases h

end

/-- In a run whose operations respect an invite that has ended, it stays as it ended. And reopening
changes one row, a rejected one. -/
theorem ended_invites_stay (node : Node) :
    (∀ (inv : PendingInvite) (p p' : JoinPool), inv.status = .accepted ∨ inv.status = .rejected →
      Transition.Run (membershipStep node) (fun p e => e.respects inv p = true) p p' →
      inv.KeptIn p.state.db.pendingInvites → inv.KeptIn p'.state.db.pendingInvites) ∧
    ∀ (db db' : MembershipStore) (now : Int) (new : PendingInvite),
      db.reopenRejectedInvite now new = .ok db' →
      ∃ before row after, row.status = .rejected ∧ db.pendingInvites = before ++ row :: after ∧
        db' = { db with
          pendingInvites := before ++ PendingInvite.reopen now new row :: after } := by
  refine ⟨fun inv p p' hended hrun h => ?_, fun _ _ _ _ => MembershipStore.reopenRejectedInvite_one⟩
  exact hrun.invariant (inv.KeptIn ·.state.db.pendingInvites) h fun _ _ _ hkept hok hstep =>
    membershipStep_keptIn hended hok hstep hkept

namespace Reference

def rejects (inviteID : String) (i : Nat) : List JoinAction :=
  [.call (.rejectInvite inviteID), .advance i joinWorld, .advance i joinWorld]

def rejectedInvite : PendingInvite := ⟨"i", "group", "A", [7], [8], "A", .rejected, 1, 1⟩

end Reference

open Reference in
theorem invite_rejected_twice : ∃ p' : JoinPool,
    Transition.Run (membershipStep (member [66])) (fun p e => e.respects rejectedInvite p = true)
      { state := { db := { pendingInvites := [rejectedInvite] } } } p' ∧
    rejectedInvite.KeptIn p'.state.db.pendingInvites := by
  refine (Transition.Run.exists_of_checked (P := fun _ => True) (rejects "i" 0)
    (fun p e => e.respects rejectedInvite p) (fun _ _ _ h => h) ?_).imp fun p' hrun => ⟨hrun.1, ?_⟩
  · decide +kernel
  · exact (ended_invites_stay (member [66])).1 rejectedInvite _ p' (.inr rfl) hrun.1
      ⟨_, List.mem_cons_self, rfl, rfl, rfl⟩

open Reference in
/-- The Welcome is applied as it comes in, and the user rejects the accepted invite. -/
theorem accepted_invite_is_rejected :
    let joins := .call (.welcomeDelivery "A" (welcomeFrom "A" "B")) ::
      List.replicate 26 (.advance 0 joinWorld)
    let statuses := fun actions =>
      (Transition.exec (membershipStep (member [66])) actions { state := {} }).map
        (·.state.db.pendingInvites.map (·.status))
    statuses joins = some [.accepted] ∧
      statuses (joins ++ rejects ((member [66]).pendingInviteID [8, 1]) 1) = some [.rejected] := by
  decide +kernel

end GroupCoordination
