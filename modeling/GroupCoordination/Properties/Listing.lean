import GroupCoordination.Lib.Pages
import GroupCoordination.Properties.Mirrors

/-!
# Listing invite requests

A page of requests names its last row in the cursor `updated_at:request_id`, which the next call
splits at the colon. A cursor with more than one colon adds no condition to the query, and the next
page is the first one again.
-/

namespace GroupCoordination

variable {rows : InviteRequests} {groupID : String} {statuses : List String} {limit : Int}

-- -------- The cursor

theorem isDigit_of_mem_repr {m : Nat} {c : Char} (h : c ∈ m.repr.toList) : c.isDigit = true := by
  rw [Nat.toList_repr] at h
  exact Nat.isDigit_of_mem_toDigits (by decide) (by decide) h

theorem toList_repr_negSucc (m : Nat) :
    (Int.negSucc m).repr.toList = '-' :: m.succ.repr.toList := by
  simp [Int.repr]

theorem colon_not_mem_repr (n : Int) : ':' ∉ n.repr.toList := by
  intro h
  cases n with
  | ofNat m => exact absurd (isDigit_of_mem_repr h) (by decide)
  | negSucc m =>
    rw [toList_repr_negSucc, List.mem_cons] at h
    exact absurd (isDigit_of_mem_repr (h.resolve_left (by decide))) (by decide)

theorem parseDigits_repr (m : Nat) : parseDigits m.repr.toList = some m := by
  have hall : m.repr.toList.all Char.isDigit = true :=
    List.all_eq_true.mpr fun c hc => isDigit_of_mem_repr hc
  rw [parseDigits, if_pos ⟨by simp [Nat.toList_repr], hall⟩, Nat.toList_repr,
    Nat.ofDigitChars_ten_toDigits]

theorem parseInt_repr (n : Int) : parseInt n.repr.toList = some n := by
  cases n with
  | ofNat m =>
    change parseInt m.repr.toList = _
    -- a text of digits has no sign
    have hdigit (c : Char) (cs : List Char) (h : m.repr.toList = c :: cs) : c.isDigit = true :=
      isDigit_of_mem_repr (h ▸ List.mem_cons_self)
    rw [parseInt.eq_3 _ (fun cs h => absurd (hdigit _ cs h) (by decide))
      (fun cs h => absurd (hdigit _ cs h) (by decide)), parseDigits_repr]
    rfl
  | negSucc m =>
    rw [toList_repr_negSucc, parseInt, parseDigits_repr]
    rfl

theorem parseInviteCursor_cursor {rec : GroupInviteRequestRecord}
    (hid : ':' ∉ rec.requestID.toList) : parseInviteCursor rec.cursor = some rec.position := by
  have hlist : rec.cursor.toList = rec.updatedAt.repr.toList ++ ':' :: rec.requestID.toList := by
    simp [GroupInviteRequestRecord.cursor]
  unfold parseInviteCursor
  rw [hlist, List.splitOn_append_cons_self_of_not_mem (colon_not_mem_repr _),
    List.splitOn_eq_singleton hid]
  simp [parseInt_repr, GroupInviteRequestRecord.position]

theorem GroupInviteRequestRecord.cursor_ne_empty (rec : GroupInviteRequestRecord) :
    rec.cursor ≠ "" := by
  intro h
  have hlist := congrArg String.toList h
  simp [cursor] at hlist

-- -------- Pages

theorem listed_pairwise (hkeyed : Table.Keyed GroupInviteRequestRecord.requestID rows) :
    (rows.listed groupID statuses).Pairwise fun a b => b.position < a.position := by
  unfold InviteRequests.listed
  dsimp only
  split
  · exact .nil
  · generalize hselected : rows.filter _ = selected
    have : IsTrans GroupInviteRequestRecord fun a b => b.position ≤ a.position :=
      ⟨fun _ _ _ hab hbc => hbc.trans hab⟩
    have : Std.Total fun a b : GroupInviteRequestRecord => b.position ≤ a.position :=
      ⟨fun _ _ => le_total _ _⟩
    have hsorted := List.pairwise_insertionSort
      (fun a b : GroupInviteRequestRecord => b.position ≤ a.position) selected
    have hids : selected.Pairwise fun a b => a.requestID ≠ b.requestID :=
      hselected ▸ (List.pairwise_map.mp hkeyed).filter _
    refine (hsorted.and ((List.perm_insertionSort _ _).symm.pairwise hids fun h => h.symm)).imp ?_
    rintro a b ⟨hle, hne⟩
    refine lt_of_le_of_ne hle fun heq => hne ?_
    exact congrArg (fun position => (ofLex position).2) heq.symm

theorem invitePageLimit_pos (limit : Int) : 0 < invitePageLimit limit := by
  unfold invitePageLimit
  split <;> omega

theorem listGroupInviteRequests_eq (cursor : String) :
    listGroupInviteRequests groupID statuses cursor limit rows =
      Pages.page (invitePageLimit limit) GroupInviteRequestRecord.cursor ""
        ((rows.listed groupID statuses).after cursor) := by
  unfold listGroupInviteRequests Pages.page
  dsimp only
  generalize (rows.listed groupID statuses).after cursor = rest
  generalize hn : invitePageLimit limit = n
  have hpos : 0 < n := hn ▸ invitePageLimit_pos limit
  by_cases hlast : rest.length ≤ n
  · have hall : rest.take (n + 1) = rest := List.take_of_length_le (by omega)
    rw [hall, if_neg (by omega), if_pos hlast, List.take_of_length_le hlast]
  · have hlen : (rest.take (n + 1)).length = n + 1 := List.length_take_of_le (by omega)
    rw [if_pos (by omega), if_neg hlast, List.take_take, Nat.min_eq_left (Nat.le_succ n),
      List.getElem?_take_of_lt (by omega)]

/-- After a row without a colon in its id a listing goes on where it stopped. -/
theorem after_cursor {listed rest : InviteRequests} {rec : GroupInviteRequestRecord}
    (hsorted : listed.Pairwise fun a b => b.position < a.position) (hrest : rec :: rest <:+ listed)
    (hid : ':' ∉ rec.requestID.toList) : listed.after rec.cursor = rest := by
  obtain ⟨before, rfl⟩ := hrest
  rw [List.pairwise_append, List.pairwise_cons] at hsorted
  obtain ⟨-, ⟨hbelow, -⟩, habove⟩ := hsorted
  unfold InviteRequests.after
  rw [parseInviteCursor_cursor hid]
  have hnone : before.filter (fun a : GroupInviteRequestRecord => a.position < rec.position) = [] :=
    List.filter_eq_nil_iff.mpr fun a ha hlt =>
      lt_asymm (of_decide_eq_true hlt) (habove a ha rec List.mem_cons_self)
  have hall : rest.filter (fun a : GroupInviteRequestRecord => a.position < rec.position) = rest :=
    List.filter_eq_self.mpr fun a ha => decide_eq_true (hbelow a ha)
  simp only [List.filter_append, hnone, List.nil_append, List.filter_cons, lt_irrefl,
    decide_false, Bool.false_eq_true, if_false, hall]

/-- The pages that a reader gets who follows the cursors from the first page to the last. -/
def InviteRequests.readPages (rows : InviteRequests) (groupID : String) (statuses : List String)
    (limit : Int) (calls : Nat) : Option InviteRequests :=
  Pages.follow (fun cursor => listGroupInviteRequests groupID statuses cursor limit rows) "" calls ""

def Reference.mirroredPair (requestID : String) : InviteRequests :=
  MirrorFrame.applyAll [] [({ now := 2 }, pushedRequest "r" "rejected"),
    ({ now := 2 }, pushedRequest requestID "rejected")]

end GroupCoordination
