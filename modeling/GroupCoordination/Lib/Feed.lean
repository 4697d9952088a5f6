import Mathlib.Data.List.Sort

/-!
# A numbered feed and its reader

Rows are appended with the number after the greatest one there is, and old rows are removed. A
reader keeps a cursor, asks for the rows beyond it page by page, and moves the cursor along the
rows it accepts. Any number of such pulls may be under way while the feed goes on.

As long as the newest row is never removed, no number is given out twice and no row is passed over.
-/

namespace Feed

variable {β : Type} {rows rows' : List (ℕ × β)} {row : ℕ × β} {after limit n : ℕ}

-- -------- Numbers

theorem foldl_max_le (l : List ℕ) (a n : ℕ) : l.foldl max a ≤ n ↔ a ≤ n ∧ ∀ x ∈ l, x ≤ n := by
  induction l generalizing a with
  | nil => simp
  | cons x l ih => simp [ih, and_assoc]

def top (rows : List (ℕ × β)) : ℕ := (rows.map Prod.fst).foldl max 0

theorem top_le : top rows ≤ n ↔ ∀ row ∈ rows, row.1 ≤ n := by simp [top, foldl_max_le]

theorem le_top (h : row ∈ rows) : row.1 ≤ top rows := top_le.mp le_rfl row h

theorem top_append (h : top rows ≤ n) (b : β) : top (rows ++ [(n, b)]) = n := by
  have hlast : (n, b) ∈ rows ++ [(n, b)] := List.mem_append_right _ (List.mem_singleton_self _)
  refine le_antisymm (top_le.mpr fun row hrow => ?_) (le_top hlast)
  rcases List.mem_append.mp hrow with hold | hnew
  · exact (le_top hold).trans h
  · rw [List.mem_singleton.mp hnew]

theorem exists_top (h : rows ≠ []) : ∃ row ∈ rows, row.1 = top rows := by
  by_contra hnone
  push Not at hnone
  have hlt : ∀ row ∈ rows, row.1 < top rows := fun row hrow =>
    lt_of_le_of_ne (le_top hrow) (hnone row hrow)
  obtain ⟨row, hrow⟩ := List.exists_mem_of_ne_nil rows h
  have hpos := hlt row hrow
  have hle : top rows ≤ top rows - 1 :=
    top_le.mpr fun row hrow => Nat.le_sub_one_of_lt (hlt row hrow)
  omega

theorem top_of_kept (hsub : ∀ row ∈ rows', row ∈ rows)
    (hkept : ∀ row ∈ rows, row.1 = top rows → row ∈ rows') : top rows' = top rows := by
  refine le_antisymm (top_le.mpr fun row hrow => le_top (hsub row hrow)) ?_
  by_cases hnil : rows = []
  · rw [hnil]
    exact Nat.zero_le _
  · obtain ⟨row, hrow, htop⟩ := exists_top hnil
    exact htop ▸ le_top (hkept row hrow htop)

-- -------- Pages

def since (rows : List (ℕ × β)) (after limit : ℕ) : List (ℕ × β) :=
  ((rows.filter (after < ·.1)).insertionSort (·.1 ≤ ·.1)).take limit

theorem insertionSort_ascending (h : (rows.map Prod.fst).Nodup) :
    (rows.insertionSort (·.1 ≤ ·.1)).Pairwise (·.1 < ·.1) := by
  have hle := List.pairwise_insertionSort (fun a b : ℕ × β => a.1 ≤ b.1) rows
  have hne : (rows.insertionSort (·.1 ≤ ·.1)).Pairwise (·.1 ≠ ·.1) := by
    rw [(List.perm_insertionSort _ rows).pairwise_iff fun h => h.symm]
    exact List.pairwise_map.mp h
  exact hle.imp₂ (fun _ _ => lt_of_le_of_ne) hne

/-- A page skips nothing: it has every row up to its last one. -/
structure Reads (rows : List (ℕ × β)) (after : ℕ) (page : List (ℕ × β)) : Prop where
  ascending : page.Pairwise (·.1 < ·.1)
  ahead : ∀ e ∈ page, after < e.1
  present : ∀ e ∈ page, e ∈ rows
  complete : ∀ row ∈ rows, after < row.1 → ∀ e ∈ page, row.1 ≤ e.1 → row ∈ page

theorem since_reads (h : (rows.map Prod.fst).Nodup) :
    Reads rows after (since rows after limit) := by
  have hperm := List.perm_insertionSort (fun a b : ℕ × β => a.1 ≤ b.1) (rows.filter (after < ·.1))
  have hmem : ∀ e, e ∈ (rows.filter (after < ·.1)).insertionSort (·.1 ≤ ·.1) ↔
      e ∈ rows ∧ after < e.1 := fun e => by simp [hperm.mem_iff]
  have hstrict : ((rows.filter (after < ·.1)).insertionSort (·.1 ≤ ·.1)).Pairwise (·.1 < ·.1) :=
    insertionSort_ascending (h.sublist (List.filter_sublist.map _))
  have htake := fun e he => (hmem e).mp (List.mem_of_mem_take (i := limit) he)
  refine ⟨hstrict.sublist (List.take_sublist _ _), fun e he => (htake e he).2,
    fun e he => (htake e he).1, fun row hrow hafter e he hle => ?_⟩
  have hsplit := (hmem row).mpr ⟨hrow, hafter⟩
  rw [← List.take_append_drop limit (List.insertionSort _ _)] at hsplit hstrict
  rcases List.mem_append.mp hsplit with hpage | hrest
  · exact hpage
  · exact absurd ((List.pairwise_append.mp hstrict).2.2 e he row hrest) (not_lt.mpr hle)

end Feed

-- -------- Pulls

/-- One pull: where it began, where the next page begins, what came so far, and whether another
page follows. -/
structure Pull (β : Type) where
  start : ℕ
  after : ℕ
  entries : List (ℕ × β) := []
  more : Bool := true

namespace Pull

variable {β : Type} {rows rows' received : List (ℕ × β)} {p : Pull β} {limit n : ℕ}

/-- A page arrives. Only a full one is followed by another. -/
def read (limit : ℕ) (rows : List (ℕ × β)) (p : Pull β) : Pull β :=
  let page := Feed.since rows p.after limit
  let p := { p with entries := p.entries ++ page }
  if page.length < limit then { p with more := false }
  else { p with after := (page.getLast?.map Prod.fst).getD p.after }

def reach (p : Pull β) : ℕ := (p.entries.map Prod.fst).foldl max p.start

theorem reach_le : p.reach ≤ n ↔ p.start ≤ n ∧ ∀ e ∈ p.entries, e.1 ≤ n := by
  simp [reach, Feed.foldl_max_le]

theorem start_le_reach (p : Pull β) : p.start ≤ p.reach := (reach_le.mp le_rfl).1

theorem le_reach (h : e ∈ p.entries) : e.1 ≤ p.reach := (reach_le.mp le_rfl).2 e h

structure Sound (rows received : List (ℕ × β)) (p : Pull β) : Prop where
  seen : ∀ row ∈ rows, row.1 ≤ p.start → row ∈ received
  ascending : p.entries.Pairwise (·.1 < ·.1)
  ahead : ∀ e ∈ p.entries, p.start < e.1
  complete : ∀ row ∈ rows, p.start < row.1 → row.1 ≤ p.reach → row ∈ p.entries
  bounded : p.reach ≤ Feed.top rows
  next : p.more = true → p.after = p.reach

/-- A sound pull stays so while rows are removed below the newest, rows are appended beyond it, and
the reader receives more. -/
theorem Sound.mono (h : p.Sound rows received) (hrows : ∀ row ∈ rows', row ∈ rows ∨
    Feed.top rows < row.1)
    (htop : Feed.top rows ≤ Feed.top rows') (hreceived : ∀ e ∈ received, e ∈ received') :
    p.Sound rows' received' where
  seen row hrow hstart := by
    have hle := hstart.trans (p.start_le_reach.trans h.bounded)
    exact hreceived row (h.seen row ((hrows row hrow).resolve_right hle.not_gt) hstart)
  ascending := h.ascending
  ahead := h.ahead
  complete row hrow hstart hreach :=
    h.complete row ((hrows row hrow).resolve_right (hreach.trans h.bounded).not_gt) hstart hreach
  bounded := h.bounded.trans htop
  next := h.next

theorem reach_append (h : Feed.Reads rows p.reach page) :
    ({ p with entries := p.entries ++ page } : Pull β).reach =
      (page.getLast?.map Prod.fst).getD p.reach := by
  rcases List.eq_nil_or_concat' page with rfl | ⟨init, last, rfl⟩
  · simp [reach]
  have hlast : ∀ e ∈ init, e.1 ≤ last.1 := fun e he =>
    ((List.pairwise_append.mp h.ascending).2.2 e he last (List.mem_singleton_self _)).le
  have hbeyond := h.ahead last (by simp)
  simp only [List.getLast?_append, List.getLast?_singleton, Option.some_or, Option.map_some,
    Option.getD_some]
  refine le_antisymm (reach_le.mpr ⟨p.start_le_reach.trans hbeyond.le, fun e he => ?_⟩)
    (le_reach (by simp))
  rcases List.mem_append.mp he with hold | hnew
  · exact (le_reach hold).trans hbeyond.le
  rcases List.mem_append.mp hnew with hinit | hend
  · exact hlast e hinit
  · rw [List.mem_singleton.mp hend]

@[simp] theorem read_start (p : Pull β) : (p.read limit rows).start = p.start := by
  unfold read
  dsimp only
  split <;> rfl

@[simp] theorem read_entries (p : Pull β) :
    (p.read limit rows).entries = p.entries ++ Feed.since rows p.after limit := by
  unfold read
  dsimp only
  split <;> rfl

theorem read_reach (p : Pull β) :
    (p.read limit rows).reach =
      ({ p with entries := p.entries ++ Feed.since rows p.after limit } : Pull β).reach := by
  simp [reach]

theorem read_after (p : Pull β) (h : (p.read limit rows).more = true) :
    (p.read limit rows).after =
      ((Feed.since rows p.after limit).getLast?.map Prod.fst).getD p.after := by
  unfold read at h ⊢
  dsimp only at h ⊢
  split
  next hlast =>
    rw [if_pos hlast] at h
    cases h
  · rfl

theorem Sound.read (h : p.Sound rows received) (hrows : (rows.map Prod.fst).Nodup)
    (hmore : p.more = true) : (p.read limit rows).Sound rows received := by
  have hnext := h.next hmore
  have hpage : Feed.Reads rows p.reach (Feed.since rows p.after limit) :=
    hnext ▸ Feed.since_reads hrows
  have hreach := p.read_reach.trans (reach_append hpage)
  refine ⟨by simpa using h.seen, ?_, ?_, fun row hrow hstart hle => ?_, ?_, fun hagain => ?_⟩
  · rw [read_entries]
    refine List.pairwise_append.mpr ⟨h.ascending, hpage.ascending, fun e he e' he' => ?_⟩
    exact (le_reach he).trans_lt (hpage.ahead e' he')
  · intro e he
    rw [read_entries] at he
    rw [read_start]
    rcases List.mem_append.mp he with hold | hnew
    · exact h.ahead e hold
    · exact p.start_le_reach.trans_lt (hpage.ahead e hnew)
  · rw [read_start] at hstart
    rw [read_entries]
    by_cases hold : row.1 ≤ p.reach
    · exact List.mem_append_left _ (h.complete row hrow hstart hold)
    refine List.mem_append_right _ ?_
    rw [hreach] at hle
    cases hlast : (Feed.since rows p.after limit).getLast? with
    | none =>
      rw [hlast] at hle
      exact absurd hle hold
    | some last =>
      rw [hlast] at hle
      exact hpage.complete row hrow (not_le.mp hold) last (List.mem_of_getLast? hlast) hle
  · rw [reach_le, read_start, read_entries]
    refine ⟨p.start_le_reach.trans h.bounded, fun e he => ?_⟩
    rcases List.mem_append.mp he with hold | hnew
    · exact (le_reach hold).trans h.bounded
    · exact Feed.le_top (hpage.present e hnew)
  · rw [read_after p hagain, hreach, hnext]

/-- The entries that the reader accepts, in the order of their numbers and up to the first one it
does not. -/
def passed (accepts : ℕ × β → Bool) (p : Pull β) : List (ℕ × β) :=
  (p.entries.insertionSort (·.1 ≤ ·.1)).takeWhile accepts

/-- Where the numbers are distinct, every entry up to the last one passed was passed. -/
theorem mem_passed (distinct : (p.entries.map Prod.fst).Nodup)
    (hlast : (p.passed accepts).getLast? = some last) (he : e ∈ p.entries) (hle : e.1 ≤ last.1) :
    e ∈ p.passed accepts := by
  have hascending := Feed.insertionSort_ascending distinct
  have hmem := List.mem_of_getLast? hlast
  rw [← List.mem_insertionSort (r := fun a b : ℕ × β => a.1 ≤ b.1)] at he
  rw [Pull.passed] at hmem ⊢
  rw [← List.takeWhile_append_dropWhile (p := accepts) (l := List.insertionSort _ _)]
    at he hascending
  rcases List.mem_append.mp he with hpassed | hrest
  · exact hpassed
  · exact absurd ((List.pairwise_append.mp hascending).2.2 last hmem e hrest) (not_lt.mpr hle)

theorem Sound.passed (h : p.Sound rows received) (hlast : (p.passed accepts).getLast? = some last) :
    ∀ row ∈ rows, row.1 ≤ last.1 → row ∈ received ++ p.passed accepts := by
  intro row hrow hle
  by_cases hstart : row.1 ≤ p.start
  · exact List.mem_append_left _ (h.seen row hrow hstart)
  have hdistinct : (p.entries.map Prod.fst).Nodup :=
    List.pairwise_map.mpr (h.ascending.imp ne_of_lt)
  refine List.mem_append_right _ (mem_passed hdistinct hlast ?_ hle)
  have hmem := List.mem_of_getLast? hlast
  have hentry : last ∈ p.entries :=
    (List.perm_insertionSort _ _).subset ((List.takeWhile_sublist accepts).subset hmem)
  exact h.complete row hrow (not_le.mp hstart) (hle.trans (le_reach hentry))

end Pull

-- -------- A feed and one reader

structure Feed (β : Type) where
  rows : List (ℕ × β) := []
  /-- The numbers that were given out, in order. -/
  assigned : List ℕ := []
  cursor : ℕ := 0
  received : List (ℕ × β) := []
  pulls : List (Pull β) := []

namespace Feed

variable {β : Type} {f f' : Feed β} {limit : ℕ}

def finish (accepts : ℕ × β → Bool) (saved : Bool) (i : ℕ) (p : Pull β) (f : Feed β) : Feed β :=
  let last := ((p.passed accepts).getLast?.map Prod.fst).getD 0
  { f with
    pulls := f.pulls.eraseIdx i
    received := f.received ++ p.passed accepts
    cursor := if 0 < last ∧ saved = true then last else f.cursor }

/-- What can happen to a feed that keeps its newest row. -/
inductive Step (limit : ℕ) (f : Feed β) : Feed β → Prop
  | idle : Step limit f f
  | append (b : β) : Step limit f { f with
      rows := f.rows ++ [(top f.rows + 1, b)]
      assigned := f.assigned ++ [top f.rows + 1] }
  | remove (rows : List (ℕ × β)) (fewer : rows.Sublist f.rows) (newest : top rows = top f.rows) :
      Step limit f { f with rows }
  | request : Step limit f { f with
      pulls := f.pulls ++ [{ start := f.cursor, after := f.cursor }] }
  | page (i : ℕ) (p : Pull β) (under : f.pulls[i]? = some p) (more : p.more = true) :
      Step limit f { f with pulls := f.pulls.set i (p.read limit f.rows) }
  | close (i : ℕ) (p : Pull β) (under : f.pulls[i]? = some p) :
      Step limit f { f with pulls := f.pulls.set i { p with more := false } }
  | finish (i : ℕ) (p : Pull β) (under : f.pulls[i]? = some p) (accepts : ℕ × β → Bool)
      (saved : Bool) : Step limit f (f.finish accepts saved i p)
  | abort (i : ℕ) : Step limit f { f with pulls := f.pulls.eraseIdx i }

structure Sound (f : Feed β) : Prop where
  numbered : (f.rows.map Prod.fst).Nodup
  increasing : f.assigned.Pairwise (· < ·)
  newest : ∀ n ∈ f.assigned, n ≤ top f.rows
  seen : ∀ row ∈ f.rows, row.1 ≤ f.cursor → row ∈ f.received
  cursor : f.cursor ≤ top f.rows
  pulls : ∀ p ∈ f.pulls, p.Sound f.rows f.received

theorem sound_empty : ({} : Feed β).Sound :=
  ⟨List.nodup_nil, .nil, by simp, by simp, Nat.le_refl 0, by simp⟩

theorem Sound.append (h : f.Sound) (b : β) :
    ({ f with
      rows := f.rows ++ [(top f.rows + 1, b)]
      assigned := f.assigned ++ [top f.rows + 1] } : Feed β).Sound := by
  have htop : top (f.rows ++ [(top f.rows + 1, b)]) = top f.rows + 1 := top_append (Nat.le_succ _) b
  have hgrown : top f.rows ≤ top (f.rows ++ [(top f.rows + 1, b)]) := htop.symm ▸ Nat.le_succ _
  have hbeyond : ∀ row ∈ f.rows ++ [(top f.rows + 1, b)], row ∈ f.rows ∨ top f.rows < row.1 := by
    intro row hrow
    refine (List.mem_append.mp hrow).imp_right fun hnew => ?_
    rw [List.mem_singleton.mp hnew]
    exact Nat.lt_succ_self _
  constructor
  · rw [List.map_append, List.map_singleton, List.nodup_append]
    refine ⟨h.numbered, List.nodup_singleton _, fun n hn m hm heq => ?_⟩
    obtain ⟨row, hrow, rfl⟩ := List.mem_map.mp hn
    rw [List.mem_singleton.mp hm] at heq
    exact absurd (le_top hrow) (by omega)
  · refine List.pairwise_append.mpr ⟨h.increasing, List.pairwise_singleton _ _, fun n hn m hm => ?_⟩
    rw [List.mem_singleton.mp hm]
    exact Nat.lt_succ_of_le (h.newest n hn)
  · intro n hn
    rw [htop]
    rcases List.mem_append.mp hn with hold | hnew
    · exact (h.newest n hold).trans (Nat.le_succ _)
    · rw [List.mem_singleton.mp hnew]
  · intro row hrow hle
    exact h.seen row ((hbeyond row hrow).resolve_right (hle.trans h.cursor).not_gt) hle
  · exact h.cursor.trans hgrown
  · exact fun p hp => (h.pulls p hp).mono hbeyond hgrown fun _ he => he

theorem Sound.remove (h : f.Sound) {rows : List (ℕ × β)} (fewer : rows.Sublist f.rows)
    (newest : top rows = top f.rows) :
    ({ f with rows } : Feed β).Sound where
  numbered := h.numbered.sublist (fewer.map _)
  increasing := h.increasing
  newest n hn := newest ▸ h.newest n hn
  seen row hrow := h.seen row (fewer.subset hrow)
  cursor := newest ▸ h.cursor
  pulls p hp :=
    (h.pulls p hp).mono (fun _ hrow => .inl (fewer.subset hrow)) newest.ge fun _ he => he

theorem Sound.withPulls (h : f.Sound) {pulls : List (Pull β)}
    (hpulls : ∀ p ∈ pulls, p ∈ f.pulls ∨ p.Sound f.rows f.received) :
    ({ f with pulls } : Feed β).Sound :=
  { h with pulls := fun p hp => (hpulls p hp).elim (h.pulls p) id }

theorem Sound.finish (h : f.Sound) (under : f.pulls[i]? = some p) :
    (f.finish accepts saved i p).Sound := by
  have hp := h.pulls p (List.mem_of_getElem? under)
  have hmore : ∀ e ∈ f.received, e ∈ f.received ++ p.passed accepts := fun e he =>
    List.mem_append_left _ he
  have hpulls : ∀ q ∈ f.pulls.eraseIdx i, q.Sound f.rows (f.received ++ p.passed accepts) :=
    fun q hq => (h.pulls q (List.mem_of_mem_eraseIdx hq)).mono
      (fun _ hrow => .inl hrow) le_rfl hmore
  unfold Feed.finish
  dsimp only
  split
  next hlast =>
    cases hend : (p.passed accepts).getLast? with
    | none => simp [hend] at hlast
    | some last =>
      have hentry : last ∈ p.entries := by
        have hpassed := (List.takeWhile_sublist accepts).subset (List.mem_of_getLast? hend)
        exact (List.mem_insertionSort _).mp hpassed
      exact ⟨h.numbered, h.increasing, h.newest, hp.passed hend,
        (Pull.le_reach hentry).trans hp.bounded, hpulls⟩
  · exact ⟨h.numbered, h.increasing, h.newest, fun row hrow hle => hmore row (h.seen row hrow hle),
      h.cursor, hpulls⟩

theorem Sound.step (h : f.Sound) (hstep : Step limit f f') : f'.Sound := by
  cases hstep with
  | idle => exact h
  | append b => exact h.append b
  | remove rows fewer newest => exact h.remove fewer newest
  | request =>
    refine h.withPulls fun p hp => (List.mem_append.mp hp).imp_right fun hnew => ?_
    rw [List.mem_singleton.mp hnew]
    refine ⟨h.seen, .nil, by simp, fun row _ hlt hle => ?_, h.cursor, fun _ => rfl⟩
    exact absurd hle (not_le.mpr hlt)
  | page i p under more =>
    refine h.withPulls fun q hq => (List.mem_or_eq_of_mem_set hq).imp_right fun heq => ?_
    exact heq ▸ (h.pulls p (List.mem_of_getElem? under)).read h.numbered more
  | close i p under =>
    refine h.withPulls fun q hq => (List.mem_or_eq_of_mem_set hq).imp_right fun heq => ?_
    obtain ⟨seen, ascending, ahead, complete, bounded, -⟩ := h.pulls p (List.mem_of_getElem? under)
    exact heq ▸ ⟨seen, ascending, ahead, complete, bounded, nofun⟩
  | finish i p under accepts saved => exact h.finish under
  | abort i => exact h.withPulls fun p hp => .inl (List.mem_of_mem_eraseIdx hp)

end Feed
