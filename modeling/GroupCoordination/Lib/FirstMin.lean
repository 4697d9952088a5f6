import Mathlib.Data.List.MinMax

/-!
# The first minimum of a filtered list

`List.argmin` keeps the first element that no other undercuts. Ties are thereby broken by
position, which makes `Before` a strict order on the elements of a list: the first minimum
of any part of the list is the element of that part that no other comes before.
-/

namespace FirstMin

variable {α β : Type} [DecidableEq α] [LinearOrder β] {f : α → β} {l : List α} {p : α → Bool}
  {a b c m : α}

def Before (f : α → β) (l : List α) (a b : α) : Prop :=
  f a < f b ∨ f a = f b ∧ l.idxOf a < l.idxOf b

theorem Before.irrefl : ¬ Before f l a a := by
  rintro (h | ⟨-, h⟩)
  · exact lt_irrefl _ h
  · exact lt_irrefl _ h

theorem Before.trans (h : Before f l a b) (h' : Before f l b c) : Before f l a c := by
  rcases h with h | ⟨he, hi⟩ <;> rcases h' with h' | ⟨he', hi'⟩
  · exact .inl (h.trans h')
  · exact .inl (he' ▸ h)
  · exact .inl (he ▸ h')
  · exact .inr ⟨he.trans he', hi.trans hi'⟩

theorem Before.asymm (h : Before f l a b) : ¬ Before f l b a := fun h' => irrefl (h.trans h')

theorem Before.total (ha : a ∈ l) (hne : a ≠ b) : Before f l a b ∨ Before f l b a := by
  rcases lt_trichotomy (f a) (f b) with h | h | h
  · exact .inl (.inl h)
  · rcases lt_trichotomy (l.idxOf a) (l.idxOf b) with hi | hi | hi
    · exact .inl (.inr ⟨h, hi⟩)
    · exact absurd ((List.idxOf_inj ha).mp hi) hne
    · exact .inr (.inr ⟨h.symm, hi⟩)
  · exact .inr (.inl h)

theorem idxOf_filter_le_iff (ha : p a = true) (hb : p b = true) (hmem : a ∈ l) :
    (l.filter p).idxOf a ≤ (l.filter p).idxOf b ↔ l.idxOf a ≤ l.idxOf b := by
  induction l with
  | nil => exact absurd hmem List.not_mem_nil
  | cons x l ih =>
    by_cases hxa : x = a
    · subst hxa
      simp [ha]
    have hmem' : a ∈ l := (List.mem_cons.mp hmem).resolve_left fun h => hxa h.symm
    by_cases hxb : x = b
    · subst hxb
      simp [hb, List.idxOf_cons_ne _ hxa]
    by_cases hx : p x = true
    · simp [hx, List.idxOf_cons_ne _ hxa, List.idxOf_cons_ne _ hxb, ih hmem']
    · simp [hx, List.idxOf_cons_ne _ hxa, List.idxOf_cons_ne _ hxb, ih hmem']

theorem argmin_filter_eq_some_iff :
    (l.filter p).argmin f = some m ↔
      m ∈ l ∧ p m = true ∧ ∀ a ∈ l, p a = true → ¬ Before f l a m := by
  rw [List.argmin_eq_some_iff, List.mem_filter]
  constructor
  · rintro ⟨⟨hm, hpm⟩, hmin, hfirst⟩
    refine ⟨hm, hpm, fun a ha hpa hbefore => ?_⟩
    have hmem := List.mem_filter.mpr ⟨ha, hpa⟩
    rcases hbefore with hlt | ⟨heq, hidx⟩
    · exact absurd (hmin a hmem) (not_le.mpr hlt)
    · have hle := (idxOf_filter_le_iff hpm hpa hm).mp (hfirst a hmem heq.le)
      exact absurd hle (not_le.mpr hidx)
  rintro ⟨hm, hpm, hnone⟩
  refine ⟨⟨hm, hpm⟩, fun a hmem => ?_, fun a hmem hle => ?_⟩
  · obtain ⟨ha, hpa⟩ := List.mem_filter.mp hmem
    exact not_lt.mp fun hlt => hnone a ha hpa (.inl hlt)
  obtain ⟨ha, hpa⟩ := List.mem_filter.mp hmem
  rw [idxOf_filter_le_iff hpm hpa hm]
  refine not_lt.mp fun hidx => hnone a ha hpa (.inr ⟨?_, hidx⟩)
  exact le_antisymm hle (not_lt.mp fun hlt => hnone a ha hpa (.inl hlt))

end FirstMin
