import Mathlib.Data.Finset.Card
import Mathlib.Data.List.Sort

/-!
# Ranks in a sorted list

In a list that is strictly sorted by a key, an element is among the first `k` iff fewer than `k`
elements have a smaller key. A set has one such list, and taking one element out of the set for
another moves a rank by one at most.
-/

namespace Rank

variable {α β : Type} [LinearOrder β] {f : α → β} {l l' : List α} {a : α} {k : Nat}

abbrev Sorted (f : α → β) (l : List α) : Prop := l.Pairwise (f · < f ·)

theorem sorted_mergeSort (hnodup : l.Nodup) (hinj : ∀ a ∈ l, ∀ b ∈ l, f a = f b → a = b) :
    Sorted f (l.mergeSort (f · ≤ f ·)) := by
  have hle : (l.mergeSort (f · ≤ f ·)).Pairwise (f · ≤ f ·) := by
    refine (List.pairwise_mergeSort (fun a b c hab hbc => ?_) (fun a b => ?_) l).imp
      of_decide_eq_true
    · exact decide_eq_true ((of_decide_eq_true hab).trans (of_decide_eq_true hbc))
    · simp [le_total]
  have hne : (l.mergeSort (f · ≤ f ·)).Nodup := (List.mergeSort_perm l _).nodup_iff.mpr hnodup
  refine (hle.and hne).imp_of_mem fun ha hb h => lt_of_le_of_ne h.1 fun heq => h.2 ?_
  exact hinj _ (List.mem_mergeSort.mp ha) _ (List.mem_mergeSort.mp hb) heq

theorem Sorted.nodup (h : Sorted f l) : l.Nodup := h.imp fun hlt heq => hlt.ne (congrArg f heq)

theorem Sorted.eq_of_mem_iff (h : Sorted f l) (h' : Sorted f l') (hmem : ∀ a, a ∈ l ↔ a ∈ l') :
    l = l' :=
  ((List.perm_ext_iff_of_nodup h.nodup h'.nodup).mpr hmem).eq_of_pairwise
    (fun _ _ _ _ hab hba => absurd hab hba.asymm) h h'

theorem Sorted.mem_take_iff (h : Sorted f l) (ha : a ∈ l) :
    a ∈ l.take k ↔ l.countP (f · < f a) < k := by
  induction l generalizing k with
  | nil => cases ha
  | cons b l ih =>
    obtain ⟨hb, hl⟩ := List.pairwise_cons.mp h
    cases k with
    | zero => simp
    | succ k =>
      rcases List.mem_cons.mp ha with rfl | ha
      · have hnone : l.countP (f · < f a) = 0 :=
          List.countP_eq_zero.mpr fun c hc => by simpa using (hb c hc).le
        simp [hnone]
      · have hlt : f b < f a := hb a ha
        have hne : a ≠ b := fun heq => hlt.ne (congrArg f heq.symm)
        simp [hlt, hne, ih hl ha]

/-- The lists of a set without one element and without another. -/
theorem Sorted.mem_take_succ [DecidableEq α] {N : Finset α} {p q : α} (h : Sorted f l)
    (hl : l.toFinset = N.erase p) (h' : Sorted f l') (hl' : l'.toFinset = N.erase q)
    (ha : a ∈ l.take k) (hne : a ≠ q) : a ∈ l'.take (k + 1) := by
  have hmem : a ∈ N := by
    have := List.mem_toFinset.mpr (List.mem_of_mem_take ha)
    rw [hl] at this
    exact Finset.mem_of_mem_erase this
  have hmem' : a ∈ l' := by
    rw [← List.mem_toFinset, hl']
    exact Finset.mem_erase.mpr ⟨hne, hmem⟩
  have hcount : ∀ {l : List α} {r : α}, Sorted f l → l.toFinset = N.erase r →
      l.countP (f · < f a) = ((N.filter (f · < f a)).erase r).card := by
    intro l r hs heq
    rw [List.countP_eq_length_filter, ← List.toFinset_card_of_nodup (hs.nodup.filter _),
      List.toFinset_filter, heq, Finset.filter_erase]
    simp
  have hrank := (h.mem_take_iff (List.mem_of_mem_take ha)).mp ha
  rw [hcount h hl] at hrank
  rw [h'.mem_take_iff hmem', hcount h' hl']
  have hle := Finset.card_erase_le (s := N.filter (f · < f a)) (a := q)
  have hge := Finset.pred_card_le_card_erase (s := N.filter (f · < f a)) (a := p)
  omega

end Rank
