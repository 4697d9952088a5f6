import Mathlib.Data.List.Basic

/-!
# Chains of links

A chain folds a link function over its items, from a root. Where linking does not
collide, the last value of a chain of known length determines the root and every item.
Two chains have diverged if neither goes on from the other.
-/

namespace Chain

variable {α β : Type} {link : β → α → β}

def value (link : β → α → β) (root : β) (items : List α) : β := items.foldl link root

/-- What is linked along the way: each value with the item after it. -/
def links (link : β → α → β) (root : β) : List α → List (β × α)
  | [] => []
  | a :: items => (root, a) :: links link (link root a) items

@[simp] theorem value_nil (root : β) : value link root [] = root := rfl

@[simp] theorem value_snoc (root : β) (items : List α) (a : α) :
    value link root (items ++ [a]) = link (value link root items) a := by
  simp [value]

theorem value_append (root : β) (items items' : List α) :
    value link root (items ++ items') = value link (value link root items) items' :=
  List.foldl_append

theorem links_append (root : β) (items items' : List α) :
    links link root (items ++ items') =
      links link root items ++ links link (value link root items) items' := by
  induction items generalizing root with
  | nil => rfl
  | cons a items ih => exact congrArg _ (ih _)

theorem value_of (p : β → Prop) (hroot : p root) (hlink : ∀ b a, p (link b a)) (items : List α) :
    p (value link root items) := by
  induction items generalizing root with
  | nil => exact hroot
  | cons a items ih => exact ih (hlink root a)

theorem links_left (p : β → Prop) (hroot : p root) (hlink : ∀ b a, p (link b a)) :
    ∀ l ∈ links link root items, p l.1 := by
  induction items generalizing root with
  | nil => exact fun _ hl => absurd hl List.not_mem_nil
  | cons a items ih =>
    intro l hl
    rcases List.mem_cons.mp hl with rfl | hl
    · exact hroot
    · exact ih (hlink root a) l hl

theorem value_inj {items items' : List α} (hlen : items.length = items'.length)
    (hinj : ∀ l ∈ links link root items, ∀ l' ∈ links link root' items',
      link l.1 l.2 = link l'.1 l'.2 → l = l')
    (h : value link root items = value link root' items') : root = root' ∧ items = items' := by
  induction items generalizing root root' items' with
  | nil =>
    obtain rfl := List.length_eq_zero_iff.mp hlen.symm
    exact ⟨h, rfl⟩
  | cons a items ih =>
    cases items' with
    | nil => simp at hlen
    | cons a' items' =>
      obtain ⟨hhead, rfl⟩ := ih (Nat.succ.inj hlen)
        (fun l hl l' hl' => hinj l (List.mem_cons_of_mem _ hl) l' (List.mem_cons_of_mem _ hl')) h
      obtain ⟨rfl, rfl⟩ := Prod.mk.inj
        (hinj (root, a) List.mem_cons_self (root', a') List.mem_cons_self hhead)
      exact ⟨rfl, rfl⟩

/-- Neither of two sequences goes on from the other. -/
def Diverged (as bs : List α) : Prop := ¬ as <+: bs ∧ ¬ bs <+: as

namespace Diverged

variable {as as' bs : List α}

theorem symm (h : Diverged as bs) : Diverged bs as := ⟨h.2, h.1⟩

theorem grow (h : Diverged as bs) (hp : as <+: as') : Diverged as' bs := by
  refine ⟨fun h' => h.1 (hp.trans h'), fun h' => ?_⟩
  rcases List.prefix_or_prefix_of_prefix hp h' with hab | hba
  · exact h.1 hab
  · exact h.2 hba

theorem of_take (hne : as.take n ≠ bs.take n) (ha : n ≤ as.length) (hb : n ≤ bs.length) :
    Diverged as bs := by
  constructor
  · rintro ⟨rest, rfl⟩
    exact hne (List.take_append_of_le_length ha).symm
  · rintro ⟨rest, rfl⟩
    exact hne (List.take_append_of_le_length hb)

end Diverged

end Chain
