import Mathlib.Data.List.Basic

/-!
# Following pages

A list is read page by page: each page comes with a token for the next one, made from its last
row, and the last page with none.
-/

namespace Pages

variable {α τ : Type}

/-- The first `n` rows, and the token for what follows them. -/
def page (n : ℕ) (token : α → τ) (start : τ) (rows : List α) : List α × τ :=
  (rows.take n, if rows.length ≤ n then start else (rows[n - 1]?.map token).getD start)

/-- All pages from a token on, if the last of them is reached within `fuel` calls. -/
def follow [DecidableEq τ] (call : τ → List α × τ) (start : τ) : ℕ → τ → Option (List α)
  | 0, _ => none
  | fuel + 1, token =>
    if (call token).2 = start then some (call token).1
    else (follow call start fuel (call token).2).map ((call token).1 ++ ·)

/-- The last row of every page but the last is good. -/
def GoodEnds (n : ℕ) (good : α → Prop) (rows : List α) : Prop :=
  ∀ i a, (i + 1) * n < rows.length → rows[(i + 1) * n - 1]? = some a → good a

theorem GoodEnds.drop {n : ℕ} {good : α → Prop} {rows : List α} (h : GoodEnds n good rows)
    (hn : 0 < n) : GoodEnds n good (rows.drop n) := by
  intro i a hi ha
  rw [List.length_drop] at hi
  rw [List.getElem?_drop] at ha
  have hpos : 0 < (i + 1) * n := Nat.mul_pos (Nat.succ_pos i) hn
  have hnext : (i + 1 + 1) * n = n + (i + 1) * n := by
    rw [Nat.add_mul _ 1, Nat.one_mul, Nat.add_comm]
  refine h (i + 1) a ?_ ?_
  · omega
  · rwa [hnext, Nat.add_sub_assoc hpos]

variable [DecidableEq τ] {call : τ → List α × τ} {start : τ} {n : ℕ} {token : α → τ}
  {good : α → Prop} {full : List α}

/-- If the token of a good row is answered by the page after it, then reading ends with the whole
list. -/
theorem follow_eq (hn : 0 < n) (hnamed : ∀ a, token a ≠ start)
    (hresumes : ∀ a rest, a :: rest <:+ full → good a → call (token a) = page n token start rest) :
    ∀ {fuel rest t}, rest.length < fuel → rest <:+ full → call t = page n token start rest →
      GoodEnds n good rest → follow call start fuel t = some rest
  | 0, _, _, hfuel, _, _, _ => absurd hfuel (Nat.not_lt_zero _)
  | fuel + 1, rest, t, hfuel, hfull, hcall, hends => by
    rw [follow, hcall, page]
    by_cases hlast : rest.length ≤ n
    · rw [if_pos hlast, if_pos rfl, List.take_of_length_le hlast]
    · have hlt : n - 1 < rest.length := by omega
      have hend : rest[n - 1]? = some rest[n - 1] := List.getElem?_eq_getElem hlt
      have hgood : good rest[n - 1] := by
        refine hends 0 _ ?_ ?_
        · omega
        · rwa [Nat.zero_add, Nat.one_mul]
      have htail : rest[n - 1] :: rest.drop n <:+ full := by
        have hcut := List.drop_eq_getElem_cons hlt
        rw [Nat.sub_add_cancel hn] at hcut
        exact hcut ▸ (List.drop_suffix (n - 1) rest).trans hfull
      have hrest : follow call start fuel (token rest[n - 1]) = some (rest.drop n) := by
        refine follow_eq hn hnamed hresumes ?_ ((List.drop_suffix n rest).trans hfull)
          (hresumes _ _ htail hgood) (hends.drop hn)
        rw [List.length_drop]
        omega
      rw [if_neg hlast, hend, Option.map_some, Option.getD_some, if_neg (hnamed _), hrest,
        Option.map_some, List.take_append_drop]

end Pages
