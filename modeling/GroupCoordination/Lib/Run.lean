import Mathlib.Logic.Function.Basic

/-!
# Runs of a transition system

A system is a partial step function on states, driven by actions. A run is a
sequence of steps whose actions all meet a condition on the state they start from.
Several systems side by side step one at a time.
-/

namespace Transition

variable {σ α : Type} {step : α → σ → Option σ} {allowed : σ → α → Prop} {s s' s'' : σ}

/-- From `s` to `s'` by steps that meet `allowed`. -/
inductive Run (step : α → σ → Option σ) (allowed : σ → α → Prop) (s : σ) : σ → Prop
  | refl : Run step allowed s s
  | snoc {s' s'' : σ} (a : α) (run : Run step allowed s s') (ok : allowed s' a)
      (next : step a s' = some s'') : Run step allowed s s''

/-- The invariant rule: what holds at the start and survives every allowed step holds in
every state a run reaches. -/
theorem Run.invariant (inv : σ → Prop) (run : Run step allowed s s') (base : inv s)
    (keep : ∀ t a t', inv t → allowed t a → step a t = some t' → inv t') : inv s' := by
  induction run with
  | refl => exact base
  | snoc a _ ok next ih => exact keep _ a _ ih ok next

def exec (step : α → σ → Option σ) : List α → σ → Option σ
  | [], s => some s
  | a :: rest, s => (step a s).bind (exec step rest)

theorem exec_snoc (actions : List α) (a : α) (s : σ) :
    exec step (actions ++ [a]) s = (exec step actions s).bind (step a) := by
  induction actions generalizing s with
  | nil => simp [exec]
  | cons b rest ih =>
    simp only [List.cons_append, exec, Option.bind_assoc]
    exact congrArg _ (funext ih)

theorem Run.head {a : α} (ok : allowed s a) (next : step a s = some s')
    (run : Run step allowed s' s'') : Run step allowed s s'' := by
  induction run with
  | refl => exact .snoc a .refl ok next
  | snoc b _ okb nextb ih => exact .snoc b ih okb nextb

theorem Run.of_checked {actions : List α} (ok : σ → α → Bool)
    (h : exec (fun a s => if ok s a then step a s else none) actions s = some s')
    (sound : ∀ s, ∀ a ∈ actions, ok s a = true → allowed s a) : Run step allowed s s' := by
  induction actions generalizing s with
  | nil =>
    cases h
    exact .refl
  | cons a rest ih =>
    obtain ⟨t, hstep, hrest⟩ := Option.bind_eq_some_iff.mp h
    obtain ⟨hok, hstep⟩ := Option.ite_none_right_eq_some.mp hstep
    exact .head (sound s a List.mem_cons_self hok) hstep
      (ih hrest fun s b hb => sound s b (List.mem_cons_of_mem a hb))

theorem Run.of_exec {actions : List α} (h : exec step actions s = some s')
    (ok : ∀ s, ∀ a ∈ actions, allowed s a) : Run step allowed s s' :=
  .of_checked (fun _ _ => true) (by simpa using h) fun s a ha _ => ok s a ha

theorem Run.exists_of_checked {P : σ → Prop} [DecidablePred P] (actions : List α)
    (ok : σ → α → Bool) (sound : ∀ s, ∀ a ∈ actions, ok s a = true → allowed s a)
    (h : (exec (fun a s => if ok s a then step a s else none) actions s).any
      (fun s => decide (P s)) = true) :
    ∃ s', Run step allowed s s' ∧ P s' := by
  cases hexec : exec (fun a s => if ok s a then step a s else none) actions s with
  | none => simp [hexec] at h
  | some s' =>
    refine ⟨s', .of_checked ok hexec sound, ?_⟩
    simpa [hexec] using h

/-- Systems side by side: an action is taken by one of them. -/
def interleave [DecidableEq ι] (step : ι → α → σ → Option σ) (e : ι × α) (net : ι → σ) :
    Option (ι → σ) :=
  (step e.1 e.2 (net e.1)).map (Function.update net e.1)

theorem Run.invariant_each [DecidableEq ι] {step : ι → α → σ → Option σ}
    {allowed : (ι → σ) → ι × α → Prop} {net net' : ι → σ} (inv : ι → σ → Prop)
    (run : Run (interleave step) allowed net net') (base : ∀ i, inv i (net i))
    (keep : ∀ net, (∀ i, inv i (net i)) → ∀ i a s', allowed net (i, a) →
      step i a (net i) = some s' → inv i s') : ∀ i, inv i (net' i) := by
  refine run.invariant (fun net => ∀ i, inv i (net i)) base fun net e net' h ok next i => ?_
  obtain ⟨s', hstep, rfl⟩ := Option.map_eq_some_iff.mp next
  by_cases hi : i = e.1
  · subst hi
    rw [Function.update_self]
    exact keep net h e.1 e.2 s' ok hstep
  · rw [Function.update_of_ne hi]
    exact h i

end Transition
