/-!
# Computations that may fail

How a successful `Except` computation comes apart.
-/

namespace Fallible

variable {ε α β : Type}

theorem bind_ok {a : Except ε α} {f : α → Except ε β} {b : β} (h : (a >>= f) = .ok b) :
    ∃ v, a = .ok v ∧ f v = .ok b := by
  cases a with
  | error e => cases h
  | ok v => exact ⟨v, rfl, h⟩

theorem map_ok {a : Except ε α} {f : α → β} {b : β} (h : a.map f = .ok b) :
    ∃ v, a = .ok v ∧ f v = b := by
  cases a with
  | error e => cases h
  | ok v => exact ⟨v, rfl, Except.ok.inj h⟩

theorem mapError_ok {a : Except ε α} {f : ε → β} {v : α} (h : a.mapError f = .ok v) :
    a = .ok v := by
  cases a with
  | error e => cases h
  | ok w => exact congrArg _ (Except.ok.inj h)

theorem toOption_eq_some {r : Except ε α} (h : r.toOption = some a) : r = .ok a := by
  cases r with
  | error => cases h
  | ok => exact congrArg _ (Option.some.inj h)

theorem exists_of_isOk {r : Except ε α} (h : r.isOk = true) : ∃ a, r = .ok a := by
  cases r with
  | error => cases h
  | ok a => exact ⟨a, rfl⟩

instance decidableExistsSome {o : Option α} {P : α → Prop} [DecidablePred P] :
    Decidable (∃ a, o = some a ∧ P a) :=
  match o with
  | none => .isFalse fun ⟨_, h, _⟩ => nomatch h
  | some a => decidable_of_iff (P a)
      ⟨fun h => ⟨a, rfl, h⟩, fun ⟨_, heq, h⟩ => Option.some.inj heq ▸ h⟩

def require (cond : Prop) [Decidable cond] (err : ε) : Except ε Unit :=
  if cond then .ok () else .error err

theorem require_ok {cond : Prop} [Decidable cond] {err : ε} {u : Unit}
    (h : require cond err = .ok u) : cond := by
  unfold require at h
  split at h
  · assumption
  · cases h

theorem require_eq_ok {cond : Prop} [Decidable cond] {err : ε} (h : cond) :
    require cond err = .ok () := if_pos h

end Fallible
