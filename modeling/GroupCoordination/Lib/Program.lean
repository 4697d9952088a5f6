import Mathlib.Data.List.Basic

/-!
# Programs of atomic operations

A program asks for one operation at a time. A machine gives the operations their meaning, in a world
that may differ from step to step; an operation that has to wait has none. A program runs by itself,
or in a pool, where the others take steps in between.

A contract says which operations a program may ask for and which replies it may count on. If the
machine keeps an invariant under the operations that the contract allows, then so does every pool of
programs that keep the contract. A contract may have sections, in which a program goes from stage to
stage; if a lock is held in a section, what is known of a stage need only survive the operations
that are asked for outside of sections.
-/

/-- A program ends with a result, or asks for an operation and goes on with the reply. -/
inductive Program {Op : Type} (Reply : Op → Type) (α : Type) : Type
  | ret (a : α)
  | call (op : Op) (next : Reply op → Program Reply α)

namespace Program

variable {Op : Type} {Reply : Op → Type} {α β σ ω : Type}

def bind : Program Reply α → (α → Program Reply β) → Program Reply β
  | .ret a, f => f a
  | .call op next, f => .call op fun r => (next r).bind f

instance : Monad (Program Reply) where
  pure := .ret
  bind := Program.bind

def perform (op : Op) : Program Reply (Reply op) := .call op .ret

def forEach (body : β → Program Reply Unit) : List β → Program Reply Unit
  | [] => pure ()
  | b :: rest => do
    body b
    forEach body rest

-- -------- Contracts

/-- What a program may ask for, and what it may count on. -/
structure Contract (Reply : Op → Type) (Stage : Type) where
  asks : Op → Prop
  gives : (op : Op) → Reply op → Prop
  /-- The stage in which an operation enters a section. -/
  enters : Op → Option Stage := fun _ => none
  asksIn : Stage → Op → Prop := fun _ _ => False
  givesIn : Stage → (op : Op) → Reply op → Prop := fun _ _ _ => True
  /-- The next stage, or none if the operation leaves the section. -/
  next : Stage → (op : Op) → Reply op → Option Stage := fun stage _ _ => some stage

/-- The program keeps to the contract from a stage on, or from outside of sections, and its result
has the property in the stage that it ends in. -/
def Follows (C : Contract Reply Stage) (post : Option Stage → α → Prop) :
    Option Stage → Program Reply α → Prop
  | stage, .ret a => post stage a
  | none, .call op next =>
    (C.asks op ∧ ∀ r, C.gives op r → (next r).Follows C post none) ∨
      ∃ stage, C.enters op = some stage ∧ ∀ r, (next r).Follows C post (some stage)
  | some stage, .call op next =>
    C.asksIn stage op ∧ ∀ r, C.givesIn stage op r → (next r).Follows C post (C.next stage op r)

/-- The program keeps to the contract, and its result has the property. -/
def Keeps (C : Contract Reply Stage) (post : α → Prop) (t : Program Reply α) : Prop :=
  t.Follows C (fun stage a => stage = none ∧ post a) none

abbrev Obeys (C : Contract Reply Stage) (t : Program Reply α) : Prop := t.Keeps C fun _ => True

section

variable {C : Contract Reply Stage} {stage : Option Stage} {after : Option Stage → α → Prop}
  {after' : Option Stage → β → Prop} {post : α → Prop} {post' : β → Prop}

theorem follows_pure {a : α} (h : after stage a) :
    (pure a : Program Reply α).Follows C after stage := by
  cases stage <;> exact h

theorem Follows.bind {t : Program Reply α} {f : α → Program Reply β} (h : t.Follows C after stage)
    (hf : ∀ stage a, after stage a → (f a).Follows C after' stage) :
    (t >>= f).Follows C after' stage := by
  induction t generalizing stage with
  | ret a => cases stage <;> exact hf _ a h
  | call op next ih =>
    cases stage with
    | none =>
      rcases h with ⟨hasks, h⟩ | ⟨entered, henters, h⟩
      · exact .inl ⟨hasks, fun r hr => ih r (h r hr)⟩
      · exact .inr ⟨entered, henters, fun r => ih r (h r)⟩
    | some stage => exact ⟨h.1, fun r hr => ih r (h.2 r hr)⟩

theorem Follows.mono {t : Program Reply α} {after after' : Option Stage → α → Prop}
    (h : t.Follows C after stage) (hpost : ∀ stage a, after stage a → after' stage a) :
    t.Follows C after' stage := by
  have hpure (t : Program Reply α) : t >>= pure = t := by
    induction t with
    | ret a => rfl
    | call op next ih => exact congrArg (call op) (funext ih)
  exact hpure t ▸ h.bind fun stage a ha => follows_pure (hpost stage a ha)

theorem follows_perform {stage : Stage} {op : Op} {after : Option Stage → Reply op → Prop}
    (hasks : C.asksIn stage op) (h : ∀ r, C.givesIn stage op r → after (C.next stage op r) r) :
    (perform op).Follows C after (some stage) :=
  ⟨hasks, fun r hr => follows_pure (h r hr)⟩

theorem follows_perform_bind {stage : Stage} {op : Op} {f : Reply op → Program Reply β}
    (hasks : C.asksIn stage op)
    (hf : ∀ r, C.givesIn stage op r → (f r).Follows C after' (C.next stage op r)) :
    (perform op >>= f).Follows C after' (some stage) :=
  ⟨hasks, hf⟩

theorem keeps_pure {a : α} (h : post a) : (pure a : Program Reply α).Keeps C post := ⟨rfl, h⟩

theorem Keeps.done {a : α} : (pure a : Program Reply α).Obeys C := keeps_pure trivial

theorem Keeps.follows {t : Program Reply α} (h : t.Keeps C post) :
    t.Follows C (fun stage a => stage = none ∧ post a) none := h

theorem keeps_perform {op : Op} {post : Reply op → Prop} (hasks : C.asks op)
    (h : ∀ r, C.gives op r → post r) : (perform op).Keeps C post :=
  .inl ⟨hasks, fun r hr => ⟨rfl, h r hr⟩⟩

theorem Keeps.bind {t : Program Reply α} {f : α → Program Reply β} (h : t.Keeps C post)
    (hf : ∀ a, post a → (f a).Keeps C post') : (t >>= f).Keeps C post' := by
  refine Follows.bind h fun stage a hpost => ?_
  obtain ⟨rfl, ha⟩ := hpost
  exact hf a ha

theorem keeps_perform_bind {op : Op} {f : Reply op → Program Reply β} (hasks : C.asks op)
    (hf : ∀ r, C.gives op r → (f r).Keeps C post') : (perform op >>= f).Keeps C post' :=
  .inl ⟨hasks, hf⟩

theorem keeps_enter {op : Op} {entered : Stage} {f : Reply op → Program Reply β}
    (henters : C.enters op = some entered)
    (hf : ∀ r, (f r).Follows C (fun stage a => stage = none ∧ post' a) (some entered)) :
    (perform op >>= f).Keeps C post' :=
  .inr ⟨entered, henters, hf⟩

theorem Keeps.mono {t : Program Reply α} {post post' : α → Prop} (h : t.Keeps C post)
    (hpost : ∀ a, post a → post' a) : t.Keeps C post' :=
  Follows.mono h fun _ a ha => ⟨ha.1, hpost a ha.2⟩

theorem keeps_forEach {body : β → Program Reply Unit} {items : List β}
    (h : ∀ b ∈ items, (body b).Obeys C) : (forEach body items).Obeys C := by
  induction items with
  | nil => exact .done
  | cons b rest ih =>
    refine (h b List.mem_cons_self).bind fun _ _ => ?_
    exact ih fun c hc => h c (List.mem_cons_of_mem b hc)

end

-- -------- Running

/-- What an operation replies and does, in the world of the step. -/
abbrev Machine (ω σ : Type) (Reply : Op → Type) := ω → (op : Op) → σ → Option (Reply op × σ)

/-- A program runs by itself, where each operation has a world of its own. -/
def exec (M : Machine ω σ Reply) (env : Op → ω) : Program Reply α → σ → Option (α × σ)
  | .ret a, s => some (a, s)
  | .call op next, s => (M (env op) op s).bind fun (r, s') => (next r).exec M env s'

theorem exec_bind (M : Machine ω σ Reply) (env : Op → ω) (t : Program Reply α)
    (f : α → Program Reply β) (s : σ) :
    (t >>= f).exec M env s = (t.exec M env s).bind fun (a, s') => (f a).exec M env s' := by
  induction t generalizing s with
  | ret a => rfl
  | call op next ih =>
    change (M (env op) op s).bind (fun (r, s') => (next r >>= f).exec M env s') = _
    simp only [exec, Option.bind_assoc, ih]

/-- Two states between which no operation can tell stay so through a program. -/
theorem exec_simulates {M : Machine ω σ Reply} {env : Op → ω} {R : σ → σ → Prop}
    (hM : ∀ w op s s₀ r s', R s s₀ → M w op s = some (r, s') →
      ∃ s₀', M w op s₀ = some (r, s₀') ∧ R s' s₀')
    (t : Program Reply α) {s s₀ s' : σ} {a : α} (hR : R s s₀) (h : t.exec M env s = some (a, s')) :
    ∃ s₀', t.exec M env s₀ = some (a, s₀') ∧ R s' s₀' := by
  induction t generalizing s s₀ with
  | ret b =>
    cases h
    exact ⟨s₀, rfl, hR⟩
  | call op next ih =>
    obtain ⟨⟨r, s₁⟩, hop, hrest⟩ := Option.bind_eq_some_iff.mp h
    obtain ⟨t₁, hop₀, hR₁⟩ := hM (env op) op s s₀ r s₁ hR hop
    obtain ⟨s₀', hrest₀, hR'⟩ := ih r hR₁ hrest
    exact ⟨s₀', Option.bind_eq_some_iff.mpr ⟨(r, t₁), hop₀, hrest₀⟩, hR'⟩

theorem exec_invariant {M : Machine ω σ Reply} {env : Op → ω} (inv : σ → Prop)
    (hM : ∀ w op s r s', inv s → M w op s = some (r, s') → inv s')
    (t : Program Reply α) {s s' : σ} {a : α} (hs : inv s) (h : t.exec M env s = some (a, s')) :
    inv s' := by
  induction t generalizing s with
  | ret b =>
    cases h
    exact hs
  | call op next ih =>
    obtain ⟨⟨r, s₁⟩, hop, hrest⟩ := Option.bind_eq_some_iff.mp h
    exact ih r (hM (env op) op s r s₁ hs hop) hrest

/-- An invariant of the operations that a contract without sections allows, through a program that
keeps it. -/
theorem Keeps.exec {C : Contract Reply Empty} {post : α → Prop} {M : Machine ω σ Reply}
    {env : Op → ω} (inv : σ → Prop) {t : Program Reply α} (ht : t.Keeps C post)
    (hM : ∀ w op s r s', C.asks op → inv s → M w op s = some (r, s') → inv s' ∧ C.gives op r)
    {s s' : σ} {a : α} (hs : inv s) (h : t.exec M env s = some (a, s')) : inv s' ∧ post a := by
  induction t generalizing s with
  | ret b =>
    cases h
    exact ⟨hs, ht.2⟩
  | call op next ih =>
    obtain ⟨⟨r, s₁⟩, hop, hrest⟩ := Option.bind_eq_some_iff.mp h
    rcases ht with ⟨hasks, ht⟩ | ⟨stage, -⟩
    · obtain ⟨hs₁, hgives⟩ := hM (env op) op s r s₁ hasks hs hop
      exact ih r (ht r hgives) hs₁ hrest
    · exact stage.elim

def Ensures (M : Machine ω σ Reply) (env : Op → ω) (post : α → σ → Prop) :
    Program Reply α → σ → Prop
  | .ret a, s => post a s
  | .call op next, s => ∀ r s', M (env op) op s = some (r, s') → (next r).Ensures M env post s'

section

variable {M : Machine ω σ Reply} {env : Op → ω} {post : α → σ → Prop} {s s' : σ}

theorem ensures_iff {t : Program Reply α} :
    t.Ensures M env post s ↔ ∀ a s', t.exec M env s = some (a, s') → post a s' := by
  induction t generalizing s with
  | ret a => simp [Ensures, exec]
  | call op next ih =>
    simp only [Ensures, exec, Option.bind_eq_some_iff, ih]
    constructor
    · rintro h a s' ⟨⟨r, s₁⟩, hop, hrest⟩
      exact h r s₁ hop a s' hrest
    · intro h r s₁ hop a s' hrest
      exact h a s' ⟨(r, s₁), hop, hrest⟩

theorem ensures_pure {a : α} (h : post a s) : (pure a : Program Reply α).Ensures M env post s := h

theorem Ensures.bind {t : Program Reply α} {f : α → Program Reply β} {post : β → σ → Prop}
    (h : t.Ensures M env (fun a s' => (f a).Ensures M env post s') s) :
    (t >>= f).Ensures M env post s := by
  induction t generalizing s with
  | ret a => exact h
  | call op next ih => exact fun r s' hop => ih r (h r s' hop)

theorem Ensures.mono {t : Program Reply α} {post' : α → σ → Prop} (h : t.Ensures M env post s)
    (hpost : ∀ a s', post a s' → post' a s') : t.Ensures M env post' s := by
  induction t generalizing s with
  | ret a => exact hpost a s h
  | call op next ih => exact fun r s' hop => ih r (h r s' hop)

theorem ensures_perform {op : Op} {post : Reply op → σ → Prop}
    (h : ∀ r s', M (env op) op s = some (r, s') → post r s') :
    (perform op).Ensures M env post s := h

end

/-- A program that may fail: the rest runs only if what was done so far went well. -/
abbrev Failing (Reply : Op → Type) (ε α : Type) := ExceptT ε (Program Reply) α

def attempt (t : Program Reply (Except ε α)) : Failing Reply ε α := ExceptT.mk t

def observe (t : Program Reply α) : Failing Reply ε α := ExceptT.mk (t >>= fun a => pure (.ok a))

def check (cond : Prop) [Decidable cond] (err : ε) : Failing Reply ε Unit :=
  ExceptT.mk (.ret (if cond then .ok () else .error err))

def Failing.Ends (done : α → σ → Prop) (failed : ε → σ → Prop) : Except ε α → σ → Prop
  | .ok a => done a
  | .error err => failed err

def Failing.Ensures (M : Machine ω σ Reply) (env : Op → ω) (t : Failing Reply ε α) (s : σ)
    (done : α → σ → Prop) (failed : ε → σ → Prop) : Prop :=
  t.run.Ensures M env (Failing.Ends done failed) s

section

variable {M : Machine ω σ Reply} {env : Op → ω} {s : σ} {done : α → σ → Prop}
  {failed : ε → σ → Prop}

theorem Failing.ensures_pure {a : α} (h : done a s) :
    Failing.Ensures M env (pure a : Failing Reply ε α) s done failed := h

theorem Failing.Ensures.bind {t : Failing Reply ε α} {f : α → Failing Reply ε β}
    {done : β → σ → Prop}
    (h : Failing.Ensures M env t s
      (fun a s' => Failing.Ensures M env (f a) s' done failed) failed) :
    Failing.Ensures M env (t >>= f) s done failed := by
  refine Program.Ensures.bind (Program.Ensures.mono h ?_)
  rintro (err | a) s' h
  · exact h
  · exact h

theorem Failing.Ensures.mono {t : Failing Reply ε α} {done' : α → σ → Prop} {failed' : ε → σ → Prop}
    (h : Failing.Ensures M env t s done failed) (hdone : ∀ a s', done a s' → done' a s')
    (hfailed : ∀ err s', failed err s' → failed' err s') :
    Failing.Ensures M env t s done' failed' := by
  refine Program.Ensures.mono h ?_
  rintro (err | a) s' h
  · exact hfailed err s' h
  · exact hdone a s' h

theorem Failing.Ensures.run {t : Failing Reply ε α} (h : Failing.Ensures M env t s done failed) :
    t.run.Ensures M env (Failing.Ends done failed) s := h

theorem Failing.ensures_check {cond : Prop} {_ : Decidable cond} {err : ε} {done : Unit → σ → Prop}
    (hdone : cond → done () s) (hfailed : ¬ cond → failed err s) :
    Failing.Ensures M env (check cond err : Failing Reply ε Unit) s done failed := by
  unfold check
  by_cases h : cond
  · rw [if_pos h]
    exact hdone h
  · rw [if_neg h]
    exact hfailed h

theorem Failing.ensures_attempt {t : Program Reply (Except ε α)}
    (h : t.Ensures M env (Failing.Ends done failed) s) :
    Failing.Ensures M env (attempt t) s done failed := h

theorem Failing.ensures_observe {t : Program Reply α} (h : t.Ensures M env done s) :
    Failing.Ensures M env (observe t : Failing Reply ε α) s done failed :=
  Program.Ensures.bind (Program.Ensures.mono h fun _ _ h => h)

theorem Failing.ensures_attempt_pure {r : Except ε α} (hdone : ∀ a, r = .ok a → done a s)
    (hfailed : ∀ err, r = .error err → failed err s) :
    Failing.Ensures M env (attempt (pure r) : Failing Reply ε α) s done failed := by
  cases r with
  | error err => exact hfailed err rfl
  | ok a => exact hdone a rfl

theorem Failing.exec_attempt_bind {t : Program Reply (Except ε α)} {f : α → Failing Reply ε β}
    {a : α} {s' : σ} (h : t.exec M env s = some (.ok a, s')) :
    (attempt t >>= f : Failing Reply ε β).run.exec M env s = (f a).run.exec M env s' := by
  rw [ExceptT.run_bind, exec_bind]
  unfold attempt
  rw [ExceptT.run_mk, h]
  rfl

theorem Failing.exec_attempt_bind_error {t : Program Reply (Except ε α)}
    {f : α → Failing Reply ε β} {err : ε} {s' : σ} (h : t.exec M env s = some (.error err, s')) :
    (attempt t >>= f : Failing Reply ε β).run.exec M env s = some (.error err, s') := by
  rw [ExceptT.run_bind, exec_bind]
  unfold attempt
  rw [ExceptT.run_mk, h]
  rfl

theorem Failing.exec_attempt_pure_bind {r : Except ε α} {f : α → Failing Reply ε β} {a : α}
    (h : r = .ok a) :
    (attempt (pure r) >>= f : Failing Reply ε β).run.exec M env s = (f a).run.exec M env s :=
  Failing.exec_attempt_bind (congrArg (fun r => some (r, s)) h)

theorem Failing.exec_observe_bind {t : Program Reply α} {f : α → Failing Reply ε β} {a : α} {s' : σ}
    (h : t.exec M env s = some (a, s')) :
    (observe t >>= f : Failing Reply ε β).run.exec M env s = (f a).run.exec M env s' := by
  unfold observe
  refine Failing.exec_attempt_bind ?_
  rw [exec_bind, h]
  rfl

theorem Failing.exec_check_bind {cond : Prop} {_ : Decidable cond} {err : ε}
    {f : Unit → Failing Reply ε β} (h : cond) :
    (check cond err >>= f : Failing Reply ε β).run.exec M env s = (f ()).run.exec M env s := by
  unfold check
  rw [if_pos h]
  rfl

end

structure Pool (σ : Type) (Reply : Op → Type) where
  state : σ
  tasks : List (Program Reply Unit) := []

def asked : Program Reply α → Option Op
  | .ret _ => none
  | .call op _ => some op

def Pool.advance (M : Machine ω σ Reply) (w : ω) (i : Nat) (p : Pool σ Reply) :
    Option (Pool σ Reply) :=
  match p.tasks[i]? with
  | some (.call op next) =>
    (M w op p.state).map fun (r, s) => { state := s, tasks := p.tasks.set i (next r) }
  | _ => none

def Pool.spawn (t : Program Reply Unit) (p : Pool σ Reply) : Pool σ Reply :=
  { p with tasks := p.tasks ++ [t] }

def Pool.asked (i : Nat) (p : Pool σ Reply) : Option Op := p.tasks[i]?.bind Program.asked

theorem Pool.advance_cases {M : Machine ω σ Reply} {p p' : Pool σ Reply}
    (hstep : p.advance M w i = some p') :
    ∃ op next r, p.tasks[i]? = some (.call op next) ∧ p.asked i = some op ∧
      M w op p.state = some (r, p'.state) ∧ p'.tasks = p.tasks.set i (next r) := by
  unfold Pool.advance at hstep
  split at hstep
  next op next htask =>
    obtain ⟨⟨r, s⟩, hrun, rfl⟩ := Option.map_eq_some_iff.mp hstep
    exact ⟨op, next, r, htask, by rw [Pool.asked, htask]; rfl, hrun, rfl⟩
  · cases hstep

/-- Where the programs of a pool are: each keeps to the contract from its stage on, at most one is
in a section, and then the lock is held and what is known of the stage is so. -/
structure Pool.Staged (C : Contract Reply Stage) (held : σ → Prop) (known : Stage → σ → Prop)
    (p : Pool σ Reply) (stage : Nat → Option Stage) : Prop where
  follows : ∀ i (t : Program Reply Unit), p.tasks[i]? = some t →
    t.Follows C (fun _ _ => True) (stage i)
  beyond : ∀ i, p.tasks.length ≤ i → stage i = none
  single : ∀ i j, stage i ≠ none → stage j ≠ none → i = j
  held : ∀ i, stage i ≠ none → held p.state
  known : ∀ i g, stage i = some g → known g p.state

section

variable {C : Contract Reply Stage} {held : σ → Prop} {known : Stage → σ → Prop}
  {stage : Nat → Option Stage} {p p' : Pool σ Reply}

theorem Pool.staged_idle (h : p.tasks = []) : p.Staged C held known fun _ => none where
  follows i t ht := by simp [h] at ht
  beyond _ _ := rfl
  single _ _ hi := absurd rfl hi
  held _ hi := absurd rfl hi
  known _ _ hi := by cases hi

theorem Pool.Staged.spawn {t : Program Reply Unit} (h : p.Staged C held known stage)
    (ht : t.Obeys C) : (p.spawn t).Staged C held known stage where
  follows i t' ht' := by
    by_cases hi : i < p.tasks.length
    · rw [Pool.spawn, List.getElem?_append_left hi] at ht'
      exact h.follows i t' ht'
    rw [h.beyond i (Nat.le_of_not_lt hi)]
    rw [Pool.spawn, List.getElem?_append_right (Nat.le_of_not_lt hi)] at ht'
    obtain rfl := List.mem_singleton.mp (List.mem_of_getElem? ht')
    exact Follows.mono ht fun _ _ _ => trivial
  beyond i hi := h.beyond i (by simp [Pool.spawn] at hi; omega)
  single := h.single
  held := h.held
  known := h.known

theorem Pool.Staged.restate (h : p.Staged C held known stage) (htasks : p'.tasks = p.tasks)
    (hkeep : held p.state → held p'.state ∧ ∀ g, known g p.state → known g p'.state) :
    p'.Staged C held known stage where
  follows i t ht := h.follows i t (htasks ▸ ht)
  beyond i hi := h.beyond i (htasks ▸ hi)
  single := h.single
  held i hi := (hkeep (h.held i hi)).1
  known i g hg := (hkeep (h.held i (by simp [hg]))).2 g (h.known i g hg)

/-- A program of the pool takes a step. Outside of sections it keeps the lock and what is known of
any stage; it enters a section only if the lock is free, and then holds it; and in a section it goes
on to its next stage. Each of them has the consequence `Q`. -/
theorem Pool.Staged.advance {M : Machine ω σ Reply} {Q : Prop} (h : p.Staged C held known stage)
    (hstep : p.advance M w i = some p')
    (outside : ∀ op r, p.asked i = some op → C.asks op → M w op p.state = some (r, p'.state) →
      Q ∧ C.gives op r ∧ (held p.state → held p'.state ∧ ∀ g, known g p.state → known g p'.state))
    (enter : ∀ op r g, p.asked i = some op → C.enters op = some g →
      M w op p.state = some (r, p'.state) →
      Q ∧ ¬held p.state ∧ held p'.state ∧ known g p'.state)
    (within : ∀ op r g, p.asked i = some op → C.asksIn g op → held p.state → known g p.state →
      M w op p.state = some (r, p'.state) →
      Q ∧ C.givesIn g op r ∧ ∀ g', C.next g op r = some g' → held p'.state ∧ known g' p'.state) :
    Q ∧ ∃ stage', p'.Staged C held known stage' := by
  obtain ⟨op, next, r, htask, hasked, hop, htasks⟩ := Pool.advance_cases hstep
  have hlength : p'.tasks.length = p.tasks.length := by rw [htasks, List.length_set]
  have hi : i < p.tasks.length := (List.getElem?_eq_some_iff.mp htask).1
  -- the program of the step goes on in `g'`, the others stay where they are
  have hfollows : ∀ g', (next r).Follows C (fun _ _ => True) g' → ∀ j (t : Program Reply Unit),
      p'.tasks[j]? = some t → t.Follows C (fun _ _ => True) (Function.update stage i g' j) := by
    intro g' hnext j t ht
    rw [htasks] at ht
    by_cases hj : j = i
    · subst hj
      rw [List.getElem?_set_self hi] at ht
      cases ht
      rw [Function.update_self]
      exact hnext
    · rw [List.getElem?_set_ne (Ne.symm hj)] at ht
      rw [Function.update_of_ne hj]
      exact h.follows j t ht
  have hbeyond : ∀ g' j, p'.tasks.length ≤ j → Function.update stage i g' j = none := by
    intro g' j hj
    rw [hlength] at hj
    rw [Function.update_of_ne (by omega)]
    exact h.beyond j hj
  -- no other program is in a section
  have halone : ∀ g', (∀ j, j ≠ i → stage j = none) → (next r).Follows C (fun _ _ => True) g' →
      (∀ g, g' = some g → held p'.state ∧ known g p'.state) →
      p'.Staged C held known (Function.update stage i g') := by
    intro g' hothers hnext hg
    have honly : ∀ j, Function.update stage i g' j ≠ none → j = i := by
      intro j hj
      by_contra hne
      rw [Function.update_of_ne hne] at hj
      exact hj (hothers j hne)
    have hat : ∀ j g, Function.update stage i g' j = some g → g' = some g := by
      intro j g hj
      obtain rfl := honly j (by simp [hj])
      rwa [Function.update_self] at hj
    refine ⟨hfollows g' hnext, hbeyond g', ?_, ?_, fun j g hj => (hg g (hat j g hj)).2⟩
    · exact fun j k hj hk => (honly j hj).trans (honly k hk).symm
    intro j hj
    obtain ⟨g, hsome⟩ := Option.ne_none_iff_exists'.mp hj
    exact (hg g (hat j g hsome)).1
  have htaken := h.follows i _ htask
  cases hstage : stage i with
  | none =>
    rw [hstage] at htaken
    rcases htaken with ⟨hasks, hnext⟩ | ⟨g, henters, hnext⟩
    · obtain ⟨hQ, hgives, hkeep⟩ := outside op r hasked hasks hop
      have hsame : Function.update stage i none = stage := by
        rw [← hstage, Function.update_eq_self]
      refine ⟨hQ, stage, hsame ▸ hfollows none (hnext r hgives), hsame ▸ hbeyond none,
        h.single, ?_, ?_⟩
      · exact fun j hj => (hkeep (h.held j hj)).1
      · exact fun j g hg => (hkeep (h.held j (by simp [hg]))).2 g (h.known j g hg)
    · obtain ⟨hQ, hfree, hheld, hknown⟩ := enter op r g hasked henters hop
      refine ⟨hQ, _, halone (some g) ?_ (hnext r) ?_⟩
      · exact fun j _ => of_not_not fun hj => hfree (h.held j hj)
      · rintro _ ⟨⟩
        exact ⟨hheld, hknown⟩
  | some g =>
    rw [hstage] at htaken
    have hin : stage i ≠ none := by simp [hstage]
    obtain ⟨hQ, hgives, hnext⟩ :=
      within op r g hasked htaken.1 (h.held i hin) (h.known i g hstage) hop
    refine ⟨hQ, _, halone (C.next g op r) ?_ (htaken.2 r hgives) hnext⟩
    exact fun j hj => of_not_not fun hne => hj (h.single j i hne hin)

end

-- the rules above say what there is to know of them
attribute [irreducible] Follows Keeps Ensures Failing.Ensures

end Program
