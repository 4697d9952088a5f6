import Mathlib.Data.Finset.Max

/-!
# Registers that merge by revision

Replicas receive the same entries in orders of their own, each entry any number of times. A replica
keeps the row of the greatest revision, and of several rows with that revision the first. So the
replicas agree in all orders iff the greatest revision belongs to one row.
-/

namespace Merge

variable {ε ρ ν σ σ₁ σ₂ : Type}

structure Entries (ε ρ ν : Type) where
  row : ε → ρ
  rev : ε → Int
  value : ε → ν

structure Register (k : Entries ε ρ ν) (es : List ε) (σ : Type) where
  deliver : σ → ε → σ
  stored : σ → Option ρ
  effective : σ → ν
  Ready : σ → Prop
  ready_deliver : ∀ {s e}, e ∈ es → Ready s → Ready (deliver s e)
  fresh : ∀ {s e}, e ∈ es → Ready s → stored s = none →
    stored (deliver s e) = some (k.row e) ∧ effective (deliver s e) = k.value e
  newer : ∀ {s c e}, c ∈ es → e ∈ es → Ready s → stored s = some (k.row c) → k.rev c < k.rev e →
    stored (deliver s e) = some (k.row e) ∧ effective (deliver s e) = k.value e
  older : ∀ {s c e}, c ∈ es → e ∈ es → Ready s → stored s = some (k.row c) → k.rev e < k.rev c →
    stored (deliver s e) = some (k.row c) ∧ effective (deliver s e) = effective s
  equal : ∀ {s c e}, c ∈ es → e ∈ es → Ready s → stored s = some (k.row c) → k.rev e = k.rev c →
    stored (deliver s e) = some (k.row c)
  again : ∀ {s e}, e ∈ es → Ready s → stored s = some (k.row e) →
    effective (deliver s e) = k.value e

variable {k : Entries ε ρ ν} {es l : List ε} {e m : ε}

def Entries.Latest (k : Entries ε ρ ν) (es : List ε) (m : ε) : Prop :=
  m ∈ es ∧ ∀ e ∈ es, k.rev e ≤ k.rev m

def Entries.OneLatest (k : Entries ε ρ ν) (es : List ε) : Prop :=
  ∀ a b, k.Latest es a → k.Latest es b → k.row a = k.row b

theorem Entries.exists_latest (k : Entries ε ρ ν) (h : es ≠ []) : ∃ m, k.Latest es m := by
  classical
  obtain ⟨m, hm, hmax⟩ := es.toFinset.exists_max_image k.rev (by simpa using h)
  exact ⟨m, List.mem_toFinset.mp hm, fun e he => hmax e (List.mem_toFinset.mpr he)⟩

namespace Register

variable {R : Register k es σ} {s : σ}

def Inv (R : Register k es σ) (s : σ) : Prop :=
  R.Ready s ∧ ∀ r, R.stored s = some r → ∃ c ∈ es, r = k.row c

theorem Inv.deliver (hs : R.Inv s) (he : e ∈ es) : R.Inv (R.deliver s e) := by
  obtain ⟨hready, hstored⟩ := hs
  refine ⟨R.ready_deliver he hready, fun r hr => ?_⟩
  cases hold : R.stored s with
  | none =>
    rw [(R.fresh he hready hold).1] at hr
    exact ⟨e, he, (Option.some.inj hr).symm⟩
  | some r₀ =>
    obtain ⟨c, hc, rfl⟩ := hstored r₀ hold
    rcases lt_trichotomy (k.rev e) (k.rev c) with hlt | heq | hlt
    · rw [(R.older hc he hready hold hlt).1] at hr
      exact ⟨c, hc, (Option.some.inj hr).symm⟩
    · rw [R.equal hc he hready hold heq] at hr
      exact ⟨c, hc, (Option.some.inj hr).symm⟩
    · rw [(R.newer hc he hready hold hlt).1] at hr
      exact ⟨e, he, (Option.some.inj hr).symm⟩

theorem stored_deliver (hs : R.Inv s) (hm : k.Latest es m) (hold : R.stored s = some (k.row m))
    (he : e ∈ es) : R.stored (R.deliver s e) = some (k.row m) := by
  rcases (hm.2 e he).lt_or_eq with hlt | heq
  · exact (R.older hm.1 he hs.1 hold hlt).1
  · exact R.equal hm.1 he hs.1 hold heq

theorem stored_foldl (hs : R.Inv s) (hm : k.Latest es m) (hold : R.stored s = some (k.row m))
    (hl : ∀ e ∈ l, e ∈ es) : R.stored (l.foldl R.deliver s) = some (k.row m) := by
  induction l generalizing s with
  | nil => exact hold
  | cons e l ih =>
    have he : e ∈ es := hl e List.mem_cons_self
    exact ih (hs.deliver he) (stored_deliver hs hm hold he) fun e h =>
      hl e (List.mem_cons_of_mem _ h)

def Settled (R : Register k es σ) (m : ε) (s : σ) : Prop :=
  R.stored s = some (k.row m) ∧ R.effective s = k.value m

theorem Inv.settle (hone : k.OneLatest es) (hs : R.Inv s) (hm : k.Latest es m) :
    R.Settled m (R.deliver s m) := by
  obtain ⟨hready, hstored⟩ := hs
  cases hold : R.stored s with
  | none => exact R.fresh hm.1 hready hold
  | some r =>
    obtain ⟨c, hc, rfl⟩ := hstored r hold
    rcases (hm.2 c hc).lt_or_eq with hlt | heq
    · exact R.newer hc hm.1 hready hold hlt
    -- what is stored is the same row, which is effective again
    have hrow : k.row c = k.row m := hone c m ⟨hc, fun e he => heq ▸ hm.2 e he⟩ hm
    refine ⟨?_, R.again hm.1 hready (hrow ▸ hold)⟩
    rw [R.equal hc hm.1 hready hold heq.symm, hrow]

section

variable (hone : k.OneLatest es) (hvalue : ∀ a b, k.row a = k.row b → k.value a = k.value b)

include hone hvalue

theorem Settled.deliver (hs : R.Inv s) (hm : k.Latest es m) (h : R.Settled m s) (he : e ∈ es) :
    R.Settled m (R.deliver s e) := by
  refine ⟨stored_deliver hs hm h.1 he, ?_⟩
  rcases (hm.2 e he).lt_or_eq with hlt | heq
  · rw [(R.older hm.1 he hs.1 h.1 hlt).2]
    exact h.2
  have hrow : k.row e = k.row m := hone e m ⟨he, fun c hc => heq ▸ hm.2 c hc⟩ hm
  rw [R.again he hs.1 (hrow ▸ h.1)]
  exact hvalue e m hrow

theorem Settled.foldl (hs : R.Inv s) (hm : k.Latest es m) (h : R.Settled m s)
    (hl : ∀ e ∈ l, e ∈ es) : R.Settled m (l.foldl R.deliver s) := by
  induction l generalizing s with
  | nil => exact h
  | cons e l ih =>
    have he : e ∈ es := hl e List.mem_cons_self
    exact ih (hs.deliver he) (h.deliver hone hvalue hs hm he) fun e h =>
      hl e (List.mem_cons_of_mem _ h)

theorem settled_foldl (hs : R.Inv s) (hm : k.Latest es m) (hl : ∀ e ∈ l, e ∈ es) (hmem : m ∈ l) :
    R.Settled m (l.foldl R.deliver s) := by
  induction l generalizing s with
  | nil => cases hmem
  | cons e l ih =>
    have hrest : ∀ e ∈ l, e ∈ es := fun e h => hl e (List.mem_cons_of_mem _ h)
    have he : e ∈ es := hl e List.mem_cons_self
    rcases List.mem_cons.mp hmem with rfl | hmem
    · rw [List.foldl_cons]
      exact Settled.foldl hone hvalue (hs.deliver he) hm (hs.settle hone hm) hrest
    · exact ih (hs.deliver he) hrest hmem

end

end Register

/-- Two replicas that start alike agree after every two orders of the entries iff the greatest
revision belongs to one row. -/
theorem agree_iff (R₁ : Register k es σ₁) (R₂ : Register k es σ₂) {s₁ : σ₁} {s₂ : σ₂}
    (hvalue : ∀ a b, k.row a = k.row b → k.value a = k.value b)
    (h₁ : R₁.Ready s₁) (h₂ : R₂.Ready s₂) (hnone₁ : R₁.stored s₁ = none)
    (hnone₂ : R₂.stored s₂ = none) (hstart : R₁.effective s₁ = R₂.effective s₂) :
    (∀ l₁ l₂ : List ε, (∀ e, e ∈ l₁ ↔ e ∈ es) → (∀ e, e ∈ l₂ ↔ e ∈ es) →
      R₁.stored (l₁.foldl R₁.deliver s₁) = R₂.stored (l₂.foldl R₂.deliver s₂) ∧
        R₁.effective (l₁.foldl R₁.deliver s₁) = R₂.effective (l₂.foldl R₂.deliver s₂)) ↔
      k.OneLatest es := by
  have hinv₁ : R₁.Inv s₁ := ⟨h₁, fun r hr => by cases hnone₁.symm.trans hr⟩
  have hinv₂ : R₂.Inv s₂ := ⟨h₂, fun r hr => by cases hnone₂.symm.trans hr⟩
  constructor
  · intro h a b ha hb
    -- each replica gets one of the two first
    have hcons : ∀ m, k.Latest es m → ∀ e, e ∈ m :: es ↔ e ∈ es := by
      intro m hm e
      simp only [List.mem_cons, or_iff_right_iff_imp]
      rintro rfl
      exact hm.1
    have hsame := (h (a :: es) (b :: es) (hcons a ha) (hcons b hb)).1
    rw [List.foldl_cons, List.foldl_cons,
      Register.stored_foldl (hinv₁.deliver ha.1) ha (R₁.fresh ha.1 h₁ hnone₁).1 fun _ h => h,
      Register.stored_foldl (hinv₂.deliver hb.1) hb
        (R₂.fresh hb.1 h₂ hnone₂).1 fun _ h => h] at hsame
    exact Option.some.inj hsame
  · intro hone l₁ l₂ hl₁ hl₂
    by_cases hes : es = []
    · have hnil : ∀ l : List ε, (∀ e, e ∈ l ↔ e ∈ es) → l = [] := fun l hl =>
        List.eq_nil_iff_forall_not_mem.mpr fun e he => by simpa [hes] using (hl e).mp he
      rw [hnil l₁ hl₁, hnil l₂ hl₂]
      exact ⟨hnone₁.trans hnone₂.symm, hstart⟩
    · obtain ⟨m, hm⟩ := k.exists_latest hes
      have hend₁ := Register.settled_foldl hone hvalue hinv₁ hm (fun e h => (hl₁ e).mp h)
        ((hl₁ m).mpr hm.1)
      have hend₂ := Register.settled_foldl hone hvalue hinv₂ hm (fun e h => (hl₂ e).mp h)
        ((hl₂ m).mpr hm.1)
      exact ⟨hend₁.1.trans hend₂.1.symm, hend₁.2.trans hend₂.2.symm⟩

end Merge
