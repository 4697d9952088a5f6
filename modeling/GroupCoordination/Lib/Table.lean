import Mathlib.Data.List.Nodup

/-!
# Tables with a key

Rows kept in insertion order, with the two SQL writes a keyed table needs: an
insert that ignores a key already present, and an insert that updates the row in
place. `Table.Keyed` says that no key occurs twice; both writes keep it.
-/

namespace Table

variable {α κ : Type} [DecidableEq κ] {key : α → κ} {rows : List α} {row : α}

def get (key : α → κ) (rows : List α) (k : κ) : Option α := rows.find? (key · = k)

/-- `INSERT OR IGNORE`. -/
def insertOrIgnore (key : α → κ) (rows : List α) (row : α) : List α :=
  if key row ∈ rows.map key then rows else rows ++ [row]

/-- `INSERT .. ON CONFLICT DO UPDATE`: `merge` makes the new row from the old one
and the excluded one. -/
def upsert (key : α → κ) (merge : α → α → α) (rows : List α) (row : α) : List α :=
  if key row ∈ rows.map key then rows.map fun old =>
    if key old = key row then merge old row else old
  else rows ++ [row]

theorem insertOrIgnore_fresh (h : key row ∉ rows.map key) :
    insertOrIgnore key rows row = rows ++ [row] := if_neg h

theorem insertOrIgnore_known (h : key row ∈ rows.map key) : insertOrIgnore key rows row = rows :=
  if_pos h

def Keyed (key : α → κ) (rows : List α) : Prop := (rows.map key).Nodup

theorem keyed_nil {α κ : Type} {key : α → κ} : Keyed key [] := List.nodup_nil

omit [DecidableEq κ] in
theorem keyed_append_fresh (h : Keyed key rows) (hf : key row ∉ rows.map key) :
    Keyed key (rows ++ [row]) := by
  unfold Keyed at *
  rw [List.map_append, List.nodup_append]
  refine ⟨h, List.nodup_singleton _, ?_⟩
  rintro k hk k' hk' rfl
  simp only [List.map_cons, List.map_nil, List.mem_singleton] at hk'
  exact hf (hk' ▸ hk)

theorem Keyed.insertOrIgnore (h : Keyed key rows) : Keyed key (insertOrIgnore key rows row) := by
  unfold Table.insertOrIgnore
  split
  · exact h
  next hf =>
    exact keyed_append_fresh h hf

theorem mem_insertOrIgnore_key {k : κ} :
    k ∈ (insertOrIgnore key rows row).map key ↔ k ∈ rows.map key ∨ k = key row := by
  unfold insertOrIgnore
  split
  next h =>
    refine ⟨.inl, ?_⟩
    rintro (hk | rfl)
    · exact hk
    · exact h
  · simp

def upserted (key : α → κ) (merge : α → α → α) (rows : List α) (row : α) : α :=
  match get key rows (key row) with
  | some old => merge old row
  | none => row

theorem get_eq_none {k : κ} : get key rows k = none ↔ k ∉ rows.map key := by
  simp [get]

theorem mem_of_get {k : κ} (h : get key rows k = some row) : row ∈ rows ∧ key row = k :=
  ⟨List.mem_of_find?_eq_some h, by simpa using List.find?_some h⟩

theorem get_eq_some (h : Keyed key rows) {old : α} (hold : old ∈ rows) :
    get key rows (key old) = some old := by
  cases hget : get key rows (key old) with
  | none => exact absurd (List.mem_map_of_mem hold) (get_eq_none.mp hget)
  | some other =>
    have hkey : key other = key old := by simpa using List.find?_some hget
    rw [List.inj_on_of_nodup_map h (List.mem_of_find?_eq_some hget) hold hkey]

theorem get_map {f : α → α} (hkey : ∀ a, key (f a) = key a) {k : κ} :
    get key (rows.map f) k = (get key rows k).map f := by
  have hsame : (fun a => decide (key a = k)) ∘ f = fun a => decide (key a = k) :=
    funext fun a => by rw [Function.comp_apply, hkey]
  rw [get, List.find?_map, hsame, get]

theorem get_append_of_ne {k : κ} (hk : key row ≠ k) :
    get key (rows ++ [row]) k = get key rows k := by
  simp [get, List.find?_append, hk]

theorem get_append_of_none {k : κ} (h : get key rows k = none) :
    get key (rows ++ [row]) k = if key row = k then some row else none := by
  by_cases hk : key row = k
  · unfold get at *
    rw [List.find?_append, h]
    simp [hk]
  · rw [get_append_of_ne hk, if_neg hk, h]

theorem get_filter {p : α → Bool} {k : κ} (h : ∀ a, get key rows k = some a → p a = true) :
    get key (rows.filter p) k = get key rows k := by
  induction rows with
  | nil => rfl
  | cons a rest ih =>
    unfold get at *
    by_cases hk : key a = k
    · have hp : p a = true := h a (by simp [hk])
      simp [hp, hk]
    have hrest := ih fun b hb => h b (by simpa [List.find?_cons, hk] using hb)
    rw [List.filter_cons]
    split
    · simpa [List.find?_cons, hk] using hrest
    · simpa [List.find?_cons, hk] using hrest

theorem mem_upsert (h : Keyed key rows) {merge : α → α → α} {a : α} :
    a ∈ upsert key merge rows row ↔
      a = upserted key merge rows row ∨ a ∈ rows ∧ key a ≠ key row := by
  unfold upsert upserted
  split
  next hknown =>
    obtain ⟨old, hold, hkey⟩ := List.mem_map.mp hknown
    rw [← hkey, get_eq_some h hold]
    rw [List.mem_map]
    constructor
    · rintro ⟨b, hb, rfl⟩
      by_cases hbk : key b = key old
      · rw [if_pos hbk, List.inj_on_of_nodup_map h hb hold hbk]
        exact .inl rfl
      · rw [if_neg hbk]
        exact .inr ⟨hb, hbk⟩
    · rintro (rfl | ⟨ha, hak⟩)
      · exact ⟨old, hold, if_pos rfl⟩
      · exact ⟨a, ha, if_neg hak⟩
  next hfresh =>
    rw [get_eq_none.mpr hfresh, List.mem_append, List.mem_singleton]
    constructor
    · rintro (ha | rfl)
      · exact .inr ⟨ha, fun hak => hfresh (hak ▸ List.mem_map_of_mem ha)⟩
      · exact .inl rfl
    · rintro (rfl | ⟨ha, -⟩)
      · exact .inr rfl
      · exact .inl ha

theorem Keyed.upsert (h : Keyed key rows) {merge : α → α → α}
    (hmerge : ∀ old, key old = key row → key (merge old row) = key row) :
    Keyed key (upsert key merge rows row) := by
  unfold Table.upsert
  split
  · unfold Keyed at *
    rw [List.map_map]
    refine (List.map_congr_left fun old _ => ?_).symm ▸ h
    by_cases hk : key old = key row
    · simp [hk, hmerge old hk]
    · simp [hk]
  next hfresh =>
    exact keyed_append_fresh h hfresh

theorem get_upsert_of_ne {merge : α → α → α} {k : κ} (hk : k ≠ key row)
    (hmerge : ∀ old, key old = key row → key (merge old row) = key row) :
    get key (upsert key merge rows row) k = get key rows k := by
  unfold upsert get
  split
  next hknown =>
    clear hknown
    induction rows with
    | nil => rfl
    | cons old rows ih =>
      by_cases hold : key old = key row
      · simp [hold, hmerge old hold, hk.symm, ih]
      · rw [List.map_cons, if_neg hold, List.find?_cons, List.find?_cons, ih]
  · simp [hk.symm]

theorem get_upsert_self {merge : α → α → α}
    (hmerge : ∀ old, key old = key row → key (merge old row) = key row) :
    get key (upsert key merge rows row) (key row) = some (upserted key merge rows row) := by
  unfold upsert upserted get
  split
  next hknown =>
    induction rows with
    | nil => cases hknown
    | cons old rows ih =>
      by_cases hold : key old = key row
      · simp [hold, hmerge old hold]
      · have hlater : key row ∈ rows.map key := by simpa [Ne.symm hold] using hknown
        simpa [hold] using ih hlater
  next hfresh =>
    have hnone : rows.find? (key · = key row) = none := get_eq_none.mpr hfresh
    simp [List.find?_append, hnone]

theorem get_upsert_replace :
    get key (upsert key (fun _ new => new) rows row) (key row) = some row := by
  rw [get_upsert_self fun _ _ => rfl]
  unfold upserted
  split <;> rfl

theorem forall_mem_upsert {merge : α → α → α} {P : α → Prop} (h : ∀ a ∈ rows, P a) (hrow : P row)
    (hmerge : ∀ old ∈ rows, key old = key row → P (merge old row)) :
    ∀ a ∈ upsert key merge rows row, P a := by
  unfold upsert
  split
  · intro a ha
    obtain ⟨old, hold, rfl⟩ := List.mem_map.mp ha
    split
    · exact hmerge old hold ‹_›
    · exact h old hold
  · exact List.forall_mem_append.mpr ⟨h, List.forall_mem_singleton.mpr hrow⟩

theorem upsert_eq_map [DecidableEq α] (h : Keyed key rows) {merge : α → α → α} {old : α}
    (hold : old ∈ rows) (hkey : key row = key old) :
    upsert key merge rows row = rows.map fun a => if a = old then merge a row else a := by
  unfold upsert
  rw [if_pos (hkey ▸ List.mem_map_of_mem hold)]
  refine List.map_congr_left fun a ha => ?_
  by_cases hak : a = old
  · rw [if_pos (hak ▸ hkey.symm), if_pos hak]
  · rw [if_neg hak, if_neg fun hk => hak (List.inj_on_of_nodup_map h ha hold (hk.trans hkey))]

omit [DecidableEq κ] in
/-- An update that gives its rows one key, and leaves no key twice, is of one row. -/
theorem update_one {p : α → Prop} [DecidablePred p] {f : α → α}
    (h : Keyed key (rows.map fun a => if p a then f a else a)) (hrow : row ∈ rows) (hp : p row)
    (hf : ∀ a b, key (f a) = key (f b)) : ∃ before after, rows = before ++ row :: after ∧
      (rows.map fun a => if p a then f a else a) = before ++ f row :: after := by
  obtain ⟨before, after, rfl⟩ := List.append_of_mem hrow
  unfold Keyed at h
  rw [List.map_append, List.map_cons, if_pos hp] at h ⊢
  rw [List.map_append, List.map_cons, List.nodup_middle, List.nodup_cons] at h
  have hother : ∀ a ∈ before ++ after, (if p a then f a else a) = a := by
    intro a ha
    split
    next hpa =>
      refine absurd ?_ h.1
      rw [hf row a, ← List.map_append, ← List.map_append]
      exact List.mem_map.mpr ⟨f a, List.mem_map.mpr ⟨a, ha, if_pos hpa⟩, rfl⟩
    · rfl
  have hbefore := List.map_congr_left fun a ha => hother a (List.mem_append_left after ha)
  have hafter := List.map_congr_left fun a ha => hother a (List.mem_append_right before ha)
  exact ⟨before, after, rfl, by rw [hbefore, hafter, List.map_id', List.map_id']⟩

theorem foldl_upsert [DecidableEq α] (h : Keyed key rows) {merge : α → α → α} {f : α → α}
    {p : α → Bool} (hf : ∀ a, key (f a) = key a) (hmerge : ∀ a b, key (merge a b) = key b)
    {listed : List α} (hl : Keyed key listed) (hsub : ∀ a ∈ listed, a ∈ rows) :
    listed.foldl (fun rows a => if p a then upsert key merge rows (f a) else rows) rows =
      rows.map fun a => if a ∈ listed ∧ p a = true then merge a (f a) else a := by
  induction listed generalizing rows with
  | nil => simp
  | cons op listed ih =>
    obtain ⟨hnot, hl⟩ := List.nodup_cons.mp hl
    have hfresh : op ∉ listed := fun hm => hnot (List.mem_map_of_mem hm)
    have hsub' := fun a ha => hsub a (List.mem_cons_of_mem op ha)
    rw [List.foldl_cons]
    by_cases hp : p op = true
    · rw [if_pos hp, upsert_eq_map h (hsub op List.mem_cons_self) (hf op)]
      have hkeyed : Keyed key (rows.map fun a => if a = op then merge a (f op) else a) := by
        rw [← upsert_eq_map h (hsub op List.mem_cons_self) (hf op)]
        exact h.upsert fun old _ => hmerge old _
      rw [ih hkeyed hl fun a ha => ?_, List.map_map]
      · refine List.map_congr_left fun a ha => ?_
        by_cases hop : a = op
        · subst hop
          have hgone : merge a (f a) ∉ listed := fun hm => hnot (by
            have hk := List.mem_map_of_mem (f := key) hm
            rwa [hmerge, hf] at hk)
          simp [hgone, hp]
        · simp [hop]
      · have hne : a ≠ op := fun heq => hfresh (heq ▸ ha)
        exact List.mem_map.mpr ⟨a, hsub' a ha, if_neg hne⟩
    · rw [if_neg hp, ih h hl hsub']
      refine List.map_congr_left fun a _ => ?_
      by_cases hop : a = op
      · subst hop
        simp [hp]
      · simp [hop]

theorem Keyed.countP_le_one (h : Keyed key rows) (k : κ) :
    rows.countP (fun row => key row = k) ≤ 1 := by
  have hcount := List.nodup_iff_count_le_one.mp h k
  rwa [List.count, List.countP_map] at hcount

end Table
