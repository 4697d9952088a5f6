import GroupCoordination.Model.ReplicaPull

/-!
# Steps of replication

What the two writes of a record do to the table, and what the operations of the programs reply and
leave. The properties of replication are about whole pushes, pulls and runs; they use these facts
and do not look into the store again.
-/

namespace GroupCoordination

open Fallible

variable {hash : Hash} {rows : List ReplicatedRecordRow} {row current : ReplicatedRecordRow}
  {ns : ReplicaNamespace} {key : String}

-- -------- Records

theorem getReplicatedRecord_trim :
    getReplicatedRecord rows ns (trimSpace key) = getReplicatedRecord rows ns key := by
  unfold getReplicatedRecord
  rw [trimSpace_idem]

@[simp] theorem ReplicatedRecordRow.normalize_revision :
    row.normalize.revision = row.revision := rfl

theorem getReplicatedRecord_put :
    getReplicatedRecord (putRecord rows row.normalize) ns key =
      if ns = row.ns ∧ trimSpace key = trimSpace row.recordKey then some row.normalize
      else getReplicatedRecord rows ns key := by
  unfold getReplicatedRecord putRecord
  split
  next h =>
    rw [h.1, h.2]
    exact Table.get_upsert_replace
  next h =>
    exact Table.get_upsert_of_ne (fun heq => h (Prod.mk.inj heq)) fun _ _ => rfl

inductive MergeOutcome (rows : List ReplicatedRecordRow) (row : ReplicatedRecordRow) :
    Except ReplicaError (List ReplicatedRecordRow) → Prop
  | stored (hpos : 0 < row.revision)
      (hnewer : ∀ current, getReplicatedRecord rows row.ns row.recordKey = some current →
        current.revision < row.revision) : MergeOutcome rows row
          (.ok (putRecord rows row.normalize))
  | replayed (current : ReplicatedRecordRow)
      (hcurrent : getReplicatedRecord rows row.ns row.recordKey = some current)
      (hsame : current.revision = row.revision) : MergeOutcome rows row (.ok rows)
  | stale (current : ReplicatedRecordRow)
      (hcurrent : getReplicatedRecord rows row.ns row.recordKey = some current)
      (holder : row.revision < current.revision) : MergeOutcome rows row (.error .stale)
  | refused (err : ReplicaError) (hstale : err ≠ .stale) : MergeOutcome rows row (.error err)

theorem ReplicatedRecordRow.validate_error {err : ReplicaError}
    (h : row.validate hash = .error err) : err ≠ .stale := by
  unfold validate require at h
  rintro rfl
  split at h
  · split at h
    · split at h
      · split at h <;> cases h
      · cases h
    · cases h
  · cases h

theorem ReplicatedRecordRow.validate_pos (row : ReplicatedRecordRow) {u : Unit}
    (h : row.validate hash = .ok u) : 0 < row.revision := by
  obtain ⟨_, _, h⟩ := bind_ok h
  obtain ⟨_, hpos, _⟩ := bind_ok h
  exact require_ok hpos

theorem tryMergeReplicatedRecord_cases :
    MergeOutcome rows row (tryMergeReplicatedRecord hash rows row) := by
  unfold tryMergeReplicatedRecord
  dsimp only
  cases hvalid : row.normalize.validate hash with
  | error err => exact .refused err (ReplicatedRecordRow.validate_error hvalid)
  | ok u =>
    have hpos : 0 < row.revision := row.normalize.validate_pos hvalid
    have hget : getReplicatedRecord rows row.normalize.ns row.normalize.recordKey =
        getReplicatedRecord rows row.ns row.recordKey := getReplicatedRecord_trim
    dsimp only [bind, Except.bind]
    rw [hget]
    cases hcurrent : getReplicatedRecord rows row.ns row.recordKey with
    | none =>
      refine .stored hpos fun current h => ?_
      cases hcurrent.symm.trans h
    | some current =>
      dsimp only
      split
      · exact .stale current hcurrent ‹_›
      split
      · split
        · exact .replayed current hcurrent ‹_›
        · exact .refused _ nofun
      rename_i hle hne
      refine .stored hpos fun c h => ?_
      cases hcurrent.symm.trans h
      rw [ReplicatedRecordRow.normalize_revision] at hle hne
      omega

def recordRevision (rows : List ReplicatedRecordRow) (ns : ReplicaNamespace) (key : String) : Int :=
  ((getReplicatedRecord rows ns key).map (·.revision)).getD 0

theorem recordRevision_trim :
    recordRevision rows ns (trimSpace key) = recordRevision rows ns key := by
  unfold recordRevision
  rw [getReplicatedRecord_trim]

theorem recordRevision_of_get (h : getReplicatedRecord rows ns key = some row) :
    recordRevision rows ns key = row.revision := by
  unfold recordRevision
  rw [h]
  rfl

/-- What a merge that goes well leaves: its own revision, and nothing older anywhere. -/
theorem MergeOutcome.revision_le {rows' : List ReplicatedRecordRow}
    (h : MergeOutcome rows row (.ok rows')) :
    row.revision ≤ recordRevision rows' row.ns row.recordKey ∧
      ∀ ns key, recordRevision rows ns key ≤ recordRevision rows' ns key := by
  generalize hr : (.ok rows' : Except ReplicaError (List ReplicatedRecordRow)) = r at h
  cases h with
  | stored hpos hnewer =>
    cases hr
    unfold recordRevision
    simp only [getReplicatedRecord_put]
    refine ⟨by simp, fun ns key => ?_⟩
    split
    next h =>
      obtain ⟨rfl, hkey⟩ := h
      rw [← getReplicatedRecord_trim, hkey, getReplicatedRecord_trim]
      cases hcurrent : getReplicatedRecord rows row.ns row.recordKey with
      | none => simpa using hpos.le
      | some current => simpa using (hnewer current hcurrent).le
    · exact le_rfl
  | replayed current hcurrent hsame =>
    cases hr
    exact ⟨(recordRevision_of_get hcurrent).trans hsame |>.ge, fun _ _ => le_rfl⟩
  | stale | refused => cases hr

theorem MergeOutcome.revision_of_stale (h : MergeOutcome rows row (.error .stale)) :
    row.revision ≤ recordRevision rows row.ns row.recordKey := by
  generalize hr : (.error .stale : Except ReplicaError (List ReplicatedRecordRow)) = r at h
  cases h with
  | stored | replayed => cases hr
  | stale current hcurrent holder => exact holder.le.trans (recordRevision_of_get hcurrent).ge
  | refused err hstale =>
    cases hr
    exact absurd rfl hstale

-- -------- Operations

variable {s s' : ReplicaState} {w : ReplicaWorld} {node : ReplicaNode}

theorem ReplicaState.query_eq {x r : Except ReplicaError α} (h : s.query w x = (r, s')) :
    s' = s ∧ (r = x ∨ r = .error errDatabase) := by
  unfold query at h
  cases h
  refine ⟨rfl, ?_⟩
  split
  · exact .inl rfl
  · exact .inr rfl

theorem ReplicaState.tryWrite_eq {x : Except ReplicaError ReplicaStore}
    {r : Except ReplicaError Unit} (h : s.tryWrite w x = (r, s')) :
    (∃ db, x = .ok db ∧ r = .ok () ∧ s' = { s with db }) ∨
      s' = s ∧ ∃ err, r = .error err ∧ (x = .error err ∨ err = errDatabase) := by
  unfold tryWrite at h
  split at h
  · cases h
    exact .inr ⟨rfl, _, rfl, .inr rfl⟩
  · cases h
    exact .inr ⟨rfl, _, rfl, .inl rfl⟩
  · cases h
    exact .inl ⟨_, rfl, rfl, rfl⟩

theorem ReplicaState.tryWriteRecord_eq {x : Except ReplicaError (List ReplicatedRecordRow)}
    {r : Except ReplicaError Unit} (h : s.tryWriteRecord w x = (r, s')) :
    (∃ records, x = .ok records ∧ (r = .ok () ∨ r = .error errDatabase) ∧
        s' = { s with db := { s.db with records } }) ∨
      s' = s ∧ ∃ err, r = .error err ∧ (x = .error err ∨ err = errDatabase) := by
  unfold tryWriteRecord at h
  split at h
  · cases h
    exact .inr ⟨rfl, _, rfl, .inr rfl⟩
  · cases h
    exact .inr ⟨rfl, _, rfl, .inl rfl⟩
  cases h
  refine .inl ⟨_, rfl, ?_, rfl⟩
  split
  · exact .inl rfl
  · exact .inr rfl

theorem ensures_request (op : ReplicaOp) {env : ReplicaOp → ReplicaWorld}
    {post : op.Reply → ReplicaState → Prop}
    (h : ∀ r s', replicaMachine node (env op) op s = some (r, s') → post r s') :
    (request op).Ensures (replicaMachine node) env post s :=
  Program.ensures_perform h

structure StatementsWork (env : ReplicaOp → ReplicaWorld) : Prop where
  db : ∀ op, (env op).dbWorks = true
  refs : ∀ op, (env op).refsWork = true

theorem exec_request (op : ReplicaOp) (env : ReplicaOp → ReplicaWorld) (s : ReplicaState) :
    (request op).exec (replicaMachine node) env s = replicaMachine node (env op) op s := by
  unfold request Program.perform Program.exec
  cases replicaMachine node (env op) op s with
  | none | some p => rfl

theorem ReplicaState.query_works {x : Except ReplicaError α} (h : w.dbWorks = true) :
    s.query w x = (x, s) := by
  unfold query
  rw [if_pos h]

-- -------- Programs that write no record

open Program (Failing attempt observe check)

def SameRecords (s s' : ReplicaState) : Prop :=
  s'.db.records = s.db.records ∧ s'.db.cursors = s.db.cursors

theorem SameRecords.refl (s : ReplicaState) : SameRecords s s := ⟨rfl, rfl⟩

theorem SameRecords.trans {s'' : ReplicaState} (h : SameRecords s s') (h' : SameRecords s' s'') :
    SameRecords s s'' := ⟨h'.1.trans h.1, h'.2.trans h.2⟩

def Silent (node : ReplicaNode) (t : ReplicaF α) : Prop :=
  ∀ env s, Failing.Ensures (replicaMachine node) env t s (fun _ s' => SameRecords s s')
    fun err s' => SameRecords s s' ∧ err ≠ .stale

def NotStale (x : Except ReplicaError α) : Prop := ∀ err, x = .error err → err ≠ .stale

theorem other_ne_stale (text : String) : ReplicaError.other text ≠ .stale := nofun

theorem notStale_ok {a : α} : NotStale (.ok a) := fun _ h => by cases h

theorem notStale_error {err : ReplicaError} (h : err ≠ .stale) :
    NotStale (.error err : Except _ α) := by
  rintro _ ⟨⟩
  exact h

theorem NotStale.bind {x : Except ReplicaError α} {f : α → Except ReplicaError β} (hx : NotStale x)
    (hf : ∀ a, NotStale (f a)) : NotStale (x >>= f) := by
  cases x with
  | error err => exact notStale_error (hx err rfl)
  | ok a => exact hf a

theorem notStale_require {cond : Prop} {_ : Decidable cond} {err : ReplicaError}
    (h : err ≠ .stale) : NotStale (require cond err) := by
  unfold require
  split
  · exact notStale_ok
  · exact notStale_error h

theorem NotStale.required {cond : Prop} {_ : Decidable cond} {text : String}
    {f : Unit → Except ReplicaError α} (h : NotStale (f ())) :
    NotStale (require cond (.other text) >>= f) :=
  NotStale.bind (notStale_require (other_ne_stale text)) fun _ => h

theorem silent_pure {a : α} :
    Silent node (pure a) := fun _ s => Failing.ensures_pure (SameRecords.refl s)

theorem silent_attempt_pure {x : Except ReplicaError α} (h : NotStale x) :
    Silent node (attempt (pure x)) :=
  fun _ s => Failing.ensures_attempt_pure (fun _ _ => SameRecords.refl s) fun err hx =>
    ⟨SameRecords.refl s, h err hx⟩

theorem silent_check_bind {cond : Prop} {_ : Decidable cond} {err : ReplicaError}
    {f : Unit → ReplicaF α}
    (h : err ≠ .stale) (hf : Silent node (f ())) : Silent node (check cond err >>= f) := by
  intro env s
  refine Failing.Ensures.bind (Failing.ensures_check (fun _ => hf env s) fun _ => ?_)
  exact ⟨SameRecords.refl s, h⟩

theorem Silent.bind {t : ReplicaF α} {f : α → ReplicaF β} (ht : Silent node t)
    (hf : ∀ a, Silent node (f a)) : Silent node (t >>= f) := by
  intro env s
  refine Failing.Ensures.bind ((ht env s).mono (fun a s' hs => ?_) fun _ _ h => h)
  exact (hf a env s').mono (fun _ _ h => hs.trans h) fun _ _ h => ⟨hs.trans h.1, h.2⟩

theorem NotStale.query {x : Except ReplicaError α} (h : NotStale x) : NotStale (s.query w x).1 := by
  unfold ReplicaState.query
  dsimp only
  split
  · exact h
  · exact notStale_error nofun

theorem silent_of_read {t : ReplicaM (Except ReplicaError α)}
    (h : ∀ env s, ∃ x, t.exec (replicaMachine node) env s = some (x, s) ∧ NotStale x) :
    Silent node (attempt t) := by
  intro env s
  refine Failing.ensures_attempt (Program.ensures_iff.mpr fun r s' hexec => ?_)
  obtain ⟨x, hread, hstale⟩ := h env s
  cases hread.symm.trans hexec
  cases r with
  | error err => exact ⟨SameRecords.refl _, hstale err rfl⟩
  | ok a => exact SameRecords.refl _

theorem silent_of_write {t : ReplicaM (Except ReplicaError Unit)}
    (h : ∀ env s, ∃ w x, t.exec (replicaMachine node) env s = some (s.tryWrite w x) ∧ NotStale x ∧
      ∀ db, x = .ok db → db.records = s.db.records ∧ db.cursors = s.db.cursors) :
    Silent node (attempt t) := by
  intro env s
  refine Failing.ensures_attempt (Program.ensures_iff.mpr fun r s' hexec => ?_)
  obtain ⟨w, x, hwrite, hstale, hsame⟩ := h env s
  rcases ReplicaState.tryWrite_eq (Option.some.inj (hwrite.symm.trans hexec)) with
    ⟨db, hdb, rfl, rfl⟩ | ⟨rfl, err, rfl, hx | rfl⟩
  · exact hsame db hdb
  · exact ⟨SameRecords.refl _, hstale err hx⟩
  · exact ⟨SameRecords.refl _, nofun⟩

end GroupCoordination
