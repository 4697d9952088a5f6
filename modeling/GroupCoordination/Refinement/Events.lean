import GroupCoordination.Refinement.Boot
import GroupCoordination.Refinement.Heal

/-!
# The event table and the log

Who writes event rows and how. A row is sealed by a snapshot or by the reconciliation of a
commit; the replay of a heal only revises the rows it has listed. `SaveApplicationEvent` inserts
a row whole, but of a row that is there it replaces the ciphertext and leaves the nonce, so a
row that is sealed a second time no longer opens.

What a step of any kind adds to the envelope log and does to the stored operations: outside a heal
its scope says so, and a step of a heal leaves the operations alone and replicates commits and
messages only.
-/

namespace GroupCoordination

open Disk

-- -------- The cipher

/-- AES-GCM with a nonce drawn for every call: what was sealed opens with its own nonce and
with no other, and no nonce is drawn twice. An empty ciphertext or nonce is refused. -/
structure Sealer.Lawful (k : Sealer) : Prop where
  seals : ∀ draw p, ∃ c n, k.sealPayload draw p = .ok (c, n)
  opens : k.sealPayload draw p = .ok (c, n) → k.openPayload c n = .ok p
  binds : k.sealPayload draw p = .ok (c, n) → k.openPayload c n' = .ok q → n' = n
  draws : k.sealPayload draw p = .ok (c, n) → k.sealPayload draw' p' = .ok (c', n) → draw = draw'
  fresh : k.sealPayload draw p = .ok (c, n) → n ≠ []
  empty : k.openPayload [] n ≠ .ok p
  bare : k.openPayload c [] ≠ .ok p

/-- A nonce that no call draws from this transaction on. -/
def Sealer.Unused (k : Sealer) (writes : Nat) (nonce : Bytes) : Prop :=
  ∀ draw p c, writes ≤ draw → k.sealPayload draw p ≠ .ok (c, nonce)

theorem Sealer.Unused.later {k : Sealer} (h : k.Unused m nonce) (hle : m ≤ n) : k.Unused n nonce :=
  fun draw p c hdraw => h draw p c (hle.trans hdraw)

def Sealer.Wraps (k : Sealer) (draw : Nat) : Option Bytes → Bytes × Bytes → Prop
  | some p, sealed => k.sealPayload draw p = .ok sealed
  | none, sealed => sealed = ([], [])

theorem Sealer.Lawful.wraps_unused {k : Sealer} (hk : k.Lawful)
    (h : k.Wraps draw w (c, nonce)) : k.Unused (draw + 1) nonce := by
  intro draw' p c' hle hseal
  cases w with
  | none =>
    cases h
    exact hk.fresh hseal rfl
  | some q =>
    have hdraw := hk.draws h hseal
    omega

theorem Sealer.Lawful.wraps_shut {k : Sealer} (hk : k.Lawful) (h : k.Wraps draw w (c, n))
    (hunused : k.Unused draw nonce) : k.openPayload c nonce ≠ .ok p := by
  intro hopen
  cases w with
  | none =>
    cases h
    exact hk.empty hopen
  | some q =>
    cases hk.binds h hopen
    exact hunused draw q c le_rfl h

-- -------- One row

def ApplicationEvent.savable (ev : ApplicationEvent) : Bool :=
  ev.envelopeHash ≠ [] ∧ ev.payloadHash ≠ [] ∧ bindable ev.originalEpoch

def Storage.putEvent (db : Storage) (ev : ApplicationEvent) : Storage :=
  { db with
    applicationEvents := Table.upsert ApplicationEvent.eventID ApplicationEvent.merge
      db.applicationEvents ev }.written .saveApplicationEvent

theorem Storage.saveApplicationEvent_ok (h : saveApplicationEvent d db ev = .ok db') :
    ev.savable = true ∧ db' = db.putEvent ev := by
  obtain ⟨-, hok, rfl⟩ := exec_ok h
  exact ⟨hok, rfl⟩

theorem saveEvent_stored {x : Ctx} {s : State}
    (hworks : x.works s.storage.writes .saveApplicationEvent = true) (h : ev.savable = true) :
    s.saveEvent x ev = { s with storage := s.storage.putEvent ev } := by
  have hsave : Storage.saveApplicationEvent x.disk s.storage ev = .ok (s.storage.putEvent ev) :=
    if_pos ⟨hworks, h⟩
  rw [State.saveEvent, hsave]
  rfl

theorem saveEvent_cases (x : Ctx) (ev : ApplicationEvent) (s : State) :
    s.saveEvent x ev = s ∨
      ev.savable = true ∧ s.saveEvent x ev = { s with storage := s.storage.putEvent ev } := by
  unfold State.saveEvent
  cases hsave : Storage.saveApplicationEvent x.disk s.storage ev with
  | error => exact .inl rfl
  | ok db =>
    obtain ⟨hok, rfl⟩ := Storage.saveApplicationEvent_ok hsave
    exact .inr ⟨hok, rfl⟩

theorem saveEvent_refused (h : ev.savable = false) (s : State) : s.saveEvent x ev = s := by
  rcases saveEvent_cases x ev s with hsame | ⟨hok, -⟩
  · exact hsame
  · rw [h] at hok
    cases hok

theorem ApplicationEvent.merge_eventID (old new : ApplicationEvent)
    (h : old.eventID = new.eventID) : (old.merge new).eventID = new.eventID := h

section Rows

variable {db : Storage} {ev row : ApplicationEvent}

theorem Storage.putEvent_keyed (h : Table.Keyed ApplicationEvent.eventID db.applicationEvents)
    (ev : ApplicationEvent) :
    Table.Keyed ApplicationEvent.eventID (db.putEvent ev).applicationEvents :=
  h.upsert fun old => ApplicationEvent.merge_eventID old ev

theorem Storage.get_putEvent_self :
    Table.get ApplicationEvent.eventID (db.putEvent ev).applicationEvents ev.eventID =
      some (Table.upserted ApplicationEvent.eventID ApplicationEvent.merge
        db.applicationEvents ev) :=
  Table.get_upsert_self fun old => ApplicationEvent.merge_eventID old ev

theorem Storage.get_putEvent_of_ne {eventID : String} (hne : ev.eventID ≠ eventID) :
    Table.get ApplicationEvent.eventID (db.putEvent ev).applicationEvents eventID =
      Table.get ApplicationEvent.eventID db.applicationEvents eventID :=
  Table.get_upsert_of_ne hne.symm fun old => ApplicationEvent.merge_eventID old ev

/-- A row of the table after a write: another one, the one that was there with the new
contents, or the new one. -/
theorem Storage.mem_putEvent (h : Table.Keyed ApplicationEvent.eventID db.applicationEvents) :
    row ∈ (db.putEvent ev).applicationEvents ↔
      (row ∈ db.applicationEvents ∧ row.eventID ≠ ev.eventID) ∨
      (∃ old ∈ db.applicationEvents, old.eventID = ev.eventID ∧ row = old.merge ev) ∨
      (row = ev ∧ ev.eventID ∉ db.applicationEvents.map (·.eventID)) := by
  refine (Table.mem_upsert h).trans ?_
  unfold Table.upserted
  cases hget : Table.get ApplicationEvent.eventID db.applicationEvents ev.eventID with
  | none =>
    have hfresh := Table.get_eq_none.mp hget
    have hnone : ¬ ∃ old ∈ db.applicationEvents, old.eventID = ev.eventID ∧ row = old.merge ev :=
      fun ⟨old, hold, hid, _⟩ => hfresh (hid ▸ List.mem_map_of_mem hold)
    simp only [hnone, hfresh, false_or, not_false_eq_true, and_true]
    exact or_comm
  | some old =>
    have hold := List.mem_of_find?_eq_some hget
    have hid : old.eventID = ev.eventID := by simpa using List.find?_some hget
    have hknown : ev.eventID ∈ db.applicationEvents.map (·.eventID) :=
      hid ▸ List.mem_map_of_mem hold
    simp only [hknown, not_true_eq_false, and_false, or_false]
    refine or_comm.trans (or_congr_right ⟨fun hrow => ⟨old, hold, hid, hrow⟩, ?_⟩)
    rintro ⟨other, hother, hoid, rfl⟩
    rw [List.inj_on_of_nodup_map h hother hold (hoid.trans hid.symm)]

theorem Storage.putEvent_ids {eventID : String}
    (h : eventID ∈ db.applicationEvents.map (·.eventID)) :
    eventID ∈ (db.putEvent ev).applicationEvents.map (·.eventID) := by
  unfold putEvent written Table.upsert
  dsimp only
  split
  · rw [List.map_map]
    refine (List.map_congr_left fun old _ => ?_) ▸ h
    by_cases hid : old.eventID = ev.eventID
    · simp [hid, ApplicationEvent.merge]
    · simp [hid]
  · rw [List.map_append]
    exact List.mem_append_left _ h

theorem Storage.putEvent_self_id :
    ev.eventID ∈ (db.putEvent ev).applicationEvents.map (·.eventID) := by
  unfold putEvent written Table.upsert
  dsimp only
  split
  next hknown =>
    obtain ⟨old, hold, hid⟩ := List.mem_map.mp hknown
    refine List.mem_map.mpr ⟨old.merge ev, List.mem_map.mpr ⟨old, hold, if_pos hid⟩, hid⟩
  · simp

end Rows

-- -------- What leaves the events alone

section Keeping

variable {x : Ctx} {s s' : State}

theorem Storage.markMessageReplayed_keepsEvents (d : Disk) (db : Storage) (envelopeHash : Bytes) :
    db.KeepsEvents (db.markMessageReplayed d envelopeHash) := by
  unfold Storage.markMessageReplayed
  split
  · exact .refl _
  · exact ⟨rfl, rfl, Nat.le_succ _⟩

def HealPhase.writesEvents : HealPhase → Bool
  | .snapshot _ | .replay _ | .encrypt .. | .assign .. | .clean _ => true
  | _ => false

theorem healStep_keepsEvents (hr : s.heal = some r) (hphase : r.phase.writesEvents = false) :
    s.storage.KeepsEvents (healStep x wake s).storage := by
  cases hp : r.phase with
  | queued =>
    simp only [healStep, hr, hp]
    exact (beginHeal_skirts r s).apart.events rfl
  | join job =>
    simp only [healStep, hr, hp]
    exact (joinHeal_skirts s).apart.events rfl
  | awaiting job attempt msg =>
    simp only [healStep, hr, hp]
    exact (awaitWelcome_skirts wake s).apart.events rfl
  | swap job =>
    simp only [healStep, hr, hp]
    exact (swapHeal_beside s).apart.events rfl
  | restore =>
    simp only [healStep, hr, hp]
    exact (restoreHeal_skirts s).apart.events rfl
  | thaw | release =>
    simp only [healStep, hr, hp]
    exact .refl _
  | snapshot | replay | encrypt | assign | clean =>
    rw [hp] at hphase
    cases hphase

theorem rebooted_apart (view : List PeerID) (anchor : Option (Option Bytes)) (db : Storage) :
    db.Apart false (rebooted x view anchor db).storage := by
  unfold rebooted
  dsimp only
  split
  · unfold seedHistoryAnchor
    dsimp only
    split
    next hsave =>
      obtain ⟨-, -, rfl⟩ := exec_ok hsave
      exact ⟨rfl, .same rfl, fun _ => ⟨rfl, rfl, Nat.le_succ _⟩⟩
    · exact .refl _
  · exact .refl _

theorem restart_apart (h : restart x view anchor s = .ok s') :
    s.storage.Apart false s'.storage := by
  obtain ⟨s₁, hstart, h⟩ := Fallible.bind_ok h
  cases h
  exact start_storage hstart ▸ rebooted_apart view anchor s.storage

end Keeping

-- -------- The opening loop

def EventStatus.isOpen : EventStatus → Bool
  | .orphanedOwn | .replayPending => true
  | _ => false

def ApplicationEvent.pending (ev : ApplicationEvent) : ApplicationEvent :=
  { ev with status := .replayPending, replayAttemptCount := ev.replayAttemptCount + 1 }

def ApplicationEvent.opened (ev : ApplicationEvent) (plaintext : Bytes) : ReplayItem where
  event := ev.pending
  payload := { eventID := ev.eventID, plaintext := nilIfEmpty plaintext, hlc := ev.hlc }

inductive Unseals (x : Ctx) (items : List ReplayItem) (s : State) (ev : ApplicationEvent) :
    List ReplayItem × State → Prop
  | skipped (closed : ev.status.isOpen = false) : Unseals x items s ev (items, s)
  | left (ev' : ApplicationEvent) (id : ev'.eventID = ev.eventID)
      (status : ev'.status = .waitingAuthorReplay)
      (cause : ev.authorID ≠ x.peers.toString x.localID ∨ ev.payloadSealed = [] ∨
        ev.sealNonce = []) :
      Unseals x items s ev (items, s.saveEvent x ev')
  | shut (isOpen : ev.status.isOpen = true) (err : String)
      (fails : x.sealer.openPayload ev.payloadSealed ev.sealNonce = .error err) :
      Unseals x items s ev (items, (s.saveEvent x ev.pending).saveEvent x
        { ev.pending with status := .replayFailed, lastError := err })
  | opened (isOpen : ev.status.isOpen = true) (own : ev.authorID = x.peers.toString x.localID)
      (p : Bytes) (opens : x.sealer.openPayload ev.payloadSealed ev.sealNonce = .ok p) :
      Unseals x items s ev (items ++ [ev.opened p], s.saveEvent x ev.pending)

theorem openOrphan_unseals (x : Ctx) (items : List ReplayItem) (s : State) (ev : ApplicationEvent) :
    Unseals x items s ev (openOrphan x (items, s) ev) := by
  unfold openOrphan
  dsimp only
  split
  next hauthor =>
    exact .left _ rfl rfl (.inl hauthor)
  rename_i hauthor
  have hown := not_not.mp hauthor
  split
  next hstatus =>
    refine .skipped ?_
    cases hs : ev.status <;> simp_all [EventStatus.isOpen]
  rename_i hstatus
  have hopen : ev.status.isOpen = true := by
    cases hs : ev.status <;> simp_all [EventStatus.isOpen]
  split
  next hbare =>
    exact .left _ rfl rfl (.inr hbare)
  split
  next err hfails =>
    exact .shut hopen err hfails
  next p hopens =>
    exact .opened hopen hown p hopens

theorem Storage.mem_listApplicationEvents {jobID : String}
    (h : listApplicationEvents d db jobID = .ok evs) :
    ev ∈ evs ↔ ev ∈ db.applicationEvents ∧ ev.jobID = jobID := by
  obtain ⟨-, -, rfl⟩ := exec_ok h
  simp

theorem Storage.listApplicationEvents_nodup {jobID : String}
    (h : listApplicationEvents d db jobID = .ok evs)
    (hkeyed : Table.Keyed ApplicationEvent.eventID db.applicationEvents) :
    (evs.map (·.eventID)).Nodup := by
  obtain ⟨-, -, rfl⟩ := exec_ok h
  refine ((List.perm_insertionSort _ _).map _).nodup_iff.mpr ?_
  exact hkeyed.sublist (List.filter_sublist.map _)

theorem saveEvent_others {x : Ctx} {s : State}
    (h : Table.Keyed ApplicationEvent.eventID s.storage.applicationEvents)
    (hrow : row ∈ s.storage.applicationEvents) (hne : row.eventID ≠ ev.eventID) :
    row ∈ (s.saveEvent x ev).storage.applicationEvents := by
  rcases saveEvent_cases x ev s with hsame | ⟨-, hstored⟩
  · rwa [hsame]
  · rw [hstored]
    exact (Storage.mem_putEvent h).mpr (.inl ⟨hrow, hne⟩)

-- -------- Clearing

def ApplicationEvent.bared (ev : ApplicationEvent) : ApplicationEvent :=
  { ev with payloadSealed := [], sealNonce := [], sealKeyID := "" }

def ApplicationEvent.cleared (jobID : String) (ev : ApplicationEvent) : ApplicationEvent :=
  if decide (ev.jobID = jobID ∧ ev.status ∈ [.replayed, .waitingAuthorReplay, .unrecoverable])
  then ev.bared else ev

theorem ApplicationEvent.cleared_cases (jobID : String) (ev : ApplicationEvent) :
    ev.cleared jobID = ev ∨ ev.status.isOpen = false ∧ ev.cleared jobID = ev.bared := by
  unfold cleared
  split
  next h =>
    have hstatus := (of_decide_eq_true h).2
    refine .inr ⟨?_, rfl⟩
    cases hs : ev.status <;> simp_all [EventStatus.isOpen]
  · exact .inl rfl

@[simp] theorem ApplicationEvent.cleared_eventID (jobID : String) (ev : ApplicationEvent) :
    (ev.cleared jobID).eventID = ev.eventID := by
  rcases ev.cleared_cases jobID with h | ⟨-, h⟩ <;> rw [h]
  rfl

theorem Storage.clearSealedPayloads_events {jobID : String}
    (h : clearSealedPayloads d db jobID = .ok db') :
    db'.applicationEvents = db.applicationEvents.map (·.cleared jobID) := by
  obtain ⟨-, -, rfl⟩ := exec_ok h
  rfl

theorem Storage.clearSealedPayloads_ids {jobID : String}
    (h : clearSealedPayloads d db jobID = .ok db') :
    db'.applicationEvents.map (·.eventID) = db.applicationEvents.map (·.eventID) := by
  rw [clearSealedPayloads_events h, List.map_map]
  exact List.map_congr_left fun ev _ => ev.cleared_eventID jobID

-- -------- Batches

theorem flatten_toChunksGo (n : Nat) (xs : List α) (acc : Array α) (chunks : Array (List α)) :
    (List.toChunks.go n xs acc chunks).flatten = chunks.toList.flatten ++ acc.toList ++ xs := by
  induction xs generalizing acc chunks with
  | nil => simp [List.toChunks.go]
  | cons x xs ih =>
    unfold List.toChunks.go
    split <;> simp [ih]

theorem flatten_toChunks (n : Nat) (xs : List α) : (xs.toChunks n).flatten = xs := by
  cases xs with
  | nil => simp [List.toChunks]
  | cons x xs =>
    cases n with
    | zero => simp [List.toChunks]
    | succ n => simp [List.toChunks, flatten_toChunksGo]

theorem Disk.write_writes {d : Disk} (h : d.write db op name ok db₁ = .ok db')
    (hlog : db₁.log = db.log) : db'.writes = db.writes + 1 := by
  obtain ⟨-, -, rfl⟩ := exec_ok h
  exact congrArg List.length (congrArg (op :: ·) hlog)

theorem saveCurrentGroupStateLocked_keeps {x : Ctx} {s s' : State}
    (h : saveCurrentGroupStateLocked x s = .ok s') :
    s.storage.KeepsEvents s'.storage ∧ s'.storage.writes = s.storage.writes + 1 ∧
      x.works s.storage.writes .saveGroupRecord = true := by
  obtain ⟨record, -, -, hstore⟩ := saveCurrentGroupStateLocked_stores h
  obtain ⟨db, hsave, rfl⟩ := State.store_ok hstore
  exact ⟨(Storage.saveGroupRecord_spares hsave).keepsEvents, write_writes hsave rfl,
    (exec_ok hsave).1⟩

theorem keepBatchState_keeps (x : Ctx) (newState : Bytes) (s : State) :
    s.storage.KeepsEvents (keepBatchState x newState s).storage ∧
      (keepBatchState x newState s).storage.writes ≤ s.storage.writes + 1 := by
  unfold keepBatchState State.unlessError
  dsimp only
  split
  next h =>
    obtain ⟨hkeeps, hwrites, -⟩ := saveCurrentGroupStateLocked_keeps h
    exact ⟨hkeeps, hwrites.le⟩
  · exact ⟨.refl _, Nat.le_succ _⟩

theorem saveOutbound_writes (x : Ctx) (outbound : OutboundReplay) (s : State) :
    (s.storeOrWarn (Storage.saveOutboundReplay x.disk s.storage outbound)).storage.writes ≤
      s.storage.writes + 1 := by
  cases hsave : Storage.saveOutboundReplay x.disk s.storage outbound with
  | error => exact Nat.le_succ _
  | ok db => exact (write_writes hsave rfl).le

theorem setHealPhase_phase {s : State} (h : (s.setHealPhase phase).heal = some r) :
    r.phase = phase := by
  obtain ⟨r₀, -, rfl⟩ := Option.map_eq_some_iff.mp h
  rfl

def HealPhase.items : HealPhase → List ReplayItem
  | .encrypt _ _ chunks => chunks.flatten
  | .assign _ _ chunk _ _ rest => chunk ++ rest.flatten
  | _ => []

theorem Heals.items_sublist {d d' : Desk} (h : Heals x wake d p d')
    (hreplay : ∀ job, p ≠ .replay job) (hr : d.heal = some r) (hp : r.phase = p)
    (hr' : d'.heal = some r') : r'.phase.items.Sublist p.items := by
  have henter : ∀ {d' : Desk} {phase}, d'.heal = d.heal → (d'.enter phase).heal = some r' →
      r'.phase = phase := by
    rintro d' phase hsame hentered
    rw [Desk.enter, hsame, hr] at hentered
    cases hentered
    rfl
  cases h with
  | create _ _ _ saved | snapshot _ saved | join _ _ _ saved | swap _ _ saved | encrypted saved
  | clean _ saved =>
    obtain ⟨jobs, rfl⟩ := saved.rows
    rw [henter rfl hr']
    exact List.nil_sublist _
  | wait =>
    obtain rfl := Option.some.inj (hr.symm.trans hr')
    rw [hp]
  | skipReplay | replay => exact absurd rfl (hreplay _)
  | encryptFails =>
    rw [henter rfl hr']
    exact List.sublist_append_right _ _
  | encrypt =>
    rw [henter rfl hr']
    exact List.Sublist.refl _
  | assign =>
    rw [henter rfl hr']
    exact List.sublist_append_right _ _
  | release => cases hr'
  | _ =>
    rw [henter rfl hr']
    exact List.nil_sublist _

-- -------- Sealing

inductive Seals (x : Ctx) (jobID : String) (db : Storage) : Storage → Prop
  | keeps (h : db.KeepsEvents db') : Seals x jobID db db'
  | row (ev : ApplicationEvent) (w : Option Bytes) (savable : ev.savable = true)
      (job : ev.jobID = jobID)
      (wraps : x.sealer.Wraps db.writes w (ev.payloadSealed, ev.sealNonce))
      (orphaned : w.isSome → ev.status = .orphanedOwn) : Seals x jobID db (db.putEvent ev)

abbrev SealsOver (x : Ctx) (jobID : String) : Storage → Storage → Prop :=
  Relation.ReflTransGen (Seals x jobID)

def Node.reconcileJob (node : Node) : String := "COMMIT-RECONCILE-" ++ node.groupID

section Sealing

variable {x : Ctx} {s s' : State}

theorem Storage.KeepsEvents.seals (h : db.KeepsEvents db') : SealsOver x jobID db db' :=
  .single (.keeps h)

theorem Transaction.seals (h : Transaction x S db db') : Seals x x.reconcileJob db db' := by
  obtain hspares | ⟨msg, sealed, hseal, hsave⟩ := h.spares_or
  · exact .keeps hspares.keepsEvents
  · obtain ⟨hok, rfl⟩ := Storage.saveApplicationEvent_ok hsave
    exact .row _ (some (msg.content.getD [])) hok rfl hseal fun _ => rfl

theorem Transacts.seals (h : Transacts x S db db') : SealsOver x x.reconcileJob db db' :=
  h.lift id fun _ _ => Transaction.seals

theorem saveEvent_seals (hjob : ev.jobID = jobID)
    (hw : x.sealer.Wraps s.storage.writes w (ev.payloadSealed, ev.sealNonce))
    (horphaned : w.isSome → ev.status = .orphanedOwn) :
    SealsOver x jobID s.storage (s.saveEvent x ev).storage := by
  rcases saveEvent_cases x ev s with hsame | ⟨hok, hstored⟩
  · rw [hsame]
  · rw [hstored]
    exact .single (.row ev w hok hjob hw horphaned)

theorem snapshotOwnMessage_seals (job : ForkHealingJob) (msg : StoredMessage) (s : State) :
    SealsOver x job.jobID s.storage (snapshotOwnMessage x job s msg).storage := by
  unfold snapshotOwnMessage
  dsimp only
  split
  · exact .refl
  next sealed hseal =>
    exact saveEvent_seals (w := some (msg.content.getD [])) rfl hseal fun _ => rfl

theorem snapshotPendingEnvelope_seals (job : ForkHealingJob) (row : EnvelopeRecord) (s : State) :
    SealsOver x job.jobID s.storage (snapshotPendingEnvelope x job s row).storage := by
  unfold snapshotPendingEnvelope
  split
  · split
    · dsimp only
      split
      · exact saveEvent_seals (w := none) rfl rfl nofun
      rename_i plaintext _ _
      split
      · cases hseal : x.sealer.sealPayload s.storage.writes plaintext with
        | error => exact saveEvent_seals (w := none) rfl rfl nofun
        | ok sealed => exact saveEvent_seals (w := some plaintext) rfl hseal fun _ => rfl
      · exact saveEvent_seals (w := none) rfl rfl nofun
    · exact .refl
  · exact .refl

theorem foldl_seals {turn : State → α → State}
    (hturn : ∀ s a, SealsOver x jobID s.storage (turn s a).storage) (as : List α) (s : State) :
    SealsOver x jobID s.storage (as.foldl turn s).storage :=
  List.foldlRecOn as turn (motive := (SealsOver x jobID s.storage ·.storage)) .refl
    fun t ht a _ => ht.trans (hturn t a)

theorem snapshotHeal_seals (job : ForkHealingJob) (s : State) :
    SealsOver x job.jobID s.storage (snapshotHeal x job s).storage := by
  have hown : ∀ (msgs : List StoredMessage) (s : State), SealsOver x job.jobID s.storage
      (msgs.foldl (snapshotOwnMessage x job) s).storage :=
    foldl_seals fun s msg => snapshotOwnMessage_seals job msg s
  have hrows : ∀ (rows : List EnvelopeRecord) (s : State), SealsOver x job.jobID s.storage
      (rows.foldl (snapshotPendingEnvelope x job) s).storage :=
    foldl_seals fun s row => snapshotPendingEnvelope_seals job row s
  unfold snapshotHeal
  split
  · exact .refl
  refine .trans ?_ ((saveJob_skirts _ _).apart.events rfl).seals
  repeat' split
  · exact .refl
  · exact hown _ s
  · exact hrows _ s
  · exact (hown _ s).trans (hrows _ _)

theorem step_seals (hheal : ∀ wake, a.op ≠ .heal wake) (h : step node a s = some s') :
    SealsOver (a.ctx node) node.reconcileJob s.storage s'.storage := by
  by_cases hop : a.op.tendsHeal = false
  · exact (step_transacts hop h).seals
  obtain ⟨w, fuel, op⟩ := a
  cases op with
  | restart view anchor => exact ((restart_apart (Fallible.toOption_eq_some h)).events rfl).seals
  | heal wake => exact absurd rfl (hheal wake)
  | welcome bytes =>
    cases h
    exact ((processWelcomeIfWaiting_skirts (s.arrive (.welcome bytes))).apart.events rfl).seals
  | resumeHeal =>
    cases h
    exact ((resumeForkHealingJob_skirts (s.arrive .resumeHeal)).apart.events rfl).seals
  | setMode | stop =>
    cases h
    exact .refl
  | _ => exact absurd rfl hop

end Sealing

-- -------- The log and the operations of a step

open Storage Disk

section Heal

variable {x : Ctx} {s s' : State}

theorem start_buffers (h : start x b = .ok s) : (∀ e, s.epochTracker.futureBuffer e = []) ∧
    s.singleWriter.proposals = [] ∧ s.issuedCommits = [] := by
  obtain ⟨b₁, b₂, lastCommitHash, -, -, hcore⟩ := start_core h
  exact ⟨fun e => congrArg (fun c : Core => c.epochTracker.futureBuffer e) hcore,
    congrArg (·.singleWriter.proposals) hcore, congrArg Core.issuedCommits hcore⟩

theorem Booted.clean {allowed : World → Prop} (h : Booted node allowed s)
    (hkeyed : S.kept → Table.Keyed PendingOperation.operationID s.storage.pendingOperations)
    (hasks : ∀ op ∈ s.storage.pendingOperations, S.asks op.proposalType op.semanticPayload) :
    s.Clean S := by
  cases h with
  | created _ _ _ _ _ hstart | stored _ _ _ _ _ hstart =>
    obtain ⟨hbuffer, hproposals, hissued⟩ := start_buffers hstart
    exact ⟨by simp [hbuffer], hkeyed, by simp [hproposals], hasks, by simp [hissued]⟩

theorem restart_beside (h : restart x view anchor s = .ok s') : Beside false s s' := by
  have hapart := restart_apart h
  obtain ⟨s₁, hstart, h⟩ := Fallible.bind_ok h
  cases h
  obtain ⟨hbuffer, hproposals, -⟩ := start_buffers hstart
  exact ⟨by simp [hbuffer], by simp [hproposals], rfl, rfl, hapart⟩

end Heal

-- -------- Steps

structure Scoped (S : Scope) (s s' : State) : Prop where
  clean : s'.Clean S
  log : s.storage.LogsOnly S.Logs s'.storage
  keeps : S.kept → ∃ events, s'.operationTrace = s.operationTrace ++ events ∧
    Keeps s.storage events s'.storage

section Steps

variable {x : Ctx} {S : Scope} {s s' : State}

theorem Works.scoped (h : Works x S s s') : Scoped S s s' := ⟨h.clean, h.transacts.logs, h.keeps⟩

theorem Beside.scoped (h : Beside w s s') (hclean : s.Clean S) : Scoped S s s' := by
  refine ⟨⟨fun e raw hraw => hclean.buffer e raw (h.buffer e raw hraw), fun hkept => ?_,
    fun p hp => hclean.founded.proposals p (h.proposals p hp), ?_, ?_⟩,
    h.apart.log.mono ?_, fun _ => ⟨[], by simp [h.trace], .same h.apart.operations⟩⟩
  · rw [h.apart.operations]
    exact hclean.keyed hkept
  · rw [h.apart.operations]
    exact hclean.founded.operations
  · rw [h.issued]
    exact hclean.founded.issued
  · rintro wire ⟨env, hwire, htype⟩
    exact ⟨env, hwire, htype.imp_right .inl⟩

theorem step_scoped (hfits : S.Fits (a.ctx node)) (hwithin : a.op.Within S (a.ctx node) s)
    (hclean : s.Clean S) (h : step node a s = some s') : Scoped S s s' := by
  by_cases hop : a.op.tendsHeal = false
  · exact (step_works hfits hop hwithin hclean h).scoped
  unfold step at h
  split at h
  · exact (restart_beside (Fallible.toOption_eq_some h)).scoped hclean
  cases h
  have harrive : Beside true s (s.arrive a.op) := .memory rfl rfl
  refine Beside.scoped (harrive.trans ?_) hclean
  revert hop
  cases a.op with
  | heal wake => exact fun _ => healStep_beside wake _
  | welcome bytes => exact fun _ => (processWelcomeIfWaiting_skirts _).buffers.beside
  | resumeHeal => exact fun _ => (resumeForkHealingJob_skirts _).buffers.beside
  | setMode mode | stop => exact fun _ => .memory rfl rfl
  | restart view anchor => exact fun _ => .memory rfl rfl
  | _ => exact fun hop => absurd rfl hop

end Steps

end GroupCoordination
