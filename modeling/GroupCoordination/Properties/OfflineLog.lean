import GroupCoordination.Model.OfflineSync
import GroupCoordination.Model.Reference

/-!
# Sequence numbers of the envelope log

The log is a numbered feed. Its numbers are computed from the rows that survive, so the feed is
sound exactly as long as a prune leaves the newest row.
-/

namespace GroupCoordination

-- -------- The log as a feed

def Storage.entries (db : Storage) : List (Nat × Wire) := db.envelopeLog.map (·.entry)

def OfflineSync.feed (s : OfflineSync) : Feed Wire where
  rows := s.db.entries
  assigned := s.assigned
  cursor := s.cursor
  received := s.received
  pulls := s.pulls

theorem Storage.nextSeq_eq (db : Storage) : db.nextSeq = Feed.top db.entries + 1 := by
  simp [Storage.nextSeq, Storage.entries, Feed.top, Function.comp_def, EnvelopeRecord.entry]

def Grows (db db' : Storage) : Prop :=
  db'.entries = db.entries ∨
    ∃ envelope, db'.entries = db.entries ++ [(Feed.top db.entries + 1, envelope)]

section Grows

variable {d : Disk} {db db' db₁ : Storage}

theorem Grows.after (h : Grows db₁ db') (heq : db₁.entries = db.entries) : Grows db db' := by
  unfold Grows at h ⊢
  rwa [heq] at h

theorem Storage.entries_map (db : Storage) (f : EnvelopeRecord → EnvelopeRecord)
    (h : ∀ row, (f row).entry = row.entry) :
    ({ db with envelopeLog := db.envelopeLog.map f } : Storage).entries = db.entries := by
  simp [Storage.entries, Function.comp_def, h]

theorem setReplayState_entries (db : Storage) :
    (db.setReplayState now envelopeHash state lastErr).entries = db.entries :=
  db.entries_map _ fun row => by split <;> rfl

theorem putEnvelope_grows (db : Storage) :
    Grows db (db.putEnvelope d msgType epoch ts envelope sourcePath applyState appliedAt) := by
  unfold Storage.putEnvelope
  dsimp only
  split
  · exact .inl (db.entries_map _ fun row => by split <;> rfl)
  refine .inr ⟨envelope, ?_⟩
  rw [← db.nextSeq_eq]
  simp [Storage.entries, EnvelopeRecord.entry]

theorem appendEnvelopeWithSource_grows
    (h : Storage.appendEnvelopeWithSource d db msgType epoch ts envelope sourcePath = .ok db') :
    Grows db db' := by
  obtain rfl | ⟨_, rfl⟩ := Storage.appendEnvelopeWithSource_ok h
  · exact .inl rfl
  · exact putEnvelope_grows db

theorem applyEnvelope_grows
    (h : Storage.applyEnvelope d op name db rec msgs msgType envelope ts envEpoch = .ok
      (fresh, db')) :
    Grows db db' := by
  obtain ⟨-, rfl⟩ | ⟨-, -, rfl⟩ := Storage.applyEnvelope_ok h
  · exact .inl rfl
  · refine (putEnvelope_grows _).after ((setReplayState_entries _).trans ?_)
    rw [Storage.foldl_putMessage_eq]
    rfl

theorem markEnvelopeReplayState_grows
    (h : Storage.markEnvelopeReplayState d db envelopeHash state lastErr = .ok db') :
    Grows db db' := by
  obtain rfl | rfl := Storage.markEnvelopeReplayState_ok h
  · exact .inl rfl
  · exact .inl (setReplayState_entries db)

theorem store_step (s : OfflineSync) (h : ∀ db, result = .ok db → Grows s.db db) :
    Feed.Step 50 s.feed (s.store nowMs result).feed := by
  unfold OfflineSync.store
  split
  · exact .idle
  rename_i db
  have hseq (rows : List EnvelopeRecord) : rows.map
      (·.seq) = (rows.map (·.entry)).map Prod.fst := by
    simp [EnvelopeRecord.entry]
  have hlength : s.db.envelopeLog.length = s.db.entries.length := (List.length_map _).symm
  have hgiven : (db.envelopeLog.drop s.db.envelopeLog.length).map (·.seq) =
      (db.entries.drop s.db.entries.length).map Prod.fst := by
    rw [hseq, List.map_drop, hlength]
    rfl
  unfold OfflineSync.feed
  dsimp only
  rw [hgiven]
  rcases h db rfl with hsame | ⟨envelope, hnew⟩
  · rw [hsame, List.drop_length, List.map_nil, List.append_nil]
    exact .idle
  · rw [hnew, List.drop_left]
    exact .append envelope

end Grows

-- -------- Batches and prunes

theorem getEnvelopesSince_entries (db : Storage) (after : Nat) :
    (db.getEnvelopesSince after 50).map EnvelopeRecord.entry = Feed.since db.entries after 50 := by
  have hsort : ∀ rows : List EnvelopeRecord,
      (rows.insertionSort (·.seq ≤ ·.seq)).map EnvelopeRecord.entry =
        (rows.map EnvelopeRecord.entry).insertionSort (·.1 ≤ ·.1) := fun rows =>
    List.map_insertionSort _ _ _ _ fun _ _ _ _ => Iff.rfl
  unfold Storage.getEnvelopesSince Feed.since Storage.entries
  rw [List.map_take, hsort, List.filter_map]
  rfl

theorem sendBatch_eq (db : Storage) (p : Pull Wire) : sendBatch db p = p.read 50 db.entries := by
  have hlength : (db.getEnvelopesSince p.after 50).length =
      (Feed.since db.entries p.after 50).length := by
    rw [← getEnvelopesSince_entries, List.length_map]
  have hlast : (db.getEnvelopesSince p.after 50).getLast?.map EnvelopeRecord.seq =
      (Feed.since db.entries p.after 50).getLast?.map Prod.fst := by
    rw [← getEnvelopesSince_entries, List.getLast?_map, Option.map_map]
    rfl
  unfold sendBatch Pull.read
  dsimp only
  rw [getEnvelopesSince_entries, hlength, hlast]

section Prune

variable {rows : List EnvelopeRecord} {row : EnvelopeRecord}

def Newest (rows : List EnvelopeRecord) (row : EnvelopeRecord) : Prop :=
  row ∈ rows ∧ ∀ other ∈ rows, other.seq ≤ row.seq

theorem deleteOldest_sublist (rows : List EnvelopeRecord) : (deleteOldest rows).Sublist rows :=
  List.eraseP_sublist

theorem deleteOldest_newest (hseq : (rows.map (·.seq)).Nodup) (hmany : 1 < rows.length)
    (h : Newest rows row) : Newest (deleteOldest rows) row := by
  refine ⟨?_, fun other hother => h.2 other ((deleteOldest_sublist rows).subset hother)⟩
  refine (List.mem_eraseP_of_neg fun holdest => ?_).mpr h.1
  have hall : ∀ other ∈ rows, other.seq = row.seq := fun other hother =>
    le_antisymm (h.2 other hother) (by simpa using List.all_eq_true.mp holdest other hother)
  have hconst : rows.map (·.seq) = List.replicate rows.length row.seq :=
    List.map_eq_replicate_iff.mpr hall
  rw [hconst, List.nodup_replicate] at hseq
  omega

theorem capRows_sublist (maxPerGroup : Int) (works : Nat) (rows : List EnvelopeRecord) :
    (capRows maxPerGroup works rows).Sublist rows := by
  induction works generalizing rows with
  | zero => exact .refl rows
  | succ works ih =>
    unfold capRows
    split
    · exact (ih _).trans (deleteOldest_sublist rows)
    · exact .refl rows

theorem capRows_newest (hmax : ¬ maxPerGroup < 1) (works : Nat) (hseq : (rows.map (·.seq)).Nodup)
    (h : Newest rows row) : Newest (capRows maxPerGroup works rows) row := by
  induction works generalizing rows with
  | zero => exact h
  | succ works ih =>
    unfold capRows
    split
    next hcap =>
      exact ih (hseq.sublist ((deleteOldest_sublist rows).map _))
        (deleteOldest_newest hseq (by omega) h)
    · exact h

end Prune

/-- A prune does not reach the newest row of the log. -/
def SparesNewest (s : OfflineSync) : SyncOp → Prop
  | .prune cutoffUnix _ _ =>
    ∀ row ∈ s.db.envelopeLog, Newest s.db.envelopeLog row → cutoffUnix ≤ row.createdAt
  | _ => True

instance (s : OfflineSync) (op : SyncOp) : Decidable (SparesNewest s op) := by
  unfold SparesNewest Newest
  split <;> infer_instance

theorem prune_step {s : OfflineSync} (hsound : s.feed.Sound)
    (ok : SparesNewest s (.prune cutoffUnix maxPerGroup works)) :
    Feed.Step 50 s.feed (s.prune cutoffUnix maxPerGroup works).feed := by
  unfold OfflineSync.prune
  split
  · exact .idle
  have hseq : (s.db.envelopeLog.map (·.seq)).Nodup := by
    have hnumbered := hsound.numbered
    simpa [OfflineSync.feed, Storage.entries, EnvelopeRecord.entry, Function.comp_def]
      using hnumbered
  have hyoung : (s.db.envelopeLog.filter (cutoffUnix ≤ ·.createdAt)).Sublist s.db.envelopeLog :=
    List.filter_sublist
  have hkept : ∀ row, Newest s.db.envelopeLog row →
      Newest (s.db.envelopeLog.filter (cutoffUnix ≤ ·.createdAt)) row := fun row h =>
    ⟨List.mem_filter.mpr ⟨h.1, decide_eq_true (ok row h.1 h)⟩,
      fun other hother => h.2 other (hyoung.subset hother)⟩
  dsimp only
  generalize hrows : (if maxPerGroup < 1 then s.db.envelopeLog.filter (cutoffUnix ≤ ·.createdAt)
    else capRows maxPerGroup works.caps (s.db.envelopeLog.filter (cutoffUnix ≤ ·.createdAt))) = rows
  have hfewer : rows.Sublist s.db.envelopeLog := by
    rw [← hrows]
    split
    · exact hyoung
    · exact (capRows_sublist _ _ _).trans hyoung
  have hnewest : ∀ row, Newest s.db.envelopeLog row → row ∈ rows := by
    intro row h
    rw [← hrows]
    split
    · exact (hkept row h).1
    next hmax =>
      exact (capRows_newest hmax _ (hseq.sublist (hyoung.map _)) (hkept row h)).1
  refine .remove (rows.map EnvelopeRecord.entry) (hfewer.map _) (Feed.top_of_kept ?_ ?_)
  · exact fun e he => (hfewer.map _).subset he
  intro e he htop
  obtain ⟨row, hrow, rfl⟩ := List.mem_map.mp he
  refine List.mem_map_of_mem (hnewest row ⟨hrow, fun other hother => ?_⟩)
  exact (Feed.le_top (List.mem_map_of_mem hother)).trans htop.ge

inductive OfflineSync.Moves (s : OfflineSync) : SyncOp → OfflineSync → Prop
  | store {result : Except String Storage} (grows : ∀ db, result = .ok db → Grows s.db db) :
      Moves s op (s.store nowMs result)
  | prune : Moves s (.prune cutoffUnix maxPerGroup works) (s.prune cutoffUnix maxPerGroup works)
  | request :
      Moves s .request { s with pulls := s.pulls ++ [{ start := s.cursor, after := s.cursor }] }
  | batch (hp : s.pulls[pull]? = some p) (hmore : p.more = true) :
      Moves s (.batch pull) { s with pulls := s.pulls.set pull (sendBatch s.db p) }
  | fail (hp : s.pulls[pull]? = some p) :
      Moves s (.queryFails pull) { s with pulls := s.pulls.set pull { p with more := false } }
  | finish (hp : s.pulls[pull]? = some p) :
      Moves s (.finish pull replay saved) (s.finish pull p replay saved)
  | abort : Moves s (.abort pull) { s with pulls := s.pulls.eraseIdx pull }

theorem OfflineSync.step_moves {s s' : OfflineSync} (h : OfflineSync.step op s = some s') :
    s.Moves op s' := by
  have happly {op : SyncOp} {result : Except String (Bool × Storage)} {nowMs : Int}
      (hgrows : ∀ fresh db, result = .ok (fresh, db) → Grows s.db db) :
      s.Moves op (s.store nowMs (result.map (·.2))) := by
    refine .store fun db hdb => ?_
    obtain ⟨r, hr, rfl⟩ := Fallible.map_ok hdb
    exact hgrows r.1 r.2 hr
  cases op with
  | append d msgType epoch ts envelope sourcePath =>
    cases h
    exact .store fun _ => appendEnvelopeWithSource_grows
  | applyCommit d rec msgType envelope ts envEpoch
  | applyApplication d rec msg msgType envelope ts envEpoch =>
    cases h
    exact happly fun _ _ => applyEnvelope_grows
  | applyBatchedApplication d rec msgs msgType envelope ts envEpoch =>
    cases h
    refine happly fun _ _ happlied => ?_
    unfold Storage.applyBatchedApplication at happlied
    split at happlied
    · cases happlied
    · exact applyEnvelope_grows happlied
  | markReplayState d envelopeHash state lastErr =>
    cases h
    exact .store fun _ => markEnvelopeReplayState_grows
  | prune cutoffUnix maxPerGroup works =>
    cases h
    exact .prune
  | request =>
    cases h
    exact .request
  | abort pull =>
    cases h
    exact .abort
  | batch pull =>
    simp only [OfflineSync.step] at h
    split at h
    · cases h
    obtain ⟨hmore, heq⟩ := Option.ite_none_right_eq_some.mp h
    cases heq
    exact .batch ‹_› hmore
  | queryFails pull =>
    simp only [OfflineSync.step] at h
    split at h <;> cases h
    exact .fail ‹_›
  | finish pull replay saved =>
    simp only [OfflineSync.step] at h
    split at h
    · cases h
    obtain ⟨-, heq⟩ := Option.ite_none_left_eq_some.mp h
    cases heq
    exact .finish ‹_›

theorem OfflineSync.step_feed {s s' : OfflineSync} (hsound : s.feed.Sound) (ok : SparesNewest s op)
    (h : OfflineSync.step op s = some s') : Feed.Step 50 s.feed s'.feed := by
  cases step_moves h with
  | store grows => exact store_step s grows
  | prune => exact prune_step hsound ok
  | request => exact .request
  | batch hp hmore =>
    rw [sendBatch_eq]
    exact .page _ _ hp hmore
  | fail hp => exact .close _ _ hp
  | finish hp => exact .finish _ _ hp _ _
  | abort => exact .abort _

/-- As long as prunes spare the newest row, the numbers only grow, and what the peer has not
received lies beyond its cursor. -/
theorem offline_log_passes_nothing_over (s : OfflineSync)
    (spares : Transition.Run OfflineSync.step SparesNewest {} s) :
    s.assigned.Pairwise (· < ·) ∧
      ∀ row ∈ s.db.envelopeLog, row.entry ∉ s.received → s.cursor < row.seq := by
  have hsound : s.feed.Sound := spares.invariant (·.feed.Sound) Feed.sound_empty
    fun _ _ _ h ok hstep => h.step (OfflineSync.step_feed h ok hstep)
  refine ⟨hsound.increasing, fun row hrow hnew => ?_⟩
  by_contra hpassed
  exact hnew (hsound.seen row.entry (List.mem_map_of_mem hrow) (not_lt.mp hpassed))

namespace Reference

def appendAt (second : Nat) (e : Byte) : SyncOp :=
  .append { hash := codec.wireBytes, nowMs := second * 1000,
            works := fun _ _ => true } .application 0 {}
    (wire 0 [66] .application (.application [e])) "local"

def pullAll : List SyncOp := [.request, .batch 0, .finish 0 (fun _ => some .applied) true]

end Reference

open Reference in
/-- Two envelopes are pulled, the first is pruned, and a third is appended. -/
theorem third_envelope_lies_ahead :
    ∃ s, Transition.Run OfflineSync.step SparesNewest {} s ∧ s.assigned = [1, 2, 3] ∧
      s.db.envelopeLog.map (·.seq) = [2, 3] ∧ s.cursor = 2 ∧
      ∀ row ∈ s.db.envelopeLog, row.entry ∉ s.received → s.cursor < row.seq := by
  obtain ⟨s, hexec, hassigned, hrows, hcursor⟩ : ∃ s, Transition.exec
      (fun op s => if decide (SparesNewest s op) then OfflineSync.step op s else none)
      ([appendAt 10 1, appendAt 20 2] ++ pullAll ++
        [.prune 15 100 { caps := 100 }, appendAt 30 3]) {} = some s ∧
        s.assigned = [1, 2, 3] ∧ s.db.envelopeLog.map (·.seq) = [2, 3] ∧ s.cursor = 2 := by
    decide +kernel
  have hrun : Transition.Run OfflineSync.step SparesNewest {} s :=
    .of_checked _ hexec fun _ _ _ hok => of_decide_eq_true hok
  exact ⟨s, hrun, hassigned, hrows, hcursor, (offline_log_passes_nothing_over s hrun).2⟩

/-- The only envelope is pulled and then pruned. The next one gets its number, and the peer asks for
what comes after it. -/
theorem pruned_number_given_out_again :
    ∃ s, Transition.Run OfflineSync.step (fun _ _ => True) {} s ∧ s.assigned = [1, 1] ∧
      s.cursor = 1 ∧ ∃ row ∈ s.db.envelopeLog, row.entry ∉ s.received ∧ row.seq = 1 ∧
        s.db.getEnvelopesSince s.cursor 50 = [] := by
  exact Transition.Run.exists_of_checked ([Reference.appendAt 10 1] ++ Reference.pullAll ++
    [.prune 15 100 { caps := 100 }, Reference.appendAt 20 2]) (fun _ _ => true)
      (fun _ _ _ _ => trivial)
    (by decide +kernel)

end GroupCoordination
