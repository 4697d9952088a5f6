import Mathlib.Data.List.TakeWhile
import GroupCoordination.Model.Recovery
import GroupCoordination.Model.Reference

/-!
# What the pull cursor passes

A pull moves its cursor by the state a replay reports and not by its flag `CursorSafe`. The two
agree but for envelopes that do not decrypt: the flag of those is down, and the cursor passes them.
-/

namespace GroupCoordination

-- -------- States and flags

def ReplayEnvelopeResult.Flagged (r : ReplayEnvelopeResult) : Prop :=
  (r.cursorSafe = true ↔ r.state ∈ [some .applied, some .duplicateApplied, some .staleEpoch]) ∧
    r.state ∉ [some .blockedStaleRequiresSnapshot, some .blockedDecryptFailed]

section Flags

variable {x : Ctx} {call : Call → State → State} {env : Envelope} {wire : Wire} {s : State}
  {r : ReplayEnvelopeResult}

namespace ReplayEnvelopeResult

@[simp] theorem asDuplicate_flagged (r : ReplayEnvelopeResult) : r.asDuplicate.Flagged := by
  simp [Flagged, asDuplicate]

@[simp] theorem asApplied_flagged (r : ReplayEnvelopeResult) : r.asApplied.Flagged := by
  simp [Flagged, asApplied]

@[simp] theorem asStale_flagged (r : ReplayEnvelopeResult) : r.asStale.Flagged := by
  simp [Flagged, asStale]

section

variable (h : r.cursorSafe = false)

include h

theorem asFuture_flagged : r.asFuture.Flagged := by
  simp [Flagged, asFuture, h]

theorem asPersistFailed_flagged : (r.asPersistFailed err).Flagged := by
  simp [Flagged, asPersistFailed, h]

theorem asInvalid_flagged : (r.asFailed .invalid err).Flagged := by
  simp [Flagged, asFailed, h]

theorem asUndecrypted_flagged : (r.asFailed .decryptFailed err).Flagged := by
  simp [Flagged, asFailed, h]

end

end ReplayEnvelopeResult

open ReplayEnvelopeResult

theorem processApplicationLocked_flagged (h : r.cursorSafe = false) :
    (processApplicationLocked x pid env wire r s).1.Flagged := by
  unfold processApplicationLocked
  split
  · split
    · exact asInvalid_flagged h
    dsimp only
    split
    · exact asUndecrypted_flagged h
    split
    · exact asPersistFailed_flagged h
    · exact asDuplicate_flagged r
    · exact asApplied_flagged r
  · exact asInvalid_flagged h

theorem handleApplicationDetailedLocked_flagged :
    (handleApplicationDetailedLocked x pid env wire s).1.Flagged := by
  unfold handleApplicationDetailedLocked
  dsimp only
  split
  · exact asDuplicate_flagged _
  split
  · exact asStale_flagged _
  · exact asFuture_flagged rfl
  · exact processApplicationLocked_flagged rfl

theorem handleCommitDetailedLocked_flagged :
    (handleCommitDetailedLocked x call env wire s).1.Flagged := by
  unfold handleCommitDetailedLocked
  dsimp only
  split
  · exact asDuplicate_flagged _
  split
  · exact asStale_flagged _
  · exact asFuture_flagged rfl
  split
  · exact asApplied_flagged _
  split
  · exact asPersistFailed_flagged rfl
  · exact asDuplicate_flagged _
  · exact asInvalid_flagged rfl

theorem replayEnvelope_flagged (h : (replayEnvelope x call wire s).1 = some r) : r.Flagged := by
  unfold replayEnvelope at h
  split at h
  · cases h
  split at h
  · cases h
    exact asInvalid_flagged rfl
  dsimp only at h
  split at h
  · cases h
    exact asInvalid_flagged rfl
  split at h
  · cases h
    exact asInvalid_flagged rfl
  split at h
  · cases h
    exact handleCommitDetailedLocked_flagged
  · cases h
    exact handleApplicationDetailedLocked_flagged
  · cases h
    exact asInvalid_flagged rfl

theorem replayEnvelopesDetailed_one {s' : State}
    (h : replayEnvelopesDetailed x call [wire] s = (.ok results, s')) :
    results = (replayEnvelope x call wire s).1.toList := by
  unfold replayEnvelopesDetailed at h
  split at h
  · cases h
  have hone : (replayEnvelopes x call [wire] s).1 = (replayEnvelope x call wire s).1.toList :=
    List.append_nil _
  rw [← hone]
  exact (Except.ok.inj (Prod.mk.inj h).1).symm

theorem pullEntry_flagged (h : (pullEntry x call wire s).1 = some r) : r.Flagged := by
  unfold pullEntry at h
  split at h
  · cases h
  split at h
  · cases h
  split at h
  · cases h
  split at h
  · cases h
  next hreplay =>
    rw [replayEnvelopesDetailed_one hreplay, Option.head?_toList] at h
    exact replayEnvelope_flagged h

theorem ReplayEnvelopeResult.Flagged.advances (h : r.Flagged)
    (hadvance : r.state.any offlineSyncShouldAdvanceCursor = true) :
    r.cursorSafe = true ∨ r.state = some .decryptFailed := by
  cases hstate : r.state with
  | none => simp [hstate] at hadvance
  | some state =>
    have hmoves : state ∈ [.applied, .duplicateApplied, .staleEpoch, .decryptFailed,
        .blockedStaleRequiresSnapshot, .blockedDecryptFailed] := by
      simpa [hstate, offlineSyncShouldAdvanceCursor] using hadvance
    simp only [List.mem_cons, List.not_mem_nil, or_false] at hmoves
    rcases hmoves with rfl | rfl | rfl | rfl | rfl | rfl
    · exact .inl (h.1.mpr (by simp [hstate]))
    · exact .inl (h.1.mpr (by simp [hstate]))
    · exact .inl (h.1.mpr (by simp [hstate]))
    · exact .inr rfl
    · exact absurd (by simp [hstate]) h.2
    · exact absurd (by simp [hstate]) h.2

end Flags

-- -------- Pages

/-- Whatever a peer serves under distinct numbers, whatever the coordinator answers and in
whatever state each entry finds it: an entry that the cursor passes was applied, was applied
before or is too old, or it did not decrypt. -/
theorem cursor_passes_safe_or_undecryptable {s s' : OfflineSync} {pull : Nat} {p : Pull Wire}
    (hp : s.pulls[pull]? = some p) (distinct : (p.entries.map Prod.fst).Nodup)
    (node : Node) (turns : Nat × Wire → PullTurn) (saved : Bool)
    (hends : OfflineSync.step (pullEnds node pull turns saved) s = some s') :
    ∀ e ∈ p.entries, s.cursor < e.1 → e.1 ≤ s'.cursor → ∃ r, (turns e).result node e.2 = some r ∧
      (r.cursorSafe = true ∨ r.state = some .decryptFailed) := by
  intro e he hahead hpassed
  unfold pullEnds OfflineSync.step at hends
  simp only [hp] at hends
  obtain ⟨-, heq⟩ := Option.ite_none_left_eq_some.mp hends
  cases heq
  dsimp only [OfflineSync.finish] at hpassed
  split at hpassed
  next hmoved =>
    change e.1 ≤ ((p.passed _).getLast?.map Prod.fst).getD 0 at hpassed
    cases hlast : (p.passed fun e => (((turns e).result node e.2).bind (·.state)).any
        offlineSyncShouldAdvanceCursor).getLast? with
    | none =>
      rw [hlast] at hpassed
      exact absurd hpassed (Nat.not_le.mpr (Nat.zero_lt_of_lt hahead))
    | some last =>
      rw [hlast] at hpassed
      have hadvance := List.mem_takeWhile_imp (Pull.mem_passed distinct hlast he hpassed)
      cases hresult : (turns e).result node e.2 with
      | none => simp [hresult] at hadvance
      | some r =>
        rw [hresult] at hadvance
        exact ⟨r, rfl, (pullEntry_flagged hresult).advances hadvance⟩
  · exact absurd hpassed (Nat.not_le.mpr hahead)

namespace Reference

/-- A message of an epoch under a number, as a peer serves it. -/
def served (seq : Nat) (e : Byte) (ciphertext : Bytes) : Nat × Wire :=
  (seq, wire e [66] .application (.application ciphertext))

def pulled (entries : List (Nat × Wire)) : OfflineSync :=
  { pulls := [{ start := 0, after := 0, entries, more := false }] }

def turnsAt (s : State) (_ : Nat × Wire) : PullTurn := { world, fuel := 4, state := s }

end Reference

open Reference in
/-- Of a message that decrypts and one of the next epoch behind it, the cursor passes the first. -/
theorem applied_envelope_is_passed :
    let e := served 5 0 [9, 0, 42]
    ∃ c s' r, boot (member [65]) [[65]] = some c ∧
      OfflineSync.step (pullEnds (member [65]) 0 (turnsAt c) true)
        (pulled [served 6 1 [9, 1, 42], e]) = some s' ∧ s'.cursor = 5 ∧
      (turnsAt c e).result (member [65]) e.2 = some r ∧ r.state = some .applied ∧
      (r.cursorSafe = true ∨ r.state = some .decryptFailed) := by
  intro e
  obtain ⟨c, hc, s', hs', hcursor, happlied⟩ : ∃ c, boot (member [65]) [[65]] = some c ∧
      ∃ s', OfflineSync.step (pullEnds (member [65]) 0 (turnsAt c) true)
        (pulled [served 6 1 [9, 1, 42], e]) = some s' ∧ s'.cursor = 5 ∧
        ((turnsAt c e).result (member [65]) e.2).bind (·.state) = some .applied := by
    decide +kernel
  obtain ⟨r, hr, hsafe⟩ := cursor_passes_safe_or_undecryptable rfl (by decide) (member [65])
    (turnsAt c) true hs' e (by simp) (by decide) hcursor.ge
  rw [hr] at happlied
  exact ⟨c, s', r, hc, hs', hcursor, hr, happlied, hsafe⟩

open Reference in
/-- The cursor passes a message that does not decrypt, whose result is not safe to pass, and one
of the next epoch that shares its number with a message that was applied. -/
theorem undecryptable_or_repeated_is_passed :
    let lost := served 5 0 [7]
    let early := served 5 1 [9, 1, 42]
    ∃ c, boot (member [65]) [[65]] = some c ∧
      (∃ s', OfflineSync.step (pullEnds (member [65]) 0 (turnsAt c) true)
        (pulled [lost]) = some s' ∧
        s'.cursor = 5 ∧ ∃ r, (turnsAt c lost).result (member [65]) lost.2 = some r ∧
          r.cursorSafe = false ∧ r.state = some .decryptFailed) ∧
      ∃ s', OfflineSync.step (pullEnds (member [65]) 0 (turnsAt c) true)
          (pulled [served 5 0 [9, 0, 42], early]) = some s' ∧
        s'.cursor = 5 ∧ ∃ r, (turnsAt c early).result (member [65]) early.2 = some r ∧
          r.cursorSafe = false ∧ r.state = some .futureEpoch := by
  decide +kernel

end GroupCoordination
