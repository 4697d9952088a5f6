import GroupCoordination.Lib.Run
import GroupCoordination.Model.Clock

/-!
# The clock over whole runs

Calls of `Now` and `Update` with any physical readings, backward jumps included, and any
received stamps.
-/

namespace GroupCoordination

-- -------- Stamps in order

def HLCTimestamp.Precedes (a b : HLCTimestamp) : Prop :=
  a.wallTimeMs < b.wallTimeMs ∨ a.wallTimeMs = b.wallTimeMs ∧ a.counter < b.counter

instance (a b : HLCTimestamp) : Decidable (a.Precedes b) := inferInstanceAs (Decidable (_ ∨ _))

theorem HLCTimestamp.Precedes.trans {a b c : HLCTimestamp} (hab : a.Precedes b)
    (hbc : b.Precedes c) : a.Precedes c := by
  unfold Precedes at *
  omega

namespace HLC

structure Fits (h : HLC) : Prop where
  low : -2 ^ 63 ≤ h.l
  high : h.l < 2 ^ 63
  counter : h.c < 2 ^ 32

theorem bump_fits (fits : Fits h) (lo : -2 ^ 63 ≤ again) (hi : again < 2 ^ 63) :
    (h.bump again).Fits := by
  have := fits.low
  refine ⟨?_, ?_, by simp [bump]⟩ <;> simp only [bump, int64] <;> omega

theorem bump_precedes (again : Int) (fits : Fits h) (room : h.l < 2 ^ 63 - 1) :
    h.stamp.Precedes (h.bump again).stamp := by
  have hnext : int64 (h.l + 1) = h.l + 1 := int64_of_fits (by have := fits.low; omega) (by omega)
  refine .inl ?_
  simp only [stamp, bump, hnext]
  omega

/-- A merge passes its own stamp, and the received one unless that carries the last counter
at the merged wall time. -/
theorem merge_precedes (g : HLC) (pt : Int) {received : HLCTimestamp} (hc : g.c < 2 ^ 32 - 1)
    (hr : received.counter < 2 ^ 32)
    (last : received.counter < 2 ^ 32 - 1 ∨ received.wallTimeMs < max g.l pt) :
    g.stamp.Precedes (g.merge pt received).stamp ∧
    received.Precedes (g.merge pt received).stamp := by
  simp only [HLCTimestamp.Precedes, stamp, merge]
  split
  · omega
  split
  · omega
  · split <;> omega

theorem merge_fits {received : HLCTimestamp} (fits : Fits g)
    (hr : -2 ^ 63 ≤ received.wallTimeMs ∧ received.wallTimeMs < 2 ^ 63 ∧ received.counter < 2 ^ 32)
    (plo : -2 ^ 63 ≤ pt) (phi : pt < 2 ^ 63) : (g.merge pt received).Fits := by
  have hlow := fits.low
  have hhigh := fits.high
  refine ⟨?_, ?_, ?_⟩ <;> simp only [merge]
  · omega
  · omega
  split
  · omega
  split
  · omega
  · split <;> omega

end HLC

-- -------- Calls

inductive ClockCall
  | now (pt again : Int)
  | update (pt again : Int) (received : HLCTimestamp)

namespace ClockCall

def pt : ClockCall → Int
  | now pt _ | update pt _ _ => pt

def again : ClockCall → Int
  | now _ again | update _ again _ => again

def received : ClockCall → Option HLCTimestamp
  | now _ _ => none
  | update _ _ received => some received

def apply (h : HLC) : ClockCall → Except String (HLC × HLCTimestamp)
  | now pt again => .ok (h.nowReading pt again)
  | update pt again received => h.updateReading pt again received

def bumps (h : HLC) : ClockCall → Bool
  | now pt _ => pt ≤ h.l ∧ h.c ≥ hlcCounterLimit
  | update pt _ received =>
    int64 (received.wallTimeMs - pt) ≤ maxClockDriftMs ∧ h.c ≥ hlcCounterLimit

def Fits (call : ClockCall) : Prop :=
  (-2 ^ 63 ≤ call.pt ∧ call.pt < 2 ^ 63) ∧ (-2 ^ 63 ≤ call.again ∧ call.again < 2 ^ 63) ∧
  ∀ r ∈ call.received, -2 ^ 63 ≤ r.wallTimeMs ∧ r.wallTimeMs < 2 ^ 63 ∧ r.counter < 2 ^ 32

instance (call : ClockCall) : Decidable call.Fits := inferInstanceAs (Decidable (_ ∧ _))

/-- The guard has room to move the wall time on, and a received stamp with the last counter
lies behind the wall time it is merged into. -/
def Orderly (h : HLC) (call : ClockCall) : Prop :=
  (h.c < hlcCounterLimit ∨ h.l < 2 ^ 63 - 1) ∧
  ∀ r ∈ call.received, r.counter < 2 ^ 32 - 1 ∨
    r.wallTimeMs < if h.c < hlcCounterLimit then max h.l call.pt else max (h.l + 1) call.again

instance (h : HLC) (call : ClockCall) :
    Decidable (Orderly h call) := inferInstanceAs (Decidable (_ ∧ _))

inductive Takes (h : HLC) : ClockCall → HLC → Prop
  | ahead (pt again : Int) (hpt : h.l < pt) : Takes h (.now pt again) { h with l := pt, c := 0 }
  | bump (pt again : Int) (hpt : pt ≤ h.l) (hc : hlcCounterLimit ≤ h.c) :
      Takes h (.now pt again) (h.bump again)
  | tick (pt again : Int) (hc : h.c < hlcCounterLimit) :
      Takes h (.now pt again) { h with c := h.c + 1 }
  | merge (pt again : Int) (r : HLCTimestamp) (near : int64 (r.wallTimeMs - pt) ≤ maxClockDriftMs)
      (hc : h.c < hlcCounterLimit) : Takes h (.update pt again r) (h.merge pt r)
  | mergeBumped (pt again : Int) (r : HLCTimestamp)
      (near : int64 (r.wallTimeMs - pt) ≤ maxClockDriftMs) (hc : hlcCounterLimit ≤ h.c) :
      Takes h (.update pt again r) ((h.bump again).merge again r)

theorem apply_takes {call : ClockCall} (ok : call.apply h = .ok (h', ts)) :
    ts = h'.stamp ∧ Takes h call h' := by
  cases call with
  | now pt again =>
    cases ok
    refine ⟨rfl, ?_⟩
    split
    next hpt => exact .ahead _ _ hpt
    rename_i hpt
    split
    next hc => exact .bump _ _ (not_lt.mp hpt) hc
    next hc => exact .tick _ _ (not_le.mp hc)
  | update pt again received =>
    simp only [apply, HLC.updateReading] at ok
    split at ok <;> cases ok
    next near =>
      refine ⟨rfl, ?_⟩
      split
      next hc => exact .mergeBumped _ _ _ (not_lt.mp near) hc
      next hc => exact .merge _ _ _ (not_lt.mp near) (not_le.mp hc)

theorem Takes.fits {call : ClockCall} (h : Takes c call c') (fits : c.Fits) (cfits : call.Fits) :
    c'.Fits := by
  obtain ⟨⟨plo, phi⟩, ⟨alo, ahi⟩, hstamp⟩ := cfits
  cases h with
  | ahead => exact ⟨plo, phi, by simp⟩
  | bump => exact HLC.bump_fits fits alo ahi
  | tick _ _ hc =>
    exact ⟨fits.low, fits.high, show c.c + 1 < 2 ^ 32 by simp only [hlcCounterLimit] at hc; omega⟩
  | merge => exact HLC.merge_fits fits (hstamp _ rfl) plo phi
  | mergeBumped => exact HLC.merge_fits (HLC.bump_fits fits alo ahi) (hstamp _ rfl) alo ahi

theorem Takes.precedes {call : ClockCall} (h : Takes c call c') (fits : c.Fits) (cfits : call.Fits)
    (orderly : Orderly c call) :
    c.stamp.Precedes c'.stamp ∧ ∀ r ∈ call.received, r.Precedes c'.stamp := by
  obtain ⟨room, last⟩ := orderly
  cases h with
  | ahead _ _ hpt => exact ⟨.inl hpt, by simp [received]⟩
  | bump _ _ _ hc => exact ⟨HLC.bump_precedes _ fits (by omega), by simp [received]⟩
  | tick => exact ⟨.inr ⟨rfl, Nat.lt_succ_self _⟩, by simp [received]⟩
  | merge pt again r near hc =>
    have hlast := last _ rfl
    rw [if_pos hc] at hlast
    have hmerged := HLC.merge_precedes c pt (by simp only [hlcCounterLimit] at hc; omega)
      (cfits.2.2 _ rfl).2.2 hlast
    exact ⟨hmerged.1, by rintro _ ⟨⟩; exact hmerged.2⟩
  | mergeBumped pt again r near hc =>
    have hroom : c.l < 2 ^ 63 - 1 := by omega
    have hnext : (c.bump again).l = max (c.l + 1) again := by
      rw [HLC.bump, int64_of_fits (by have := fits.low; omega) (by omega)]
    have hlast := last _ rfl
    rw [if_neg (by omega), ClockCall.again, ← hnext] at hlast
    have hmerged := HLC.merge_precedes (c.bump again) again (by simp [HLC.bump])
      (cfits.2.2 _ rfl).2.2 (hlast.imp_right fun hlt => lt_max_of_lt_left hlt)
    exact ⟨(HLC.bump_precedes again fits hroom).trans hmerged.1, by rintro _ ⟨⟩; exact hmerged.2⟩

end ClockCall

-- -------- Runs

/-- A clock with what it has returned, each stamp beside the one it was merged with, the
readings it took and how often the guard fired. -/
structure Clocked where
  clock : HLC
  issued : List (Option HLCTimestamp × HLCTimestamp) := []
  readings : List Int := []
  bumps : Nat := 0

namespace Clocked

def start (id : String) : Clocked := { clock := { id := id } }

def step (call : ClockCall) (s : Clocked) : Option Clocked :=
  let read := { s with
    readings := s.readings ++ call.pt :: if call.bumps s.clock then [call.again] else []
    bumps := s.bumps + (call.bumps s.clock).toNat }
  match call.apply s.clock with
  | .error _ => some read
  | .ok (h, ts) => some { read with clock := h, issued := s.issued ++ [(call.received, ts)] }

def Causal (s : Clocked) : Prop :=
  s.issued.Pairwise (fun a b => a.2.Precedes b.2) ∧ ∀ e ∈ s.issued, ∀ r ∈ e.1, r.Precedes e.2

structure Ordered (s : Clocked) : Prop where
  fits : s.clock.Fits
  behind : ∀ e ∈ s.issued, e.2.Precedes s.clock.stamp ∨ e.2 = s.clock.stamp
  causal : s.Causal

theorem step_ordered (hs : Ordered s) (cfits : call.Fits) (orderly : call.Orderly s.clock)
    (next : step call s = some s') : Ordered s' := by
  simp only [step] at next
  cases happly : call.apply s.clock with
  | error e =>
    rw [happly] at next
    cases next
    exact ⟨hs.fits, hs.behind, hs.causal⟩
  | ok p =>
    obtain ⟨h, ts⟩ := p
    rw [happly] at next
    cases next
    obtain ⟨rfl, takes⟩ := ClockCall.apply_takes happly
    obtain ⟨hown, hrec⟩ := takes.precedes hs.fits cfits orderly
    -- a stamp not after the old state precedes the new one
    have hearlier : ∀ e ∈ s.issued, e.2.Precedes h.stamp := by
      intro e he
      obtain hlt | heq := hs.behind e he
      · exact hlt.trans hown
      · rw [heq]
        exact hown
    refine ⟨takes.fits hs.fits cfits, fun e he => ?_, ?_, fun e he => ?_⟩
    · obtain he | he := List.mem_append.mp he
      · exact .inl (hearlier e he)
      · rw [List.mem_singleton.mp he]
        exact .inr rfl
    · refine List.pairwise_append.mpr ⟨hs.causal.1, List.pairwise_singleton _ _,
        fun a ha b hb => ?_⟩
      rw [List.mem_singleton.mp hb]
      exact hearlier a ha
    obtain he | he := List.mem_append.mp he
    · exact hs.causal.2 e he
    · rw [List.mem_singleton.mp he]
      exact hrec

/-- In every run whose calls are orderly, the stamps are strictly increasing and each comes
after the stamp it was merged with. -/
theorem stamps_causal {id : String}
    (run : Transition.Run step (fun s call => call.Fits ∧ call.Orderly s.clock) (start id) s) :
    s.Causal := by
  have hstart : Ordered (start id) :=
    ⟨⟨by simp [start], by simp [start], by simp [start]⟩, by simp [start], by simp [Causal, start]⟩
  exact (run.invariant Ordered hstart fun _ _ _ hs ok next => step_ordered hs ok.1 ok.2 next).causal

/-- A clock behind the one it hears from. -/
theorem merged_stamps_causal :
    ∃ s, Transition.Run step (fun s call => call.Fits ∧ call.Orderly s.clock) (start "n") s ∧
      s.issued = [(none, ⟨5, 0, "n"⟩), (some ⟨7, 3, "m"⟩, ⟨7, 4, "n"⟩)] ∧ s.Causal :=
  (Transition.Run.exists_of_checked [.now 5 5, .update 4 4 ⟨7, 3, "m"⟩]
    (fun s call => decide (call.Fits ∧ call.Orderly s.clock)) (fun _ _ _ => of_decide_eq_true)
    (by decide +kernel)).imp fun _ h => ⟨h.1, h.2, stamps_causal h.1⟩

/-- The received counter is not guarded: its successor wraps to zero, and the stamp is the one
returned before. -/
theorem last_counter_wraps :
    ∃ s, Transition.Run step (fun _ call => call.Fits) (start "n") s ∧
      s.issued = [(none, ⟨5, 0, "n"⟩), (some ⟨5, 2 ^ 32 - 1, "m"⟩, ⟨5, 0, "n"⟩)] ∧ ¬s.Causal := by
  refine (Transition.Run.exists_of_checked [.now 5 5, .update 5 5 ⟨5, 2 ^ 32 - 1, "m"⟩]
    (fun _ call => decide call.Fits) (fun _ _ _ => of_decide_eq_true)
    (by decide +kernel)).imp fun s h => ⟨h.1, h.2, fun hcausal => ?_⟩
  have hmerged := hcausal.2
  rw [h.2] at hmerged
  exact absurd (hmerged _ (.tail _ (.head _)) _ rfl) (by decide)

-- -------- Drift

/-- A wall clock reads Unix milliseconds, so no reading lies before the zero it starts at. -/
def SinceZero (call : ClockCall) : Prop := 0 ≤ call.pt ∧ 0 ≤ call.again

instance (call : ClockCall) : Decidable (SinceZero call) := inferInstanceAs (Decidable (_ ∧ _))

theorem bump_le (again : Int) (fits : HLC.Fits h) : (h.bump again).l ≤ max (h.l + 1) again := by
  have := fits.low
  simp only [HLC.bump, int64]
  omega

/-- From a reading that is not negative no received wall time is `2 ^ 63` away, so the check
bounds it by the reading. -/
theorem received_le {pt again : Int} (fits : (ClockCall.update pt again r).Fits) (since : 0 ≤ pt)
    (near : int64 (r.wallTimeMs - pt) ≤ maxClockDriftMs) : r.wallTimeMs ≤ pt + maxClockDriftMs := by
  obtain ⟨⟨plo, phi⟩, -, hstamp⟩ := fits
  have hr := hstamp r rfl
  simp only [int64, maxClockDriftMs, ClockCall.pt] at *
  omega

/-- One call moves the wall time by the guard's step, or to at most the drift limit past a
reading it took. -/
theorem takes_bound {call : ClockCall} (h : call.Takes c c') (fits : c.Fits) (cfits : call.Fits)
    (since : 0 ≤ call.pt) :
    c'.l ≤ c.l + (call.bumps c).toNat ∨
      ∃ p ∈ call.pt :: (if call.bumps c then [call.again] else []), c'.l ≤ p + maxClockDriftMs := by
  have hdrift : 0 ≤ maxClockDriftMs := by decide
  cases h with
  | ahead pt again hpt =>
    exact .inr ⟨pt, by simp [ClockCall.pt], show pt ≤ pt + maxClockDriftMs by omega⟩
  | bump pt again hpt hc =>
    have hbumps : ClockCall.bumps c (.now pt again) = true := decide_eq_true ⟨hpt, hc⟩
    have hle := bump_le again fits
    simp only [hbumps, Bool.toNat_true, if_true]
    by_cases hl : (c.bump again).l ≤ c.l + 1
    · exact .inl hl
    · exact .inr ⟨again, by simp [ClockCall.again], by omega⟩
  | tick => exact .inl (show c.l ≤ c.l + _ by omega)
  | merge pt again r near hc =>
    have hr := received_le cfits since near
    by_cases hl : (c.merge pt r).l ≤ c.l
    · exact .inl (by omega)
    · exact .inr ⟨pt, by simp [ClockCall.pt], by simp only [HLC.merge] at *; omega⟩
  | mergeBumped pt again r near hc =>
    have hbumps : ClockCall.bumps c (.update pt again r) = true := decide_eq_true ⟨near, hc⟩
    have hr := received_le cfits since near
    have hle := bump_le again fits
    simp only [hbumps, Bool.toNat_true, if_true]
    by_cases hl : ((c.bump again).merge again r).l ≤ c.l + 1
    · exact .inl hl
    by_cases hp : ((c.bump again).merge again r).l ≤ pt + maxClockDriftMs
    · exact .inr ⟨pt, by simp [ClockCall.pt], hp⟩
    · exact .inr ⟨again, by simp [ClockCall.again], by simp only [HLC.merge] at *; omega⟩

structure Bounded (s : Clocked) : Prop where
  fits : s.clock.Fits
  fresh : s.readings = [] → s.clock.l ≤ 0 ∧ s.bumps = 0
  bound : s.readings ≠ [] → ∃ p ∈ s.readings, s.clock.l ≤ p + maxClockDriftMs + s.bumps

theorem step_bounded (hs : Bounded s) (cfits : call.Fits) (since : SinceZero call)
    (next : step call s = some s') : Bounded s' := by
  -- a clock not past its old bound is still within it: a reading is never forgotten
  have hold : ∃ p ∈ s.readings ++ call.pt :: (if call.bumps s.clock then [call.again] else []),
      s.clock.l ≤ p + maxClockDriftMs + s.bumps := by
    by_cases hread : s.readings = []
    · obtain ⟨hl, hb⟩ := hs.fresh hread
      have hdrift : 0 ≤ maxClockDriftMs := by decide
      have hfirst := since.1
      exact ⟨call.pt, by simp, by omega⟩
    · obtain ⟨p, hp, hle⟩ := hs.bound hread
      exact ⟨p, List.mem_append_left _ hp, hle⟩
  obtain ⟨p, hp, hle⟩ := hold
  simp only [step] at next
  cases happly : call.apply s.clock with
  | error e =>
    rw [happly] at next
    cases next
    refine ⟨hs.fits, by simp, fun _ => ⟨p, hp, ?_⟩⟩
    push_cast
    omega
  | ok out =>
    obtain ⟨h, ts⟩ := out
    rw [happly] at next
    cases next
    obtain ⟨-, takes⟩ := ClockCall.apply_takes happly
    refine ⟨takes.fits hs.fits cfits, by simp, fun _ => ?_⟩
    obtain hmove | ⟨q, hq, hmove⟩ := takes_bound takes hs.fits cfits since.1
    · refine ⟨p, hp, ?_⟩
      push_cast
      omega
    · refine ⟨q, List.mem_append_right _ hq, ?_⟩
      push_cast
      omega

/-- In every run the wall time exceeds the largest reading by at most the drift limit and one
for each time the guard fired. A refused `Update` leaves the clock as it was. -/
theorem clock_bounded {id : String}
    (run : Transition.Run step (fun _ call => call.Fits ∧ SinceZero call) (start id) s) :
    (s.readings ≠ [] → ∃ p ∈ s.readings, s.clock.l ≤ p + maxClockDriftMs + s.bumps) ∧
    ∀ call e s', call.apply s.clock = .error e → step call s = some s' → s'.clock = s.clock := by
  have hstart : Bounded (start id) :=
    ⟨⟨by simp [start], by simp [start], by simp [start]⟩, by simp [start], by simp [start]⟩
  refine ⟨(run.invariant Bounded hstart fun _ _ _ hs ok next =>
    step_bounded hs ok.1 ok.2 next).bound, ?_⟩
  intro call e s' refused next
  simp only [step, refused] at next
  cases next
  rfl

/-- A stamp as far ahead as `Update` takes one. -/
theorem drift_within_bound :
    ∃ s, Transition.Run step (fun _ call => call.Fits ∧ SinceZero call) (start "n") s ∧
      (s.clock.l = 10005 ∧ s.readings = [5, 4] ∧ s.bumps = 0) ∧
      ∃ p ∈ s.readings, s.clock.l ≤ p + maxClockDriftMs + s.bumps :=
  (Transition.Run.exists_of_checked [.update 5 5 ⟨10005, 3, "m"⟩, .now 4 4]
    (fun _ call => decide (call.Fits ∧ SinceZero call)) (fun _ _ _ => of_decide_eq_true)
    (by decide +kernel)).imp fun _ h => ⟨h.1, h.2, (clock_bounded h.1).1 (by simp [h.2.2.1])⟩

end Clocked

end GroupCoordination
