import GroupCoordination.Model.State
import Mathlib.Data.List.Induction

/-!
# Who is in the active view

Any sequence of calls on a view that starts with the local node alone. A remote peer is in
it iff a call let it in or heard it and, since then, it was not evicted and fewer than
`PeerDeadAfter` liveness checks went by.
-/

namespace GroupCoordination

inductive ViewCall
  | seed (ids : List PeerID)
  | recordHeartbeat (pid : PeerID)
  | checkLiveness
  | evict (pid : PeerID)
  deriving DecidableEq

namespace ActiveView

def step (cfg : CoordinatorConfig) (v : ActiveView) : ViewCall → ActiveView
  | .seed ids => v.seed ids
  | .recordHeartbeat pid => (v.recordHeartbeat pid).1
  | .checkLiveness => v.checkLiveness cfg
  | .evict pid => v.evict pid

def run (cfg : CoordinatorConfig) (localID : PeerID) (calls : List ViewCall) : ActiveView :=
  calls.foldl (step cfg) (new localID)

theorem run_snoc (cfg : CoordinatorConfig) (localID : PeerID) (calls : List ViewCall)
    (call : ViewCall) :
    run cfg localID (calls ++ [call]) = step cfg (run cfg localID calls) call := by
  simp [run]

-- -------- The rows after each call

theorem contains_iff {v : ActiveView} : v.contains pid = true ↔ ∃ n, (pid, n) ∈ v.members := by
  simp [contains]

theorem contains_iff_mem {v : ActiveView} : v.contains pid = true ↔ pid ∈ v.sortedMembers := by
  simp [contains, mem_sortedMembers]

theorem mem_insert {v : ActiveView} :
    (pid, n) ∈ (v.insert q).members ↔ (pid, n) ∈ v.members ∨
    (v.contains pid = false ∧ pid = q ∧ n = 0) := by
  by_cases h : v.contains q = true
  · simp only [insert, h, if_true]
    grind
  · simp only [insert, h]
    grind

theorem contains_insert {v : ActiveView} :
    (v.insert q).contains pid = (v.contains pid || decide (pid = q)) := by
  by_cases h : v.contains q = true <;> simp [insert, h] <;> grind [contains]

theorem mem_seed (ids : List PeerID) (v : ActiveView) :
    (pid, n) ∈ (v.seed ids).members ↔
      (pid, n) ∈ v.members ∨ (v.contains pid = false ∧ pid ∈ ids ∧ pid ≠ [] ∧ n = 0) := by
  induction ids generalizing v with
  | nil => simp [seed]
  | cons q rest ih =>
    have hcons : v.seed (q :: rest) = (if q = [] then v else v.insert q).seed rest := rfl
    rw [hcons, ih]
    grind [mem_insert, contains_insert]

theorem mem_recordHeartbeat {v : ActiveView} :
    (pid, n) ∈ (v.recordHeartbeat q).1.members ↔ if pid = q then n = 0
      else (pid, n) ∈ v.members := by
  by_cases h : v.contains q = true
  · obtain ⟨k, hk⟩ := contains_iff.mp h
    simp only [recordHeartbeat, h, if_true, List.mem_map]
    grind
  · simp only [recordHeartbeat, h]
    grind [mem_insert, contains_iff]

theorem mem_checkLiveness {v : ActiveView} (remote : pid ≠ v.localID) :
    (pid, n) ∈ (v.checkLiveness cfg).members ↔
      ∃ k, n = k + 1 ∧ (pid, k) ∈ v.members ∧ ((n : Nat) : Int) < cfg.peerDeadAfter := by
  simp only [checkLiveness, List.mem_map, List.mem_filter, survives, decide_eq_true_eq]
  grind

theorem mem_evict {v : ActiveView} (remote : pid ≠ v.localID) :
    (pid, n) ∈ (v.evict q).members ↔ (pid, n) ∈ v.members ∧ pid ≠ q := by
  simp [evict, remote]

theorem seed_induction {P : ActiveView → Prop} (keep : ∀ v q, P v → P (v.insert q))
    (ids : List PeerID) (v : ActiveView) (h : P v) : P (v.seed ids) := by
  induction ids generalizing v with
  | nil => exact h
  | cons q rest ih =>
    refine ih _ ?_
    dsimp only
    split
    · exact h
    · exact keep v q h

structure Kept (me : PeerID) (v : ActiveView) : Prop where
  local_eq : v.localID = me
  nodup : (v.members.map Prod.fst).Nodup

theorem Kept.insert (h : Kept me v) (q : PeerID) : Kept me (v.insert q) := by
  unfold ActiveView.insert
  split
  next => exact h
  rename_i hq
  refine ⟨h.local_eq, ?_⟩
  rw [List.map_append]
  exact h.nodup.append (by simp) (by simpa [contains] using hq)

theorem Kept.step (h : Kept me v) (cfg : CoordinatorConfig) (call : ViewCall) :
    Kept me (v.step cfg call) := by
  cases call with
  | seed ids => exact seed_induction (fun _ q h => h.insert q) ids v h
  | recordHeartbeat pid =>
    simp only [ActiveView.step, recordHeartbeat]
    split
    · refine ⟨h.local_eq, ?_⟩
      have hkeys : (Prod.fst ∘ fun m : PeerID × Nat => if m.1 = pid then (m.1, 0) else m) =
          Prod.fst := by
        grind
      simpa only [List.map_map, hkeys] using h.nodup
    · exact h.insert pid
  | checkLiveness =>
    refine ⟨h.local_eq, ?_⟩
    have hkeys : (Prod.fst ∘ fun m : PeerID × Nat => if m.1 = v.localID then m
      else (m.1, m.2 + 1)) =
        Prod.fst := by
      grind
    simp only [ActiveView.step, checkLiveness, List.map_map, hkeys]
    exact h.nodup.sublist (List.filter_sublist.map _)
  | evict pid => exact ⟨h.local_eq, h.nodup.sublist (List.filter_sublist.map _)⟩

theorem run_kept (cfg : CoordinatorConfig) (localID : PeerID) (calls : List ViewCall) :
    Kept localID (run cfg localID calls) := by
  induction calls using List.reverseRecOn with
  | nil => exact ⟨rfl, by simp [run, new]⟩
  | append_singleton calls call ih =>
    rw [run_snoc]
    exact ih.step cfg call

theorem Kept.sorted (h : Kept me v) : v.sortedMembers.Pairwise (· < ·) := by
  have hle := List.pairwise_insertionSort (· ≤ ·) (v.members.map Prod.fst)
  have hne : v.sortedMembers.Nodup := (List.perm_insertionSort _ _).nodup_iff.mpr h.nodup
  exact hle.imp₂ (fun _ _ hle hne => lt_of_le_of_ne hle hne) hne

-- -------- Traces

section Trace

variable {cfg : CoordinatorConfig} {localID pid : PeerID}

/-- The call lets the peer in or hears it: a heartbeat does either, a seed only adds a peer
that is not there, and skips the empty id. -/
def Enters (cfg : CoordinatorConfig) (localID pid : PeerID) (before : List ViewCall)
    (call : ViewCall) : Prop :=
  call = .recordHeartbeat pid ∨
  ∃ ids, call = .seed ids ∧ pid ∈ ids ∧ pid ≠ [] ∧ pid ∉ (run cfg localID before).sortedMembers

/-- A call let the peer in, and the calls after it do not evict it and check `n` times. -/
def Since (cfg : CoordinatorConfig) (localID pid : PeerID) (calls : List ViewCall)
    (n : Nat) : Prop :=
  ∃ before call after, calls = before ++ call :: after ∧ Enters cfg localID pid before call ∧
    .evict pid ∉ after ∧ after.count .checkLiveness = n

def Alive (cfg : CoordinatorConfig) (localID pid : PeerID) (calls : List ViewCall) : Prop :=
  ∃ n : Nat, Since cfg localID pid calls n ∧ (n : Int) < cfg.peerDeadAfter

theorem Since.snoc {call : ViewCall} (h : Since cfg localID pid calls n)
    (hevict : call ≠ .evict pid) :
    Since cfg localID pid (calls ++ [call]) (n + if call = .checkLiveness then 1 else 0) := by
  obtain ⟨before, e, after, rfl, henter, hout, hcount⟩ := h
  refine ⟨before, e, after ++ [call], by simp, henter, ?_, ?_⟩
  · simpa [hout] using Ne.symm hevict
  · simp [List.count_append, hcount, List.count_singleton]

/-- A row counts the checks since its peer last entered, and they are too few to evict it. -/
theorem since_of_mem (hpos : 0 < cfg.peerDeadAfter) (remote : pid ≠ localID)
    (calls : List ViewCall) (n : Nat) (h : (pid, n) ∈ (run cfg localID calls).members) :
    Since cfg localID pid calls n ∧ (n : Int) < cfg.peerDeadAfter := by
  induction calls using List.reverseRecOn generalizing n with
  | nil => simp [run, new, remote] at h
  | append_singleton calls call ih =>
    rw [run_snoc] at h
    have hremote : pid ≠ (run cfg localID calls).localID := by
      rwa [(run_kept cfg localID calls).local_eq]
    cases call with
    | seed ids =>
      obtain hm | ⟨habsent, hmem, hne, rfl⟩ := (mem_seed ids _).mp h
      · exact (ih n hm).imp_left (·.snoc (by simp))
      refine ⟨⟨calls, .seed ids, [], rfl, .inr ⟨ids, rfl, hmem, hne, ?_⟩, by simp, rfl⟩, hpos⟩
      rw [← contains_iff_mem, habsent]
      simp
    | recordHeartbeat q =>
      have hrow := mem_recordHeartbeat.mp h
      split at hrow
      next heq =>
        subst heq hrow
        exact ⟨⟨calls, .recordHeartbeat pid, [], rfl, .inl rfl, by simp, rfl⟩, hpos⟩
      next => exact (ih n hrow).imp_left (·.snoc (by simp))
    | checkLiveness =>
      obtain ⟨k, rfl, hm, hlt⟩ := (mem_checkLiveness hremote).mp h
      exact ⟨(ih k hm).1.snoc (by simp), hlt⟩
    | evict q =>
      obtain ⟨hm, hne⟩ := (mem_evict hremote).mp h
      exact (ih n hm).imp_left (·.snoc (by simpa using Ne.symm hne))

/-- A row stays while its peer is not evicted and the checks are too few. -/
theorem stays {before after : List ViewCall} (remote : pid ≠ localID)
    (h : (pid, 0) ∈ (run cfg localID before).members) (hout : .evict pid ∉ after)
    (few : (after.count .checkLiveness : Int) < cfg.peerDeadAfter) :
    ∃ n ≤ after.count .checkLiveness, (pid, n) ∈ (run cfg localID (before ++ after)).members := by
  induction after using List.reverseRecOn with
  | nil => exact ⟨0, le_refl _, by simpa using h⟩
  | append_singleton after call ih =>
    rw [← List.append_assoc, run_snoc]
    have hremote : pid ≠ (run cfg localID (before ++ after)).localID := by
      rwa [(run_kept cfg localID (before ++ after)).local_eq]
    rw [List.count_append, List.count_singleton] at few ⊢
    obtain ⟨n, hn, hm⟩ := ih (by simp_all) (by omega)
    cases call with
    | seed ids => exact ⟨n, by simpa using hn, (mem_seed ids _).mpr (.inl hm)⟩
    | recordHeartbeat q =>
      by_cases hq : pid = q
      · exact ⟨0, Nat.zero_le _, mem_recordHeartbeat.mpr (by simp [hq])⟩
      · exact ⟨n, by simpa using hn, mem_recordHeartbeat.mpr (by simpa [hq] using hm)⟩
    | checkLiveness =>
      simp only [beq_self_eq_true, if_true] at few ⊢
      exact ⟨n + 1, by omega, (mem_checkLiveness hremote).mpr ⟨n, rfl, hm, by omega⟩⟩
    | evict q =>
      refine ⟨n, by simpa using hn, (mem_evict hremote).mpr ⟨hm, ?_⟩⟩
      rintro rfl
      simp at hout

theorem Enters.mem (h : Enters cfg localID pid before call) :
    (pid, 0) ∈ (run cfg localID (before ++ [call])).members := by
  rw [run_snoc]
  obtain rfl | ⟨ids, rfl, hmem, hne, habsent⟩ := h
  · exact mem_recordHeartbeat.mpr (by simp)
  · refine (mem_seed ids _).mpr (.inr ⟨?_, hmem, hne, rfl⟩)
    rwa [← Bool.not_eq_true, contains_iff_mem]

end Trace

/-- The active view after any calls: a remote peer is a member iff it is alive by the trace, the
local node always is, the list is strictly sorted, and a heartbeat reports a new peer exactly
when it was absent, and leaves it present. -/
theorem members_characterised (node : Node) (calls : List ViewCall) (pid : PeerID) :
    (pid ≠ node.localID →
      (pid ∈ (run node.cfg node.localID calls).sortedMembers ↔
        Alive node.cfg node.localID pid calls)) ∧
    node.localID ∈ (run node.cfg node.localID calls).sortedMembers ∧
    (run node.cfg node.localID calls).sortedMembers.Pairwise (· < ·) ∧
    (((run node.cfg node.localID calls).recordHeartbeat pid).2 = true ↔
      pid ∉ (run node.cfg node.localID calls).sortedMembers) ∧
    pid ∈ ((run node.cfg node.localID calls).recordHeartbeat pid).1.sortedMembers := by
  have hkept := run_kept node.cfg node.localID calls
  have hpos : 0 < node.cfg.peerDeadAfter :=
    (CoordinatorConfig.validate_ok node.cfg).mp node.valid
      ⟨"PeerDeadAfter", node.cfg.peerDeadAfter, 1, "must be >= 1"⟩
        (by simp [CoordinatorConfig.bounds])
  refine ⟨fun remote => ?_, ?_, hkept.sorted, ?_, ?_⟩
  · rw [← contains_iff_mem, contains_iff]
    constructor
    · rintro ⟨n, hm⟩
      exact ⟨n, since_of_mem hpos remote calls n hm⟩
    rintro ⟨_, ⟨before, call, after, rfl, henter, hout, rfl⟩, few⟩
    obtain ⟨n, -, hm⟩ := stays remote henter.mem hout few
    exact ⟨n, by simpa using hm⟩
  · have hlocal := (run node.cfg node.localID calls).local_mem
    rw [hkept.local_eq] at hlocal
    exact mem_sortedMembers.mpr hlocal
  · rw [← contains_iff_mem, recordHeartbeat]
    split <;> simp_all
  · rw [← contains_iff_mem, contains_iff]
    exact ⟨0, mem_recordHeartbeat.mpr (by simp)⟩

end ActiveView

end GroupCoordination
