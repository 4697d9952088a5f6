import GroupCoordination.Properties.Retention

/-!
# Messages that wait beside commits

What was kept for an epoch is handed out when the epoch begins, in the order of arrival. A commit
among it opens the next epoch, and hands out what was kept for that one, before the rest of its
own epoch has its turn. A message behind the commit is handled in the epoch to which the waiting
commits lead, and that may be one from which the engine no longer decrypts it.
-/

namespace GroupCoordination

def Payload.isCommit : Payload → Bool
  | .commit _ => true
  | _ => false

def Wire.commits (epoch : Nat) (wire : Wire) : Bool :=
  wire.unmarshal.any fun env => env.epoch = epoch ∧ env.payload.isCommit

/-- A kept message is filed under its own epoch. -/
def Core.Filed (c : Core) : Prop :=
  ∀ entry ∈ c.retained, entry.2.unmarshal.map (·.epoch) = some entry.1

/-- While a step that began in epoch `e` is under way: no commit of the epoch `k` is at hand, and
every message that was handed out was at most `limit` epochs late. -/
structure Paced (limit e k : Nat) (c : Core) : Prop where
  agree : EpochsAgree c
  balanced : Balanced c
  filed : c.Filed
  since : e ≤ c.epoch
  before : c.epoch ≤ k
  kept : ∀ entry ∈ c.retained, entry.2.commits k = false
  arriving : ∀ wire ∈ c.arriving, wire.commits k = false
  released : ∀ entry ∈ c.inflight, e < entry.1
  timely : ∀ d ∈ c.dispatched, d.epoch ≤ d.key + limit

-- -------- One step

section Paced

variable {x : Ctx} {c c' : Core} {limit e k : Nat}

theorem Wire.commits_of {wire : Wire} (h : wire.unmarshal = some env) :
    wire.commits epoch = decide (env.epoch = epoch ∧ env.payload.isCommit = true) := by
  simp [Wire.commits, h]

theorem Core.Filed.coreStep (h : c.Filed) (hstep : CoreStep x c c') : c'.Filed := by
  cases hstep with
  | retain key wire source env _ spelled epoch =>
    intro entry hm
    rcases List.mem_append.mp hm with hold | hnew
    · exact h entry hold
    · rw [List.mem_singleton.mp hnew, spelled, ← epoch]
      rfl
  | _ => exact h

theorem Core.Filed.commits_of_ne (h : c.Filed) (hm : (key, wire) ∈ c.retained) (hne : key ≠ k) :
    wire.commits k = false := by
  obtain ⟨env, hwire, hepoch⟩ := Option.map_eq_some_iff.mp (h (key, wire) hm)
  rw [Wire.commits_of hwire, hepoch]
  simp [hne]

theorem Balanced.mem_retained (h : Balanced c) (hd : d ∈ c.dispatched) :
    (d.key, d.wire) ∈ c.retained := by
  have hcount : 0 < dispatchedCount c.dispatched d.key d.wire :=
    List.countP_pos_iff.mpr ⟨d, hd, by simp⟩
  have hb := h.balance d.key d.wire
  exact List.count_pos_iff.mp (by omega)

theorem CoreStep.issued_mono (h : CoreStep x c c') (hi : i ∈ c.issuedCommits) :
    i ∈ c'.issuedCommits := by
  cases h with
  | issue => exact List.mem_append_left _ hi
  | _ => exact hi

namespace Paced

theorem not_commits (h : Paced limit e k c) (hk : c.Known wire env) : wire.commits k = false := by
  obtain ⟨-, harriving | ⟨d, hd, rfl⟩⟩ := hk
  · exact h.arriving wire harriving
  · exact h.kept _ (h.balanced.mem_retained hd)

/-- The epoch `k` is not left: the commit would be one of the epoch `k`. -/
theorem opened (h : Paced limit e k c) (hne : c.epoch ≠ k) (hagree : EpochsAgree c')
    (hbalanced : Balanced c') (he : c'.epoch = c.epoch + 1) (hr : c'.retained = c.retained)
    (ha : c'.arriving = c.arriving) (hd : c'.dispatched = c.dispatched)
    (hi : c'.inflight = (c.epochTracker.futureBuffer (c.epoch + 1)).map (c.epoch + 1, ·) ++
      c.inflight) : Paced limit e k c' where
  agree := hagree
  balanced := hbalanced
  filed := fun entry hm => h.filed entry (hr ▸ hm)
  since := by
    rw [he]
    exact Nat.le_succ_of_le h.since
  before := by
    rw [he]
    exact Nat.lt_of_le_of_ne h.before hne
  kept := hr ▸ h.kept
  arriving := ha ▸ h.arriving
  released := by
    rw [hi]
    intro entry hm
    rcases List.mem_append.mp hm with hnew | hold
    · obtain ⟨_, -, rfl⟩ := List.mem_map.mp hnew
      exact Nat.lt_succ_of_le h.since
    · exact h.released entry hold
  timely := hd ▸ h.timely

theorem coreStep (h : Paced limit e k c) (hlimit : k ≤ e + 1 + limit) (hstep : CoreStep x c c')
    (hissued : ∀ i ∈ c'.issuedCommits, i.env.epoch ≠ k) : Paced limit e k c' := by
  have hagree := h.agree.coreStep hstep
  have hbalanced := h.balanced.coreStep h.agree hstep
  have hfiled := h.filed.coreStep hstep
  cases hstep with
  | retain key wire source env known spelled =>
    refine { h with agree := hagree, balanced := hbalanced, filed := hfiled, kept := ?_ }
    intro entry hm
    rcases List.mem_append.mp hm with hold | hnew
    · exact h.kept entry hold
    -- the message is kept in a spelling of what is known already
    rw [List.mem_singleton.mp hnew, Wire.commits_of spelled, ← Wire.commits_of known.1]
    exact h.not_commits known
  | take key wire rest next =>
    have hkey : e < key := h.released (key, wire) (next ▸ List.mem_cons_self)
    refine { h with agree := hagree, balanced := hbalanced, filed := hfiled, released := ?_,
                    timely := ?_ }
    · exact fun entry hm => h.released entry (next ▸ List.mem_cons_of_mem _ hm)
    intro d hd
    rcases List.mem_append.mp hd with hold | hnew
    · exact h.timely d hold
    rw [List.mem_singleton.mp hnew]
    have hle := h.before
    change c.epoch ≤ key + limit
    omega
  | commit env wire commit newState newTreeHash ledger known payload current =>
    have hno := h.not_commits known
    rw [Wire.commits_of known.1, payload, current, h.agree.tracker] at hno
    exact h.opened (by simpa [Payload.isCommit] using hno) hagree hbalanced rfl rfl rfl rfl rfl
  | issue issued result refs wire ledger _ _ _ _ message =>
    have hne := hissued issued (List.mem_append_right _ List.mem_cons_self)
    exact h.opened (message.2.1 ▸ hne) hagree hbalanced rfl rfl rfl rfl rfl
  | _ => exact { h with agree := hagree, balanced := hbalanced, filed := hfiled }

theorem coreSteps (h : Paced limit e k c) (hlimit : k ≤ e + 1 + limit) (hsteps : CoreSteps x c c')
    (hissued : ∀ i ∈ c'.issuedCommits, i.env.epoch ≠ k) : Paced limit e k c' := by
  induction hsteps with
  | refl => exact h
  | tail _ hstep ih =>
    exact (ih fun i hi => hissued i (hstep.issued_mono hi)).coreStep hlimit hstep hissued

end Paced

end Paced

-- -------- Runs

/-- Of the next epochs, as many as the engine looks back and one more, there is one that the step
does not leave: no commit of it waits or arrives, and the node issues none in it. -/
def Pauses (node : Node) (s : State) (a : Action) : Prop :=
  ∃ n ≤ node.cfg.getMaxPastEpochs,
    (∀ wire ∈ a.op.arriving ++ s.epochTracker.futureBuffer (s.epoch + 1 + n),
      wire.commits (s.epoch + 1 + n) = false) ∧
    ∀ s' ∈ step node a s, ∀ i ∈ s'.issuedCommits, i.env.epoch ≠ s.epoch + 1 + n

instance (node : Node) (s : State) (a : Action) : Decidable (Pauses node s a) :=
  inferInstanceAs (Decidable (∃ n ≤ _, _))

structure Punctual (limit : Nat) (c : Core) : Prop where
  retains : Retains c
  filed : c.Filed
  timely : ∀ d ∈ c.dispatched, d.epoch ≤ d.key + limit

variable {node : Node} {s s' : State} {limit : Nat}

theorem Booted.punctual (h : Booted node allowed s) : Punctual limit s.core := by
  obtain ⟨_, _, hcore⟩ := h.core
  refine ⟨h.retains, ?_, ?_⟩
  all_goals
    rw [hcore]
    exact fun _ hm => absurd hm List.not_mem_nil

theorem Punctual.paced (h : Punctual limit s.core) (op : Op) (hk : s.epoch < k)
    (hfree : ∀ wire ∈ op.arriving ++ s.epochTracker.futureBuffer k, wire.commits k = false) :
    Paced limit s.epoch k (s.arrive op).core where
  agree := h.retains.agree.arrive op
  balanced := h.retains.balanced.congr rfl rfl rfl rfl rfl
  filed := h.filed
  since := le_rfl
  before := hk.le
  kept := by
    rintro ⟨key, wire⟩ hm
    by_cases hkey : key = k
    · -- nothing of a later epoch was handed out, so it still waits
      subst hkey
      have hnone : dispatchedCount s.dispatched key wire = 0 := h.retains.dispatched_ahead hk
      have hcount : 0 < s.retained.count (key, wire) := List.count_pos_iff.mpr hm
      have hb := h.retains.balanced.balance key wire
      rw [h.retains.idle, List.count_nil] at hb
      change s.retained.count (key, wire) = (s.epochTracker.futureBuffer key).count wire + 0 +
        dispatchedCount s.dispatched key wire at hb
      exact hfree wire (List.mem_append_right _ (List.count_pos_iff.mp (by omega)))
    · exact h.filed.commits_of_ne hm hkey
  arriving wire hm := hfree wire (List.mem_append_left _ hm)
  released entry hm := by
    have hidle : (s.arrive op).core.inflight = [] := h.retains.idle
    rw [hidle] at hm
    cases hm
  timely := h.timely

theorem step_punctual (h : Punctual node.cfg.getMaxPastEpochs s.core) (ok : KeepsBranch s a)
    (hpauses : Pauses node s a) (hstep : step node a s = some s') :
    Punctual node.cfg.getMaxPastEpochs s'.core := by
  have hretains := step_retains h.retains ok hstep
  cases step_effect hstep with
  | moves hmoves =>
    obtain ⟨n, hn, hfree, hissued⟩ := hpauses
    have hpaced := (h.paced a.op (by omega) hfree).coreSteps (by omega) hmoves.steps
      (hissued s' hstep)
    exact ⟨hretains, hpaced.filed, hpaced.timely⟩
  | edit hedit =>
    generalize s'.core = c' at hedit hretains
    cases hedit <;> exact ⟨hretains, h.filed, h.timely⟩
  | swap wake hop hs hswap => exact absurd hs (ok.2 wake hop)
  | restart view anchor hop hrestart => exact absurd hop (ok.1 view anchor)

namespace Reference

def waitingMessage : Wire := wire 1 [65] .application (.application [9, 1, 42])

def receipts (wires : List Wire) : List Action :=
  wires.map fun data => action (.receive [65] data)

end Reference

end GroupCoordination
