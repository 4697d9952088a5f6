import GroupCoordination.Properties.Freeze

/-!
# Updates of the MLS state

The engine is a function from one serialized state to the next, and the coordinator keeps the
latest twice: in memory and in the stored record. Every handler hands the engine the state it
finds and stores what it gets back, so each state is computed from the one before. A replay
stores in one critical section what it computed in another, which is the same only as long as
nothing else computes a state in between.
-/

namespace GroupCoordination

open Fallible

-- -------- What the engine makes of a state

/-- `epochOf` reads the epoch of a serialized state: a commit moves it on by one, everything
else of an epoch leaves it, and a Welcome names the epoch of the state it gives. -/
structure MLSEngine.Counts (epochOf : Bytes → Nat) (engine : MLSEngine) : Prop
    extends engine.NeedsState where
  proposed : ∀ {g p g'}, Accepts engine g p g' → epochOf g' = epochOf g
  ciphered : ∀ {g g'}, Ciphers engine g g' → epochOf g' = epochOf g
  accepted : ∀ {g commit g' newTreeHash}, CommitAccepted engine g commit g' newTreeHash →
    epochOf g' = epochOf g + 1
  created : ∀ {g refs result}, engine.createCommit g refs = .ok result →
    epochOf result.newGroupState = epochOf g + 1
  joined : ∀ {welcome key bundle past g treeHash epoch},
    engine.processWelcome welcome key bundle past = .ok (g, treeHash, epoch) → epochOf g = epoch

/-- One call of the engine. -/
inductive Derives (sound : MLSEngine → Prop) (g : Bytes) : Bytes → Prop
  | proposal (engine : MLSEngine) (ok : sound engine) (h : Accepts engine g p g') :
      Derives sound g g'
  | cipher (engine : MLSEngine) (ok : sound engine) (h : Ciphers engine g g') : Derives sound g g'
  | commit (engine : MLSEngine) (ok : sound engine)
      (h : CommitAccepted engine g commit g' newTreeHash) : Derives sound g g'
  | issue (engine : MLSEngine) (ok : sound engine) (h : engine.createCommit g refs = .ok result) :
      Derives sound g result.newGroupState

abbrev Evolves (sound : MLSEngine → Prop) : Bytes → Bytes → Prop :=
  Relation.ReflTransGen (Derives sound)

/-- The record is of the epoch its MLS state is in, and so is the memory, whose state is the
stored one or a later one. -/
structure InStep (epochOf : Bytes → Nat) (c : Core) (stored : GroupRecord) : Prop where
  record : c.ledger.record = some stored
  epoch : stored.epoch = c.epoch
  mls : epochOf stored.groupState = stored.epoch
  memory : c.groupState = [] ∨ epochOf c.groupState = c.epoch ∧
    Evolves (·.Counts epochOf) stored.groupState c.groupState

def MovesOn (epochOf : Bytes → Nat) (stored : GroupRecord) (c : Core) : Prop :=
  ∃ stored', InStep epochOf c stored' ∧
    Evolves (·.Counts epochOf) stored.groupState stored'.groupState

namespace InStep

variable {epochOf : Bytes → Nat} {x : Ctx} {c c' : Core} {stored : GroupRecord}

section

variable (h : InStep epochOf c stored)

include h

theorem movesOn : MovesOn epochOf stored c := ⟨stored, h, .refl⟩

theorem rewritten (hne : c.groupState ≠ [])
    (hderives : Derives (·.Counts epochOf) c.groupState c'.groupState)
    (hmls : epochOf c'.groupState = epochOf c.groupState) (hepoch : c'.epoch = c.epoch)
    (hrecord : c'.ledger.record = c.ledger.record ∨ c.Records c'.groupState c'.ledger.record) :
    MovesOn epochOf stored c' := by
  obtain ⟨hmemory, hevolves⟩ := h.memory.resolve_left hne
  have hmls : epochOf c'.groupState = c'.epoch := by rw [hmls, hmemory, hepoch]
  have hevolves := hevolves.tail hderives
  rcases hrecord with hsame | ⟨stored', hnew, hstate, hstored⟩
  · exact ⟨stored, ⟨hsame.trans h.record, h.epoch.trans hepoch.symm, h.mls, .inr ⟨hmls, hevolves⟩⟩,
      .refl⟩
  rw [← hstate] at hmls hevolves
  refine ⟨stored', ⟨hnew, hstored.trans hepoch.symm, ?_, .inr ⟨hstate ▸ hmls, ?_⟩⟩, hevolves⟩
  · exact hmls.trans (hepoch.trans hstored.symm)
  · rw [hstate]

theorem advanced (hne : c.groupState ≠ [])
    (hderives : Derives (·.Counts epochOf) c.groupState c'.groupState)
    (hmls : epochOf c'.groupState = epochOf c.groupState + 1) (hepoch : c'.epoch = c.epoch + 1)
    (hrecord : ∃ r, c'.ledger.record = some r ∧ r.groupState = c'.groupState ∧
      r.epoch = c.epoch + 1) : MovesOn epochOf stored c' := by
  obtain ⟨hmemory, hevolves⟩ := h.memory.resolve_left hne
  obtain ⟨stored', hnew, hstate, hstored⟩ := hrecord
  have hmls : epochOf c'.groupState = c'.epoch := by rw [hmls, hmemory, hepoch]
  refine ⟨stored', ⟨hnew, hstored.trans hepoch.symm, ?_, .inr ⟨hmls, ?_⟩⟩, ?_⟩
  · rw [hstate, hmls, hepoch, hstored]
  · rw [hstate]
  · rw [hstate]
    exact hevolves.tail hderives

theorem coreStep (hx : x.engine.Counts epochOf)
    (hstep : CoreStep x c c') : MovesOn epochOf stored c' := by
  cases hstep with
  | propose p newState record accepted recorded =>
    exact h.rewritten (hx.proposes accepted).1 (.proposal _ hx accepted) (hx.proposed accepted) rfl
      (.inr recorded)
  | commit env wire commit newState newTreeHash ledger known payload current gate accepted applies
      recorded =>
    exact h.advanced (hx.accepts accepted).1 (.commit _ hx accepted)
      (hx.accepted accepted) rfl recorded
  | issue issued result refs wire ledger he hw elected sender message carries created applies
      recorded =>
    exact h.advanced (hx.creates created).1 (.issue _ hx created) (hx.created created) rfl recorded
  | deliver wire newState ledger ciphers applies coord recorded =>
    exact h.rewritten (hx.ciphers ciphers).1 (.cipher _ hx ciphers) (hx.ciphered ciphers) rfl
      (.inr recorded)
  | batch wire newState ledger ciphers applies coord recorded =>
    exact h.rewritten (hx.ciphers ciphers).1 (.cipher _ hx ciphers)
      (hx.ciphered ciphers) rfl recorded
  | _ => exact movesOn ⟨h.record, h.epoch, h.mls, h.memory⟩

theorem coreSteps (hx : x.engine.Counts epochOf)
    (hsteps : CoreSteps x c c') : MovesOn epochOf stored c' := by
  induction hsteps with
  | refl => exact h.movesOn
  | tail _ hstep ih =>
    obtain ⟨stored₁, h₁, hevolves₁⟩ := ih
    obtain ⟨stored₂, h₂, hevolves₂⟩ := h₁.coreStep hx hstep
    exact ⟨stored₂, h₂, hevolves₁.trans hevolves₂⟩

theorem dropped : InStep epochOf c.drop stored :=
  ⟨h.record, h.epoch, h.mls, .inl rfl⟩

theorem restored (hrecord : c.ledger.record = some found) :
    InStep epochOf { c with
      groupState := found.groupState, epoch := found.epoch,
      treeHash := found.treeHash } stored := by
  obtain rfl : stored = found := Option.some.inj (h.record.symm.trans hrecord)
  exact ⟨h.record, rfl, h.mls, .inr ⟨h.mls, .refl⟩⟩

end

theorem swapped (hswap : HealSwap x c c') (hmls : epochOf c'.groupState = c'.epoch) :
    ∃ stored, InStep epochOf c' stored := by
  obtain ⟨newState, newTreeHash, newEpoch, record, coord, saved, rfl, rfl, -⟩ := hswap
  exact ⟨record, rfl, rfl, hmls, .inr ⟨hmls, .refl⟩⟩

theorem arrive {s : State} (h : InStep epochOf s.core stored) (op : Op) :
    InStep epochOf (s.arrive op).core stored :=
  ⟨h.record, h.epoch, h.mls, h.memory⟩

end InStep

-- -------- Boots

def Boot.Stored (b : Boot) : Prop :=
  ∃ stored, b.storage.group = some stored ∧ stored.groupState = b.groupState ∧
    stored.epoch = b.epoch

section Boots

variable {epochOf : Bytes → Nat} {x : Ctx} {b b' : Boot} {s s' : State} {stored : GroupRecord}

theorem loadGroup_loads (h : loadGroup x b = .ok b') (hb : b.groupState ≠ [] → b.Stored) :
    b'.Stored := by
  obtain ⟨hne, rfl⟩ | ⟨-, stored, hgroup, rfl⟩ := loadGroup_cases h
  · exact hb hne
  · exact ⟨stored, hgroup, rfl, rfl⟩

theorem start_stored (h : start x b = .ok s) (hb : b.groupState ≠ [] → b.Stored) :
    ∃ stored, s.core.ledger.record = some stored ∧ stored.groupState = s.core.groupState ∧
      stored.epoch = s.core.epoch := by
  obtain ⟨b₁, b₂, lastCommitHash, hload, hhist, hcore⟩ := start_core h
  obtain ⟨stored, hgroup, hstate, hepoch⟩ := loadGroup_loads hload hb
  obtain ⟨hs₂, he₂, hg₂⟩ := loadHistory_rest hhist
  obtain ⟨hs, he, hg⟩ := rootHistory_rest (x := x) (b := b₂)
  rw [hcore]
  refine ⟨stored, ?_, ?_, ?_⟩
  · exact (congrArg Storage.group (hs.trans hs₂)).trans hgroup
  · exact hstate.trans (hg.trans hg₂).symm
  · exact hepoch.trans (he.trans he₂).symm

theorem InStep.of_start (h : start x b = .ok s) (hb : b.groupState ≠ [] → b.Stored)
    (hmls : ∀ stored, s.core.ledger.record = some stored →
      epochOf stored.groupState = stored.epoch) :
    ∃ stored, InStep epochOf s.core stored := by
  obtain ⟨stored, hrecord, hstate, hepoch⟩ := start_stored h hb
  have hmls := hmls stored hrecord
  exact ⟨stored, hrecord, hepoch, hmls, .inr ⟨by rw [← hstate, hmls, hepoch], by rw [hstate]⟩⟩

theorem Booted.inStep {allowed : World → Prop} (h : Booted node allowed s)
    (hmls : ∀ stored, s.core.ledger.record = some stored →
      epochOf stored.groupState = stored.epoch) : ∃ stored, InStep epochOf s.core stored := by
  cases h with
  | created w ok view storage hcreate hstart =>
    refine InStep.of_start hstart (fun _ => ?_) hmls
    obtain ⟨⟨groupState, treeHash⟩, -, h⟩ := bind_ok hcreate
    obtain ⟨db, hsave, h⟩ := bind_ok h
    obtain ⟨db', hcoord, h⟩ := bind_ok h
    cases h
    obtain ⟨-, stored, hgroup, hstate, hepoch⟩ := Storage.saveGroupRecord_ok hsave
    obtain ⟨-, -, rfl⟩ := Disk.exec_ok hcoord
    exact ⟨stored, hgroup, hstate, hepoch⟩
  | stored w ok view anchor storage hstart =>
    exact InStep.of_start hstart (fun hne => absurd (rebooted_nil _ view anchor storage) hne) hmls

theorem InStep.restart (h : InStep epochOf s.core stored)
    (hrestart : restart x view anchor s = .ok s') : InStep epochOf s'.core stored := by
  obtain ⟨s₁, hstart, hcore⟩ := restart_core hrestart
  have hrecord := (rebooted_tables hstart).1.trans h.record
  obtain ⟨stored', h₁⟩ : ∃ stored', InStep epochOf s₁.core stored' := InStep.of_start hstart
    (fun hne => absurd (rebooted_nil _ view anchor s.storage) hne) fun found hfound => by
      obtain rfl := Option.some.inj (hrecord.symm.trans hfound)
      exact h.mls
  obtain rfl := Option.some.inj (hrecord.symm.trans h₁.record)
  rw [hcore]
  exact ⟨h₁.record, h₁.epoch, h₁.mls, h₁.memory⟩

end Boots

-- -------- Jobs

/-- The state of a joined job is of the epoch the job says. -/
def ForkHealingJob.Joined (epochOf : Bytes → Nat) (job : ForkHealingJob) : Prop :=
  job.status = .externalJoined → job.pendingGroupState ≠ [] →
    epochOf job.pendingGroupState = job.pendingEpoch

def HealPhase.Joined (epochOf : Bytes → Nat) : HealPhase → Prop
  | .snapshot job | .join job | .awaiting job _ _ | .swap job => job.Joined epochOf
  | _ => True

structure Desk.Joined (epochOf : Bytes → Nat) (d : Desk) : Prop where
  rows : ∀ job ∈ d.jobs, job.Joined epochOf
  phase : ∀ r, d.heal = some r → r.phase.Joined epochOf

section Jobs

variable {epochOf : Bytes → Nat} {x : Ctx} {d d' : Desk} {r : HealRun} {job : ForkHealingJob}
  {node : Node} {a : Action} {s s' : State}

theorem ForkHealingJob.Joined.of_status (h : job.status ≠ .externalJoined) : job.Joined epochOf :=
  fun hstatus => absurd hstatus h

theorem Desk.Saves.joined (h : d.Saves x job d') (hrows : ∀ row ∈ d.jobs, row.Joined epochOf)
    (hjob : job.Joined epochOf) : ∀ row ∈ d'.jobs, row.Joined epochOf := by
  cases h with
  | failed => exact hrows
  | stored db db' jobs h =>
    change ∀ row ∈ db'.jobs, row.Joined epochOf
    rw [Storage.saveForkHealingJob_jobs h, jobs]
    exact Table.forall_mem_upsert hrows hjob fun _ _ _ => hjob

theorem Desk.Joined.enter (hrows : ∀ row ∈ d.jobs, row.Joined epochOf)
    (hphase : p.Joined epochOf) : (d.enter p).Joined epochOf := by
  refine ⟨hrows, fun r hr => ?_⟩
  obtain ⟨r', -, rfl⟩ := Option.map_eq_some_iff.mp hr
  exact hphase

theorem Heals.joined (h : Heals x wake d p d') (hd : d.Joined epochOf) (hr : d.heal = some r)
    (hp : r.phase = p) : d'.Joined epochOf := by
  have hphase := hp ▸ hd.phase r hr
  cases h with
  | find job found => exact .enter hd.rows (hd.rows job (List.mem_of_find?_eq_some found))
  | create job status missing saved =>
    have hjob : job.Joined epochOf := .of_status (by simp [status])
    exact .enter (saved.joined hd.rows hjob) hjob
  | skipSnapshot | skipJoin | retry => exact .enter hd.rows hphase
  | snapshot status saved =>
    exact .enter (saved.joined hd.rows (.of_status (by simp))) (.of_status (by simp))
  | join status bundle msg saved =>
    exact .enter (saved.joined hd.rows (.of_status (by simp))) (.of_status (by simp))
  | wait => exact hd
  | reload row found => exact .enter hd.rows (hd.rows row (List.mem_of_find?_eq_some found))
  | swap status pending saved | encrypted saved | clean status saved =>
    exact .enter (saved.joined hd.rows (.of_status (by simp))) trivial
  | release => exact ⟨hd.rows, fun r hr => by cases hr⟩
  | _ => exact .enter hd.rows trivial

theorem processWelcomeIfWaiting_joined (hx : x.engine.Counts epochOf)
    (hrows : ∀ row ∈ s.storage.jobs, row.Joined epochOf) :
    ∀ row ∈ (processWelcomeIfWaiting x bytes s).2.storage.jobs, row.Joined epochOf := by
  unfold processWelcomeIfWaiting
  split
  · split
    · exact hrows
    split
    · exact hrows
    next groupState treeHash epoch hwelcome =>
      exact (saveJob_saves _ rfl).joined hrows fun _ _ => hx.joined hwelcome
  · exact hrows

theorem resumeForkHealingJob_joined (hrows : ∀ row ∈ s.storage.jobs, row.Joined epochOf) :
    ∀ row ∈ (resumeForkHealingJob x s).storage.jobs, row.Joined epochOf := by
  unfold resumeForkHealingJob
  split
  · exact hrows
  rename_i job _
  have hskip : ∀ row ∈ (skipSwap x job { s with resuming := none }).storage.jobs,
      row.Joined epochOf := by
    unfold skipSwap
    split
    · exact (saveJob_saves (s := { s with resuming := none }) _ rfl).joined hrows
        (.of_status (by simp))
    · exact hrows
  dsimp only
  split <;> exact hskip

theorem step_rows_joined (hx : a.world.engine.Counts epochOf) (hheal : ∀ wake, a.op ≠ .heal wake)
    (hrestart : ∀ view anchor, a.op ≠ .restart view anchor)
    (hrows : ∀ row ∈ s.storage.jobs, row.Joined epochOf) (h : step node a s = some s') :
    ∀ row ∈ s'.storage.jobs, row.Joined epochOf := by
  by_cases hop : a.op.tendsHeal = false
  · rcases step_tends hop h with hsame | ⟨-, traceID, event, hopened⟩
    · have hjobs : s'.storage.jobs = s.storage.jobs := congrArg Desk.jobs hsame
      rwa [hjobs]
    · have hjobs : s'.storage.jobs = s.storage.jobs := congrArg Desk.jobs hopened
      rwa [hjobs]
  obtain ⟨w, fuel, op⟩ := a
  cases op with
  | restart view anchor => exact absurd rfl (hrestart view anchor)
  | heal wake => exact absurd rfl (hheal wake)
  | welcome bytes =>
    cases h
    exact processWelcomeIfWaiting_joined (x := { node, w with }) (s := s.arrive (.welcome bytes)) hx
      hrows
  | resumeHeal =>
    cases h
    exact resumeForkHealingJob_joined (s := s.arrive .resumeHeal) hrows
  | setMode | stop =>
    cases h
    exact hrows
  | _ => exact absurd rfl hop

theorem Desk.Joined.step (hd : s.desk.Joined epochOf) (hx : a.world.engine.Counts epochOf)
    (h : step node a s = some s') : s'.desk.Joined epochOf := by
  obtain ⟨view, anchor, hop, hrestarts⟩ | ⟨wake, hop, rfl⟩ | ⟨hrestart, hheal⟩ := step_kinds h
  · obtain ⟨hjobs, hnone, -⟩ := restart_desk hrestarts
    refine ⟨hjobs ▸ hd.rows, fun r hr => ?_⟩
    cases hnone.symm.trans hr
  · cases hr : s.heal with
    | none =>
      have hnone : (s.arrive a.op).heal = none := hr
      rw [healStep, hnone]
      exact hd
    | some r => exact (healStep_heals (s := s.arrive a.op) hr wake).joined hd hr rfl
  refine ⟨step_rows_joined hx hheal hrestart hd.rows h, fun r hr => ?_⟩
  rcases (step_desk_kept hheal hrestart h).1 with ⟨hsame, -⟩ | ⟨-, -, r', hr', hqueued⟩
  · exact hd.phase r (hsame.symm.trans hr)
  obtain rfl := Option.some.inj (hr'.symm.trans hr)
  rw [hqueued]
  trivial

end Jobs

-- -------- Between the two critical sections of a batch

def HealPhase.pending : HealPhase → Option Bytes
  | .assign _ _ _ _ newState _ => some newState
  | _ => none

def BatchReplay.pending : BatchReplay → Option Bytes
  | .assign _ _ _ _ newState _ => some newState
  | _ => none

/-- What cannot get to the MLS state: own messages during a heal, messages behind a closed inbox,
the critical sections of a heal that do not touch the group, and whatever is no request and no
replay of envelopes. -/
def Op.Quiet (s : State) : Op → Prop
  | .send .. => s.healing = true
  | .receive .. => s.operationalMode = .frozenForApply ∨ s.operationalMode = .catchingUp
  | .heal _ => ∀ r ∈ s.heal, r.phase.touches = false
  | op => op.unguarded = false

def ReplayingOp.Quiet (p : Replaying) : ReplayingOp → Prop
  | .coord a => a.op.Quiet p.state
  | .replay _ i => ∀ r ∈ p.replays[i]?, r.pending = none

/-- While a heal or a replay stands between its two critical sections, everything else keeps away
from the MLS state. -/
structure Orderly (epochOf : Bytes → Nat) (p : Replaying) (op : ReplayingOp) : Prop where
  engine : op.world.engine.Counts epochOf
  heal : ∀ r ∈ p.state.heal, r.phase.pending ≠ none →
    (∀ a wake, op = .coord a → a.op ≠ .heal wake) → op.Quiet p
  replays : ∀ (i : Nat), ∀ r ∈ p.replays[i]?, r.pending ≠ none →
    (∀ world, op ≠ .replay world i) → op.Quiet p

def UpToDate (epochOf : Bytes → Nat) (g newState : Bytes) : Prop :=
  ∃ engine : MLSEngine, engine.Counts epochOf ∧ Ciphers engine g newState

section Batches

variable {epochOf : Bytes → Nat} {x : Ctx} {s s' : State} {r r' : HealRun} {stored : GroupRecord}
  {node : Node} {a : Action}

theorem InStep.assigned {record : Option GroupRecord} (h : InStep epochOf s.core stored)
    (hcurrent : UpToDate epochOf s.core.groupState newState)
    (hrecord : record = s.core.ledger.record ∨ s.core.Records newState record) :
    MovesOn epochOf stored { s.core with
      groupState := newState, ledger := { s.core.ledger with record } } := by
  obtain ⟨engine, hengine, hciphers⟩ := hcurrent
  exact h.rewritten (hengine.ciphers hciphers).1 (.cipher engine hengine hciphers)
    (hengine.ciphered hciphers) rfl hrecord

/-- One critical section of a heal keeps the record in step, and moves it on unless it is the
swap. -/
theorem healStep_movesOn (h : InStep epochOf s.core stored) (hr : s.heal = some r)
    (hphase : r.phase.Joined epochOf)
    (hcurrent : ∀ newState, r.phase.pending = some newState →
      UpToDate epochOf s.core.groupState newState) (wake : HealWake) :
    MovesOn epochOf stored (healStep x wake s).core ∨
      s.AtSwap ∧ ∃ stored', InStep epochOf (healStep x wake s).core stored' := by
  by_cases htouches : r.phase.touches = false
  · rw [healStep_quiet hr htouches]
    exact .inl h.movesOn
  cases hp : r.phase with
  | join job =>
    simp only [healStep, hr, hp]
    rcases joinHeal_drops x job s with hcore | ⟨-, hcore⟩ <;> rw [hcore]
    · exact .inl h.movesOn
    · exact .inl h.dropped.movesOn
  | swap job =>
    simp only [healStep, hr, hp]
    rcases swapHeal_joins (x := x) job s with hcore | ⟨hstatus, hpending, hswap, hstate, hepoch⟩
    · rw [hcore]
      exact .inl h.movesOn
    rw [hp] at hphase
    refine .inr ⟨⟨r, job, hr, hp⟩, InStep.swapped hswap ?_⟩
    rw [hstate, hepoch]
    exact hphase hstatus hpending
  | assign job index chunk ciphertext newState rest =>
    simp only [healStep, hr, hp]
    obtain ⟨record, hrecord, hcore⟩ := assignHeal_overwrites (x := x) job index chunk ciphertext
      newState rest s
    rw [hcore]
    exact .inl (h.assigned (hcurrent newState (by rw [hp]; rfl)) hrecord)
  | restore =>
    simp only [healStep, hr, hp]
    rcases restoreHeal_restores (x := x) s with hcore | ⟨found, hfound, hcore⟩ <;> rw [hcore]
    · exact .inl h.movesOn
    · exact .inl (h.restored hfound).movesOn
  | _ => simp [hp, HealPhase.touches] at htouches

theorem Heals.pending (h : Heals x wake d p d') (hr : d.heal = some r) (hp : r.phase = p)
    (hr' : d'.heal = some r') (hpending : r'.phase.pending ≠ none) :
    ∃ job index chunk rest, p = .encrypt job index (chunk :: rest) := by
  cases h with
  | encrypt => exact ⟨_, _, _, _, rfl⟩
  | create _ _ _ saved | snapshot _ saved | join _ _ _ saved | swap _ _ saved | encrypted saved
  | clean _ saved =>
    obtain ⟨jobs, rfl⟩ := saved.rows
    simp only [Desk.enter, hr, Option.map_some, Option.some.injEq] at hr'
    rw [← hr'] at hpending
    exact absurd rfl hpending
  | wait =>
    obtain rfl := Option.some.inj (hr.symm.trans hr')
    rw [hp] at hpending
    exact absurd rfl hpending
  | release => cases hr'
  | _ =>
    simp only [Desk.enter, hr, Option.map_some, Option.some.injEq] at hr'
    rw [← hr'] at hpending
    exact absurd rfl hpending

theorem encryptHeal_upToDate (hx : x.engine.Counts epochOf)
    (hr' : (encryptHeal x job index chunks s).heal = some r')
    (hpending : r'.phase.pending = some newState) :
    UpToDate epochOf s.core.groupState newState := by
  unfold encryptHeal at hr'
  split at hr'
  · obtain ⟨r, -, rfl⟩ := Option.map_eq_some_iff.mp hr'
    cases hpending
  split at hr'
  · obtain ⟨r, -, rfl⟩ := Option.map_eq_some_iff.mp hr'
    cases hpending
  rename_i hencrypt
  obtain ⟨r, -, rfl⟩ := Option.map_eq_some_iff.mp hr'
  cases hpending
  exact ⟨x.engine, hx, .encrypted hencrypt⟩

theorem healStep_upToDate (hx : x.engine.Counts epochOf) (hr : s.heal = some r) (wake : HealWake)
    (hr' : (healStep x wake s).heal = some r') (hpending : r'.phase.pending = some newState) :
    UpToDate epochOf (healStep x wake s).core.groupState newState := by
  obtain ⟨job, index, chunk, rest, hp⟩ := (healStep_heals (x := x) hr wake).pending hr rfl hr'
    (by simp [hpending])
  rw [healStep_quiet hr (by simp [hp, HealPhase.touches])]
  simp only [healStep, hr, hp] at hr'
  exact encryptHeal_upToDate hx hr' hpending

theorem BatchReplay.step_core (replay : BatchReplay) (h : replay.pending = none) :
    (replay.step x s).2.core = s.core := by
  cases replay with
  | started =>
    change (openEvents x s).2.core = s.core
    unfold openEvents
    dsimp only
    split
    · rfl
    · exact congrArg Prod.fst (foldl_openOrphan_skirts _ ([], s)).same
  | encrypt jobID index chunks =>
    cases chunks with
    | nil => rfl
    | cons chunk rest =>
      simp only [BatchReplay.step]
      split
      · exact State.foldl_core _ (fun s _ => saveEvent_core s) _ s
      · rfl
  | assign => cases h

theorem BatchReplay.step_desk (replay : BatchReplay) : (replay.step x s).2.desk = s.desk := by
  cases replay with
  | started =>
    change (openEvents x s).2.desk = s.desk
    unfold openEvents
    dsimp only
    split
    · rfl
    · exact congrArg Prod.snd (foldl_openOrphan_skirts _ ([], s)).same
  | encrypt jobID index chunks =>
    cases chunks with
    | nil => rfl
    | cons chunk rest =>
      simp only [BatchReplay.step]
      split
      · exact State.foldl_desk _ (fun s _ => saveEvent_desk s) _ s
      · rfl
  | assign jobID index chunk ciphertext newState rest =>
    have hassign := assignHeal_desk (x := x) { jobID, traceID := "", status := .stateSwapped } index
      chunk ciphertext newState [] s
    exact congrArg (fun d : Desk => { d with heal := s.heal }) hassign

theorem BatchReplay.step_movesOn (replay : BatchReplay) (h : InStep epochOf s.core stored)
    (hcurrent : ∀ newState, replay.pending = some newState →
      UpToDate epochOf s.core.groupState newState) :
    MovesOn epochOf stored (replay.step x s).2.core := by
  cases hpending : replay.pending with
  | none =>
    rw [replay.step_core hpending]
    exact h.movesOn
  | some newState =>
    cases replay with
    | assign jobID index chunk ciphertext newState' rest =>
      cases hpending
      obtain ⟨record, hrecord, hcore⟩ := assignHeal_overwrites (x := x)
        { jobID, traceID := "", status := .stateSwapped } index chunk ciphertext newState [] s
      change MovesOn epochOf stored (assignHeal x _ index chunk ciphertext newState [] s).core
      rw [hcore]
      exact h.assigned (hcurrent newState rfl) hrecord
    | _ => cases hpending

theorem BatchReplay.step_upToDate (hx : x.engine.Counts epochOf) (replay next : BatchReplay)
    (hnext : (replay.step x s).1 = some next) (hpending : next.pending = some newState) :
    UpToDate epochOf (replay.step x s).2.core.groupState newState := by
  cases replay with
  | started =>
    change (openEvents x s).1 = some next at hnext
    unfold openEvents at hnext
    dsimp only at hnext
    split at hnext
    · cases hnext
    · cases hnext
      cases hpending
  | encrypt jobID index chunks =>
    cases chunks with
    | nil => cases hnext
    | cons chunk rest =>
      rw [BatchReplay.step_core _ rfl]
      simp only [BatchReplay.step] at hnext
      split at hnext
      · cases hnext
        cases hpending
      rename_i hencrypt
      cases hnext
      cases hpending
      exact ⟨x.engine, hx, .encrypted hencrypt⟩
  | assign =>
    cases hnext
    cases hpending

end Batches

-- -------- Runs

structure Consistent (epochOf : Bytes → Nat) (p : Replaying) : Prop where
  inStep : ∃ stored, InStep epochOf p.state.core stored
  joined : p.state.desk.Joined epochOf
  heal : ∀ r ∈ p.state.heal, ∀ newState, r.phase.pending = some newState →
    UpToDate epochOf p.state.core.groupState newState
  replays : ∀ (i : Nat), ∀ r ∈ p.replays[i]?, ∀ newState, r.pending = some newState →
    UpToDate epochOf p.state.core.groupState newState

def ReplayingOp.Swaps (p : Replaying) (op : ReplayingOp) : Prop :=
  p.state.AtSwap ∧ ∃ a wake, op = .coord a ∧ a.op = .heal wake

section Steps

variable {epochOf : Bytes → Nat} {node : Node} {p p' : Replaying} {a : Action} {s s' : State}
  {stored : GroupRecord}

/-- Every event of the coordinator keeps the record in step, and moves it on unless it is a swap. -/
theorem step_movesOn (h : InStep epochOf s.core stored) (hjoined : s.desk.Joined epochOf)
    (hcurrent : ∀ r ∈ s.heal, ∀ newState, r.phase.pending = some newState →
      UpToDate epochOf s.core.groupState newState)
    (hx : a.world.engine.Counts epochOf) (hstep : step node a s = some s') :
    MovesOn epochOf stored s'.core ∨ (s.AtSwap ∧ ∃ wake, a.op = .heal wake) ∧
      ∃ stored', InStep epochOf s'.core stored' := by
  obtain ⟨view, anchor, hop, hrestarts⟩ | ⟨wake, hop, rfl⟩ | ⟨hrestart, hheal⟩ := step_kinds hstep
  · exact .inl (h.restart hrestarts).movesOn
  · cases hr : s.heal with
    | none =>
      have hnone : (s.arrive a.op).heal = none := hr
      rw [healStep, hnone]
      exact .inl (h.arrive a.op).movesOn
    | some r =>
      exact (healStep_movesOn (s := s.arrive a.op) (h.arrive a.op) hr (hjoined.phase r hr)
        (hcurrent r hr) wake).imp_right fun h => ⟨⟨h.1, wake, hop⟩, h.2⟩
  exact .inl ((h.arrive a.op).coreSteps hx (step_moves hheal hrestart hstep).steps)

theorem step_quiet (hquiet : a.op.Quiet s) (hrestart : ∀ view anchor, a.op ≠ .restart view anchor)
    (h : step node a s = some s') : s'.core.groupState = s.core.groupState := by
  by_cases hheal : ∃ wake, a.op = .heal wake
  · obtain ⟨wake, hop⟩ := hheal
    rw [hop] at hquiet
    obtain rfl := step_heal hop h
    cases hr : s.heal with
    | none =>
      have hnone : (s.arrive a.op).heal = none := hr
      rw [healStep, hnone]
      rfl
    | some r =>
      rw [healStep_quiet (s := s.arrive a.op) hr (hquiet r hr)]
      rfl
  have hheal wake hop := hheal ⟨wake, hop⟩
  have hguard : a.op.unguarded = false := by
    cases hop : a.op with
    | heal wake => exact absurd hop (hheal wake)
    | _ => simp_all [Op.Quiet, Op.unguarded]
  have hkept :=
    step_guarded hheal hrestart hguard (fun _ _ hop => by rw [hop] at hquiet; exact hquiet)
    (fun _ _ hop => by rw [hop] at hquiet; exact hquiet) h
  exact congrArg Prod.fst hkept

theorem Replaying.step_coord (h : p.step node (.coord a) = some p') :
    GroupCoordination.step node a p.state = some p'.state ∧
      ((∃ view anchor, a.op = .restart view anchor) ∧ p'.replays = [] ∨
        (∀ view anchor, a.op ≠ .restart view anchor) ∧
        ∃ n, p'.replays = p.replays ++ List.replicate n .started) := by
  obtain ⟨s', hnext, rfl⟩ := Option.map_eq_some_iff.mp h
  split
  next view anchor hop =>
    exact ⟨hnext, .inl ⟨⟨view, anchor, hop⟩, rfl⟩⟩
  next hop =>
    exact ⟨hnext, .inr ⟨hop, _, rfl⟩⟩

theorem Replaying.step_replay (h : p.step node (.replay world i) = some p') :
    ∃ replay, p.replays[i]? = some replay ∧
      p'.state = (replay.step { node, world with } p.state).2 ∧
      ∀ (j : Nat) r, p'.replays[j]? = some r → (∃ k ≠ i, p.replays[k]? = some r) ∨
        (replay.step { node, world with } p.state).1 = some r := by
  unfold Replaying.step at h
  dsimp only at h
  split at h
  · cases h
  rename_i replay hreplay
  refine ⟨replay, hreplay, ?_⟩
  split at h
  next next state heq =>
    cases h
    rw [heq]
    refine ⟨rfl, fun j r hr => ?_⟩
    by_cases hj : j = i
    · subst hj
      rw [List.getElem?_set_self (List.getElem?_eq_some_iff.mp hreplay).1] at hr
      exact .inr hr
    · rw [List.getElem?_set_ne (Ne.symm hj)] at hr
      exact .inl ⟨j, hj, hr⟩
  next state heq =>
    cases h
    rw [heq]
    refine ⟨rfl, fun j r hr => .inl ?_⟩
    rw [List.getElem?_eraseIdx] at hr
    split at hr
    · exact ⟨j, by omega, hr⟩
    · exact ⟨j + 1, by omega, hr⟩

end Steps

namespace Consistent

variable {epochOf : Bytes → Nat} {node : Node} {p p' : Replaying} {op : ReplayingOp} {a : Action}
  {s' : State} {r : HealRun} {stored : GroupRecord}

section

variable (h : Consistent epochOf p)

include h

theorem movesOn (hx : op.world.engine.Counts epochOf)
    (hstored : InStep epochOf p.state.core stored) (hstep : p.step node op = some p') :
    MovesOn epochOf stored p'.state.core ∨
      op.Swaps p ∧ ∃ stored', InStep epochOf p'.state.core stored' := by
  cases op with
  | coord a =>
    refine (step_movesOn hstored h.joined h.heal hx (Replaying.step_coord hstep).1).imp_right ?_
    rintro ⟨⟨hswap, wake, hop⟩, hstored'⟩
    exact ⟨⟨hswap, a, wake, rfl, hop⟩, hstored'⟩
  | replay world i =>
    obtain ⟨replay, hreplay, hstate, -⟩ := Replaying.step_replay hstep
    rw [hstate]
    exact .inl (replay.step_movesOn hstored (h.replays i replay hreplay))

theorem coord_heal (ok : Orderly epochOf p (.coord a))
    (hnext : GroupCoordination.step node a p.state = some s') (hr : s'.heal = some r)
    (hpending : r.phase.pending = some newState) :
    UpToDate epochOf s'.core.groupState newState := by
  obtain ⟨view, anchor, hop, hrestarts⟩ | ⟨wake, hop, rfl⟩ | ⟨hrestart, hheal⟩ := step_kinds hnext
  · cases (restart_idle hrestarts).1.symm.trans hr
  · cases hr₀ : p.state.heal with
    | none =>
      have hnone : (p.state.arrive a.op).heal = none := hr₀
      rw [healStep, hnone] at hr
      cases hnone.symm.trans hr
    | some r₀ => exact healStep_upToDate (s := p.state.arrive a.op) ok.engine hr₀ wake hr hpending
  rcases (step_desk_kept hheal hrestart hnext).1 with ⟨hsame, -⟩ | ⟨-, -, r', hr', hqueued⟩
  · have hr := hsame.symm.trans hr
    have hquiet : a.op.Quiet p.state := ok.heal r hr (by simp [hpending]) fun a' wake heq => by
      cases heq
      exact hheal wake
    rw [step_quiet hquiet hrestart hnext]
    exact h.heal r hr newState hpending
  · obtain rfl := Option.some.inj (hr'.symm.trans hr)
    rw [hqueued] at hpending
    cases hpending

theorem coord (ok : Orderly epochOf p (.coord a))
    (hstep : p.step node (.coord a) = some p') : Consistent epochOf p' := by
  obtain ⟨hnext, hreplays⟩ := Replaying.step_coord hstep
  obtain ⟨stored, hstored⟩ := h.inStep
  have hinStep : ∃ stored, InStep epochOf p'.state.core stored := by
    rcases h.movesOn ok.engine hstored hstep with ⟨stored', hstored', -⟩ | ⟨-, hstored'⟩
    · exact ⟨stored', hstored'⟩
    · exact hstored'
  refine ⟨hinStep, h.joined.step ok.engine hnext, fun r hr newState hpending => ?_,
    fun i r hr newState hpending => ?_⟩
  · exact h.coord_heal ok hnext hr hpending
  rcases hreplays with ⟨-, hnone⟩ | ⟨hrestart, n, happend⟩
  · rw [hnone] at hr
    cases hr
  rw [happend, List.getElem?_append] at hr
  split at hr
  · have hquiet := ok.replays i r hr (by simp [hpending]) fun _ heq => by cases heq
    rw [step_quiet hquiet hrestart hnext]
    exact h.replays i r hr newState hpending
  · obtain rfl := List.eq_of_mem_replicate (List.mem_of_getElem? hr)
    cases hpending

theorem replay (ok : Orderly epochOf p (.replay world i))
    (hstep : p.step node (.replay world i) = some p') : Consistent epochOf p' := by
  obtain ⟨replay, hreplay, hstate, hreplays⟩ := Replaying.step_replay hstep
  obtain ⟨stored, hstored⟩ := h.inStep
  have hdesk : p'.state.desk = p.state.desk := by
    rw [hstate]
    exact replay.step_desk
  have hkept (hquiet : (ReplayingOp.replay world i).Quiet p) :
      p'.state.core.groupState = p.state.core.groupState := by
    rw [hstate, replay.step_core (hquiet replay hreplay)]
  refine ⟨?_, hdesk ▸ h.joined, fun r hr newState hpending => ?_,
    fun j r hr newState hpending => ?_⟩
  · rcases h.movesOn ok.engine hstored hstep with ⟨stored', hstored', -⟩ | ⟨-, hstored'⟩
    · exact ⟨stored', hstored'⟩
    · exact hstored'
  · have hr : p.state.heal = some r := (congrArg Desk.heal hdesk).symm.trans hr
    rw [hkept (ok.heal r hr (by simp [hpending]) fun _ _ heq => by cases heq)]
    exact h.heal r hr newState hpending
  rcases hreplays j r hr with ⟨k, hk, hold⟩ | hnext
  · rw [hkept (ok.replays k r hold (by simp [hpending]) ?_)]
    · exact h.replays k r hold newState hpending
    rintro world' heq
    cases heq
    exact hk rfl
  · rw [hstate]
    exact replay.step_upToDate ok.engine r hnext hpending

theorem step (ok : Orderly epochOf p op)
    (hstep : p.step node op = some p') : Consistent epochOf p' := by
  cases op with
  | coord a => exact h.coord ok hstep
  | replay world i => exact h.replay ok hstep

end

end Consistent

/-- In every run in which nothing gets between the two critical sections of a batch, the record is
of the epoch of its MLS state, and so is the memory, whose state is the stored one or a later one;
and every next event but a swap leaves a record that is the present one or a later one. -/
theorem mls_updates_are_not_lost (node : Node) (epochOf : Bytes → Nat) (p₀ p : Replaying)
    (boot : Booted node (fun _ => True) p₀.state) (idle : p₀.replays = [])
    (mls : ∀ stored, p₀.state.storage.group = some stored →
      epochOf stored.groupState = stored.epoch)
    (jobs : ∀ job ∈ p₀.state.storage.jobs, job.Joined epochOf)
    (run : Transition.Run (Replaying.step node) (Orderly epochOf) p₀ p) :
    ∃ stored, InStep epochOf p.state.core stored ∧
      ∀ op p', Orderly epochOf p op → p.step node op = some p' → ¬ op.Swaps p →
        ∃ stored', p'.state.storage.group = some stored' ∧
          Evolves (·.Counts epochOf) stored.groupState stored'.groupState := by
  have hstart : Consistent epochOf p₀ := by
    refine ⟨boot.inStep mls, ⟨jobs, fun r hr => ?_⟩, fun r hr => ?_, fun i r hr => ?_⟩
    · exact absurd (boot.idle.1.symm.trans hr) nofun
    · exact absurd (boot.idle.1.symm.trans hr) nofun
    · rw [idle] at hr
      cases hr
  have hconsistent := run.invariant (Consistent epochOf) hstart fun _ _ _ h ok next =>
    h.step ok next
  obtain ⟨stored, hstored⟩ := hconsistent.inStep
  refine ⟨stored, hstored, fun op p' ok next hswap => ?_⟩
  rcases hconsistent.movesOn ok.engine hstored next with ⟨stored', hnext, hevolves⟩ | ⟨hswaps, -⟩
  · exact ⟨stored', hnext.record, hevolves⟩
  · exact absurd hswaps hswap

namespace Reference

theorem epoch_store (e : Byte) (ids : Bytes) (id : Byte) : epoch (store e ids id) = e := by
  unfold store
  split <;> rfl

theorem engine_counts : engine.Counts epoch where
  toNeedsState := engine_needsState
  proposed h := by
    cases h with
    | created h =>
      obtain ⟨e, ids, id, rfl, -, rfl⟩ := createProposal_ok h
      exact epoch_store e ids id
    | processed h =>
      obtain ⟨e, ids, id, rfl, -, rfl⟩ := processProposal_ok h
      exact epoch_store e ids id
  ciphered h := by
    cases h with
    | encrypted h => rw [(encryptMessage_ok h).1]
    | decrypted h => rw [(decryptMessage_ok h).1]
  accepted h := by
    obtain ⟨⟨e, refs⟩, hstage, hresult⟩ := map_ok h.processed
    cases hresult
    obtain ⟨ids, committed, rfl, hlast, -⟩ := stage_ok hstage
    exact epoch_succ hlast
  created h := by
    obtain ⟨e, ids, rfl, hlast, hnew⟩ := createCommit_ok h
    rw [hnew]
    exact epoch_succ hlast
  joined h := by
    simp only [engine] at h
    split at h
    · cases h
      rfl
    · cases h

def halfHealed : Storage where
  jobs := [{ joinedJob with pendingGroupState := [1, 1] }]
  applicationEvents := [{
    eventID := "event", jobID := "job", originalEpoch := 0, authorID := "A", payloadSealed := [7],
    sealNonce := [0], status := .orphanedOwn }]

def encrypts : List ReplayingOp :=
  (.resumeHeal :: List.replicate 6 (.heal .signal)).map fun op => .coord (action op)

def storesInTurn : List ReplayingOp :=
  encrypts ++ [.coord (action (.heal .signal)), .coord (action (.replay [looseCommit 1])),
    .replay world 0]

def isHeal : ReplayingOp → Bool
  | .coord { op := .heal _, .. } => true
  | _ => false

def InTurn (p : Replaying) (op : ReplayingOp) : Prop :=
  (∀ r ∈ p.replays, r.pending = none) ∧
    ∀ r ∈ p.state.heal, r.phase.pending = none ∨ isHeal op = true

instance (p : Replaying) (op : ReplayingOp) : Decidable (InTurn p op) := by
  unfold InTurn
  infer_instance

theorem InTurn.orderly (h : InTurn p op) (hworld : op.world = world) : Orderly epoch p op := by
  refine ⟨hworld ▸ engine_counts, fun r hr hpending hop => ?_, fun i r hr hpending _ => ?_⟩
  · have hheal := (h.2 r hr).resolve_left hpending
    unfold isHeal at hheal
    split at hheal
    · exact absurd rfl (hop _ _ rfl)
    · cases hheal
  · exact absurd (h.1 r (List.mem_of_getElem? hr)) hpending

end Reference

open Reference in
/-- A batch that is stored before the next commit. -/
theorem batch_stored_in_turn :
    ∃ s p stored, foundsOver halfHealed [65] = some s ∧
      Transition.Run (Replaying.step (member [65])) (Orderly epoch)
        { state := s } p ∧
      p.state.groupState = [1, 2] ∧ p.state.epoch = 2 ∧ p.state.storage.outboundReplays.length = 1 ∧
      InStep epoch p.state.core stored := by
  obtain ⟨s, hs, p, hexec, hmls, hjobs, hstate, hepoch, hsent⟩ :
      ∃ s, foundsOver halfHealed [65] = some s ∧
      ∃ p, Transition.exec (fun op p => if decide (InTurn p op) then
          Replaying.step (member [65]) op p else none) storesInTurn { state := s } = some p ∧
        (∀ stored ∈ s.storage.group, epoch stored.groupState = stored.epoch) ∧
        (∀ job ∈ s.storage.jobs, epoch job.pendingGroupState = job.pendingEpoch) ∧
        p.state.groupState = [1, 2] ∧ p.state.epoch = 2 ∧
        p.state.storage.outboundReplays.length = 1 := by
    decide +kernel
  have run : Transition.Run (Replaying.step (member [65])) (Orderly epoch)
      { state := s } p := .of_checked _ hexec fun q op hop hok => by
    refine (of_decide_eq_true hok : InTurn q op).orderly ?_
    simp only [storesInTurn, encrypts, List.mem_append, List.mem_map,
      List.mem_cons, List.not_mem_nil, or_false] at hop
    rcases hop with ⟨_, -, rfl⟩ | rfl | rfl | rfl <;> rfl
  obtain ⟨stored, hstored, -⟩ := mls_updates_are_not_lost (member [65]) epoch
    { state := s } p (foundsOver_booted hs trivial) rfl hmls
    (fun job hjob _ _ => hjobs job hjob) run
  exact ⟨s, p, stored, hs, run, hstate, hepoch, hsent, hstored⟩

open Reference in
/-- A commit that is replayed between the two critical sections is lost: the record and the memory
are in epoch 2 with the MLS state of epoch 1. -/
theorem late_batch_overwrites_commit :
    ∃ s p p' p'', foundsOver halfHealed [65] = some s ∧
      Transition.exec (Replaying.step (member [65])) encrypts { state := s } =
        some p ∧
      Replaying.step (member [65])
        (.coord (action (.replay [looseCommit 1]))) p = some p' ∧
      Replaying.step (member [65]) (.coord (action (.heal .signal))) p' =
        some p'' ∧
      p'.state.groupState = [1, 2] ∧ p'.state.epoch = 2 ∧
      p'.state.storage.group.map (fun stored => (stored.groupState, stored.epoch)) =
        some ([1, 2], 2) ∧
      p''.state.groupState = [1, 1] ∧ p''.state.epoch = 2 ∧
      p''.state.storage.group.map (fun stored => (stored.groupState, stored.epoch)) =
        some ([1, 1], 2) ∧ epoch [1, 1] = 1 := by
  simp only [exists_and_left]
  decide +kernel

end GroupCoordination
