import GroupCoordination.Model.Reference
import GroupCoordination.Refinement.Boot
import GroupCoordination.Refinement.Operations

/-!
# Every component is in the same epoch

The epoch is kept five times: by the coordinator, its tracker, its single writer, the
stored record and the head of the history. `EpochsAgree` says that the first four agree
and that no message is still kept for an epoch that has begun, `HistoryHead` that the
history hash is the chain's entry of the epoch. Both survive every step of the protocol
and of a heal, and every boot establishes them.
-/

namespace GroupCoordination

structure EpochsAgree (c : Core) : Prop where
  tracker : c.epochTracker.epoch = c.epoch
  writer : c.singleWriter.epoch = c.epoch
  record : ∃ stored, c.ledger.record = some stored ∧ stored.epoch = c.epoch
  ahead : ∀ key, c.epochTracker.futureBuffer key ≠ [] → c.epoch < key

namespace EpochsAgree

variable {x : Ctx} {c c' : Core}

-- -------- Steps

theorem records {record : Option GroupRecord} (h : c.Records newState record) :
    ∃ stored, record = some stored ∧ stored.epoch = c.epoch := by
  obtain ⟨stored, hr, -, he⟩ := h
  exact ⟨stored, hr, he⟩

theorem bufferFuture (h : EpochsAgree c) (hk : c.epochTracker.epoch < key) :
    ∀ k, (c.epochTracker.bufferFuture key wire).futureBuffer k ≠ [] → c.epoch < k := by
  intro k hne
  rw [EpochTracker.bufferFuture_of_lt hk] at hne
  by_cases he : k = key
  · rw [he, ← h.tracker]
    exact hk
  · exact h.ahead k (by simpa [he] using hne)

theorem enterEpoch (newState newTreeHash commitData : Bytes)
    (hl : ∃ stored, ledger.record = some stored ∧ stored.epoch = c.epoch + 1) :
    EpochsAgree (c.enterEpoch x newState newTreeHash commitData ledger) where
  tracker := rfl
  writer := rfl
  record := hl
  ahead := by
    intro key hne
    by_contra hle
    exact hne (if_pos (Nat.not_lt.mp hle))

section

variable (h : EpochsAgree c)

include h

theorem congr (he : c'.epoch = c.epoch)
    (ht : c'.epochTracker = c.epochTracker) (hw : c'.singleWriter.epoch = c.singleWriter.epoch)
    (hr : ∃ stored, c'.ledger.record = some stored ∧ stored.epoch = c.epoch) :
    EpochsAgree c' where
  tracker := by rw [ht, he, h.tracker]
  writer := by rw [hw, he, h.writer]
  record := he ▸ hr
  ahead := by rw [ht, he]; exact h.ahead

theorem coreStep (hstep : CoreStep x c c') : EpochsAgree c' := by
  cases hstep with
  | view members => exact h.congr rfl rfl rfl h.record
  | suspend pid => exact h.congr rfl rfl (SingleWriter.suspend_epoch _) h.record
  | retain key wire source env _ _ _ hk =>
    exact ⟨(EpochTracker.bufferFuture_epoch _).trans h.tracker, h.writer, h.record,
      h.bufferFuture hk⟩
  | take key wire rest next => exact h.congr rfl rfl rfl h.record
  | propose p newState record _ recorded =>
    exact h.congr rfl rfl (SingleWriter.bufferProposal_epoch _) (records recorded)
  | commit env wire commit newState newTreeHash ledger _ _ _ _ _ _ stored =>
    obtain ⟨r, hr, -, he⟩ := stored
    have henter := enterEpoch (x := x) newState newTreeHash commit.commitData ⟨r, hr, he⟩
    exact henter.congr rfl rfl rfl henter.record
  | refuse env wire commit => exact h.congr rfl rfl rfl h.record
  | issue issued result refs wire ledger _ _ _ _ _ _ _ _ stored =>
    obtain ⟨r, hr, -, he⟩ := stored
    have henter := enterEpoch (x := x) result.newGroupState result.newTreeHash result.commitBytes
      ⟨r, hr, he⟩
    exact henter.congr rfl rfl rfl henter.record
  | drain applied _ =>
    refine h.congr rfl rfl ?_ h.record
    exact (SingleWriter.drainBatchByData_epoch _).trans (SingleWriter.drainBatchByRefs_epoch _)
  | deliver wire newState ledger _ _ _ recorded => exact h.congr rfl rfl rfl (records recorded)
  | batch wire newState ledger _ _ _ recorded =>
    rcases recorded with hr | hr
    · exact h.congr rfl rfl rfl (hr ▸ h.record)
    · exact h.congr rfl rfl rfl (records hr)
  | persist | tell claim | suspect event => exact h.congr rfl rfl rfl h.record

theorem coreSteps (hsteps : CoreSteps x c c') : EpochsAgree c' := by
  induction hsteps with
  | refl => exact h
  | tail _ hstep ih => exact ih.coreStep hstep

theorem restored (here : c.ledger.record = some stored) : stored.epoch = c.epoch := by
  obtain ⟨stored', hr, he⟩ := h.record
  obtain rfl : stored = stored' := Option.some.inj (here.symm.trans hr)
  exact he

theorem healEdit (hstep : HealEdit x c c') : EpochsAgree c' := by
  cases hstep with
  | drop => exact h.congr rfl rfl rfl h.record
  | restore stored here => exact h.congr (h.restored here) rfl rfl h.record
  | overwrite newState record recorded =>
    rcases recorded with hr | hr
    · exact h.congr rfl rfl rfl (hr ▸ h.record)
    · exact h.congr rfl rfl rfl (records hr)

end

theorem healSwap (hstep : HealSwap x c c') : EpochsAgree c' := by
  obtain ⟨newState, newTreeHash, newEpoch, record, coord, saved, -, hepoch, -⟩ := hstep
  exact ⟨rfl, rfl, ⟨record, rfl, hepoch⟩, fun _ hne => absurd rfl hne⟩

end EpochsAgree

def HistoryHead (c : Core) : Prop := c.historyChain.get c.epoch = some c.historyHash

namespace HistoryHead

variable {x : Ctx} {c c' : Core}

theorem coreStep (h : HistoryHead c) (hstep : CoreStep x c c') : HistoryHead c' := by
  cases hstep with
  | commit | issue => exact extendHistory_head x
  | _ => exact h

theorem coreSteps (h : HistoryHead c) (hsteps : CoreSteps x c c') : HistoryHead c' := by
  induction hsteps with
  | refl => exact h
  | tail _ hstep ih => exact ih.coreStep hstep

theorem healEdit (h : HistoryHead c) (ha : EpochsAgree c) (hstep : HealEdit x c c') :
    HistoryHead c' := by
  cases hstep with
  | drop => exact h
  | restore stored here =>
    rw [HistoryHead, ha.restored here]
    exact h
  | overwrite => exact h

theorem healSwap (hstep : HealSwap x c c') : HistoryHead c' := by
  obtain ⟨newState, newTreeHash, newEpoch, record, -, -⟩ := hstep
  exact HistoryChain.get_set_self _

end HistoryHead

-- -------- Boots

def Boot.Recorded (b : Boot) :
    Prop := ∃ stored, b.storage.group = some stored ∧ stored.epoch = b.epoch

def Boot.Anchored (b : Boot) : Prop :=
  b.historyHash = none ∨
    b.historyChain.get b.epoch = some b.historyHash ∧
      ∀ coord, b.storage.coord = some coord →
        coord.historyChain = [] ∨ coord.historyChain.get b.epoch ≠ none

section Boots

variable {x : Ctx} {b b' : Boot} {s : State}

theorem loadGroup_recorded (h : loadGroup x b = .ok b') (hb : b.Recorded ∨ b.groupState = []) :
    b'.Recorded := by
  obtain ⟨hne, rfl⟩ | ⟨-, stored, hgroup, rfl⟩ := loadGroup_cases h
  · exact hb.resolve_right hne
  · exact ⟨stored, hgroup, rfl⟩

theorem loadGroup_anchored (h : loadGroup x b = .ok b')
    (hb : b.Recorded ∧ b.Anchored ∨ b.groupState = [] ∧ b.historyHash = none) : b'.Anchored := by
  obtain ⟨hne, rfl⟩ | ⟨-, stored, hgroup, rfl⟩ := loadGroup_cases h
  · exact (hb.resolve_right fun hnil => hne hnil.1).2
  rcases hb with ⟨⟨stored', hg', he⟩, hanch⟩ | ⟨-, hnone⟩
  · obtain rfl : stored = stored' := Option.some.inj (hgroup.symm.trans hg')
    rw [Boot.Anchored, he]
    exact hanch
  · exact .inl hnone

theorem loadHistory_head (h : loadHistory x b = .ok (lastCommitHash, b')) (hb : b.Anchored) :
    b'.historyHash = none ∨ b'.historyChain.get b'.epoch = some b'.historyHash := by
  have hkeep : b.historyHash = none ∨ b.historyChain.get b.epoch = some b.historyHash :=
    hb.imp_right And.left
  unfold loadHistory at h
  split at h
  · split at h
    · cases h
    · cases h
      exact hkeep
  rename_i coord hget
  split at h
  · cases h
    exact hkeep
  rename_i hne
  cases h
  dsimp only
  split
  next entry hentry =>
    exact .inr hentry
  rename_i hmissing
  rcases hb with hnone | ⟨-, hentry⟩
  · exact .inl hnone
  · have hcoord := Storage.getCoordState_ok hget
    exact absurd hmissing ((hentry coord hcoord).resolve_left hne)

theorem rootHistory_head
    (hb : b.historyHash = none ∨ b.historyChain.get b.epoch = some b.historyHash) :
    (rootHistory x b).historyChain.get (rootHistory x b).epoch =
      some (rootHistory x b).historyHash := by
  unfold rootHistory
  split
  next head hsome =>
    rcases hb with hnone | hentry
    · rw [hnone] at hsome
      cases hsome
    · exact hentry
  · exact HistoryChain.get_set_self _

theorem start_epochsAgree (h : start x b = .ok s) (hb : b.Recorded ∨ b.groupState = []) :
    EpochsAgree s.core := by
  obtain ⟨b₁, b₂, lastCommitHash, hload, hhist, hcore⟩ := start_core h
  obtain ⟨hs, he, -⟩ := rootHistory_rest (x := x) (b := b₂)
  rw [hcore]
  refine ⟨rfl, rfl, ?_, fun _ hne => absurd rfl hne⟩
  change (rootHistory x b₂).Recorded
  rw [Boot.Recorded, hs, he, (loadHistory_rest hhist).1, (loadHistory_rest hhist).2.1]
  exact loadGroup_recorded hload hb

theorem start_historyHead (h : start x b = .ok s)
    (hb : b.Recorded ∧ b.Anchored ∨ b.groupState = [] ∧ b.historyHash = none) :
    HistoryHead s.core := by
  obtain ⟨b₁, b₂, lastCommitHash, hload, hhist, hcore⟩ := start_core h
  rw [hcore]
  exact rootHistory_head (loadHistory_head hhist (loadGroup_anchored hload hb))

theorem createGroup_recorded (h : createGroup x b = .ok b') (hb : b.historyHash = none) :
    b'.Recorded ∧ b'.Anchored := by
  unfold createGroup at h
  obtain ⟨⟨groupState, treeHash⟩, -, h⟩ := Fallible.bind_ok h
  obtain ⟨db, hsave, h⟩ := Fallible.bind_ok h
  obtain ⟨db', hcoord, h⟩ := Fallible.bind_ok h
  cases h
  obtain ⟨-, stored, hg, -, he⟩ := Storage.saveGroupRecord_ok hsave
  obtain ⟨-, -, rfl⟩ := Disk.exec_ok hcoord
  exact ⟨⟨stored, hg, he⟩, .inl hb⟩

/-- A boot from the database. The anchor counts only if it is also in the stored chain, so
its write must not fail. -/
theorem rebooted_recorded (db : Storage) (hw : x.works db.writes .saveCoordState = true)
    (view : List PeerID) (anchor : Option (Option Bytes)) :
    (rebooted x view anchor db).Recorded ∧ (rebooted x view anchor db).Anchored ∨
      (rebooted x view anchor db).groupState = [] ∧
        (rebooted x view anchor db).historyHash = none := by
  unfold rebooted
  dsimp only
  split
  next hash stored hg =>
    have hsave := Storage.saveCoordState_works (d := x.disk) db hw
      { lastCommitHash := [], historyChain := HistoryChain.set [] stored.epoch hash }
    left
    constructor
    · refine ⟨stored, ?_, rfl⟩
      simpa [seedHistoryAnchor, newCoordinator, hsave, Storage.written] using hg
    right
    constructor
    · exact HistoryChain.get_set_self _
    intro coord hcoord
    right
    obtain rfl : _ = coord := by
      simpa [seedHistoryAnchor, newCoordinator, hsave, Storage.written] using hcoord
    simp [HistoryChain.get, HistoryChain.set, seedHistoryAnchor]
  · exact .inr ⟨rfl, rfl⟩

end Boots

theorem rebooted_nil (x : Ctx) (view : List PeerID) (anchor : Option (Option Bytes))
    (db : Storage) : (rebooted x view anchor db).groupState = [] := by
  unfold rebooted
  dsimp only
  split <;> rfl

-- -------- Runs

theorem Booted.epochsAgree (h : Booted node allowed s) : EpochsAgree s.core := by
  cases h with
  | created w ok view storage hcreate hstart =>
    exact start_epochsAgree hstart (.inl (createGroup_recorded hcreate rfl).1)
  | stored w ok view anchor storage hstart =>
    exact start_epochsAgree hstart (.inr (rebooted_nil _ view anchor storage))

theorem Booted.historyHead (h : Booted node World.WritesSucceed s) : HistoryHead s.core := by
  cases h with
  | created w ok view storage hcreate hstart =>
    exact start_historyHead hstart (.inl (createGroup_recorded hcreate rfl))
  | stored w ok view anchor storage hstart =>
    exact start_historyHead hstart
      (rebooted_recorded storage (ok _ .saveCoordState rfl) view anchor)

theorem EpochsAgree.arrive {s : State} (h : EpochsAgree s.core) (op : Op) :
    EpochsAgree (s.arrive op).core :=
  h.congr rfl rfl rfl h.record

theorem step_epochsAgree (h : EpochsAgree s.core) (hstep : step node a s = some s') :
    EpochsAgree s'.core := by
  replace h := h.arrive a.op
  cases step_effect hstep with
  | moves hmoves => exact h.coreSteps hmoves.steps
  | edit hedit => exact h.healEdit hedit
  | swap wake hop hs hswap => exact .healSwap hswap
  | restart view anchor hop hrestart =>
    obtain ⟨s₁, hstart, hcore⟩ := restart_core hrestart
    have h₁ := start_epochsAgree hstart (.inr (rebooted_nil _ view anchor _))
    rw [hcore]
    exact h₁.congr rfl rfl rfl h₁.record

theorem step_historyHead (h : HistoryHead s.core) (ha : EpochsAgree s.core)
    (hw : a.world.WritesSucceed) (hstep : step node a s = some s') : HistoryHead s'.core := by
  replace h : HistoryHead (s.arrive a.op).core := h
  replace ha := ha.arrive a.op
  cases step_effect hstep with
  | moves hmoves => exact h.coreSteps hmoves.steps
  | edit hedit => exact h.healEdit ha hedit
  | swap wake hop hs hswap => exact .healSwap hswap
  | restart view anchor hop hrestart =>
    obtain ⟨s₁, hstart, hcore⟩ := restart_core hrestart
    rw [hcore]
    exact start_historyHead hstart (rebooted_recorded _ (hw _ .saveCoordState rfl) view anchor)

/-- In every run in which no write fails the components of a coordinator agree on the epoch
after every event, the tracker keeps nothing for an epoch that has begun, and the history
hash is the chain's entry of the current epoch. -/
theorem components_agree_on_epoch (node : Node) (s₀ s : State)
    (boot : Booted node World.WritesSucceed s₀)
    (run : Transition.Run (step node) (fun _ a => a.world.WritesSucceed) s₀ s) :
    s.epochTracker.epoch = s.epoch ∧ s.singleWriter.epoch = s.epoch ∧
      (∃ stored, s.storage.group = some stored ∧ stored.epoch = s.epoch) ∧
      (∀ key, s.epochTracker.futureBuffer key ≠ [] → s.epoch < key) ∧
      s.historyChain.get s.epoch = some s.historyHash := by
  obtain ⟨ha, hh⟩ : EpochsAgree s.core ∧ HistoryHead s.core :=
    run.invariant (fun s => EpochsAgree s.core ∧ HistoryHead s.core)
      ⟨boot.epochsAgree, boot.historyHead⟩
      fun _ _ _ h hw hstep => ⟨step_epochsAgree h.1 hstep, step_historyHead h.2 h.1 hw hstep⟩
  exact ⟨ha.tracker, ha.writer, ha.record, ha.ahead, hh⟩

open Reference in
/-- A created group whose one member adds another is in epoch 1 everywhere. -/
theorem components_agree_after_addMember :
    ∃ s, trace (node .testConfig CoordinatorConfig.testConfig_valid [65]) [[65]]
        [action (.addMember { targetPeerID := [66], keyPackageBytes := [5] })] = some s ∧
      s.epoch = 1 ∧ s.epochTracker.epoch = s.epoch ∧ s.singleWriter.epoch = s.epoch ∧
      s.historyChain.get s.epoch = some s.historyHash := by
  obtain ⟨s, htrace, he⟩ : ∃ s, trace (node .testConfig CoordinatorConfig.testConfig_valid [65])
      [[65]] [action (.addMember { targetPeerID := [66], keyPackageBytes := [5] })] = some s ∧
        s.epoch = 1 := by
    decide +kernel
  obtain ⟨s₀, hboot, hexec⟩ := Option.bind_eq_some_iff.mp htrace
  obtain ⟨ht, hw, -, -, hh⟩ := components_agree_on_epoch _ s₀ s
    (boot_booted hboot world_writesSucceed)
    (.of_exec hexec (by simp [action, world_writesSucceed]))
  exact ⟨s, htrace, he, ht, hw, hh⟩

end GroupCoordination
