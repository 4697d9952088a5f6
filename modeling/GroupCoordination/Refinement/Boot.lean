import GroupCoordination.Lib.Fallible
import GroupCoordination.Refinement.Quiet

/-!
# Starts and restarts

The core a coordinator starts with, and what a restart keeps. Neither changes the tables
that say which envelopes took effect.
-/

namespace GroupCoordination

open Fallible

section Boots

variable {x : Ctx} {b b' : Boot} {s s' : State}

def Core.ofBoot (lastCommitHash : Bytes) (b : Boot) : Core where
  groupState := b.groupState
  treeHash := b.treeHash
  epoch := b.epoch
  lastCommitHash := lastCommitHash
  historyHash := b.historyHash
  historyChain := b.historyChain
  members := b.activeView.sortedMembers
  singleWriter := SingleWriter.new b.epoch
  epochTracker := EpochTracker.new b.epoch b.treeHash
  ledger := b.storage.ledger
  delivered := []
  invalid := []
  arriving := []
  arrivedFrom := []
  lineage := { root := b.historyHash.getD [], base := b.epoch }
  told := []
  suspected := []
  appliedCommits := []
  issuedCommits := []
  retained := []
  inflight := []
  dispatched := []
  dropped := 0

theorem start_core (h : start x b = .ok s) :
    ∃ b₁ b₂ lastCommitHash, loadGroup x b = .ok b₁ ∧ loadHistory x b₁ = .ok (lastCommitHash, b₂) ∧
      s.core = Core.ofBoot lastCommitHash (rootHistory x b₂) := by
  unfold start at h
  obtain ⟨b₁, hload, h⟩ := bind_ok h
  obtain ⟨⟨lastCommitHash, b₂⟩, hhist, h⟩ := bind_ok h
  refine ⟨b₁, b₂, lastCommitHash, hload, hhist, ?_⟩
  cases h
  unfold State.ofBoot
  dsimp only
  split <;> rfl

theorem Booted.core {allowed : World → Prop} (h : Booted node allowed s) :
    ∃ lastCommitHash b, s.core = Core.ofBoot lastCommitHash b := by
  cases h with
  | created w ok view storage hcreate hstart | stored w ok view anchor storage hstart =>
    obtain ⟨_, _, _, -, -, hcore⟩ := start_core hstart
    exact ⟨_, _, hcore⟩

theorem restart_core (h : restart x view anchor s = .ok s') :
    ∃ s₁, start x (rebooted x view anchor s.storage) = .ok s₁ ∧
      s'.core = { s₁.core with
        delivered := s.core.delivered
        lineage := s.core.lineage
        told := s.core.told
        suspected := s.core.suspected
        appliedCommits := s.core.appliedCommits
        issuedCommits := s.core.issuedCommits
        retained := s.core.retained
        dispatched := s.core.dispatched
        dropped := s.core.dropped } := by
  unfold restart at h
  obtain ⟨s₁, hstart, h⟩ := bind_ok h
  cases h
  exact ⟨s₁, hstart, rfl⟩

theorem start_idle (h : start x b = .ok s) : s.heal = none ∧ s.healing = false := by
  unfold start at h
  obtain ⟨b₁, -, h⟩ := bind_ok h
  obtain ⟨⟨lastCommitHash, b₂⟩, -, h⟩ := bind_ok h
  cases h
  unfold State.ofBoot
  dsimp only
  split <;> exact ⟨rfl, rfl⟩

theorem restart_idle (h : restart x view anchor s = .ok s') :
    s'.heal = none ∧ s'.healing = false := by
  unfold restart at h
  obtain ⟨s₁, hstart, h⟩ := bind_ok h
  have hidle := start_idle hstart
  cases h
  exact hidle

theorem Booted.idle {allowed : World → Prop} (h : Booted node allowed s) :
    s.heal = none ∧ s.healing = false := by
  cases h with
  | created w ok view storage hcreate hstart | stored w ok view anchor storage hstart =>
    exact start_idle hstart

theorem rootHistory_rest :
    (rootHistory x b).storage = b.storage ∧ (rootHistory x b).epoch = b.epoch ∧
      (rootHistory x b).groupState = b.groupState := by
  unfold rootHistory
  split <;> exact ⟨rfl, rfl, rfl⟩

theorem loadGroup_cases (h : loadGroup x b = .ok b') : b.groupState ≠ [] ∧ b' = b ∨
    b.groupState = [] ∧ ∃ stored, b.storage.group = some stored ∧ b' = { b with
      groupState := stored.groupState, epoch := stored.epoch, treeHash := stored.treeHash } := by
  unfold loadGroup at h
  split at h
  next hne => exact .inl ⟨hne, (Except.ok.inj h).symm⟩
  rename_i hnil
  split at h
  · cases h
  next stored hget =>
    exact .inr ⟨not_not.mp hnil, stored, Storage.getGroupRecord_ok hget, (Except.ok.inj h).symm⟩

theorem loadGroup_storage (h : loadGroup x b = .ok b') : b'.storage = b.storage := by
  obtain ⟨-, rfl⟩ | ⟨-, _, -, rfl⟩ := loadGroup_cases h <;> rfl

theorem loadHistory_rest (h : loadHistory x b = .ok (lastCommitHash, b')) :
    b'.storage = b.storage ∧ b'.epoch = b.epoch ∧ b'.groupState = b.groupState := by
  unfold loadHistory at h
  split at h
  · split at h
    · cases h
    · cases h
      exact ⟨rfl, rfl, rfl⟩
  split at h
  · cases h
    exact ⟨rfl, rfl, rfl⟩
  · cases h
    exact ⟨rfl, rfl, rfl⟩

theorem loadHistory_found (hcoord : b.storage.coord = some coord)
    (h : loadHistory x b = .ok (lastCommitHash, b')) :
    lastCommitHash = coord.lastCommitHash ∧
      (coord.historyChain = [] ∧ b' = b ∨ coord.historyChain ≠ [] ∧ b' = { b with
        historyChain := coord.historyChain
        historyHash := (coord.historyChain.get b.epoch).getD b.historyHash }) := by
  unfold loadHistory at h
  split at h
  next err herr =>
    unfold Storage.getCoordState Disk.exec at herr
    rw [hcoord] at herr
    dsimp only at herr
    split at herr
    · cases herr
    cases herr
    rw [if_pos (by decide)] at h
    cases h
  rename_i found hget
  obtain rfl : found = coord := Option.some.inj ((Storage.getCoordState_ok hget).symm.trans hcoord)
  split at h
  next hnil =>
    cases h
    exact ⟨rfl, .inl ⟨hnil, rfl⟩⟩
  rename_i hne
  cases h
  refine ⟨rfl, .inr ⟨hne, ?_⟩⟩
  cases found.historyChain.get b.epoch <;> rfl

theorem loadGroup_stored (hb : b.groupState = []) (h : loadGroup x b = .ok b') :
    ∃ stored, b.storage.group = some stored ∧ b' = { b with
      groupState := stored.groupState, epoch := stored.epoch, treeHash := stored.treeHash } :=
  ((loadGroup_cases h).resolve_left fun hsame => hsame.1 hb).2

theorem rebooted_ledger (x : Ctx) (view : List PeerID) (anchor : Option (Option Bytes))
    (db : Storage) : (rebooted x view anchor db).storage.ledger =
      { db.ledger with
        coord := (rebooted x view anchor db).storage.coord
        saved := (rebooted x view anchor db).storage.ledger.saved } := by
  unfold rebooted
  dsimp only
  split
  · unfold seedHistoryAnchor
    dsimp only
    split
    next hsave =>
      obtain ⟨-, -, rfl⟩ := Disk.exec_ok hsave
      rfl
    · rfl
  · rfl

theorem start_storage (h : start x b = .ok s) : s.storage = b.storage := by
  unfold start at h
  obtain ⟨b₁, hload, h⟩ := bind_ok h
  obtain ⟨⟨lastCommitHash, b₂⟩, hhist, h⟩ := bind_ok h
  cases h
  have hofBoot : (State.ofBoot x lastCommitHash (rootHistory x b₂)).storage =
      (rootHistory x b₂).storage := by
    unfold State.ofBoot
    dsimp only
    split <;> rfl
  rw [hofBoot, (rootHistory_rest (b := b₂)).1, (loadHistory_rest hhist).1, loadGroup_storage hload]

theorem start_ledger (h : start x b = .ok s) :
    s.core.ledger = b.storage.ledger ∧ s.core.delivered = [] := by
  obtain ⟨b₁, b₂, lastCommitHash, hload, hhist, hcore⟩ := start_core h
  rw [hcore]
  refine ⟨?_, rfl⟩
  change (rootHistory x b₂).storage.ledger = _
  rw [(rootHistory_rest (b := b₂)).1, (loadHistory_rest hhist).1, loadGroup_storage hload]

theorem rebooted_tables (h : start x (rebooted x view anchor db) = .ok s) :
    s.core.ledger.record = db.ledger.record ∧ s.core.ledger.applied = db.ledger.applied ∧
      s.core.ledger.messages = db.ledger.messages := by
  rw [(start_ledger h).1, rebooted_ledger]
  exact ⟨rfl, rfl, rfl⟩

end Boots

end GroupCoordination
