import Mathlib.Data.List.Rotate
import Mathlib.Data.Prod.Lex
import GroupCoordination.Model.Reference

/-!
# What two nodes make of each other's branch

A node rates its own branch and the one a peer announces and gives up the lower one; in doubt its
own. The ratings are made of what the node itself has heard, so two nodes agree on the loser only
as far as their ratings do.
-/

namespace GroupCoordination

open Table

-- -------- Ratings

/-- A branch as it is compared: no commit of it was refused, supporters, online members, epoch,
greater commit hash, smaller tree hash. -/
abbrev BranchWeight := Bool ×ₗ ℕ ×ₗ ℤ ×ₗ ℕ ×ₗ Bytes ×ₗ Bytesᵒᵈ

def GroupStateAnnouncement.weight (ann : GroupStateAnnouncement) (support : Nat) (invalid : Bool) :
    BranchWeight :=
  toLex (!invalid, toLex (support, toLex (ann.memberCount, toLex (ann.epoch,
    toLex (ann.commitHash, OrderDual.toDual ann.treeHash)))))

theorem BranchResult.criterion [LinearOrder α] {a b : α} {next : BranchResult} :
    (if a ≠ b then (if a > b then BranchResult.local else .remote) else next) = .remote ↔
      a < b ∨ a = b ∧ next = .remote := by
  rcases lt_trichotomy a b with h | h | h
  · simp [h, h.ne, h.not_gt]
  · simp [h]
  · simp [h, h.ne', h.not_gt]

theorem compareBranchWeightWithSupport_remote {loc remote : GroupStateAnnouncement} :
    compareBranchWeightWithSupport loc remote localSupport remoteSupport localInvalid
        remoteInvalid = .remote ↔
      loc.historyHash ≠ remote.historyHash ∧
        loc.weight localSupport localInvalid ≤ remote.weight remoteSupport remoteInvalid := by
  have hhashes : (if loc.commitHash > remote.commitHash then BranchResult.local
        else if loc.commitHash < remote.commitHash then .remote
        else if loc.treeHash < remote.treeHash then .local else .remote) = .remote ↔
      loc.commitHash < remote.commitHash ∨
        loc.commitHash = remote.commitHash ∧ remote.treeHash ≤ loc.treeHash := by
    rcases lt_trichotomy loc.commitHash remote.commitHash with h | h | h
    · simp [h, h.not_gt]
    · simp [h]
    · simp [h, h.ne', h.not_gt]
  unfold compareBranchWeightWithSupport GroupStateAnnouncement.weight
  simp only [Prod.Lex.toLex_le_toLex, OrderDual.toDual_le_toDual]
  by_cases hsame : sameBranch loc remote = true
  · simp [sameBranch_iff.mp hsame, hsame]
  have hother : loc.historyHash ≠ remote.historyHash := fun h => hsame (sameBranch_iff.mpr h)
  rw [if_neg hsame]
  by_cases hvalid : localInvalid = remoteInvalid
  · rw [if_neg (not_not.mpr hvalid), BranchResult.criterion, BranchResult.criterion,
      BranchResult.criterion, hhashes]
    simp [hother, hvalid]
  · rw [if_pos hvalid]
    cases localInvalid <;> cases remoteInvalid <;> simp_all

-- -------- The comparison as an order

def BranchResult.swap : BranchResult → BranchResult
  | .local => .remote
  | .remote => .local
  | .equal => .equal

theorem compareBranchWeightWithSupport_equal {loc remote : GroupStateAnnouncement} :
    compareBranchWeightWithSupport loc remote localSupport remoteSupport localInvalid
        remoteInvalid = .equal ↔ loc.historyHash = remote.historyHash := by
  unfold compareBranchWeightWithSupport
  split
  next hsame =>
    simp [sameBranch_iff.mp hsame]
  rename_i hother
  have hhistory : loc.historyHash ≠ remote.historyHash := fun h => hother (sameBranch_iff.mpr h)
  simp only [hhistory, iff_false]
  repeat' split
  all_goals exact BranchResult.noConfusion

section

variable (support : Bytes → Nat) (invalid : Bytes → Bool)

def compareBranches (a b : GroupStateAnnouncement) : BranchResult :=
  compareBranchWeightWithSupport a b (support a.historyHash) (support b.historyHash)
    (invalid a.historyHash) (invalid b.historyHash)

structure Tied (a b : GroupStateAnnouncement) : Prop where
  invalid : invalid a.historyHash = invalid b.historyHash
  support : support a.historyHash = support b.historyHash
  memberCount : a.memberCount = b.memberCount
  epoch : a.epoch = b.epoch
  commitHash : a.commitHash = b.commitHash
  treeHash : a.treeHash = b.treeHash

/-- The comparison is a strict total order on these announcements. -/
structure OrdersBranches (anns : Set GroupStateAnnouncement) : Prop where
  swap : ∀ a ∈ anns, ∀ b ∈ anns,
    compareBranches support invalid b a = (compareBranches support invalid a b).swap
  trans : ∀ a ∈ anns, ∀ b ∈ anns, ∀ c ∈ anns, ∀ r, r ≠ .equal →
    compareBranches support invalid a b = r → compareBranches support invalid b c = r →
    compareBranches support invalid a c = r
  equal_iff : ∀ a ∈ anns, ∀ b ∈ anns,
    compareBranches support invalid a b = .equal ↔ a.historyHash = b.historyHash

def branchWeight (a : GroupStateAnnouncement) : BranchWeight :=
  a.weight (support a.historyHash) (invalid a.historyHash)

variable {support invalid} {anns : Set GroupStateAnnouncement} {a b c : GroupStateAnnouncement}

theorem tied_iff : Tied support invalid a b ↔
    branchWeight support invalid a = branchWeight support invalid b := by
  simp only [branchWeight, GroupStateAnnouncement.weight, toLex_inj, Prod.mk.injEq,
    OrderDual.toDual_inj,
    Bool.not_inj_iff]
  constructor
  · rintro ⟨hinvalid, hsupport, hmembers, hepoch, hcommit, htree⟩
    exact ⟨hinvalid, hsupport, hmembers, hepoch, hcommit, htree⟩
  · rintro ⟨hinvalid, hsupport, hmembers, hepoch, hcommit, htree⟩
    exact ⟨hinvalid, hsupport, hmembers, hepoch, hcommit, htree⟩

theorem compareBranches_equal :
    compareBranches support invalid a b = .equal ↔ a.historyHash = b.historyHash :=
  compareBranchWeightWithSupport_equal

theorem compareBranches_remote : compareBranches support invalid a b = .remote ↔
    a.historyHash ≠ b.historyHash ∧
    branchWeight support invalid a ≤ branchWeight support invalid b :=
  compareBranchWeightWithSupport_remote

theorem compareBranches_local : compareBranches support invalid a b = .local ↔
    a.historyHash ≠ b.historyHash ∧
    branchWeight support invalid b < branchWeight support invalid a := by
  have hequal : compareBranches support invalid a b = .equal ↔ _ := compareBranches_equal
  have hremote : compareBranches support invalid a b = .remote ↔ _ := compareBranches_remote
  cases hresult : compareBranches support invalid a b with
  | «local» =>
    rw [hresult] at hequal hremote
    have hother : a.historyHash ≠ b.historyHash := fun h => by cases hequal.mpr h
    have hnot : ¬ branchWeight support invalid a ≤ branchWeight support invalid b :=
      fun h => by cases hremote.mpr ⟨hother, h⟩
    simp [hother, not_le.mp hnot]
  | remote => simp [(hremote.mp hresult).2.not_gt]
  | equal => simp [hequal.mp hresult]

theorem compareBranches_trans (hac : a.historyHash ≠ c.historyHash) {r : BranchResult}
    (hr : r ≠ .equal) (hab : compareBranches support invalid a b = r)
    (hbc : compareBranches support invalid b c = r) : compareBranches support invalid a c = r := by
  cases r with
  | «local» =>
    rw [compareBranches_local] at hab hbc ⊢
    exact ⟨hac, hbc.2.trans hab.2⟩
  | remote =>
    rw [compareBranches_remote] at hab hbc ⊢
    exact ⟨hac, hab.2.trans hbc.2⟩
  | equal => exact absurd rfl hr

/-- Swapping the arguments swaps the result, but for two branches that tie: each loses against the
other. -/
theorem compareBranches_swap :
    compareBranches support invalid b a = (compareBranches support invalid a b).swap ↔
      (a.historyHash ≠ b.historyHash → ¬ Tied support invalid a b) := by
  rw [tied_iff]
  cases hresult : compareBranches support invalid a b with
  | «local» =>
    obtain ⟨hother, hlt⟩ := compareBranches_local.mp hresult
    simp [BranchResult.swap, compareBranches_remote, hother.symm, hlt.le, hlt.ne']
  | remote =>
    obtain ⟨hother, hle⟩ := compareBranches_remote.mp hresult
    simp [BranchResult.swap, compareBranches_local, hother, hother.symm, hle.lt_iff_ne]
  | equal =>
    have hsame := compareBranches_equal.mp hresult
    simp [BranchResult.swap, compareBranches_equal, hsame]

/-- On announcements of different branches, the comparison is a strict total order iff no two of
them tie in everything that is compared. -/
theorem branch_order_iff (support : Bytes → Nat) (invalid : Bytes → Bool)
    (anns : Set GroupStateAnnouncement) (hdistinct : anns.Pairwise fun a b =>
      a.historyHash ≠ b.historyHash) :
    OrdersBranches support invalid anns ↔
      ∀ a ∈ anns, ∀ b ∈ anns, a.historyHash ≠ b.historyHash → ¬ Tied support invalid a b := by
  constructor
  · intro h a ha b hb
    exact compareBranches_swap.mp (h.swap a ha b hb)
  intro h
  have hswap : ∀ a ∈ anns, ∀ b ∈ anns,
      compareBranches support invalid b a = (compareBranches support invalid a b).swap :=
    fun a ha b hb => compareBranches_swap.mpr (h a ha b hb)
  refine ⟨hswap, fun a ha b hb c hc r hr hab hbc => ?_, fun a _ b _ => compareBranches_equal⟩
  refine compareBranches_trans (fun hac => ?_) hr hab hbc
  -- a round trip would win in both directions
  have hsame : a = c := by
    by_contra hne
    exact hdistinct ha hc hne hac
  subst hsame
  rw [hswap a ha b hb, hab] at hbc
  cases r with
  | «local» | remote => cases hbc
  | equal => exact hr rfl

end

theorem three_branches_ordered :
    OrdersBranches (fun _ => 1) (fun _ => false)
      {{ epoch := 2, historyHash := [1] }, { epoch := 2, historyHash := [2], commitHash := [7] },
        { epoch := 3, historyHash := [3] }} := by
  refine (branch_order_iff _ _ _ ?_).mpr ?_
  · rintro a ha b hb hne
    simp only [Set.mem_insert_iff, Set.mem_singleton_iff] at ha hb
    rcases ha with rfl | rfl | rfl <;> rcases hb with rfl | rfl | rfl <;> simp_all
  rintro a ha b hb hne htied
  simp only [Set.mem_insert_iff, Set.mem_singleton_iff] at ha hb
  have hepoch := htied.epoch
  have hcommit := htied.commitHash
  rcases ha with rfl | rfl | rfl <;> rcases hb with rfl | rfl | rfl <;> simp_all

/-- Two branches that only differ in their history: each loses against the other. -/
theorem tied_branches_both_lose :
    compareBranches (fun _ => 1) (fun _ => false) { historyHash := [1] }
      { historyHash := [2] } = .remote ∧
      compareBranches (fun _ => 1) (fun _ => false) { historyHash := [2] }
        { historyHash := [1] } = .remote := by
  decide

namespace ForkDetector

variable {fd : ForkDetector} {loc ann : GroupStateAnnouncement} {peer : PeerID}

section

variable (fd : ForkDetector) (observedAt : Int)

def supporters (key : Bytes) : List PeerID :=
  ((fd.find key).map (·.peers)).getD []

def ratesOwn (loc : GroupStateAnnouncement) : BranchWeight :=
  loc.weight (fd.branchSupport loc) (fd.isInvalidCommit loc.commitHash)

def rates (peer : PeerID) (ann : GroupStateAnnouncement) : BranchWeight :=
  ann.weight ((fd.supporters (branchKey ann)).insert peer).length
    (fd.isInvalidCommit ann.commitHash)

@[simp] theorem record_isInvalidCommit (commitHash : Bytes) :
    (fd.record observedAt peer ann).1.isInvalidCommit commitHash =
      fd.isInvalidCommit commitHash := by
  unfold record
  split <;> rfl

theorem record_peers :
    (fd.record observedAt peer ann).2.peers.length =
      ((fd.supporters (branchKey ann)).insert peer).length := by
  unfold record supporters
  split
  next bi hfind =>
    rw [hfind]
    by_cases hmem : peer ∈ bi.peers <;> simp [hmem]
  next hfind =>
    simp [hfind]

theorem record_known :
    (fd.record observedAt peer ann).1.known =
      upsert Prod.fst (fun _ entry => entry) fd.known
        (branchKey ann, (fd.record observedAt peer ann).2) := by
  unfold record upsert
  split
  next bi hfind =>
    have hmem : branchKey ann ∈ fd.known.map Prod.fst := by
      obtain ⟨entry, hentry, -⟩ := Option.map_eq_some_iff.mp hfind
      have hkey : entry.1 = branchKey ann := by simpa using List.find?_some hentry
      exact hkey ▸ List.mem_map_of_mem (List.mem_of_find?_eq_some hentry)
    rw [if_pos hmem]
    refine List.map_congr_left fun entry _ => ?_
    by_cases hkey : entry.1 = branchKey ann <;> simp [hkey]
  next hfind =>
    rw [if_neg]
    intro hmem
    obtain ⟨entry, hentry, hkey⟩ := List.mem_map.mp hmem
    simp only [find, Option.map_eq_none_iff, List.find?_eq_none] at hfind
    exact hfind entry hentry (decide_eq_true hkey)

theorem record_find_other (hkey : key ≠ branchKey ann) :
    (fd.record observedAt peer ann).1.find key = fd.find key := by
  unfold find
  rw [record_known]
  exact congrArg (Option.map Prod.snd) (get_upsert_of_ne hkey fun _ _ => rfl)

theorem record_branchSupport_other (hkey : branchKey loc ≠ branchKey ann) :
    (fd.record observedAt peer ann).1.branchSupport loc = fd.branchSupport loc := by
  unfold branchSupport
  rw [record_find_other fd observedAt hkey]

end

theorem processRemote_decides (hloc : fd.local = some loc) (observedAt : Int) (remoteEpoch : Nat) :
    (fd.processRemote observedAt peer remoteEpoch ann).2.any (·.needExternalJoin) = true ↔
      loc.historyHash ≠ ann.historyHash ∧ fd.ratesOwn loc ≤ fd.rates peer ann := by
  unfold processRemote
  rw [hloc]
  dsimp only
  split
  next hsame =>
    simp [(sameBranch_iff.mp hsame).symm]
  rename_i hother
  have hkey : branchKey loc ≠ branchKey ann := fun h => hother (sameBranch_iff.mpr h.symm)
  rw [record_branchSupport_other fd observedAt hkey, record_peers, record_isInvalidCommit,
    record_isInvalidCommit]
  simp only [Option.any_some, decide_eq_true_eq]
  exact compareBranchWeightWithSupport_remote

end ForkDetector

-- -------- Two nodes

/-- Two nodes on different branches do not both decide for each other's exactly if one of them
rates its own branch higher. That is so if neither overrates: each rates the branch of the other
no higher than the other does, and the branches differ in commit or tree. -/
theorem no_mutual_heal (fdA fdB : ForkDetector) (a b annA annB : GroupStateAnnouncement)
    (peerA peerB : PeerID) (observedA observedB : Int) (epochA epochB : Nat)
    (localA : fdA.local = some a) (localB : fdB.local = some b)
    (other : a.historyHash ≠ b.historyHash)
    (ofA : annA.historyHash = a.historyHash) (ofB : annB.historyHash = b.historyHash) :
    let decidesA :=
      (fdA.processRemote observedA peerB epochB annB).2.any (·.needExternalJoin) = true
    let decidesB :=
      (fdB.processRemote observedB peerA epochA annA).2.any (·.needExternalJoin) = true
    (¬ (decidesA ∧ decidesB) ↔
      fdA.rates peerB annB < fdA.ratesOwn a ∨ fdB.rates peerA annA < fdB.ratesOwn b) ∧
    (fdA.rates peerB annB ≤ fdB.ratesOwn b → fdB.rates peerA annA ≤ fdA.ratesOwn a →
      (a.commitHash, a.treeHash) ≠ (b.commitHash, b.treeHash) → ¬ (decidesA ∧ decidesB)) := by
  intro decidesA decidesB
  have hA : decidesA ↔ fdA.ratesOwn a ≤ fdA.rates peerB annB :=
    (ForkDetector.processRemote_decides localA observedA epochB).trans
      (and_iff_right (ofB ▸ other))
  have hB : decidesB ↔ fdB.ratesOwn b ≤ fdB.rates peerA annA :=
    (ForkDetector.processRemote_decides localB observedB epochA).trans
      (and_iff_right (ofA ▸ other.symm))
  refine ⟨?_, fun hrateB hrateA hdiffer ⟨hdA, hdB⟩ => hdiffer ?_⟩
  · rw [hA, hB, not_and_or, not_le, not_le]
  -- the four ratings go round in a circle, so they are equal
  have hsame : fdA.ratesOwn a = fdB.ratesOwn b :=
    le_antisymm ((hA.mp hdA).trans hrateB) ((hB.mp hdB).trans hrateA)
  simp only [ForkDetector.ratesOwn, GroupStateAnnouncement.weight, toLex_inj, Prod.mk.injEq,
    OrderDual.toDual_inj] at hsame
  obtain ⟨-, -, -, -, hcommit, htree⟩ := hsame
  rw [hcommit, htree]

namespace Reference

def forked (pid : PeerID) (keyPackage : Byte) (heard : List (PeerID × GroupStateAnnouncement)) :
    Option State :=
  trace (member pid) [pid]
    (action (.addMember { targetPeerID := [70], keyPackageBytes := [keyPackage] }) ::
      heard.map fun (peer, ann) => action (.receive peer (wire 1 peer .announce (.announce ann))))

end Reference

open Reference in
/-- One of two founders heard a second peer announce the other's branch, and decides for it
alone. -/
theorem founders_do_not_heal_mutually :
    ∃ s t, forked [66] 6 [] = some t ∧ forked [65] 5 [([67], t.announcement)] = some s ∧
      s.historyHash ≠ t.historyHash ∧
      (s.forkDetector.processRemote 0 [66] 1 t.announcement).2.any (·.needExternalJoin) = true ∧
      ¬ ((s.forkDetector.processRemote 0 [66] 1 t.announcement).2.any (·.needExternalJoin) = true ∧
        (t.forkDetector.processRemote 0 [65] 1 s.announcement).2.any
          (·.needExternalJoin) = true) := by
  obtain ⟨t, ht, s, hs, hhistory, hlocalS, hlocalT, hother, hdecides, hrates⟩ :
      ∃ t, forked [66] 6 [] = some t ∧ ∃ s, forked [65] 5 [([67], t.announcement)] = some s ∧
        s.historyHash ≠ t.historyHash ∧ s.forkDetector.local = some s.announcement ∧
        t.forkDetector.local = some t.announcement ∧
        s.announcement.historyHash ≠ t.announcement.historyHash ∧
        (s.forkDetector.processRemote 0 [66] 1 t.announcement).2.any (·.needExternalJoin) = true ∧
        t.forkDetector.rates [65] s.announcement < t.forkDetector.ratesOwn t.announcement := by
    decide +kernel
  exact ⟨s, t, ht, hs, hhistory, hdecides,
    (no_mutual_heal s.forkDetector t.forkDetector s.announcement t.announcement s.announcement
      t.announcement [65] [66] 0 0 1 1 hlocalS hlocalT hother rfl rfl).1.mpr (.inr hrates)⟩

open Reference in
/-- Each heard a second peer announce the other's branch, and nobody announce its own. -/
theorem founders_heal_mutually :
    ∃ s₀ s t₀ t, Booted (member [65]) (fun _ => True) s₀ ∧
      Transition.Run (step (member [65])) (fun _ _ => True) s₀ s ∧
      Booted (member [66]) (fun _ => True) t₀ ∧
      Transition.Run (step (member [66])) (fun _ _ => True) t₀ t ∧
      s.epoch = t.epoch ∧ s.historyHash ≠ t.historyHash ∧
      (s.forkDetector.processRemote 0 [66] 1 t.announcement).2.any (·.needExternalJoin) = true ∧
      (t.forkDetector.processRemote 0 [65] 1 s.announcement).2.any (·.needExternalJoin) = true := by
  obtain ⟨a, -, b, -, s, hs, t, ht, hfacts⟩ :
      ∃ a, forked [65] 5 [] = some a ∧ ∃ b, forked [66] 6 [] = some b ∧
        ∃ s, forked [65] 5 [([67], b.announcement)] = some s ∧
        ∃ t, forked [66] 6 [([68], a.announcement)] = some t ∧
          s.epoch = t.epoch ∧ s.historyHash ≠ t.historyHash ∧
          (s.forkDetector.processRemote 0 [66] 1 t.announcement).2.any (·.needExternalJoin) = true ∧
          (t.forkDetector.processRemote 0 [65] 1 s.announcement).2.any
            (·.needExternalJoin) = true := by
    decide +kernel
  obtain ⟨s₀, hbootS, hrunS⟩ := trace_run hs
  obtain ⟨t₀, hbootT, hrunT⟩ := trace_run ht
  exact ⟨s₀, s, t₀, t, hbootS, hrunS, hbootT, hrunT, hfacts⟩

-- -------- What a detector remembers

inductive DetectorEvent
  | hear (observedAt : Int) (peer : PeerID) (remoteEpoch : Nat) (ann : GroupStateAnnouncement)
  | update (ann : GroupStateAnnouncement)
  | mark (commitHash : Bytes)

namespace DetectorEvent

def Within (epoch : Nat) : DetectorEvent → Prop
  | .update ann => ann.epoch = epoch
  | _ => True

def Announces (p : PeerID) (key : Bytes) : DetectorEvent → Prop
  | .hear _ peer _ ann => p = peer ∧ key = branchKey ann
  | _ => False

end DetectorEvent

namespace ForkDetector

variable {fd : ForkDetector} {loc ann : GroupStateAnnouncement} {peer p : PeerID} {key : Bytes}

def after (fd : ForkDetector) : DetectorEvent → ForkDetector
  | .hear observedAt peer remoteEpoch ann => (fd.processRemote observedAt peer remoteEpoch ann).1
  | .update ann => fd.updateLocal ann
  | .mark commitHash => fd.markInvalidCommit commitHash

def Counts (fd : ForkDetector) (p : PeerID) (key : Bytes) : Prop :=
  ∃ bi, (key, bi) ∈ fd.known ∧ p ∈ bi.peers

structure Tidy (fd : ForkDetector) : Prop where
  keyed : Table.Keyed Prod.fst fd.known
  named : ∀ entry ∈ fd.known, branchKey entry.2.announcement = entry.1

theorem find_eq_some (h : fd.Tidy) (hmem : (key, bi) ∈ fd.known) : fd.find key = some bi := by
  have hget : get Prod.fst fd.known key = some (key, bi) := get_eq_some h.keyed hmem
  exact congrArg (Option.map Prod.snd) hget

theorem mem_of_find (hfind : fd.find key = some bi) : (key, bi) ∈ fd.known := by
  obtain ⟨⟨k, bi'⟩, hentry, rfl⟩ := Option.map_eq_some_iff.mp hfind
  obtain rfl : k = key := by simpa using List.find?_some hentry
  exact List.mem_of_find?_eq_some hentry

theorem record_announcement (fd : ForkDetector) (observedAt : Int) :
    (fd.record observedAt peer ann).2.announcement = ann := by
  unfold record
  split <;> rfl

theorem mem_record_peers (h : fd.Tidy) (observedAt : Int) :
    p ∈ (fd.record observedAt peer ann).2.peers ↔ p = peer ∨ fd.Counts p (branchKey ann) := by
  unfold record
  split
  next bi hfind =>
    have hcounts : fd.Counts p (branchKey ann) ↔ p ∈ bi.peers := by
      constructor
      · rintro ⟨bi', hmem, hp⟩
        rw [find_eq_some h hmem] at hfind
        exact Option.some.inj hfind ▸ hp
      · exact fun hp => ⟨bi, mem_of_find hfind, hp⟩
    rw [hcounts]
    by_cases hknown : peer ∈ bi.peers
    · simp only [hknown, if_true]
      exact ⟨.inr, fun hor => hor.elim (fun heq => heq ▸ hknown) id⟩
    · simp [hknown, or_comm]
  next hfind =>
    have hnot : ¬ fd.Counts p (branchKey ann) := by
      rintro ⟨bi, hmem, -⟩
      rw [find_eq_some h hmem] at hfind
      cases hfind
    simp [hnot]

theorem record_mem (h : fd.Tidy) (observedAt : Int) (entry : Bytes × BranchInfo) :
    entry ∈ (fd.record observedAt peer ann).1.known ↔
      entry = (branchKey ann, (fd.record observedAt peer ann).2) ∨
        entry ∈ fd.known ∧ entry.1 ≠ branchKey ann := by
  rw [record_known, mem_upsert h.keyed]
  unfold upserted
  split <;> rfl

theorem record_tidy (h : fd.Tidy) (observedAt : Int) : (fd.record observedAt peer ann).1.Tidy := by
  constructor
  · rw [record_known]
    exact h.keyed.upsert fun _ _ => rfl
  intro entry hentry
  rcases (record_mem h observedAt entry).mp hentry with rfl | ⟨hmem, -⟩
  · exact congrArg branchKey (record_announcement fd observedAt)
  · exact h.named entry hmem

theorem record_counts (h : fd.Tidy) (observedAt : Int) :
    (fd.record observedAt peer ann).1.Counts p key ↔
      fd.Counts p key ∨ p = peer ∧ key = branchKey ann := by
  constructor
  · rintro ⟨bi, hmem, hp⟩
    rcases (record_mem h observedAt _).mp hmem with heq | ⟨hold, -⟩
    · obtain ⟨rfl, rfl⟩ := Prod.mk.inj heq
      rcases (mem_record_peers h observedAt).mp hp with rfl | hcounts
      · exact .inr ⟨rfl, rfl⟩
      · exact .inl hcounts
    · exact .inl ⟨bi, hold, hp⟩
  · intro hor
    by_cases hkey : key = branchKey ann
    · subst hkey
      refine ⟨_, (record_mem h observedAt _).mpr (.inl rfl), (mem_record_peers h observedAt).mpr ?_⟩
      exact hor.elim .inr fun ⟨hp, _⟩ => .inl hp
    · obtain ⟨bi, hmem, hp⟩ := hor.resolve_right fun ⟨_, h⟩ => hkey h
      exact ⟨bi, (record_mem h observedAt _).mpr (.inr ⟨hmem, hkey⟩), hp⟩

structure Watches (epoch : Nat) (fd : ForkDetector) : Prop extends fd.Tidy where
  «local» : ∃ loc, fd.local = some loc ∧ loc.epoch = epoch

theorem record_local (fd : ForkDetector) (observedAt : Int) :
    (fd.record observedAt peer ann).1.local = fd.local := by
  unfold record
  split <;> rfl

theorem processRemote_eq_record (hloc : fd.local = some loc) :
    (fd.processRemote observedAt peer remoteEpoch ann).1 = (fd.record observedAt peer ann).1 := by
  unfold processRemote
  rw [hloc]
  dsimp only
  split <;> rfl

theorem Tidy.of_known (h : fd.Tidy) {fd' : ForkDetector} (hknown : fd'.known = fd.known) :
    fd'.Tidy :=
  ⟨hknown ▸ h.keyed, hknown ▸ h.named⟩

theorem updateLocal_known (hloc : fd.local = some loc) (hepoch : ann.epoch = loc.epoch) :
    (fd.updateLocal ann).known = fd.known := by
  unfold updateLocal
  rw [hloc]
  exact if_neg (by omega)

theorem markInvalidCommit_eq (fd : ForkDetector) (commitHash : Bytes) :
    (fd.markInvalidCommit commitHash).known = fd.known ∧
      (fd.markInvalidCommit commitHash).local = fd.local := by
  unfold markInvalidCommit
  split <;> exact ⟨rfl, rfl⟩

theorem Watches.after (h : fd.Watches epoch) {event : DetectorEvent} (hev : event.Within epoch) :
    (fd.after event).Watches epoch ∧
      ∀ p key, (fd.after event).Counts p key ↔ fd.Counts p key ∨ event.Announces p key := by
  obtain ⟨htidy, loc, hloc, hepoch⟩ := h
  cases event with
  | hear observedAt peer remoteEpoch ann =>
    have heq : fd.after (.hear observedAt peer remoteEpoch ann) =
        (fd.record observedAt peer ann).1 := processRemote_eq_record hloc
    rw [heq]
    refine ⟨⟨record_tidy htidy observedAt, loc, ?_, hepoch⟩, fun p key => ?_⟩
    · rw [record_local, hloc]
    · exact record_counts htidy observedAt
  | update ann =>
    have hknown := updateLocal_known hloc (hev.trans hepoch.symm)
    refine ⟨⟨htidy.of_known hknown, ann, rfl, hev⟩, fun p key => ?_⟩
    simp only [DetectorEvent.Announces, or_false]
    unfold Counts
    rw [show (fd.after (.update ann)).known = fd.known from hknown]
  | mark commitHash =>
    obtain ⟨hknown, hlocal⟩ := fd.markInvalidCommit_eq commitHash
    refine ⟨⟨htidy.of_known hknown, loc, hlocal.trans hloc, hepoch⟩, fun p key => ?_⟩
    simp only [DetectorEvent.Announces, or_false]
    unfold Counts
    rw [show (fd.after (.mark commitHash)).known = fd.known from hknown]

theorem Watches.foldl (h : fd.Watches epoch) (events : List DetectorEvent)
    (hev : ∀ event ∈ events, event.Within epoch) :
    (events.foldl ForkDetector.after fd).Watches epoch ∧
      ∀ p key, (events.foldl ForkDetector.after fd).Counts p key ↔
        fd.Counts p key ∨ ∃ event ∈ events, event.Announces p key := by
  induction events generalizing fd with
  | nil => exact ⟨h, fun p key => by simp⟩
  | cons event events ih =>
    obtain ⟨hfirst, hrest⟩ := List.forall_mem_cons.mp hev
    obtain ⟨hstep, hcounts⟩ := h.after hfirst
    obtain ⟨hlast, hall⟩ := ih hstep hrest
    refine ⟨hlast, fun p key => ?_⟩
    rw [List.foldl_cons, hall, hcounts, or_assoc]
    simp

/-- A peer that is counted for one branch only is compared by it, wherever the search begins. -/
theorem Watches.compareWithPeer (h : fd.Watches epoch)
    (honly : ∀ k, fd.Counts p k ↔ k = key) (start : Nat) :
    branchKey (fd.compareWithPeer start p).2.1 = key ∧ (fd.compareWithPeer start p).2.2 = true := by
  obtain ⟨htidy, loc, hloc, -⟩ := h
  obtain ⟨bi, hmem, hp⟩ := (honly key).mpr rfl
  unfold ForkDetector.compareWithPeer
  rw [hloc]
  dsimp only
  cases hfind : (fd.known.rotate start).find? fun e => p ∈ e.2.peers with
  | none =>
    rw [List.find?_eq_none] at hfind
    exact absurd (decide_eq_true hp) (hfind (key, bi) (List.mem_rotate.mpr hmem))
  | some entry =>
    have hentry := List.mem_rotate.mp (List.mem_of_find?_eq_some hfind)
    have hpeer : p ∈ entry.2.peers := by simpa using List.find?_some hfind
    have hkey : entry.1 = key := (honly entry.1).mp ⟨entry.2, hentry, hpeer⟩
    exact ⟨(htidy.named entry hentry).trans hkey, rfl⟩

end ForkDetector

/-- A detector that begins an epoch and hears any announcements in it reflects a peer's latest
one exactly if the peer announced no other branch since. -/
theorem detector_reflects_latest (fd : ForkDetector) (loc : GroupStateAnnouncement)
    (started : fd.local = some loc) (cleared : fd.known = []) (p : PeerID)
    (before later : List DetectorEvent) (observedAt : Int) (remoteEpoch : Nat)
    (latest : GroupStateAnnouncement)
    (within : ∀ event ∈ before ++ .hear observedAt p remoteEpoch latest :: later,
      event.Within loc.epoch)
    (last : ∀ event ∈ later, ∀ key, ¬ event.Announces p key) :
    let fd' :=
      (before ++ .hear observedAt p remoteEpoch latest :: later).foldl ForkDetector.after fd
    ((∀ key, fd'.Counts p key ↔ key = branchKey latest) ∧
      ∀ start, branchKey (fd'.compareWithPeer start p).2.1 = branchKey latest ∧
        (fd'.compareWithPeer start p).2.2 = true) ↔
      ∀ event ∈ before, ∀ key, event.Announces p key → key = branchKey latest := by
  intro fd'
  have hbegin : fd.Watches loc.epoch :=
    ⟨⟨cleared ▸ keyed_nil, by simp [cleared]⟩, loc, started, rfl⟩
  obtain ⟨hwatches, hcounts⟩ := hbegin.foldl _ within
  have hnone p key : ¬ fd.Counts p key := by simp [ForkDetector.Counts, cleared]
  constructor
  · rintro ⟨hexact, -⟩ event hmem key hann
    exact (hexact key).mp ((hcounts p key).mpr (.inr ⟨event, List.mem_append_left _ hmem, hann⟩))
  intro hsame
  have hexact key : fd'.Counts p key ↔ key = branchKey latest := by
    refine (hcounts p key).trans ⟨?_, ?_⟩
    · rintro (hold | ⟨event, hmem, hann⟩)
      · exact absurd hold (hnone p key)
      rcases List.mem_append.mp hmem with hmem | hmem
      · exact hsame event hmem key hann
      rcases List.mem_cons.mp hmem with rfl | hmem
      · exact hann.2
      · exact absurd hann (last event hmem key)
    · rintro rfl
      exact .inr ⟨_, List.mem_append_right _ List.mem_cons_self, rfl, rfl⟩
  exact ⟨hexact, hwatches.compareWithPeer hexact⟩

/-- A peer announces its branch again; another one announces a different branch. -/
theorem faithful_peer_reflected :
    let fd : ForkDetector := { «local» := some { epoch := 1 } }
    let branch (h : Byte) : GroupStateAnnouncement := { epoch := 1, historyHash := [h] }
    let events : List DetectorEvent := [.hear 0 [67] 1 (branch 1)] ++
      .hear 1 [67] 1 (branch 1) :: [.hear 2 [68] 1 (branch 2), .mark [9]]
    let fd' := events.foldl ForkDetector.after fd
    (∀ key : Bytes, fd'.Counts [67] key ↔ key = [1]) ∧
      ∀ start, branchKey (fd'.compareWithPeer start [67]).2.1 = [1] ∧
        (fd'.compareWithPeer start [67]).2.2 = true := by
  intro fd branch events fd'
  refine (detector_reflects_latest fd { epoch := 1 } rfl rfl [67] [.hear 0 [67] 1 (branch 1)]
    [.hear 2 [68] 1 (branch 2), .mark [9]] 1 1 (branch 1) ?_ ?_).mpr ?_
  · simp [DetectorEvent.Within]
  · simp [DetectorEvent.Announces]
  · simp [DetectorEvent.Announces, branch, branchKey]

open Reference in
/-- A peer that has moved to another branch is counted for both, and compared by the first. -/
theorem moved_peer_counted_twice :
    ∃ s₀ s, Booted (member [65]) (fun _ => True) s₀ ∧
      Transition.Run (step (member [65])) (fun _ _ => True) s₀ s ∧ s.epoch = 1 ∧
      forked [65] 5 [([67], { epoch := 1, historyHash := [1] }),
        ([67], { epoch := 1, historyHash := [2] })] = some s ∧
      (s.forkDetector.known.map fun entry => (entry.1, entry.2.peers)) =
        [([1], [[67]]), ([2], [[67]])] ∧
      branchKey (s.forkDetector.compareWithPeer 0 [67]).2.1 = [1] := by
  obtain ⟨s, htrace, hepoch, hfacts⟩ : ∃ s,
    forked [65] 5 [([67], { epoch := 1, historyHash := [1] }),
      ([67], { epoch := 1, historyHash := [2] })] = some s ∧ s.epoch = 1 ∧
        (s.forkDetector.known.map fun entry => (entry.1, entry.2.peers)) =
          [([1], [[67]]), ([2], [[67]])] ∧
        branchKey (s.forkDetector.compareWithPeer 0 [67]).2.1 = [1] := by
    decide +kernel
  obtain ⟨s₀, hboot, hrun⟩ := trace_run htrace
  exact ⟨s₀, s, hboot, hrun, hepoch, htrace, hfacts⟩

end GroupCoordination
