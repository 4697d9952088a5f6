import GroupCoordination.Properties.Election
import GroupCoordination.Model.Reference
import Mathlib.Data.Set.Card

/-!
# The election as a minimum over a set

With no two candidates of one hash, the holder is the least of the eligible peers, whatever the
order of the view. The batch it is elected for does not depend on the order in which proposals come
in, as long as the buffer takes all of them. Suspending one holder after the other goes through the
eligible peers by hash.
-/

namespace GroupCoordination

open Electorate

-- -------- The eligible peers

namespace Electorate

variable {E : Electorate} {batch : List BufferedProposal} {suspended : List PeerID} {pid q : PeerID}

def eligible (E : Electorate) (epoch : Nat) (batch : List BufferedProposal)
    (suspended : List PeerID) : Set PeerID :=
  {pid | pid ∈ E.members ∧ E.authorizes epoch batch pid = true ∧
    E.codec.toString pid ∉ removedByBatch batch ∧ pid ∉ suspended}

def NoTies (E : Electorate) (epoch : Nat) (batch : List BufferedProposal)
    (suspended : List PeerID) : Prop :=
  Set.InjOn (electionHash E.hash E.groupID epoch) (E.eligible epoch batch suspended)

theorem mem_eligible_iff : pid ∈ E.eligible epoch batch suspended ↔
    pid ∈ E.members.filter (E.admits epoch suspended batch) := by
  simp [eligible, admits]

def IsLeast (E : Electorate) (epoch : Nat) (peers : Set PeerID) (pid : PeerID) : Prop :=
  pid ∈ peers ∧ ∀ q ∈ peers, q ≠ pid →
    electionHash E.hash E.groupID epoch pid < electionHash E.hash E.groupID epoch q

theorem holder_iff_least (hties : E.NoTies epoch batch suspended) :
    E.computeHolder epoch batch suspended = .ok pid ↔
      E.IsLeast epoch (E.eligible epoch batch suspended) pid := by
  rw [computeHolder_iff]
  constructor
  · rintro ⟨hmem, hadm, hfirst⟩
    have hpid := mem_eligible_iff.mpr (List.mem_filter.mpr ⟨hmem, hadm⟩)
    refine ⟨hpid, fun q hq hne => ?_⟩
    obtain ⟨hq', hqadm⟩ := List.mem_filter.mp (mem_eligible_iff.mp hq)
    have hle := not_lt.mp fun hlt => hfirst q hq' hqadm (.inl hlt)
    exact lt_of_le_of_ne hle fun heq => hne (hties hq hpid heq.symm)
  rintro ⟨hpid, hleast⟩
  obtain ⟨hmem, hadm⟩ := List.mem_filter.mp (mem_eligible_iff.mp hpid)
  refine ⟨hmem, hadm, fun q hq hqadm hout => ?_⟩
  rcases eq_or_ne q pid with rfl | hne
  · exact FirstMin.Before.irrefl hout
  have hlt := hleast q (mem_eligible_iff.mpr (List.mem_filter.mpr ⟨hq, hqadm⟩)) hne
  rcases hout with hless | ⟨heq, -⟩
  · exact hless.asymm hlt
  · exact hlt.ne' heq

theorem eligible_empty_iff : E.eligible epoch batch suspended = ∅ ↔
    ∀ pid, E.computeHolder epoch batch suspended ≠ .ok pid := by
  simp only [Set.eq_empty_iff_forall_notMem, mem_eligible_iff,
    ← List.eq_nil_iff_forall_not_mem, ne_eq,
    computeHolder_eq_ok, ← Option.eq_none_iff_forall_ne_some, List.argmin_eq_none]

theorem holder_error_iff : E.computeHolder epoch batch suspended = .error err ↔
    E.authorizedMembers epoch batch = .error err ∨
      (∀ e, E.authorizedMembers epoch batch ≠ .error e) ∧ E.eligible epoch batch suspended = ∅ ∧
        err = "coordination: active view is empty" := by
  rw [eligible_empty_iff]
  cases hpeers : E.authorizedMembers epoch batch with
  | error e => simp [computeHolder, hpeers, bind, Except.bind]
  | ok peers =>
    simp only [computeHolder, hpeers, bind, Except.bind, computeTokenHolder]
    split <;> simp [eq_comm]

theorem authorizedMembers_error_iff (view : List PeerID) :
    { E with members := view }.authorizedMembers epoch batch = .error err ↔
      E.authorizedMembers epoch batch = .error err := by
  cases E with
  | mk hash codec groupID members authorized =>
    cases authorized with
    | none => simp [authorizedMembers]
    | some provider =>
      simp only [authorizedMembers]
      cases provider groupID epoch batch <;> simp [Except.map]

theorem holder_of_view (hties : E.NoTies epoch batch suspended) {view : List PeerID}
    (hview : ∀ p ∈ view, p ∈ E.members)
    (hholder : ∀ p, E.computeHolder epoch batch suspended = .ok p → p ∈ view) :
    { E with members := view }.computeHolder epoch batch suspended =
      E.computeHolder epoch batch suspended := by
  have hsub : { E with members := view }.eligible epoch batch suspended ⊆ E.eligible epoch
      batch suspended :=
    fun p hp => ⟨hview p hp.1, hp.2⟩
  cases hresult : E.computeHolder epoch batch suspended with
  | ok pid =>
    obtain ⟨hpid, hleast⟩ := (holder_iff_least hties).mp hresult
    refine (holder_iff_least (hties.mono hsub)).mpr
      ⟨⟨hholder pid hresult, hpid.2⟩, fun q hq hne => ?_⟩
    exact hleast q (hsub hq) hne
  | error err =>
    simp only [holder_error_iff, authorizedMembers_error_iff, ne_eq] at hresult ⊢
    rcases hresult with hpolicy | ⟨hpolicy, hempty, herr⟩
    · exact .inl hpolicy
    · exact .inr ⟨hpolicy, Set.subset_eq_empty hsub hempty, herr⟩

/-- The election is the minimum over the eligible peers, where policy never authorizes the empty
peer. -/
theorem holder_is_argmin (E : Electorate) (epoch : Nat) (batch : List BufferedProposal)
    (suspended : List PeerID) (hties : E.NoTies epoch batch suspended) :
    (∀ pid, E.computeHolder epoch batch suspended = .ok pid ↔
      E.IsLeast epoch (E.eligible epoch batch suspended) pid) ∧
    ((∃ err, E.computeHolder epoch batch suspended = .error err) ↔
      (∃ err, E.authorizedMembers epoch batch = .error err) ∨
        E.eligible epoch batch suspended = ∅) ∧
    (∀ view : List PeerID, (∀ p, p ∈ view ↔ p ∈ E.members) →
      { E with members := view }.computeHolder epoch batch suspended =
        E.computeHolder epoch batch suspended) ∧
    ∀ q, E.computeHolder epoch batch suspended ≠ .ok q →
      { E with members := E.members.filter (· ≠ q) }.computeHolder epoch batch suspended =
        E.computeHolder epoch batch suspended := by
  have hmember : ∀ p, E.computeHolder epoch batch suspended = .ok p → p ∈ E.members :=
    fun p hp => ((holder_iff_least hties).mp hp).1.1
  refine ⟨fun pid => holder_iff_least hties, ?_, fun view hview => ?_, fun q hq => ?_⟩
  · simp only [holder_error_iff]
    cases hpeers : E.authorizedMembers epoch batch with
    | error e | ok peers => simp
  · exact holder_of_view hties (fun p => (hview p).mp) fun p hp => (hview p).mpr (hmember p hp)
  refine holder_of_view hties (fun p hp => List.mem_of_mem_filter hp) fun p hp => ?_
  have hne : p ≠ q := fun heq => hq (heq ▸ hp)
  simp [hmember p hp, hne]

def pair (authorized : List PeerID) : Electorate where
  hash := Reference.hash
  codec := Reference.peers
  groupID := "g"
  members := [[66], [65], [66]]
  authorized := some fun _ _ _ => .ok authorized

theorem pair_noTies (batch : List BufferedProposal) : (pair [[65], [66]]).NoTies 0 batch [] := by
  rintro p ⟨hp, -⟩ q ⟨hq, -⟩ heq
  simp only [pair, List.mem_cons, List.not_mem_nil, or_false] at hp hq
  rcases hp with rfl | rfl | rfl <;> rcases hq with rfl | rfl | rfl <;>
    first | rfl | exact absurd heq (by decide)

theorem pair_elects_once :
    (pair [[65], [66]]).eligible 0 [] [] = {[65], [66]} ∧
    (pair [[65], [66]]).computeHolder 0 [] [] = .ok [65] ∧
    { pair [[65], [66]] with members := [[65], [66]] }.computeHolder 0 [] [] = .ok [65] ∧
    { pair [[65], [66]] with members := [[65]] }.computeHolder 0 [] [] = .ok [65] := by
  obtain ⟨-, -, hview, hother⟩ := holder_is_argmin (pair [[65], [66]]) 0 [] [] (pair_noTies [])
  refine ⟨?_, by decide, (hview [[65], [66]] fun p => ?_).trans (by decide),
    (hother [66] (by decide)).trans (by decide)⟩
  · ext p
    rw [mem_eligible_iff, show (pair [[65], [66]]).members.filter
      ((pair [[65], [66]]).admits 0 [] []) = [[66], [65], [66]] by decide]
    simp only [List.mem_cons, List.not_mem_nil, or_false, Set.mem_insert_iff, Set.mem_singleton_iff]
    tauto
  · simp only [pair, List.mem_cons, List.not_mem_nil, or_false]
    tauto

/-- The empty peer is in the view and among the peers that policy names, and is not elected. -/
theorem empty_peer_not_elected :
    { pair [[]] with members := [[]] }.computeHolder 0 [] [] =
      .error "coordination: active view is empty" := by
  decide

end Electorate

-- -------- The order in which proposals come in

theorem sortProposals_perm (batch : List BufferedProposal) : (sortProposals batch).Perm batch :=
  List.perm_insertionSort _ _

structure DistinctRefs (ps : List BufferedProposal) : Prop where
  nonempty : ∀ p ∈ ps, p.proposalRef ≠ []
  distinct : (ps.map (·.proposalRef)).Nodup

namespace DistinctRefs

variable {ps : List BufferedProposal}

section

variable (h : DistinctRefs ps)

include h

theorem unique (hp : p ∈ ps) (hq : q ∈ ps) (hpq : p.proposalRef = q.proposalRef) : p = q :=
  List.inj_on_of_nodup_map h.distinct hp hq hpq

theorem perm (hperm : qs.Perm ps) : DistinctRefs qs :=
  ⟨fun p hp => h.nonempty p (hperm.mem_iff.mp hp), (hperm.map _).nodup_iff.mpr h.distinct⟩

theorem sublist (hsub : qs.Sublist ps) : DistinctRefs qs :=
  ⟨fun p hp => h.nonempty p (hsub.subset hp), h.distinct.sublist (hsub.map _)⟩

theorem sorted : (sortProposals ps).Pairwise (·.proposalRef < ·.proposalRef) := by
  have hrefs : (sortProposals ps).map (·.proposalRef) =
      (ps.map (·.proposalRef)).insertionSort (· ≤ ·) := by
    refine List.map_insertionSort _ _ _ _ fun a ha b hb => ?_
    simp [proposalRefLess, h.nonempty a ha, h.nonempty b hb]
  have hle := List.pairwise_insertionSort (· ≤ ·) (ps.map (·.proposalRef))
  rw [← hrefs, List.pairwise_map] at hle
  have hne := List.pairwise_map.mp (h.perm (sortProposals_perm ps)).distinct
  exact hle.imp₂ (fun _ _ => lt_of_le_of_ne) hne

theorem sort_perm (hperm : qs.Perm ps) : sortProposals qs = sortProposals ps := by
  have hsorts : (sortProposals qs).Perm (sortProposals ps) :=
    ((sortProposals_perm qs).trans hperm).trans (sortProposals_perm ps).symm
  exact hsorts.eq_of_pairwise (fun _ _ _ _ hab hba => absurd hba hab.asymm)
    (h.perm hperm).sorted h.sorted

end

end DistinctRefs

namespace SingleWriter

variable {cfg : CoordinatorConfig} {w : SingleWriter} {ps arrivals : List BufferedProposal}

def bufferAll (cfg : CoordinatorConfig) (w : SingleWriter) (arrivals : List BufferedProposal) :
    SingleWriter :=
  arrivals.foldl (bufferProposal cfg) w

@[simp] theorem bufferAll_epoch (w : SingleWriter) :
    (w.bufferAll cfg arrivals).epoch = w.epoch := by
  induction arrivals generalizing w with
  | nil => rfl
  | cons p arrivals ih => exact (ih _).trans (bufferProposal_epoch w)

@[simp] theorem bufferAll_suspended (w : SingleWriter) :
    (w.bufferAll cfg arrivals).suspended = w.suspended := by
  induction arrivals generalizing w with
  | nil => rfl
  | cons p arrivals ih => exact (ih _).trans (bufferProposal_suspended w)

/-- In whichever order, and however often, the proposals come in, the batch is the same list sorted
by ref and the holder is the one that is elected for it. -/
def IgnoresArrival (E : Electorate) (cfg : CoordinatorConfig) (w : SingleWriter)
    (ps : List BufferedProposal) : Prop :=
  ∃ batch : List BufferedProposal, batch.Pairwise (·.proposalRef < ·.proposalRef) ∧
    ∀ arrivals : List BufferedProposal, (∀ p, p ∈ arrivals ↔ p ∈ ps) →
      (w.bufferAll cfg arrivals).snapshotNextBatch cfg = batch ∧
      (w.bufferAll cfg arrivals).currentTokenHolder E cfg =
        E.computeHolder w.epoch batch w.suspended

theorem snapshot_of_fits (h : (w.proposals.length : Int) ≤ cfg.maxBatchedProposals) :
    w.snapshotNextBatch cfg = sortProposals w.proposals := by
  unfold snapshotNextBatch
  dsimp only
  rw [if_neg]
  simpa [sortProposals] using h

theorem bufferAll_fits (hps : DistinctRefs ps) (hfits : (ps.length : Int) ≤ cfg.maxBatchedProposals)
    (hnodup : w.proposals.Nodup) (hsub : ∀ p ∈ w.proposals, p ∈ ps)
    (harrivals : ∀ p ∈ arrivals, p ∈ ps) :
    (w.bufferAll cfg arrivals).proposals.Nodup ∧
      ∀ q, q ∈ (w.bufferAll cfg arrivals).proposals ↔ q ∈ w.proposals ∨ q ∈ arrivals := by
  induction arrivals generalizing w with
  | nil => exact ⟨hnodup, fun q => by simp [bufferAll]⟩
  | cons p arrivals ih =>
    have hp := harrivals p List.mem_cons_self
    have hrest : ∀ q ∈ arrivals, q ∈ ps := fun q hq => harrivals q (List.mem_cons_of_mem p hq)
    by_cases hmem : p ∈ w.proposals
    · -- it is there, under its ref
      have hkeep : w.bufferProposal cfg p = w := by
        have hheld : w.holdsRef p.proposalRef = true :=
          decide_eq_true ⟨hps.nonempty p hp, List.mem_map.mpr ⟨p, hmem, rfl⟩⟩
        rw [bufferProposal, if_pos hheld]
      have h := ih hnodup hsub hrest
      simp only [bufferAll, List.foldl_cons, hkeep] at h ⊢
      refine ⟨h.1, fun q => (h.2 q).trans ?_⟩
      by_cases heq : q = p
      · simp [heq, hmem]
      · simp [heq]
    have hnodup' : (w.proposals ++ [p]).Nodup := by
      simpa [List.nodup_append, hnodup] using fun a ha (heq : a = p) => hmem (heq ▸ ha)
    have hsub' : ∀ q ∈ w.proposals ++ [p], q ∈ ps := by
      simpa [or_imp, forall_and, hp] using hsub
    have hroom : w.proposals.length + 1 ≤ ps.length := by
      simpa using (List.subperm_of_subset hnodup' hsub').length_le
    have hnew : w.bufferProposal cfg p = { w with proposals := w.proposals ++ [p] } := by
      have hnot : w.holdsRef p.proposalRef = false := by
        refine decide_eq_false fun hheld => ?_
        obtain ⟨q, hq, href⟩ := List.mem_map.mp hheld.2
        exact hmem (hps.unique (hsub q hq) hp href ▸ hq)
      have hopen : w.isFull cfg = false := decide_eq_false (by omega)
      simp [bufferProposal, hnot, hopen]
    have h := ih hnodup' hsub' hrest (w := { w with proposals := w.proposals ++ [p] })
    simp only [bufferAll, List.foldl_cons, hnew] at h ⊢
    refine ⟨h.1, fun q => (h.2 q).trans ?_⟩
    simp [or_assoc]

theorem bufferAll_new (hcap : (w.proposals.length : Int) ≤ cfg.maxBatchedProposals)
    (hall : DistinctRefs (w.proposals ++ arrivals)) :
    (w.bufferAll cfg arrivals).proposals =
      (w.proposals ++ arrivals).take cfg.maxBatchedProposals.toNat := by
  induction arrivals generalizing w with
  | nil =>
    rw [List.append_nil, List.take_of_length_le (by omega)]
    rfl
  | cons p arrivals ih =>
    have hnot : w.holdsRef p.proposalRef = false := by
      refine decide_eq_false fun hheld => ?_
      have hdistinct := hall.distinct
      rw [List.map_append, List.map_cons, List.nodup_append] at hdistinct
      exact hdistinct.2.2 _ hheld.2 _ List.mem_cons_self rfl
    by_cases hfull : (w.proposals.length : Int) ≥ cfg.maxBatchedProposals
    · have hdrop : w.bufferProposal cfg p = w := by simp [bufferProposal, isFull, hnot, hfull]
      have hsub : (w.proposals ++ arrivals).Sublist (w.proposals ++ p :: arrivals) :=
        (List.sublist_cons_self p arrivals).append_left w.proposals
      have h := ih hcap (hall.sublist hsub)
      have hlen : cfg.maxBatchedProposals.toNat = w.proposals.length := by omega
      simp only [bufferAll, List.foldl_cons, hdrop, hlen, List.take_left] at h ⊢
      exact h
    · have htake : w.bufferProposal cfg p = { w with proposals := w.proposals ++ [p] } := by
        simp [bufferProposal, isFull, hnot, hfull]
      have hcons : w.proposals ++ p :: arrivals = (w.proposals ++ [p]) ++ arrivals := by simp
      rw [hcons] at hall ⊢
      have h := ih (w := { w with proposals := w.proposals ++ [p] }) (by simp; omega) hall
      simpa only [bufferAll, List.foldl_cons, htake] using h

theorem bufferAll_capless (hcap : cfg.maxBatchedProposals ≤ 0) : w.bufferAll cfg arrivals = w := by
  induction arrivals generalizing w with
  | nil => rfl
  | cons p arrivals ih =>
    have hdrop : w.bufferProposal cfg p = w := by
      have hfull : w.isFull cfg = true := decide_eq_true (by omega)
      simp [bufferProposal, hfull]
    simpa [bufferAll, hdrop] using ih (w := w)

/-- The order of arrival is ignored iff the buffer has room for all proposals, or for none. -/
theorem ignores_arrival_iff (E : Electorate) (cfg : CoordinatorConfig) (w : SingleWriter)
    (ps : List BufferedProposal) (hempty : w.proposals = []) (hps : DistinctRefs ps) :
    IgnoresArrival E cfg w ps ↔
      (ps.length : Int) ≤ cfg.maxBatchedProposals ∨ cfg.maxBatchedProposals ≤ 0 := by
  constructor
  · rintro ⟨batch, -, hbatch⟩
    by_contra! hcap
    obtain ⟨hmore, hpos⟩ := hcap
    obtain ⟨head, tail, rfl⟩ : ∃ head tail, ps = head :: tail :=
      List.exists_cons_of_length_pos (by omega)
    -- the first proposal is in the batch, unless it comes last
    have hin : ∀ arrivals : List BufferedProposal, arrivals.Perm (head :: tail) →
        (head ∈ batch ↔ head ∈ arrivals.take cfg.maxBatchedProposals.toNat) := by
      intro arrivals hperm
      have hbuffer : (w.bufferAll cfg arrivals).proposals =
          arrivals.take cfg.maxBatchedProposals.toNat := by
        have hnew : DistinctRefs (w.proposals ++ arrivals) := by simpa [hempty] using hps.perm hperm
        have hcap : (w.proposals.length : Int) ≤ cfg.maxBatchedProposals := by
          simp [hempty, hpos.le]
        simpa [hempty] using bufferAll_new hcap hnew
      have hfits : ((w.bufferAll cfg arrivals).proposals.length : Int) ≤
          cfg.maxBatchedProposals := by
        rw [hbuffer, List.length_take]
        omega
      rw [← (hbatch arrivals fun p => hperm.mem_iff).1, snapshot_of_fits hfits,
        mem_sortProposals, hbuffer]
    have hfirst := (hin (head :: tail) (.refl _)).mpr (by
      rw [List.take_cons (by omega)]
      exact List.mem_cons_self)
    have hlast := (hin (tail ++ [head]) (List.perm_append_singleton head tail)).mp hfirst
    rw [List.take_append_of_le_length (by simp only [List.length_cons] at hmore; omega)] at hlast
    have hnotin : head ∉ tail := (List.nodup_cons.mp (List.Nodup.of_map _ hps.distinct)).1
    exact hnotin (List.mem_of_mem_take hlast)
  · intro hcap
    have hall : ∃ batch : List BufferedProposal, batch.Pairwise (·.proposalRef < ·.proposalRef) ∧
        ∀ arrivals : List BufferedProposal, (∀ p, p ∈ arrivals ↔ p ∈ ps) →
          (w.bufferAll cfg arrivals).snapshotNextBatch cfg = batch := by
      rcases hcap with hfits | hnone
      · refine ⟨sortProposals ps, hps.sorted, fun arrivals harrivals => ?_⟩
        obtain ⟨hnodup, hmem⟩ := bufferAll_fits hps hfits (w := w) (by simp [hempty])
          (by simp [hempty])
          fun p => (harrivals p).mp
        have hperm : (w.bufferAll cfg arrivals).proposals.Perm ps := by
          refine (List.perm_ext_iff_of_nodup hnodup
            (List.Nodup.of_map _ hps.distinct)).mpr fun p => ?_
          simp [hmem, hempty, harrivals]
        rw [snapshot_of_fits (by rw [hperm.length_eq]; exact hfits), hps.sort_perm hperm]
      · refine ⟨[], .nil, fun arrivals _ => ?_⟩
        rw [bufferAll_capless hnone]
        simp [snapshotNextBatch, hempty, sortProposals]
    obtain ⟨batch, hsorted, hbatch⟩ := hall
    refine ⟨batch, hsorted, fun arrivals harrivals => ⟨hbatch arrivals harrivals, ?_⟩⟩
    simp [currentTokenHolder, hbatch arrivals harrivals]

def removal (pid : PeerID) : BufferedProposal :=
  { type := .remove, proposalRef := pid, targetPeerID := Reference.peers.toString pid }

theorem two_removals_any_order :
    IgnoresArrival (.pair [[65], [66]]) .testConfig (new 0) [removal [66], removal [65]] := by
  refine (ignores_arrival_iff _ _ _ _ rfl ⟨?_, by decide⟩).mpr (.inl (by decide))
  decide

/-- Two removals and room for one of them: the first that comes in decides who is elected. -/
theorem first_arrival_decides :
    ((new 0).bufferAll { CoordinatorConfig.testConfig with maxBatchedProposals := 1 }
        [removal [66], removal [65]]).currentTokenHolder (.pair [[65], [66]])
          { CoordinatorConfig.testConfig with maxBatchedProposals := 1 } = .ok [65] ∧
      ((new 0).bufferAll { CoordinatorConfig.testConfig with maxBatchedProposals := 1 }
        [removal [65], removal [66]]).currentTokenHolder (.pair [[65], [66]])
          { CoordinatorConfig.testConfig with maxBatchedProposals := 1 } = .ok [66] := by
  decide +kernel

-- -------- Rotation

variable {E : Electorate}

def suspendCurrent (E : Electorate) (cfg : CoordinatorConfig) (w : SingleWriter) : SingleWriter :=
  match w.currentTokenHolder E cfg with
  | .ok holder => w.suspend holder
  | .error _ => w

def candidates (E : Electorate) (cfg : CoordinatorConfig) (w : SingleWriter) : Set PeerID :=
  E.eligible w.epoch (w.snapshotNextBatch cfg) w.suspended

theorem suspend_batch (w : SingleWriter) :
    (w.suspend pid).snapshotNextBatch cfg = w.snapshotNextBatch cfg := by
  simp [snapshotNextBatch]

theorem mem_candidates_suspend :
    q ∈ (w.suspend pid).candidates E cfg ↔ q ∈ w.candidates E cfg ∧ q ≠ pid := by
  simp only [candidates, eligible, suspend_epoch, suspend_batch, mem_suspend, Set.mem_ofPred_eq]
  tauto

theorem candidates_finite (w : SingleWriter) : (w.candidates E cfg).Finite :=
  (List.finite_toSet E.members).subset fun _ hp => hp.1

theorem rotation (hn : (w.candidates E cfg).ncard = n)
    (hties : E.NoTies w.epoch (w.snapshotNextBatch cfg) w.suspended) :
    ∃ ranking : List PeerID, ranking.length = n ∧
      (∀ pid, pid ∈ ranking ↔ pid ∈ w.candidates E cfg) ∧
      ranking.Pairwise
        (electionHash E.hash E.groupID w.epoch · < electionHash E.hash E.groupID w.epoch ·) ∧
      ∀ k, (((suspendCurrent E cfg)^[k] w).currentTokenHolder E cfg).toOption = ranking[k]? := by
  induction n generalizing w with
  | zero =>
    have hempty := (Set.ncard_eq_zero (candidates_finite w)).mp hn
    have hnone := eligible_empty_iff.mp hempty
    have hstay : suspendCurrent E cfg w = w := by
      unfold suspendCurrent
      split
      · exact absurd ‹_› (hnone _)
      · rfl
    refine ⟨[], rfl, fun pid => by simp [hempty], .nil, fun k => ?_⟩
    rw [Function.iterate_fixed hstay]
    cases hresult : w.currentTokenHolder E cfg with
    | ok pid => exact absurd hresult (hnone pid)
    | error err => rfl
  | succ n ih =>
    cases hresult : w.currentTokenHolder E cfg with
    | error err =>
      have hempty := eligible_empty_iff.mpr fun pid hpid => by cases hresult.symm.trans hpid
      have hzero : (w.candidates E cfg).ncard = 0 :=
        (Set.ncard_eq_zero (candidates_finite w)).mpr hempty
      omega
    | ok holder =>
      obtain ⟨hmem, hleast⟩ := (holder_iff_least hties).mp hresult
      have hholder : holder ∈ w.candidates E cfg := hmem
      have hnext : suspendCurrent E cfg w = w.suspend holder := by simp [suspendCurrent, hresult]
      have hrest : (w.suspend holder).candidates E cfg = w.candidates E cfg \ {holder} :=
        Set.ext fun q => mem_candidates_suspend
      have hties' : E.NoTies (w.suspend holder).epoch ((w.suspend holder).snapshotNextBatch cfg)
          (w.suspend holder).suspended := by
        have hsub : (w.suspend holder).candidates E cfg ⊆ w.candidates E cfg := fun q hq =>
          (mem_candidates_suspend.mp hq).1
        have hinj := Set.InjOn.mono hsub hties
        rwa [← suspend_epoch w] at hinj
      have hcard : ((w.suspend holder).candidates E cfg).ncard = n := by
        rw [hrest, Set.ncard_sdiff_singleton_of_mem hholder]
        omega
      obtain ⟨ranking, hlength, hmem, hsorted, hvisits⟩ := ih hcard hties'
      rw [suspend_epoch] at hsorted
      refine ⟨holder :: ranking, by simp [hlength], fun q => ?_, List.pairwise_cons.mpr
        ⟨fun q hq => ?_, hsorted⟩,
        fun k => ?_⟩
      · rw [List.mem_cons, hmem, mem_candidates_suspend]
        by_cases heq : q = holder
        · simp [heq, hholder]
        · simp [heq]
      · obtain ⟨hq, hne⟩ := mem_candidates_suspend.mp ((hmem q).mp hq)
        exact hleast q hq hne
      cases k with
      | zero => simp [hresult, Except.toOption]
      | succ k => simpa [Function.iterate_succ_apply, hnext] using hvisits k

/-- The eligible peers are holders one after the other, in the order of their hashes; then there is
no holder, whoever else is suspended, until the next epoch, which starts without suspensions. -/
theorem holders_rotate (E : Electorate) (cfg : CoordinatorConfig) (w : SingleWriter)
    (hfresh : w.suspended = []) (hties : E.NoTies w.epoch (w.snapshotNextBatch cfg) []) :
    ∃ ranking : List PeerID,
      ranking.length = (E.eligible w.epoch (w.snapshotNextBatch cfg) []).ncard ∧
      (∀ pid, pid ∈ ranking ↔ pid ∈ E.eligible w.epoch (w.snapshotNextBatch cfg) []) ∧
      ranking.Pairwise
        (electionHash E.hash E.groupID w.epoch · < electionHash E.hash E.groupID w.epoch ·) ∧
      (∀ k, (((suspendCurrent E cfg)^[k] w).currentTokenHolder E cfg).toOption = ranking[k]?) ∧
      (∀ k (others : List PeerID) pid, ranking.length ≤ k →
        (others.foldl suspend ((suspendCurrent E cfg)^[k] w)).currentTokenHolder E cfg ≠ .ok pid) ∧
      ∀ k newEpoch,
        (((suspendCurrent E cfg)^[k] w).advanceEpoch newEpoch).currentTokenHolder E cfg =
          E.computeHolder newEpoch [] [] := by
  rw [← hfresh] at hties
  obtain ⟨ranking, hlength, hmem, hsorted, hvisits⟩ := rotation rfl hties
  simp only [candidates, hfresh] at hlength hmem
  refine ⟨ranking, hlength, hmem, hsorted, hvisits, fun k others pid hk => ?_, fun k newEpoch => ?_⟩
  · have hempty : ((suspendCurrent E cfg)^[k] w).candidates E cfg = ∅ := by
      refine eligible_empty_iff.mpr fun pid hpid => ?_
      have hlast := hvisits k
      rw [List.getElem?_eq_none hk] at hlast
      rw [show currentTokenHolder E cfg _ = .ok pid from hpid] at hlast
      cases hlast
    have hsub : ∀ v : SingleWriter, v.candidates E cfg = ∅ →
        (others.foldl suspend v).candidates E cfg = ∅ := by
      induction others with
      | nil => exact fun v hv => hv
      | cons q others ih =>
        refine fun v hv => ih (v.suspend q) (Set.eq_empty_iff_forall_notMem.mpr fun p hp => ?_)
        exact Set.eq_empty_iff_forall_notMem.mp hv p (mem_candidates_suspend.mp hp).1
    exact eligible_empty_iff.mp (hsub _ hempty) pid
  · simp [advanceEpoch, currentTokenHolder, snapshotNextBatch, sortProposals]

theorem pair_rotates : ∃ ranking : List PeerID,
    (∀ pid, pid ∈ ranking ↔ pid ∈ (pair [[65], [66]]).eligible 0 [] []) ∧
      ranking[0]? = some [65] ∧ ranking[1]? = some [66] ∧ ranking[2]? = none := by
  obtain ⟨ranking, -, hmem, -, hvisits, -⟩ := holders_rotate _ _ (new 0) rfl
    (pair_noTies ((new 0).snapshotNextBatch .testConfig))
  refine ⟨ranking, hmem, ?_, ?_, ?_⟩
  · exact (hvisits 0).symm.trans (by decide)
  · exact (hvisits 1).symm.trans (by decide)
  · exact (hvisits 2).symm.trans (by decide)

end SingleWriter

/-- A failover timer that finds another holder, before and after, moves the rotation on by one. -/
theorem failoverTimer_rotates {x : Ctx} {s : State} {call : Call → State → State}
    (htimer : s.failoverTimer = some timer) (hcount : 0 < s.singleWriter.proposalCount)
    (hbefore : s.isTokenHolder x = false) (hholder : s.currentTokenHolder x ≠ .ok [])
    (hafter : (s.singleWriter.suspendCurrent (s.electorate x) x.cfg).isTokenHolder
      (s.electorate x) x.cfg x.localID = false) :
    (failoverTimerFires x call timer s).singleWriter =
      s.singleWriter.suspendCurrent (s.electorate x) x.cfg := by
  unfold SingleWriter.suspendCurrent at hafter ⊢
  have hnow : State.isTokenHolder x { s with failoverTimer := none } = false := hbefore
  rw [failoverTimerFires, if_pos htimer]
  dsimp only
  rw [if_pos ⟨hcount, by rw [hnow]; rfl⟩, suspendHolder]
  cases hresult : s.currentTokenHolder x with
  | error err =>
    have hwriter : s.singleWriter.currentTokenHolder (s.electorate x) x.cfg = .error err := hresult
    have htimed : State.currentTokenHolder x { s with failoverTimer := none } = .error err :=
      hresult
    rw [hwriter, htimed]
  | ok holder =>
    have hwriter : s.singleWriter.currentTokenHolder (s.electorate x) x.cfg = .ok holder := hresult
    have htimed : State.currentTokenHolder x { s with failoverTimer := none } = .ok holder :=
      hresult
    have hne : holder ≠ [] := fun heq => hholder (heq ▸ hresult)
    have hstill : State.isTokenHolder x
        { s with failoverTimer := none, singleWriter := s.singleWriter.suspend holder } =
          false := by
      rw [hwriter] at hafter
      exact hafter
    rw [hwriter, htimed]
    simp only [hne, if_false, hstill, Bool.false_eq_true]
    unfold scheduleFailoverTimerLocked
    split
    · rfl
    · split <;> rfl

end GroupCoordination
