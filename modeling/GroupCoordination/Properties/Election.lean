import GroupCoordination.Lib.FirstMin
import GroupCoordination.Model.Commit

/-!
# Who is elected

An election ranks the active view by hash, ties by position, and admits the peers that
policy authorizes for the batch, that the batch does not remove and that are not
suspended. The holder is the admitted peer that no admitted peer outranks. Everything the
later modules say about two elections rests on this: they can only differ in whom they
admit.
-/

namespace GroupCoordination

namespace Electorate

variable {E : Electorate} {batch elected carried : List BufferedProposal} {pid : PeerID}

def authorizes (E : Electorate) (epoch : Nat) (batch : List BufferedProposal) (pid : PeerID) :
    Bool :=
  match E.authorized with
  | none => true
  | some provider =>
    match provider E.groupID epoch batch with
    | .ok peers => pid ∈ peers ∧ pid ≠ []
    | .error _ => false

def admits (E : Electorate) (epoch : Nat) (suspended : List PeerID)
    (batch : List BufferedProposal) (pid : PeerID) : Bool :=
  E.authorizes epoch batch pid ∧ E.codec.toString pid ∉ removedByBatch batch ∧ pid ∉ suspended

def Outranks (E : Electorate) (epoch : Nat) (p q : PeerID) : Prop :=
  FirstMin.Before (electionHash E.hash E.groupID epoch) E.members p q

theorem computeTokenHolder_eq_ok {H : Hash} {group : String} :
    computeTokenHolder H group view epoch = .ok pid ↔
      view.argmin (electionHash H group epoch) = some pid := by
  unfold computeTokenHolder
  split <;> simp [*]

theorem computeHolder_eq_ok :
    E.computeHolder epoch batch suspended = .ok pid ↔
      (E.members.filter (E.admits epoch suspended batch)).argmin
        (electionHash E.hash E.groupID epoch) = some pid := by
  unfold computeHolder authorizedMembers
  cases hpolicy : E.authorized with
  | none =>
    refine computeTokenHolder_eq_ok.trans ?_
    simp only [filterSuspended, filterRemovedByBatch, List.filter_filter]
    congr! 3
    funext q
    simp [admits, authorizes, hpolicy, and_comm]
  | some provider =>
    cases hpeers : provider E.groupID epoch batch with
    | error err =>
      -- Nobody is admitted, and the election fails with the policy.
      have hnone : E.members.filter (E.admits epoch suspended batch) = [] := by
        refine List.filter_eq_nil_iff.mpr fun q _ => ?_
        simp [admits, authorizes, hpolicy, hpeers]
      simp [hpeers, hnone, Except.map, bind, Except.bind]
    | ok peers =>
      simp only [hpeers, Except.map]
      refine computeTokenHolder_eq_ok.trans ?_
      simp only [filterSuspended, filterRemovedByBatch, intersectPeerIDs, List.filter_filter]
      congr! 3
      funext q
      rw [Bool.eq_iff_iff]
      simp only [admits, authorizes, hpolicy, hpeers, decide_eq_true_eq, Bool.and_eq_true]
      tauto

theorem computeHolder_iff :
    E.computeHolder epoch batch suspended = .ok pid ↔
      pid ∈ E.members ∧ E.admits epoch suspended batch pid = true ∧
        ∀ q ∈ E.members, E.admits epoch suspended batch q = true → ¬ E.Outranks epoch q pid := by
  rw [computeHolder_eq_ok]
  unfold Outranks
  -- The model compares hashes by the list order's own decision procedure.
  convert FirstMin.argmin_filter_eq_some_iff

/-- The holder for one batch is the holder for another if it is admitted there and outranks
every peer that is admitted there only. -/
theorem computeHolder_transfer (h : E.computeHolder epoch elected suspended = .ok pid) :
    E.computeHolder epoch carried suspended = .ok pid ↔
      E.admits epoch suspended carried pid = true ∧
        ∀ q ∈ E.members, E.admits epoch suspended carried q = true →
          E.admits epoch suspended elected q = false → E.Outranks epoch pid q := by
  obtain ⟨hmem, hadm, hfirst⟩ := computeHolder_iff.mp h
  rw [computeHolder_iff]
  constructor
  · rintro ⟨-, hadm', hfirst'⟩
    refine ⟨hadm', fun q hq hc he => ?_⟩
    have hne : pid ≠ q := by
      rintro rfl
      rw [hadm] at he
      cases he
    exact (FirstMin.Before.total hmem hne).resolve_right (hfirst' q hq hc)
  · rintro ⟨hadm', hnew⟩
    refine ⟨hmem, hadm', fun q hq hc hout => ?_⟩
    cases he : E.admits epoch suspended elected q with
    | true => exact hfirst q hq he hout
    | false => exact (hnew q hq hc he).asymm hout

end Electorate

-- -------- The receiver's check

variable {C : PeerCodec} {batch : List BufferedProposal} {sender : PeerID}

theorem PeerCodec.Lawful.decode_sender (h : C.Lawful) (hs : sender ≠ []) :
    decodeEnvelopePeerID C (C.toString sender) [] = sender := by
  unfold decodeEnvelopePeerID
  rw [if_neg (h.toString_ne sender hs), h.decode_toString sender hs]
  rfl

theorem removesPeer_eq_false (h : C.Lawful) (hs : sender ≠ [])
    (hr : C.toString sender ∉ removedByBatch batch) : removesPeer C batch sender = false := by
  unfold removesPeer
  rw [decide_eq_false_iff_not]
  rintro ⟨-, hany⟩
  obtain ⟨p, hp, htarget⟩ := List.any_eq_true.mp hany
  obtain ⟨ht, hname⟩ := of_decide_eq_true htarget
  apply hr
  rw [removedByBatch, List.mem_map]
  refine ⟨p, List.mem_filter.mpr ⟨hp, ?_⟩, hname⟩
  rw [decide_eq_true_iff]
  exact ⟨ht, hname ▸ h.toString_ne sender hs⟩

theorem checkCommitter_iff {y : Ctx} {p : State} (h : y.peers.Lawful) (hs : sender ≠ [])
    (hfrom : env.from = y.peers.toString sender) :
    checkCommitter y env batch p = .ok () ↔
      batch = [] ∨ p.singleWriter.holderForBatch (p.electorate y) batch = .ok sender := by
  unfold checkCommitter
  rw [hfrom, h.decode_sender hs]
  dsimp only
  by_cases hb : batch = []
  · simp [hb]
  rw [if_neg (by simp [hb, hs])]
  simp only [hb, false_or]
  cases hh : p.singleWriter.holderForBatch (p.electorate y) batch with
  | error err => simp [show p.holderForBatch y batch = _ from hh]
  | ok holder =>
    simp only [show p.holderForBatch y batch = _ from hh, Except.ok.injEq]
    by_cases hne : sender = holder
    · subst hne
      obtain ⟨-, hadm, -⟩ := Electorate.computeHolder_iff.mp hh
      have hr : removesPeer y.peers batch sender = false :=
        removesPeer_eq_false h hs (of_decide_eq_true hadm).2.1
      simp [hr]
    · simp [hne, Ne.symm hne]

end GroupCoordination
