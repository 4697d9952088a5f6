import GroupCoordination.Lib.Rank
import GroupCoordination.Model.BlindStore
import GroupCoordination.Model.Reference
import GroupCoordination.Properties.Nonces

/-!
# Publishing and fetching meet

Publisher and fetcher sort the same peers by the same distance, each without itself. One peer more
and one less moves a rank by at most one, so whoever was chosen as a replica is among the first to
be asked.
-/

namespace GroupCoordination

theorem foldl_bytes_inj {a b : Bytes} {m n : Nat} (hlen : a.length = b.length)
    (h : a.foldl (fun n byte => 256 * n + byte.val) m = b.foldl
      (fun n byte => 256 * n + byte.val) n) :
    m = n ∧ a = b := by
  induction a generalizing b m n with
  | nil =>
    obtain rfl := List.length_eq_zero_iff.mp hlen.symm
    exact ⟨h, rfl⟩
  | cons x a ih =>
    obtain ⟨y, b, rfl⟩ := List.exists_cons_of_length_eq_add_one hlen.symm
    obtain ⟨hhead, rfl⟩ := ih (Nat.succ.inj hlen) h
    dsimp only at hhead
    have hx := x.isLt
    have hy := y.isLt
    exact ⟨by omega, by rw [Fin.ext (a := x) (b := y) (by omega)]⟩

theorem zipWith_xor_inj {key a b : Bytes} (ha : key.length = a.length) (hb : key.length = b.length)
    (h : List.zipWith (· ^^^ ·) key a = List.zipWith (· ^^^ ·) key b) : a = b := by
  induction key generalizing a b with
  | nil => rw [List.length_eq_zero_iff.mp ha.symm, List.length_eq_zero_iff.mp hb.symm]
  | cons k key ih =>
    obtain ⟨x, a, rfl⟩ := List.exists_cons_of_length_eq_add_one ha.symm
    obtain ⟨y, b, rfl⟩ := List.exists_cons_of_length_eq_add_one hb.symm
    obtain ⟨hhead, htail⟩ := List.cons.inj h
    rw [xor_byte_inj hhead, ih (Nat.succ.inj ha) (Nat.succ.inj hb) htail]

theorem xorDistance_inj {key a b : Bytes} (ha : key.length = a.length) (hb : key.length = b.length)
    (h : xorDistance key a = xorDistance key b) : a = b := by
  simp only [xorDistance, ha, hb ▸ ha.symm, ne_eq, not_true, if_false] at h
  refine zipWith_xor_inj ha hb (foldl_bytes_inj ?_ h).2
  simp [← ha, ← hb]

namespace BlindStoreLayer

/-- The layer of a node in a set of mutually verified peers, which it lists without itself. -/
structure Listing (b : BlindStoreLayer) (hash : Hash) (peers : PeerCodec) (N : Finset PeerID)
    (me : PeerID) :
    Prop where
  hash_eq : b.hash = hash
  peers_eq : b.peers = peers
  once : b.listPeers.Nodup
  lists : b.listPeers.toFinset = N.erase me
  verified : ∀ pid ∈ N, b.isVerified pid = true
  noLookup : ∀ key, b.getClosestPeers key = none
  visits : ∀ pids, (b.iterate pids).Perm pids

variable {hash : Hash} {peers : PeerCodec} {N : Finset PeerID} {me : PeerID}
  {b b' : BlindStoreLayer}
  {routingKey : String}

section

variable (h : b.Listing hash peers N me)

include h

theorem Listing.candidates_eq : b.blindStoreFetchCandidates me routingKey =
    b.sortByXORDistance routingKey (b.iterate b.listPeers) := by
  have heligible : b.eligible me = b.listPeers := by
    refine List.filter_eq_self.mpr fun pid hpid => ?_
    have hmem := List.mem_toFinset.mpr hpid
    rw [h.lists, Finset.mem_erase] at hmem
    simp [hmem.1, h.verified pid hmem.2]
  simp [blindStoreFetchCandidates, closestByRoutingKey, h.noLookup, heligible, h.once.dedup]

theorem Listing.toFinset_candidates :
    (b.blindStoreFetchCandidates me routingKey).toFinset = N.erase me := by
  rw [h.candidates_eq, ← h.lists]
  exact List.toFinset_eq_of_perm _ _ ((List.mergeSort_perm _ _).trans (h.visits _))

/-- Without a collision of SHA-256 no two peers are at the same distance. -/
theorem Listing.sorted (hinj : Set.InjOn (fun pid => hash.sum (stringBytes (peers.toString pid))) N)
    (routingKey : String) :
    Rank.Sorted (b.distance routingKey) (b.blindStoreFetchCandidates me routingKey) := by
  have hmem : ∀ pid ∈ b.iterate b.listPeers, pid ∈ N := by
    intro pid hpid
    have hlisted := List.mem_toFinset.mpr ((h.visits _).mem_iff.mp hpid)
    rw [h.lists] at hlisted
    exact Finset.mem_of_mem_erase hlisted
  rw [h.candidates_eq]
  refine Rank.sorted_mergeSort ((h.visits _).nodup_iff.mpr h.once) fun x hx y hy heq => ?_
  refine hinj (hmem x hx) (hmem y hy) ?_
  rw [← h.hash_eq, ← h.peers_eq]
  exact xorDistance_inj (by simp [b.hash.size]) (by simp [b.hash.size]) heq

theorem Listing.distance_eq (h' : b'.Listing hash peers N me') : b'.distance = b.distance := by
  unfold distance
  rw [h.hash_eq, h.peers_eq, h'.hash_eq, h'.peers_eq]

theorem Listing.candidates_unique (h' : b'.Listing hash peers N me)
    (hinj : Set.InjOn (fun pid => hash.sum (stringBytes (peers.toString pid))) N)
    (routingKey : String) :
    b'.blindStoreFetchCandidates me routingKey = b.blindStoreFetchCandidates me routingKey := by
  have hsorted := h'.sorted hinj routingKey
  rw [h.distance_eq h'] at hsorted
  refine hsorted.eq_of_mem_iff (h.sorted hinj routingKey) fun pid => ?_
  rw [← List.mem_toFinset, ← List.mem_toFinset, h.toFinset_candidates, h'.toFinset_candidates]

end

end BlindStoreLayer

open BlindStoreLayer

/-- Each replica that the publisher chooses, other than the fetcher, is among the first that the
fetcher asks, and neither choice depends on the order of a list or of a map. -/
theorem replica_targets_are_asked (hash : Hash) (peers : PeerCodec) (N : Finset PeerID)
    (publisher fetcher : PeerID) (routingKey : String) (p q : BlindStoreLayer)
    (hp : p.Listing hash peers N publisher) (hq : q.Listing hash peers N fetcher)
    (hinj : Set.InjOn (fun pid => hash.sum (stringBytes (peers.toString pid))) N) :
    (∀ target ∈ p.selectReplicaTargets publisher routingKey, target ≠ peers.toString fetcher →
      target ∈ ((q.blindStoreFetchCandidates fetcher routingKey).take (p.replicaK.toNat + 1)).map
        peers.toString) ∧
    ∀ p' q' : BlindStoreLayer, p'.Listing hash peers N publisher → q'.Listing hash peers N fetcher →
      p'.replicaK = p.replicaK →
      p'.selectReplicaTargets publisher routingKey = p.selectReplicaTargets publisher routingKey ∧
        q'.blindStoreFetchCandidates fetcher routingKey = q.blindStoreFetchCandidates fetcher
          routingKey := by
  constructor
  · intro target htarget hne
    unfold selectReplicaTargets at htarget
    split at htarget
    · cases htarget
    obtain ⟨pid, hpid, rfl⟩ := List.mem_map.mp htarget
    rw [hp.peers_eq] at hne ⊢
    refine List.mem_map_of_mem ?_
    have hsorted := hq.sorted hinj routingKey
    rw [hp.distance_eq hq] at hsorted
    exact (hp.sorted hinj routingKey).mem_take_succ hp.toFinset_candidates hsorted
      hq.toFinset_candidates hpid
      fun heq => hne (congrArg _ heq)
  · intro p' q' hp' hq' hk
    refine ⟨?_, hq.candidates_unique hq' hinj routingKey⟩
    have hsame := hp.candidates_unique hp' hinj routingKey
    unfold blindStoreFetchCandidates at hsame
    simp only [selectReplicaTargets, hk, hsame, hp.peers_eq, hp'.peers_eq]

namespace Reference

def replicaLayer (listPeers : List PeerID) : BlindStoreLayer where
  hash := hash
  peers := peers
  replicaK := 1
  listPeers := listPeers
  isVerified _ := true
  getClosestPeers _ := none
  iterate := List.reverse

theorem replicaLayer_listing {listPeers : List PeerID} (once : listPeers.Nodup)
    (lists : listPeers.toFinset = ({[65], [66], [67]} : Finset PeerID).erase me) :
    (replicaLayer listPeers).Listing hash peers {[65], [66], [67]} me :=
  ⟨rfl, rfl, once, lists, fun _ _ => rfl, fun _ => rfl, List.reverse_perm⟩

end Reference

open Reference in
theorem replica_of_three_is_asked :
    (replicaLayer [[66], [67]]).selectReplicaTargets [65] "k" = ["C"] ∧
      "C" ∈ (((replicaLayer [[67], [65]]).blindStoreFetchCandidates [66] "k").take 2).map
        peers.toString := by
  have htargets : (replicaLayer [[66], [67]]).selectReplicaTargets [65] "k" = ["C"] := by
    have hcloser : (replicaLayer [[66], [67]]).distance "k" [67] ≤
        (replicaLayer [[66], [67]]).distance "k" [66] := by decide +kernel
    have hsort : (replicaLayer [[66], [67]]).sortByXORDistance "k" [[67], [66]] = [[67], [66]] := by
      simp [sortByXORDistance, List.mergeSort, hcloser]
    change ((sortByXORDistance _ "k" [[67], [66]]).take 1).map peers.toString = ["C"]
    rw [hsort]
    decide +kernel
  have hinj : ∀ x ∈ ({[65], [66], [67]} : Finset PeerID),
    ∀ y ∈ ({[65], [66], [67]} : Finset PeerID),
      hash.sum (stringBytes (peers.toString x)) = hash.sum
        (stringBytes (peers.toString y)) → x = y := by
    decide +kernel
  obtain ⟨hasked, _⟩ := replica_targets_are_asked hash peers {[65], [66], [67]} [65] [66] "k"
    (replicaLayer [[66], [67]]) (replicaLayer [[67], [65]])
    (replicaLayer_listing (by decide) (by decide)) (replicaLayer_listing (by decide) (by decide))
    fun x hx y hy => hinj x (Finset.mem_coe.mp hx) y (Finset.mem_coe.mp hy)
  exact ⟨htargets, hasked "C" (by rw [htargets]; exact List.mem_singleton_self _)
    (by decide +kernel)⟩

end GroupCoordination
