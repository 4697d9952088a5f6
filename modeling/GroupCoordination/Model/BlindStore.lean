import GroupCoordination.Model.Types

/-!
# Where blind-store objects go

The part of `blind_store.go` that chooses peers: the replicas of an object when it is published, and
the peers that are asked for it.
-/

namespace GroupCoordination

def xorDistance (a b : Bytes) : Nat :=
  if a.length ≠ b.length then 0
  else (List.zipWith (· ^^^ ·) a b).foldl (fun n byte => 256 * n + byte.val) 0

structure BlindStoreLayer where
  hash : Hash
  peers : PeerCodec
  replicaK : Int
  /-- `topic.ListPeers`. -/
  listPeers : List PeerID
  isVerified : PeerID → Bool
  /-- `DHT.GetClosestPeers`, if the lookup succeeds. -/
  getClosestPeers : String → Option (List PeerID)
  /-- The order in which a `range` visits the keys of a map. -/
  iterate : List PeerID → List PeerID

namespace BlindStoreLayer

variable (b : BlindStoreLayer)

def distance (routingKey : String) (pid : PeerID) : Nat :=
  xorDistance (b.hash.sum (stringBytes routingKey))
    (b.hash.sum (stringBytes (b.peers.toString pid)))

def sortByXORDistance (routingKey : String) (peers : List PeerID) : List PeerID :=
  peers.mergeSort (b.distance routingKey · ≤ b.distance routingKey ·)

def closestByRoutingKey (eligible : List PeerID) (routingKey : String) : List PeerID :=
  let dhtPeers := if routingKey = "" then [] else (b.getClosestPeers routingKey).getD []
  let ordered := dhtPeers.eraseDups.filter (· ∈ eligible)
  ordered ++ b.sortByXORDistance routingKey (b.iterate (eligible.dedup.filter (· ∉ ordered)))

def eligible (localID : PeerID) : List PeerID :=
  b.listPeers.filter fun pid => pid ≠ localID ∧ b.isVerified pid

def selectReplicaTargets (localID : PeerID) (routingKey : String) : List String :=
  if b.replicaK ≤ 0 then []
  else ((b.closestByRoutingKey (b.eligible localID) routingKey).take b.replicaK.toNat).map
    b.peers.toString

def blindStoreFetchCandidates (localID : PeerID) (routingKey : String) : List PeerID :=
  b.closestByRoutingKey (b.eligible localID) routingKey

end BlindStoreLayer

end GroupCoordination
