import Mathlib.Data.List.ReduceOption
import TaskDiscovery.Dht.Identifier
import TaskDiscovery.Go.Search
import TaskDiscovery.Lib.RangeMap
import TaskDiscovery.Registry.Entry

/-!
# The state of a node

A node of the distributed hash table knows itself and its peers, keeps the identifiers of both in a
sorted ring, and stores registrations for tasks. A task belongs to the `k` nodes of the ring that
are nearest to it, clockwise from the task's own position.

Every operation that changes the peers rebuilds the ring before anyone can look, and files a peer
under the hash of its address. `DHT` therefore carries these facts as fields. What it does not carry
is that a node is not its own peer: no operation checks that, and `ring` lists the node twice when
it happens.
-/

namespace TaskDiscovery

/-- A peer, or the node itself. -/
structure Node where
  id : NodeID
  address : String
  lastSeen : Time
  deriving DecidableEq

structure ServiceRegistration where
  address : String
  lastHeartbeat : Time
  deriving DecidableEq

/-- The settings of the process. -/
structure Config where
  replicationFactor : ℕ
  serviceHeartbeatTimeout : Time

/-- `rebuildRing`: the identifiers of the node and of its peers in ascending order. -/
def rebuildRing (selfID : NodeID) (peers : AList fun _ : NodeID ↦ Node) : List NodeID :=
  (selfID :: peers.keys).insertionSort fun a b ↦ a.toNat ≤ b.toNat

theorem rebuildRing_perm (selfID : NodeID) (peers : AList fun _ : NodeID ↦ Node) :
    (rebuildRing selfID peers).Perm (selfID :: peers.keys) :=
  List.perm_insertionSort ..

theorem rebuildRing_sorted (selfID : NodeID) (peers : AList fun _ : NodeID ↦ Node) :
    (rebuildRing selfID peers).Pairwise fun a b ↦ a.toNat ≤ b.toNat :=
  List.pairwise_sorted_by BitVec.toNat _

/-- Every peer is filed under the position of its address. -/
def Filed (peers : AList fun _ : NodeID ↦ Node) : Prop :=
  ∀ id node, peers.lookup id = some node → node.id = id ∧ hashAddress node.address = id

theorem Filed.insert {peers : AList fun _ : NodeID ↦ Node} (h : Filed peers) {nodeID : NodeID}
    {node : Node} (hid : node.id = nodeID) (haddr : hashAddress node.address = nodeID) :
    Filed (peers.insert nodeID node) := by
  intro id node' hnode
  by_cases heq : id = nodeID
  · subst heq
    rw [AList.lookup_insert] at hnode
    obtain rfl := Option.some.inj hnode
    exact ⟨hid, haddr⟩
  · rw [AList.lookup_insert_ne heq] at hnode
    exact h id node' hnode

theorem Filed.erase {peers : AList fun _ : NodeID ↦ Node} (h : Filed peers) (nodeID : NodeID) :
    Filed (peers.erase nodeID) := by
  intro id node hnode
  by_cases heq : id = nodeID
  · subst heq
    simp at hnode
  · rw [AList.lookup_erase_ne heq] at hnode
    exact h id node hnode

structure DHT where
  self : Node
  peers : AList fun _ : NodeID ↦ Node
  ring : List NodeID
  storage : AList fun _ : String ↦ List ServiceRegistration
  listenAddr : String
  /-- The network layer has been set. -/
  network : Bool
  /-- The node is at the position of its address. -/
  self_id : self.id = hashAddress self.address
  peers_filed : Filed peers
  ring_perm : ring.Perm (self.id :: peers.keys)
  ring_sorted : ring.Pairwise fun a b ↦ a.toNat ≤ b.toNat

namespace DHT

/-- The address that `NewDHT` gives the node: `:port` is not dialable, so it is completed. -/
def dialable (listenAddr : String) : String :=
  let advertiseAddr := Go.trimSpace listenAddr
  if advertiseAddr.toList.head? = some ':' then "127.0.0.1" ++ advertiseAddr else advertiseAddr

/-- `NewDHT`. -/
def new (listenAddr : String) (now : Time) : DHT where
  self := ⟨hashAddress (dialable listenAddr), dialable listenAddr, now⟩
  peers := ∅
  ring := [hashAddress (dialable listenAddr)]
  storage := ∅
  listenAddr := listenAddr
  network := false
  self_id := by dsimp only
  peers_filed := by simp [Filed]
  ring_perm := by simp
  ring_sorted := List.pairwise_singleton ..

theorem new_address (listenAddr : String) (now : Time) :
    (new listenAddr now).self.address = dialable listenAddr := by
  dsimp only [new]

theorem new_peers (listenAddr : String) (now : Time) : (new listenAddr now).peers = ∅ := by
  dsimp only [new]

theorem new_storage (listenAddr : String) (now : Time) : (new listenAddr now).storage = ∅ := rfl

variable (dht : DHT)

/-- The address that `Start` advertises, given the one the listener is bound to. -/
def advertised (boundAddr : String) : String :=
  let host := match Go.splitHostPort dht.self.address.toList with
    | some (h, _) => if Go.trimSpace (String.ofList h) ∈ localAliases then "127.0.0.1".toList else h
    | none => "127.0.0.1".toList
  match Go.splitHostPort boundAddr.toList with
  | some (_, port) => if port = [] then boundAddr else String.ofList (Go.joinHostPort host port)
  | none => boundAddr

/-- What `DHTNetwork.Start` does to the node: it takes the advertised address, moves to its
position and gets its network layer. -/
def start (boundAddr : String) : DHT :=
  let actualAddr := dht.advertised boundAddr
  { dht with
    self := { dht.self with id := hashAddress actualAddr, address := actualAddr }
    ring := rebuildRing (hashAddress actualAddr) dht.peers
    network := true
    self_id := rfl
    ring_perm := rebuildRing_perm ..
    ring_sorted := rebuildRing_sorted .. }

/-! ## Peers -/

/-- The record that `AddPeer` leaves for an address: the one there is, seen now, or a new one. -/
def seen (now : Time) (address : String) : Node :=
  match dht.peers.lookup (hashAddress address) with
  | some peer => { peer with lastSeen := now }
  | none => ⟨hashAddress address, address, now⟩

theorem seen_filed (now : Time) (address : String) :
    (dht.seen now address).id = hashAddress address
      ∧ hashAddress (dht.seen now address).address = hashAddress address := by
  rw [seen]
  split
  · rename_i peer hpeer
    exact dht.peers_filed _ peer hpeer
  · exact ⟨rfl, rfl⟩

/-- `AddPeer`: the ring is rebuilt only for a peer that was not known. -/
def addPeer (now : Time) (address : String) : DHT :=
  let nodeID := hashAddress address
  let peers := dht.peers.insert nodeID (dht.seen now address)
  { dht with
    peers := peers
    ring := if nodeID ∈ dht.peers then dht.ring else rebuildRing dht.self.id peers
    peers_filed := dht.peers_filed.insert (dht.seen_filed now address).1
      (dht.seen_filed now address).2
    ring_perm := by
      split_ifs with h
      · refine dht.ring_perm.trans (List.Perm.cons _ ?_)
        rw [AList.keys_insert]
        exact List.perm_cons_erase h
      · exact rebuildRing_perm ..
    ring_sorted := by
      split_ifs
      · exact dht.ring_sorted
      · exact rebuildRing_sorted .. }

def removePeer (nodeID : NodeID) : DHT :=
  { dht with
    peers := dht.peers.erase nodeID
    ring := rebuildRing dht.self.id (dht.peers.erase nodeID)
    peers_filed := dht.peers_filed.erase nodeID
    ring_perm := rebuildRing_perm ..
    ring_sorted := rebuildRing_sorted .. }

/-- `GetPeers`, in the order in which the map happens to be visited. -/
def getPeers (ord : RangeOrder (Sigma fun _ : NodeID ↦ Node)) : List Node :=
  (ord.arrange dht.peers.entries).map Sigma.snd

/-! ## Responsibility -/

def nodeAt (id : NodeID) : Option Node :=
  if id = dht.self.id then some dht.self else dht.peers.lookup id

/-- `FindClosestNode`: the first position of the ring that is not before the task, found by binary
search, or the first of all. -/
def findClosestNode (task : String) : Option Node :=
  if dht.ring = [] then some dht.self
  else
    let idx := Go.search dht.ring.length fun i ↦
      dht.ring[i]?.any fun id ↦ decide (0 ≤ compareNodeID id (hashTask task))
    let idx := if dht.ring.length ≤ idx then 0 else idx
    dht.ring[idx]?.bind dht.nodeAt

/-- `FindKClosestNodes`. Every position of the ring has its node, so no entry is lost. -/
def findKClosestNodes (task : String) (k : ℕ) : List Node :=
  if dht.ring = [] then [dht.self]
  else
    let distances := dht.ring.map fun id ↦ (dht.nodeAt id, distance (hashTask task) id)
    ((distances.nearest Prod.snd k).map Prod.fst).reduceOption

def amIInKClosest (task : String) (k : ℕ) : Bool :=
  (dht.findKClosestNodes task k).any fun node ↦ node.id = dht.self.id

/-! ## Storage -/

/-- `StoreTask`: registering again is a heartbeat. -/
def storeTask (now : Time) (task address : String) : DHT :=
  { dht with
    storage := dht.storage.insert task ((dht.storage.slice task).upsert
      ServiceRegistration.address address (fun entry ↦ { entry with lastHeartbeat := now })
      ⟨address, now⟩) }

def activeAddresses (entries : List ServiceRegistration) (now timeout : Time) : List String :=
  (entries.filter fun entry ↦
    !(decide (0 < timeout) && decide (timeout ≤ now - entry.lastHeartbeat))).map
      ServiceRegistration.address

/-- `forwardLookup`: ask the nodes in turn until one has addresses. -/
def forwardLookup (query : String → String → List String) (task : String) : List Node → List String
  | [] => []
  | node :: nodes =>
    if node.id = dht.self.id then forwardLookup query task nodes
    else if query node.address task = [] then forwardLookup query task nodes
    else query node.address task

/-- `LookupTask`. What `QueryPeerForTask` would return is given by `query`. -/
def lookupTask (cfg : Config) (now : Time) (query : String → String → List String)
    (task : String) : List String :=
  let addrs := activeAddresses (dht.storage.slice task) now cfg.serviceHeartbeatTimeout
  if addrs ≠ [] then addrs
  else
    let kClosest := dht.findKClosestNodes task cfg.replicationFactor
    let isResponsible := kClosest.any fun node ↦ node.id = dht.self.id
    if !isResponsible && dht.network then dht.forwardLookup query task kClosest else []

/-- `CleanupStaleData`: drop the tasks the node is not responsible for. -/
def cleanupStaleData (cfg : Config) : DHT :=
  { dht with
    storage := (dht.storage.entries.filter fun p ↦
      !dht.amIInKClosest p.1 cfg.replicationFactor).foldl (fun m p ↦ m.erase p.1) dht.storage }

def cleanupExpiredRegistrations (now timeout : Time) : DHT :=
  if timeout ≤ 0 then dht
  else
    { dht with
      storage := dht.storage.entries.foldl (fun m p ↦
        let kept := p.2.filter fun entry ↦ decide (now - entry.lastHeartbeat < timeout)
        if kept = [] then m.erase p.1 else m.insert p.1 kept) dht.storage }

/-! ## The ring and the nearest nodes -/

variable {dht} {task : String} {k : ℕ}

theorem mem_ring {id : NodeID} : id ∈ dht.ring ↔ id = dht.self.id ∨ id ∈ dht.peers := by
  rw [dht.ring_perm.mem_iff, List.mem_cons, AList.mem_keys]

theorem self_mem_ring (dht : DHT) : dht.self.id ∈ dht.ring := mem_ring.mpr (Or.inl rfl)

theorem ring_ne_nil (dht : DHT) : dht.ring ≠ [] := List.ne_nil_of_mem dht.self_mem_ring

def closestIDs (dht : DHT) (task : String) (k : ℕ) : List NodeID :=
  dht.ring.nearest (distance (hashTask task)) k

theorem nodeAt_self (dht : DHT) : dht.nodeAt dht.self.id = some dht.self := by
  rw [nodeAt, if_pos rfl]

theorem exists_nodeAt {id : NodeID} (h : id ∈ dht.ring) : ∃ node, dht.nodeAt id = some node := by
  rw [nodeAt]
  split_ifs with hself
  · exact ⟨_, rfl⟩
  · exact Option.isSome_iff_exists.mp
      (AList.lookup_isSome.mpr ((mem_ring.mp h).resolve_left hself))

theorem nodeAt_filed {id : NodeID} {node : Node} (h : dht.nodeAt id = some node) :
    node.id = id ∧ hashAddress node.address = id := by
  rw [nodeAt] at h
  split_ifs at h with hself
  · obtain rfl := Option.some.inj h
    exact ⟨hself.symm, by rw [hself, dht.self_id]⟩
  · exact dht.peers_filed id node h

theorem findKClosestNodes_eq :
    dht.findKClosestNodes task k = (dht.closestIDs task k).filterMap dht.nodeAt := by
  simp only [findKClosestNodes, if_neg dht.ring_ne_nil]
  rw [List.nearest_map, closestIDs, List.reduceOption, List.map_map, List.filterMap_map]
  rfl

theorem mem_findKClosestNodes {node : Node} :
    node ∈ dht.findKClosestNodes task k
      ↔ ∃ id ∈ dht.closestIDs task k, dht.nodeAt id = some node := by
  rw [findKClosestNodes_eq, List.mem_filterMap]

theorem map_id_findKClosestNodes (dht : DHT) (task : String) (k : ℕ) :
    (dht.findKClosestNodes task k).map Node.id = dht.closestIDs task k := by
  have key : ∀ l : List NodeID, (∀ id ∈ l, id ∈ dht.ring) →
      (l.filterMap dht.nodeAt).map Node.id = l := by
    intro l hl
    induction l with
    | nil => rfl
    | cons id l ih =>
      obtain ⟨node, hnode⟩ := exists_nodeAt (hl id List.mem_cons_self)
      rw [List.filterMap_cons_some hnode, List.map_cons, (nodeAt_filed hnode).1,
        ih fun id hid ↦ hl id (List.mem_cons_of_mem _ hid)]
  rw [findKClosestNodes_eq]
  exact key _ fun id hid ↦ List.mem_of_mem_nearest hid

theorem amIInKClosest_iff :
    dht.amIInKClosest task k = true ↔ dht.self.id ∈ dht.closestIDs task k := by
  rw [amIInKClosest, ← map_id_findKClosestNodes, List.any_eq_true, List.mem_map]
  simp

theorem amIInKClosest_of_length_le (h : dht.ring.length ≤ k) : dht.amIInKClosest task k = true :=
  amIInKClosest_iff.mpr ((List.nearest_perm_of_length_le h).mem_iff.mpr dht.self_mem_ring)

theorem length_findKClosestNodes (dht : DHT) (task : String) (k : ℕ) :
    (dht.findKClosestNodes task k).length = min k dht.ring.length := by
  rw [← List.length_map (f := Node.id), map_id_findKClosestNodes, closestIDs, List.length_nearest]

/-- **Responsibility.** A node that is not among the `k` nearest is farther from the task than each
of them. -/
theorem distance_lt_of_not_responsible (h : dht.amIInKClosest task k = false) {id : NodeID}
    (hid : id ∈ dht.closestIDs task k) :
    distance (hashTask task) id < distance (hashTask task) dht.self.id := by
  refine List.key_lt_of_mem_nearest (distance_injective _) hid dht.self_mem_ring fun hself ↦ ?_
  rw [amIInKClosest_iff.mpr hself] at h
  simp at h

theorem hashAddress_of_mem_findKClosestNodes {node : Node}
    (h : node ∈ dht.findKClosestNodes task k) :
    hashAddress node.address = node.id ∧ node.id ∈ dht.closestIDs task k := by
  obtain ⟨id, hid, hnode⟩ := mem_findKClosestNodes.mp h
  obtain ⟨rfl, hhash⟩ := nodeAt_filed hnode
  exact ⟨hhash, hid⟩

/-- A node that is not responsible knows a nearer one. -/
theorem exists_nearer (hk : 1 ≤ k) (h : dht.amIInKClosest task k = false) :
    ∃ node ∈ dht.findKClosestNodes task k,
      distance (hashTask task) (hashAddress node.address)
        < distance (hashTask task) dht.self.id := by
  have hpos : 0 < (dht.findKClosestNodes task k).length := by
    rw [length_findKClosestNodes]
    exact lt_min hk (List.length_pos_of_mem dht.self_mem_ring)
  obtain ⟨node, hnode⟩ := List.exists_mem_of_length_pos hpos
  obtain ⟨hhash, hid⟩ := hashAddress_of_mem_findKClosestNodes hnode
  refine ⟨node, hnode, ?_⟩
  rw [hhash]
  exact distance_lt_of_not_responsible h hid

/-! ## What an operation keeps -/

/-- The address stands in the view of the node. -/
def Knows (dht : DHT) (addr : String) : Prop :=
  addr = dht.self.address ∨ ∃ id node, dht.peers.lookup id = some node ∧ node.address = addr

/-- The node stores the address for the task. -/
def Stores (dht : DHT) (task address : String) : Prop :=
  address ∈ (dht.storage.slice task).map ServiceRegistration.address

instance (dht : DHT) (task address : String) : Decidable (dht.Stores task address) :=
  inferInstanceAs (Decidable (_ ∈ _))

theorem knows_of_mem_findKClosestNodes {node : Node} (h : node ∈ dht.findKClosestNodes task k) :
    dht.Knows node.address := by
  obtain ⟨id, -, hnode⟩ := mem_findKClosestNodes.mp h
  rw [nodeAt] at hnode
  split_ifs at hnode
  · obtain rfl := Option.some.inj hnode
    exact Or.inl rfl
  · exact Or.inr ⟨id, node, hnode, rfl⟩

/-- The ring has the positions of the known addresses. -/
theorem mem_ring_iff_knows {id : NodeID} :
    id ∈ dht.ring ↔ ∃ addr, dht.Knows addr ∧ hashAddress addr = id := by
  constructor
  · intro h
    obtain ⟨node, hnode⟩ := exists_nodeAt h
    refine ⟨node.address, ?_, (nodeAt_filed hnode).2⟩
    rw [nodeAt] at hnode
    split_ifs at hnode
    · exact Or.inl (Option.some.inj hnode ▸ rfl)
    · exact Or.inr ⟨id, node, hnode, rfl⟩
  · rintro ⟨addr, rfl | ⟨id', node, hnode, rfl⟩, rfl⟩
    · exact mem_ring.mpr (Or.inl dht.self_id.symm)
    · obtain ⟨-, hhash⟩ := dht.peers_filed id' node hnode
      refine mem_ring.mpr (Or.inr (AList.lookup_isSome.mp ?_))
      rw [hhash, hnode]
      rfl

section AddPeer

variable {now : Time} {address : String}

@[simp] theorem addPeer_self : (dht.addPeer now address).self = dht.self := rfl

theorem mem_peers_addPeer {id : NodeID} :
    id ∈ (dht.addPeer now address).peers ↔ id = hashAddress address ∨ id ∈ dht.peers :=
  AList.mem_insert _

theorem lookup_peers_addPeer {id : NodeID} :
    (dht.addPeer now address).peers.lookup id
      = if id = hashAddress address then some (dht.seen now address) else dht.peers.lookup id := by
  change (dht.peers.insert _ _).lookup id = _
  by_cases h : id = hashAddress address
  · rw [if_pos h, h, AList.lookup_insert]
  · rw [if_neg h, AList.lookup_insert_ne h]

theorem ring_addPeer_perm (h : hashAddress address ∉ dht.peers) :
    (dht.addPeer now address).ring.Perm (hashAddress address :: dht.ring) := by
  have hkeys : (dht.addPeer now address).peers.keys = hashAddress address :: dht.peers.keys := by
    change (dht.peers.insert _ _).keys = _
    rw [AList.keys_insert, List.erase_of_not_mem fun hmem ↦ h (AList.mem_keys.mpr hmem)]
  refine (dht.addPeer now address).ring_perm.trans ?_
  rw [hkeys, addPeer_self]
  exact (List.Perm.swap ..).trans (dht.ring_perm.symm.cons _)

theorem knows_addPeer {addr : String} (h : (dht.addPeer now address).Knows addr) :
    dht.Knows addr ∨ addr = address := by
  rcases h with rfl | ⟨id, node, hnode, rfl⟩
  · exact Or.inl (Or.inl rfl)
  · rw [lookup_peers_addPeer] at hnode
    split_ifs at hnode
    · obtain rfl := Option.some.inj hnode
      rw [seen]
      split
      · rename_i peer hpeer
        exact Or.inl (Or.inr ⟨_, peer, hpeer, rfl⟩)
      · exact Or.inr rfl
    · exact Or.inl (Or.inr ⟨id, node, hnode, rfl⟩)

theorem seen_address_of_lookup {peer : Node}
    (h : dht.peers.lookup (hashAddress address) = some peer) :
    (dht.seen now address).address = peer.address := by
  rw [seen, h]

theorem Knows.addPeer {addr : String} (h : dht.Knows addr) (now : Time) (address : String) :
    (dht.addPeer now address).Knows addr := by
  rcases h with rfl | ⟨id, node, hnode, rfl⟩
  · exact Or.inl rfl
  · by_cases hid : id = hashAddress address
    · subst hid
      refine Or.inr ⟨hashAddress address, dht.seen now address, ?_,
        seen_address_of_lookup hnode⟩
      rw [lookup_peers_addPeer, if_pos rfl]
    · refine Or.inr ⟨id, node, ?_, rfl⟩
      rwa [lookup_peers_addPeer, if_neg hid]

end AddPeer

theorem stores_storeTask {now : Time} {address task' address' : String} :
    (dht.storeTask now task address).Stores task' address'
      ↔ task' = task ∧ address' = address ∨ dht.Stores task' address' := by
  rw [Stores, storeTask]
  by_cases h : task' = task
  · subst h
    rw [AList.slice_insert_self, List.mem_map_upsert (by exact fun _ ↦ rfl) (by rfl), Stores]
    simp
  · rw [AList.slice_insert_of_ne _ h, Stores]
    simp [h]

/-! ## The ring invariant -/

/-- The ring is strictly ascending, lists the node and its peers, and the node is not its own
peer. -/
structure RingInvariant (dht : DHT) : Prop where
  ascending : dht.ring.Pairwise fun a b ↦ compareNodeID a b < 0
  mem_ring : ∀ id, id ∈ dht.ring ↔ id = dht.self.id ∨ id ∈ dht.peers
  self_notMem : dht.self.id ∉ dht.peers

theorem nodup_ring (h : dht.self.id ∉ dht.peers) : dht.ring.Nodup :=
  dht.ring_perm.nodup_iff.mpr (List.nodup_cons.mpr ⟨h, dht.peers.nodupKeys⟩)

/-- Only the last part of the invariant can fail. -/
theorem ringInvariant_iff : dht.RingInvariant ↔ dht.self.id ∉ dht.peers := by
  refine ⟨RingInvariant.self_notMem, fun hself ↦ ⟨?_, fun _ ↦ DHT.mem_ring, hself⟩⟩
  have hnodup := nodup_ring hself
  refine (dht.ring_sorted.and hnodup).imp fun {a b} hab ↦ ?_
  exact compareNodeID_neg.mpr (hab.1.lt_of_ne fun h ↦ hab.2 (BitVec.eq_of_toNat_eq h))

instance : Decidable dht.RingInvariant := decidable_of_iff _ ringInvariant_iff.symm

theorem ringInvariant_new (listenAddr : String) (now : Time) :
    (DHT.new listenAddr now).RingInvariant := by
  rw [ringInvariant_iff, new_peers]
  exact AList.notMem_empty _

theorem ringInvariant_start (boundAddr : String) :
    (dht.start boundAddr).RingInvariant ↔ hashAddress (dht.advertised boundAddr) ∉ dht.peers :=
  ringInvariant_iff

/-- `AddPeer` keeps the invariant exactly for addresses that are not at the node's own position. -/
theorem ringInvariant_addPeer {now : Time} {address : String} (h : dht.RingInvariant) :
    (dht.addPeer now address).RingInvariant ↔ hashAddress address ≠ dht.self.id := by
  rw [ringInvariant_iff, mem_peers_addPeer, addPeer_self, not_or]
  exact ⟨fun h' ↦ Ne.symm h'.1, fun h' ↦ ⟨Ne.symm h', h.self_notMem⟩⟩

theorem RingInvariant.removePeer (h : dht.RingInvariant) (nodeID : NodeID) :
    (dht.removePeer nodeID).RingInvariant := by
  refine ringInvariant_iff.mpr fun hmem ↦ h.self_notMem ?_
  exact (AList.mem_erase.mp hmem).2

theorem ringInvariant_congr {dht' : DHT} (hself : dht'.self = dht.self)
    (hpeers : dht'.peers = dht.peers) : dht'.RingInvariant ↔ dht.RingInvariant := by
  rw [ringInvariant_iff, ringInvariant_iff, hself, hpeers]

theorem RingInvariant.storeTask (h : dht.RingInvariant) (now : Time) (task address : String) :
    (dht.storeTask now task address).RingInvariant :=
  ringInvariant_iff.mpr h.self_notMem

end DHT

end TaskDiscovery
