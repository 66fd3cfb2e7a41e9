import TaskDiscovery.Dht.Find

/-!
# Responsibility is decided alike everywhere

Whether a node is one of the `k` nearest to a task is computed in three places: `AmIInKClosest`,
which goes through `FindKClosestNodes`; `amIInKClosestLocked`, which sorts the identifiers
themselves; and `LookupTask`, which looks for the node in `findKClosestNodesLocked`. The handler of
`FIND` relies on them. It looks a task up only where `AmIInKClosest` says yes or the ring is small,
and a lookup stays local only where `LookupTask` comes to the same verdict.

A `View` is what these functions read. It asks less of the ring than `DHT` does: the ring has the
node itself and otherwise identifiers of peers, in any order and any number of times. A lookup is
modelled together with the requests it sends, so that "does not forward" is a statement about what
is sent and not only about the answer.
-/

namespace TaskDiscovery

/-- What a node reads to decide who is responsible and to answer a lookup. -/
structure View where
  self : Node
  peers : AList fun _ : NodeID ↦ Node
  ring : List NodeID
  storage : AList fun _ : String ↦ List ServiceRegistration
  /-- The network layer has been set. -/
  network : Bool
  /-- A peer is filed under its identifier. -/
  peers_id : ∀ id node, peers.lookup id = some node → node.id = id
  self_mem : self.id ∈ ring
  ring_known : ∀ id ∈ ring, id = self.id ∨ id ∈ peers

/-- A request to another node: the address it goes to, and the message. -/
abbrev Request := String × Message

namespace View

/-- The node at a position of the ring. -/
def nodeAt (v : View) (id : NodeID) : Option Node :=
  if id = v.self.id then some v.self else v.peers.lookup id

def findKClosestNodes (v : View) (task : String) (k : ℕ) : List Node :=
  if v.ring = [] then [v.self]
  else
    let distances := v.ring.map fun id ↦ (v.nodeAt id, distance (hashTask task) id)
    ((distances.nearest Prod.snd k).map Prod.fst).reduceOption

def amIInKClosest (v : View) (task : String) (k : ℕ) : Bool :=
  (v.findKClosestNodes task k).any fun node ↦ node.id = v.self.id

/-- `findKClosestNodesLocked`, for callers that hold the lock. -/
def findKClosestNodesLocked (v : View) (task : String) (k : ℕ) : List Node :=
  if v.ring = [] then [v.self]
  else
    let distances := v.ring.map fun id ↦ (v.nodeAt id, distance (hashTask task) id)
    ((distances.nearest Prod.snd k).map Prod.fst).reduceOption

/-- `amIInKClosestLocked`: the third copy sorts identifiers, not nodes. -/
def amIInKClosestLocked (v : View) (task : String) (k : ℕ) : Bool :=
  if v.ring = [] then true
  else
    let distances := v.ring.map fun id ↦ (id, distance (hashTask task) id)
    (distances.nearest Prod.snd k).any fun p ↦ p.1 = v.self.id

/-- `forwardLookup`, with the requests that it sends. What `QueryPeerForTask` would return is given
by `query`. -/
def forwardLookup (v : View) (query : String → String → List String) (task : String) :
    List Node → List String × List Request
  | [] => ([], [])
  | node :: nodes =>
    if node.id = v.self.id then v.forwardLookup query task nodes
    else
      let request := (node.address, findMessage v.self.address task)
      if query node.address task = [] then
        let rest := v.forwardLookup query task nodes
        (rest.1, request :: rest.2)
      else (query node.address task, [request])

/-- `LookupTask`, with the requests that it sends. -/
def lookupTask (v : View) (cfg : Config) (now : Time) (query : String → String → List String)
    (task : String) : List String × List Request :=
  let addrs := DHT.activeAddresses (v.storage.slice task) now cfg.serviceHeartbeatTimeout
  if addrs ≠ [] then (addrs, [])
  else
    let kClosest := v.findKClosestNodesLocked task cfg.replicationFactor
    let isResponsible := kClosest.any fun node ↦ node.id = v.self.id
    if !isResponsible && v.network then v.forwardLookup query task kClosest else ([], [])

/-- The `FIND` case of `handleMessage`, with the requests that it sends. -/
def handleFind (v : View) (cfg : Config) (h : Handling) (payload : Payload) :
    Option Message × List Request :=
  match payload.decode with
  | none => (none, [])
  | some fields =>
    let task := fields.task.getD ""
    let inKClosest := v.ring.length ≤ cfg.replicationFactor
      || v.amIInKClosest task cfg.replicationFactor
    if inKClosest then
      let found := v.lookupTask cfg h.now h.query task
      if found.1 ≠ [] then
        (some ⟨.foundData, v.self.address,
          .object { task := some task, addresses := some found.1 }⟩, found.2)
      else (some ⟨.notFound, v.self.address, .absent⟩, found.2)
    else (some ⟨.notFound, v.self.address, .absent⟩, [])

/-! ## The sender becomes a peer -/

/-- The record that `AddPeer` leaves for an address. -/
def seen (v : View) (now : Time) (address : String) : Node :=
  match v.peers.lookup (hashAddress address) with
  | some peer => { peer with lastSeen := now }
  | none => ⟨hashAddress address, address, now⟩

theorem seen_id (v : View) (now : Time) (address : String) :
    (v.seen now address).id = hashAddress address := by
  rw [seen]
  rcases hpeer : v.peers.lookup (hashAddress address) with _ | peer
  · rfl
  · exact v.peers_id _ peer hpeer

/-- `AddPeer`. The node's own address is not refused: it comes into the ring a second time. -/
def addPeer (v : View) (now : Time) (address : String) : View :=
  let nodeID := hashAddress address
  let peers := v.peers.insert nodeID (v.seen now address)
  { v with
    peers := peers
    ring := if nodeID ∈ v.peers then v.ring else rebuildRing v.self.id peers
    peers_id := by
      intro id node hnode
      by_cases hid : id = nodeID
      · subst hid
        rw [AList.lookup_insert] at hnode
        rw [← Option.some.inj hnode, v.seen_id]
      · rw [AList.lookup_insert_ne hid] at hnode
        exact v.peers_id id node hnode
    self_mem := by
      split_ifs
      · exact v.self_mem
      · exact (rebuildRing_perm ..).mem_iff.mpr List.mem_cons_self
    ring_known := by
      intro id hid
      split_ifs at hid
      · exact (v.ring_known id hid).imp_right fun hpeer ↦ (AList.mem_insert _).mpr (Or.inr hpeer)
      · exact List.mem_cons.mp ((rebuildRing_perm ..).mem_iff.mp hid) }

/-- The sender of a message becomes a peer. -/
def greet (v : View) (now : Time) (sender : String) : View :=
  if sender ≠ "" ∧ sender ≠ v.self.address then v.addPeer now sender else v

/-- `handleMessage` on a `FIND` message: the node afterwards, the reply, and the requests that it
sends. -/
def handleMessageFind (v : View) (cfg : Config) (h : Handling) (sender : String)
    (payload : Payload) : View × Option Message × List Request :=
  let v := v.greet h.now sender
  (v, v.handleFind cfg h payload)

/-! ## The three answers -/

variable {v : View} {task : String} {k : ℕ}

theorem ring_ne_nil (v : View) : v.ring ≠ [] := List.ne_nil_of_mem v.self_mem

def closestIDs (v : View) (task : String) (k : ℕ) : List NodeID :=
  v.ring.nearest (distance (hashTask task)) k

theorem exists_nodeAt {id : NodeID} (h : id ∈ v.ring) :
    ∃ node, v.nodeAt id = some node ∧ node.id = id := by
  rw [nodeAt]
  split_ifs with hself
  · exact ⟨_, rfl, hself.symm⟩
  · obtain ⟨node, hnode⟩ := Option.isSome_iff_exists.mp
      (AList.lookup_isSome.mpr ((v.ring_known id h).resolve_left hself))
    exact ⟨node, hnode, v.peers_id id node hnode⟩

theorem findKClosestNodes_eq :
    v.findKClosestNodes task k = (v.closestIDs task k).filterMap v.nodeAt := by
  simp only [findKClosestNodes, if_neg v.ring_ne_nil]
  rw [List.nearest_map, closestIDs, List.reduceOption, List.map_map, List.filterMap_map]
  rfl

theorem findKClosestNodesLocked_eq :
    v.findKClosestNodesLocked task k = (v.closestIDs task k).filterMap v.nodeAt :=
  findKClosestNodes_eq

/-- The node itself is among the nearest nodes if its identifier is among the nearest ones. No peer
can stand in for it, since the node comes first at its own position. -/
theorem self_mem_filterMap_nodeAt :
    v.self ∈ (v.closestIDs task k).filterMap v.nodeAt ↔ v.self.id ∈ v.closestIDs task k := by
  rw [List.mem_filterMap]
  constructor
  · rintro ⟨id, hid, hnode⟩
    obtain ⟨node, hnode', hnodeID⟩ := exists_nodeAt (List.mem_of_mem_nearest hid)
    rw [hnode] at hnode'
    rwa [Option.some.inj hnode', hnodeID]
  · intro h
    exact ⟨v.self.id, h, by rw [nodeAt, if_pos rfl]⟩

theorem any_id_filterMap_nodeAt :
    ((v.closestIDs task k).filterMap v.nodeAt).any (fun node ↦ node.id = v.self.id) = true
      ↔ v.self.id ∈ v.closestIDs task k := by
  simp only [List.any_eq_true, List.mem_filterMap, decide_eq_true_eq]
  constructor
  · rintro ⟨node, ⟨id, hid, hnode⟩, hself⟩
    obtain ⟨node', hnode', hnodeID⟩ := exists_nodeAt (List.mem_of_mem_nearest hid)
    rw [hnode] at hnode'
    obtain rfl := Option.some.inj hnode'
    rwa [← hself, hnodeID]
  · intro h
    exact ⟨v.self, ⟨v.self.id, h, by rw [nodeAt, if_pos rfl]⟩, rfl⟩

theorem amIInKClosest_iff :
    v.amIInKClosest task k = true ↔ v.self.id ∈ v.closestIDs task k := by
  rw [amIInKClosest, findKClosestNodes_eq, any_id_filterMap_nodeAt]

theorem amIInKClosestLocked_iff :
    v.amIInKClosestLocked task k = true ↔ v.self.id ∈ v.closestIDs task k := by
  rw [amIInKClosestLocked, if_neg v.ring_ne_nil]
  simp only [List.nearest_map, List.any_map, List.any_eq_true, Function.comp_apply,
    decide_eq_true_eq, exists_eq_right]
  rfl

/-! ## Lookups -/

theorem amIInKClosest_of_length_le (h : v.ring.length ≤ k) : v.amIInKClosest task k = true :=
  amIInKClosest_iff.mpr ((List.nearest_perm_of_length_le h).mem_iff.mpr v.self_mem)

theorem lookupTask_of_responsible {cfg : Config} (now : Time)
    (query : String → String → List String)
    (h : v.amIInKClosest task cfg.replicationFactor = true) :
    (v.lookupTask cfg now query task).2 = [] := by
  have hresp : ((v.findKClosestNodesLocked task cfg.replicationFactor).any fun node ↦
      node.id = v.self.id) = true := by
    rw [findKClosestNodesLocked_eq, any_id_filterMap_nodeAt]
    exact amIInKClosest_iff.mp h
  rw [lookupTask]
  simp only [hresp]
  split_ifs with hnil hforward
  · rfl
  · simp at hforward
  · rfl

/-- The guard of the handler is the verdict of `LookupTask`. -/
theorem handleFind_requests (v : View) (cfg : Config) (h : Handling) (payload : Payload) :
    (v.handleFind cfg h payload).2 = [] := by
  rw [handleFind]
  rcases payload.decode with _ | fields
  · rfl
  · dsimp only
    by_cases hresp : v.amIInKClosest (fields.task.getD "") cfg.replicationFactor = true
    · rw [hresp, Bool.or_true, if_pos rfl, apply_ite Prod.snd, ite_self]
      exact lookupTask_of_responsible h.now h.query hresp
    · have hlen : ¬v.ring.length ≤ cfg.replicationFactor := fun hle ↦
        hresp (amIInKClosest_of_length_le hle)
      simp [hlen, hresp]

theorem forwardLookup_requests (query : String → String → List String) (nodes : List Node) :
    ∀ r ∈ (v.forwardLookup query task nodes).2, r.2 = findMessage v.self.address task := by
  induction nodes with
  | nil => exact fun _ hr ↦ absurd hr List.not_mem_nil
  | cons node nodes ih =>
    intro r hr
    rw [forwardLookup] at hr
    split_ifs at hr with hself hquery
    · exact ih r hr
    · rcases List.mem_cons.mp hr with rfl | hr
      · rfl
      · exact ih r hr
    · rw [List.mem_singleton.mp hr]

theorem lookupTask_requests (cfg : Config) (now : Time) (query : String → String → List String) :
    ∀ r ∈ (v.lookupTask cfg now query task).2, r.2 = findMessage v.self.address task := by
  intro r hr
  rw [lookupTask] at hr
  dsimp only at hr
  split_ifs at hr
  · exact absurd hr List.not_mem_nil
  · exact forwardLookup_requests query _ r hr
  · exact absurd hr List.not_mem_nil

/-- **Responsibility is computed consistently, and `FIND` never forwards.** Whatever a node's view
of the ring is, the three computations agree for every task and every `k`. A node that handles a
`FIND` message sends no request, also after the sender has become a peer. So what a lookup sends to
others is answered there, however different their views are. -/
theorem responsibility_consistent (v : View) :
    (∀ task k, v.amIInKClosest task k = v.amIInKClosestLocked task k
        ∧ (v.amIInKClosest task k = true ↔ v.self ∈ v.findKClosestNodesLocked task k))
      ∧ (∀ cfg h sender payload, (v.handleMessageFind cfg h sender payload).2.2 = [])
      ∧ ∀ cfg now query task, ∀ r ∈ (v.lookupTask cfg now query task).2, r.2.type = .find
          ∧ ∀ (other : View) (cfg' : Config) (h : Handling),
            (other.handleMessageFind cfg' h r.2.sender r.2.payload).2.2 = [] := by
  refine ⟨?_, ?_, ?_⟩
  · intro task k
    refine ⟨?_, ?_⟩
    · rw [Bool.eq_iff_iff, amIInKClosest_iff, amIInKClosestLocked_iff]
    · rw [amIInKClosest_iff, findKClosestNodesLocked_eq, self_mem_filterMap_nodeAt]
  · intro cfg h sender payload
    exact handleFind_requests _ cfg h payload
  · intro cfg now query task r hr
    refine ⟨by rw [lookupTask_requests cfg now query r hr]; rfl, ?_⟩
    intro other cfg' h
    exact handleFind_requests _ cfg' h r.2.payload

end View

/-! ## The view of a node -/

namespace DHT

/-- What a node of the network reads. -/
def view (dht : DHT) : View where
  self := dht.self
  peers := dht.peers
  ring := dht.ring
  storage := dht.storage
  network := dht.network
  peers_id := fun id node h ↦ (dht.peers_filed id node h).1
  self_mem := dht.self_mem_ring
  ring_known := fun _ h ↦ mem_ring.mp h

variable {dht : DHT} {task : String}

theorem view_forwardLookup (query : String → String → List String) (nodes : List Node) :
    (dht.view.forwardLookup query task nodes).1 = dht.forwardLookup query task nodes := by
  induction nodes with
  | nil => rfl
  | cons node nodes ih =>
    rw [View.forwardLookup, forwardLookup, ← ih, apply_ite Prod.fst]
    dsimp only
    rw [apply_ite Prod.fst]
    rfl

theorem view_lookupTask (cfg : Config) (now : Time) (query : String → String → List String) :
    (dht.view.lookupTask cfg now query task).1 = dht.lookupTask cfg now query task := by
  rw [View.lookupTask, lookupTask]
  dsimp only
  rw [apply_ite Prod.fst, apply_ite Prod.fst, view_forwardLookup]
  rfl

theorem view_greet (now : Time) (sender : String) :
    (dht.greet now sender).view = dht.view.greet now sender := by
  rw [greet, View.greet, apply_ite view]
  rfl

/-- The handler of the network is the handler of the view, less the account of what is sent. -/
theorem handleMessage_eq_view (cfg : Config) (h : Handling) (dht : DHT) (sender : String)
    (payload : Payload) :
    (dht.handleMessage cfg h ⟨.find, sender, payload⟩).1.view
        = (dht.view.handleMessageFind cfg h sender payload).1
      ∧ (dht.handleMessage cfg h ⟨.find, sender, payload⟩).2
        = (dht.view.handleMessageFind cfg h sender payload).2.1 := by
  refine ⟨view_greet h.now sender, ?_⟩
  change (dht.greet h.now sender).handleFind cfg h payload
    = ((dht.view.greet h.now sender).handleFind cfg h payload).1
  rw [← view_greet, handleFind, View.handleFind]
  rcases payload.decode with _ | fields
  · rfl
  · dsimp only
    rw [apply_ite Prod.fst, apply_ite Prod.fst, view_lookupTask]
    rfl

end DHT

/-- Adding its own address gives a node a second place in its ring, and the answers still agree. -/
example : ((DHT.new "127.0.0.1:7000" 0).addPeer 1 "localhost:7000").ring.length = 2
    ∧ ((DHT.new "127.0.0.1:7000" 0).addPeer 1 "localhost:7000").view.amIInKClosestLocked "scan" 1
      = true := by
  decide +kernel

end TaskDiscovery
