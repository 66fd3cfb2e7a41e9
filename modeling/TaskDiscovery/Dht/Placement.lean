import TaskDiscovery.Dht.Table
import TaskDiscovery.Lib.Rotation

/-!
# Where a task is placed

The nodes responsible for a task are found in two ways. `FindKClosestNodes` measures the distance of
every node from the task and sorts; `FindClosestNode` searches the ring for the first node that is
not before the task. Both read the ring clockwise from that node on. Distance from the task grows
along this reading, since it falls only where the ring passes the task (`pairwise_clockwise`), so
the sort puts nothing in another place (`closestIDs_eq_take`).

Because nothing but the distances counts, a node that joins takes its own place and leaves the
others in their order (`findKClosestNodes_addPeer`).
-/

namespace TaskDiscovery.DHT

variable {dht : DHT} {task : String} {k : ℕ}

/-- The node at a position that is taken. -/
def nodeOf (dht : DHT) (id : NodeID) : Node := (dht.nodeAt id).getD dht.self

theorem nodeAt_eq_nodeOf {id : NodeID} (h : id ∈ dht.ring) :
    dht.nodeAt id = some (dht.nodeOf id) := by
  obtain ⟨node, hnode⟩ := exists_nodeAt h
  rw [nodeOf, hnode, Option.getD_some]

theorem findKClosestNodes_eq_map :
    dht.findKClosestNodes task k = (dht.closestIDs task k).map dht.nodeOf := by
  rw [findKClosestNodes_eq, List.filterMap_eq_map_iff_forall_eq_some]
  exact fun id hid ↦ nodeAt_eq_nodeOf (List.mem_of_mem_nearest hid)

/-! ## Reading the ring clockwise -/

/-- The positions of the ring, from the first that is not before the task on. -/
def clockwise (dht : DHT) (task : String) : List NodeID :=
  dht.ring.rotate (dht.ring.findIdx fun id ↦ decide (hashTask task ≤ id))

theorem clockwise_perm (dht : DHT) (task : String) : (dht.clockwise task).Perm dht.ring :=
  List.rotate_perm ..

theorem distance_of_le {a b : NodeID} (h : a ≤ b) : distance a b = b.toNat - a.toNat := by
  rw [BitVec.le_def] at h
  simp only [distance]
  rw [if_neg (by omega)]

theorem distance_of_not_le {a b : NodeID} (h : ¬a ≤ b) :
    distance a b = b.toNat - a.toNat + 2 ^ 256 := by
  rw [BitVec.le_def] at h
  simp only [distance]
  rw [if_pos (by omega)]

/-- **The distance grows clockwise.** -/
theorem pairwise_clockwise (h : dht.RingInvariant) (task : String) :
    (dht.clockwise task).Pairwise fun a b ↦
      distance (hashTask task) a < distance (hashTask task) b := by
  refine List.pairwise_rotate_findIdx h.ascending ?_ ?_ ?_
  · intro a b hab ha
    rw [compareNodeID_neg] at hab
    rw [decide_eq_true_iff, BitVec.le_def] at ha ⊢
    omega
  · intro a b hab hsame
    rw [compareNodeID_neg] at hab
    rw [decide_eq_decide] at hsame
    by_cases ha : hashTask task ≤ a
    · rw [distance_of_le ha, distance_of_le (hsame.mp ha)]
      omega
    · rw [distance_of_not_le ha, distance_of_not_le fun hb ↦ ha (hsame.mpr hb)]
      omega
  · intro a b ha hb
    rw [distance_of_le (of_decide_eq_true ha), distance_of_not_le (of_decide_eq_false hb)]
    have halt := a.isLt
    omega

theorem closestIDs_eq_take (h : dht.RingInvariant) (task : String) (k : ℕ) :
    dht.closestIDs task k = (dht.clockwise task).take k :=
  List.nearest_eq_take (distance_injective _) (dht.clockwise_perm task)
    ((pairwise_clockwise h task).imp le_of_lt)

/-- The binary search stops at the first position of the reading. -/
theorem findClosestNode_eq (h : dht.RingInvariant) (task : String) :
    dht.findClosestNode task = (dht.clockwise task).head?.bind dht.nodeAt := by
  have hle (id : NodeID) : 0 ≤ compareNodeID id (hashTask task) ↔ hashTask task ≤ id := by
    rw [← not_lt, compareNodeID_neg, not_lt, BitVec.le_def]
  have hsearch := Go.search_eq_findIdx (l := dht.ring)
    (p := fun id ↦ decide (0 ≤ compareNodeID id (hashTask task)))
    (h.ascending.imp fun {a b} hab ha ↦ by
      rw [compareNodeID_neg] at hab
      rw [decide_eq_true_iff, hle, BitVec.le_def] at ha ⊢
      omega)
  simp only [findClosestNode, if_neg dht.ring_ne_nil, hsearch]
  simp only [hle, clockwise, List.head?_rotate_findIdx]

/-- **Selection follows the ring.** The `k` nearest nodes are the nodes of the ring read clockwise
from the first position that is not before the task; their distances from the task grow, every other
node is farther away, and the first of them is the one that the binary search finds. -/
theorem findKClosestNodes_clockwise (h : dht.RingInvariant) (task : String) (k : ℕ) :
    (dht.findKClosestNodes task k).map some = ((dht.clockwise task).take k).map dht.nodeAt
      ∧ (dht.findKClosestNodes task k).length = min k dht.ring.length
      ∧ (dht.findKClosestNodes task k).Nodup
      ∧ (dht.findKClosestNodes task k).Pairwise (fun a b ↦
          distance (hashTask task) a.id < distance (hashTask task) b.id)
      ∧ (∀ id ∈ dht.ring, id ∉ (dht.findKClosestNodes task k).map Node.id →
          ∀ node ∈ dht.findKClosestNodes task k,
            distance (hashTask task) node.id < distance (hashTask task) id)
      ∧ (1 ≤ k → ∃ node, (dht.findKClosestNodes task k).head? = some node
          ∧ dht.findClosestNode task = some node) := by
  have hids := map_id_findKClosestNodes dht task k
  have hgrows : (dht.findKClosestNodes task k).Pairwise fun a b ↦
      distance (hashTask task) a.id < distance (hashTask task) b.id := by
    have hsorted := (pairwise_clockwise h task).sublist (List.take_sublist k _)
    rwa [← closestIDs_eq_take h, ← hids, List.pairwise_map] at hsorted
  refine ⟨?_, length_findKClosestNodes dht task k, ?_, hgrows, ?_, fun hk ↦ ?_⟩
  · rw [findKClosestNodes_eq_map, closestIDs_eq_take h, List.map_map]
    refine List.map_congr_left fun id hid ↦ ?_
    exact (nodeAt_eq_nodeOf ((dht.clockwise_perm task).mem_iff.mp (List.mem_of_mem_take hid))).symm
  · exact hgrows.imp fun hlt heq ↦ absurd hlt (by rw [heq]; exact lt_irrefl _)
  · rw [hids]
    intro id hid hout node hnode
    have hmem : node.id ∈ dht.closestIDs task k := hids ▸ List.mem_map_of_mem hnode
    exact List.key_lt_of_mem_nearest (distance_injective _) hmem hid hout
  · obtain ⟨id, rest, hcons⟩ : ∃ id rest, dht.clockwise task = id :: rest := by
      refine List.exists_cons_of_ne_nil fun hnil ↦ dht.ring_ne_nil ?_
      rw [← List.perm_nil, ← hnil]
      exact (dht.clockwise_perm task).symm
    have hid : id ∈ dht.ring := by
      rw [← (dht.clockwise_perm task).mem_iff, hcons]
      exact List.mem_cons_self
    refine ⟨dht.nodeOf id, ?_, ?_⟩
    · rw [findKClosestNodes_eq_map, closestIDs_eq_take h, hcons, List.take_cons hk, List.map_cons,
        List.head?_cons]
    · rw [findClosestNode_eq h, hcons, List.head?_cons, Option.bind_some, nodeAt_eq_nodeOf hid]

def threeNodes : DHT :=
  ((DHT.new "10.0.0.1:6001" 0).addPeer 0 "10.0.0.2:6001").addPeer 0 "10.0.0.3:6001"

theorem threeNodes_clockwise :
    threeNodes.RingInvariant ∧ threeNodes.ring.length = 3
      ∧ (threeNodes.findKClosestNodes "scan" 2).map some
        = ((threeNodes.clockwise "scan").take 2).map threeNodes.nodeAt
      ∧ ∃ node, (threeNodes.findKClosestNodes "scan" 2).head? = some node
          ∧ threeNodes.findClosestNode "scan" = some node := by
  have hring : threeNodes.RingInvariant := by decide +kernel
  obtain ⟨hnodes, -, -, -, -, hhead⟩ := findKClosestNodes_clockwise hring "scan" 2
  exact ⟨hring, by decide +kernel, hnodes, hhead (by decide)⟩

/-! ## A peer more, a peer less -/

section Churn

variable {now : Time} {address : String}

/-- The nodes that are selected depend on the positions and on who is there. -/
theorem findKClosestNodes_congr {dht' : DHT} (hring : dht'.ring.Perm dht.ring)
    (hnodes : dht'.nodeAt = dht.nodeAt) (task : String) (k : ℕ) :
    dht'.findKClosestNodes task k = dht.findKClosestNodes task k := by
  rw [findKClosestNodes_eq, findKClosestNodes_eq, hnodes, closestIDs, closestIDs,
    hring.nearest_eq (distance_injective _)]

theorem notMem_peers (hnew : hashAddress address ∉ dht.ring) : hashAddress address ∉ dht.peers :=
  fun hmem ↦ hnew (mem_ring.mpr (.inr hmem))

theorem nodeOf_addPeer (hnew : hashAddress address ∉ dht.ring) (now : Time) {id : NodeID}
    (hid : id ∈ dht.ring) : (dht.addPeer now address).nodeOf id = dht.nodeOf id := by
  have hne : id ≠ hashAddress address := fun heq ↦ hnew (heq ▸ hid)
  rw [nodeOf, nodeOf, nodeAt, nodeAt, addPeer_self, lookup_peers_addPeer, if_neg hne]

theorem nodeOf_addPeer_self (hnew : hashAddress address ∉ dht.ring) (now : Time) :
    (dht.addPeer now address).nodeOf (hashAddress address)
      = ⟨hashAddress address, address, now⟩ := by
  have hne : hashAddress address ≠ dht.self.id := fun heq ↦ hnew (heq ▸ dht.self_mem_ring)
  rw [nodeOf, nodeAt, addPeer_self, if_neg hne, lookup_peers_addPeer, if_pos rfl, seen,
    AList.lookup_eq_none.mpr (notMem_peers hnew), Option.getD_some]

theorem ring_removePeer_addPeer_perm (hnew : hashAddress address ∉ dht.ring) (now : Time) :
    ((dht.addPeer now address).removePeer (hashAddress address)).ring.Perm dht.ring := by
  have hkeys : ((dht.addPeer now address).removePeer (hashAddress address)).peers.keys
      = dht.peers.keys := by
    change ((dht.peers.insert _ _).erase _).keys = _
    rw [AList.keys_erase, AList.keys_insert, List.erase_cons_head,
      List.erase_of_not_mem (notMem_peers hnew)]
  have hperm := ((dht.addPeer now address).removePeer (hashAddress address)).ring_perm
  rw [hkeys] at hperm
  exact hperm.trans dht.ring_perm.symm

theorem nodeAt_removePeer_addPeer (hnew : hashAddress address ∉ dht.ring) (now : Time) :
    ((dht.addPeer now address).removePeer (hashAddress address)).nodeAt = dht.nodeAt := by
  have hlookup (id : NodeID) :
      ((dht.addPeer now address).removePeer (hashAddress address)).peers.lookup id
        = dht.peers.lookup id := by
    change ((dht.addPeer now address).peers.erase _).lookup id = _
    by_cases hid : id = hashAddress address
    · rw [hid, AList.lookup_erase, AList.lookup_eq_none.mpr (notMem_peers hnew)]
    · rw [AList.lookup_erase_ne hid, lookup_peers_addPeer, if_neg hid]
  funext id
  rw [nodeAt, nodeAt, hlookup]
  rfl

/-- **Minimal disruption.** When a node joins, the nodes of a task stay the same, or the new node
takes its place among them; their order stays, and the last of them has to go only if there were as
many as the task may have. When it leaves again, they are the old ones. -/
theorem findKClosestNodes_addPeer (dht : DHT) (task : String) (k : ℕ) (now : Time)
    (address : String) (hnew : hashAddress address ∉ dht.ring) :
    ((dht.addPeer now address).findKClosestNodes task k = dht.findKClosestNodes task k
        ∨ ∃ pre post, dht.findKClosestNodes task k = pre ++ post
          ∧ ((dht.findKClosestNodes task k).length = k → post ≠ [])
          ∧ (dht.addPeer now address).findKClosestNodes task k
            = pre ++ ⟨hashAddress address, address, now⟩ ::
              if (dht.findKClosestNodes task k).length = k then post.dropLast else post)
      ∧ ((dht.addPeer now address).removePeer (hashAddress address)).findKClosestNodes task k
        = dht.findKClosestNodes task k := by
  refine ⟨?_, findKClosestNodes_congr (ring_removePeer_addPeer_perm hnew now)
    (nodeAt_removePeer_addPeer hnew now) task k⟩
  have hsame {ids : List NodeID} (hids : ids ⊆ dht.closestIDs task k) :
      ids.map (dht.addPeer now address).nodeOf = ids.map dht.nodeOf :=
    List.map_congr_left fun id hid ↦
      nodeOf_addPeer hnew now (List.mem_of_mem_nearest (hids hid))
  have hids : (dht.addPeer now address).closestIDs task k
      = (hashAddress address :: dht.ring).nearest (distance (hashTask task)) k :=
    (ring_addPeer_perm (notMem_peers hnew)).nearest_eq (distance_injective _)
  rw [findKClosestNodes_eq_map, findKClosestNodes_eq_map, hids, List.length_map]
  rcases List.nearest_cons (distance (hashTask task)) k (hashAddress address) dht.ring with
    hkept | ⟨pre, post, hsplit, hne, hjoined⟩
  · left
    rw [hkept]
    exact hsame (List.Subset.refl _)
  · right
    change dht.closestIDs task k = pre ++ post at hsplit
    have hpre : pre ⊆ dht.closestIDs task k := hsplit ▸ List.subset_append_left ..
    have hpost : post ⊆ dht.closestIDs task k := hsplit ▸ List.subset_append_right ..
    refine ⟨pre.map dht.nodeOf, post.map dht.nodeOf, ?_, ?_, ?_⟩
    · rw [hsplit, List.map_append]
    · intro hlength hnil
      exact hne hlength (List.map_eq_nil_iff.mp hnil)
    · rw [hjoined, List.map_append, List.map_cons, hsame hpre, nodeOf_addPeer_self hnew]
      congr 2
      change (if (dht.closestIDs task k).length = k then post.dropLast else post).map _ = _
      split_ifs
      · rw [hsame fun id hid ↦ hpost (List.mem_of_mem_dropLast hid), List.map_dropLast]
      · exact hsame hpost

theorem threeNodes_addPeer :
    hashAddress "10.0.0.4:6001" ∉ threeNodes.ring
      ∧ ((threeNodes.addPeer 1 "10.0.0.4:6001").removePeer
          (hashAddress "10.0.0.4:6001")).findKClosestNodes "scan" 2
        = threeNodes.findKClosestNodes "scan" 2 := by
  have hnew : hashAddress "10.0.0.4:6001" ∉ threeNodes.ring := by decide +kernel
  exact ⟨hnew, (findKClosestNodes_addPeer threeNodes "scan" 2 1 "10.0.0.4:6001" hnew).2⟩

end Churn

end TaskDiscovery.DHT
