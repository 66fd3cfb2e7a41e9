import Mathlib.Data.Fintype.Card
import TaskDiscovery.Dht.Network

/-!
# Where registrations belong

In a finite network whose nodes are at different positions, a registration belongs to the `k` nodes
that are nearest to its task. `Net.replicas` selects them from any set of nodes, so that the nodes
which belong to a task and those which a node takes for them can be compared.

A node decides by its own ring. What it does not know can only make it feel more responsible: an
owner of a task always accepts it (`responsible_of_mem_owners`), and a node that knows every node
accepts nothing else, and names all owners of what it refuses (`suggests`).
-/

namespace TaskDiscovery

namespace Net

variable {ι : Type}

/-- The nodes are at different positions. -/
def Distinct (net : Net ι) : Prop := Function.Injective fun i ↦ (net.nodes i).self.id

def distanceTo (net : Net ι) (task : String) (i : ι) : Int :=
  distance (hashTask task) (net.nodes i).self.id

/-- The `k` nodes of a set that are nearest to a task. -/
def replicas (net : Net ι) (task : String) (k : ℕ) (nodes : Finset ι) : Finset ι :=
  nodes.nearest (net.distanceTo task) k

/-- A node that is among its own peers is in its ring twice. Both places are among the first `k`. -/
def Doubled (net : Net ι) (task : String) (k : ℕ) (j : ι) (nodes : Finset ι) : Prop :=
  (net.nodes j).self.id ∈ (net.nodes j).peers ∧ j ∈ net.replicas task (k - 1) nodes

instance [DecidableEq ι] (net : Net ι) (task : String) (k : ℕ) (j : ι) (nodes : Finset ι) :
    Decidable (net.Doubled task k j nodes) := inferInstanceAs (Decidable (_ ∧ _))

/-- The nodes of its view that a node takes for the nearest. When it stands for two of them, there
is room for `k - 1` only. -/
def taken [DecidableEq ι] (net : Net ι) (task : String) (k : ℕ) (j : ι) (nodes : Finset ι) :
    Finset ι :=
  net.replicas task (if net.Doubled task k j nodes then k - 1 else k) nodes

/-- The owners of a task: the nodes to which its registrations belong. -/
def owners [Fintype ι] (net : Net ι) (cfg : Config) (task : String) : Finset ι :=
  net.replicas task cfg.replicationFactor Finset.univ

/-- The nodes that are in the view of a node. -/
def Sees (net : Net ι) (j i : ι) : Prop := (net.nodes i).self.id ∈ (net.nodes j).ring

instance (net : Net ι) (j i : ι) : Decidable (net.Sees j i) := inferInstanceAs (Decidable (_ ∈ _))

instance [Fintype ι] [DecidableEq ι] (net : Net ι) : Decidable net.Distinct :=
  inferInstanceAs (Decidable (Function.Injective fun i ↦ (net.nodes i).self.id))

theorem hosts_distinct {n : ℕ} (hn : n = 2 ∨ n = 3) (views : Fin n → List (Fin n)) :
    (hosts n views).Distinct := by
  intro i j hij
  dsimp only at hij
  rw [hosts_id hn, hosts_id hn] at hij
  exact hashAddress_hostAddr_injective hn hij

variable {net : Net ι} {task : String} {k : ℕ} {i j t : ι}

theorem Distinct.distanceTo_injective (h : net.Distinct) (task : String) :
    Function.Injective (net.distanceTo task) :=
  (distance_injective _).comp h

/-- In an honest network every position of a ring is that of a live node. -/
theorem Honest.exists_of_mem_ring (hnet : net.Honest) {id : NodeID}
    (h : id ∈ (net.nodes j).ring) : ∃ i, (net.nodes i).self.id = id := by
  obtain ⟨addr, hknows, rfl⟩ := DHT.mem_ring_iff_knows.mp h
  obtain ⟨i, -, hpos⟩ := hnet j addr hknows
  exact ⟨i, hpos⟩

/-! ## What growing keeps -/

theorem Grows.sees {net' : Net ι} (h : net.Grows net') (hsees : net.Sees j i) : net'.Sees j i := by
  obtain ⟨addr, hknows, hhash⟩ := DHT.mem_ring_iff_knows.mp hsees
  refine DHT.mem_ring_iff_knows.mpr ⟨addr, h.knows j addr hknows, ?_⟩
  rw [hhash, h.self]

theorem Grows.distinct {net' : Net ι} (h : net.Grows net') (hdist : net.Distinct) :
    net'.Distinct := by
  intro i j hij
  refine hdist ?_
  dsimp only at hij ⊢
  rwa [h.self, h.self] at hij

theorem replicas_congr {net' : Net ι} (hself : ∀ j, (net'.nodes j).self = (net.nodes j).self)
    (task : String) (k : ℕ) (nodes : Finset ι) :
    net'.replicas task k nodes = net.replicas task k nodes := by
  have hdist : net'.distanceTo task = net.distanceTo task := by
    funext i
    rw [distanceTo, distanceTo, hself]
  rw [replicas, replicas, hdist]

theorem Grows.replicas_eq {net' : Net ι} (h : net.Grows net') (task : String) (k : ℕ)
    (nodes : Finset ι) : net'.replicas task k nodes = net.replicas task k nodes :=
  replicas_congr h.self task k nodes

theorem Grows.owners_eq [Fintype ι] {net' : Net ι} (h : net.Grows net') (cfg : Config)
    (task : String) : net'.owners cfg task = net.owners cfg task :=
  h.replicas_eq ..

/-! ## Who feels responsible -/

/-- Counting positions is counting nodes of a set that has them all. -/
theorem Distinct.countP_eq_card_filter (hdist : net.Distinct) {l : List NodeID} (hl : l.Nodup)
    {T : Finset ι} (hlive : ∀ id ∈ l, ∃ i ∈ T, (net.nodes i).self.id = id) (x : Int) :
    l.countP (fun id ↦ distance (hashTask task) id < x)
      = (T.filter fun i ↦ (net.nodes i).self.id ∈ l ∧ net.distanceTo task i < x).card := by
  have himage : (l.filter fun id ↦ distance (hashTask task) id < x).toFinset
      = (T.filter fun i ↦ (net.nodes i).self.id ∈ l ∧ net.distanceTo task i < x).image
        fun i ↦ (net.nodes i).self.id := by
    ext id
    simp only [List.mem_toFinset, List.mem_filter, decide_eq_true_eq, Finset.mem_image,
      Finset.mem_filter]
    constructor
    · rintro ⟨hmem, hlt⟩
      obtain ⟨i, hi, rfl⟩ := hlive id hmem
      exact ⟨i, ⟨hi, hmem, hlt⟩, rfl⟩
    · rintro ⟨i, ⟨-, hi⟩, rfl⟩
      exact hi
  rw [List.countP_eq_length_filter, ← List.toFinset_card_of_nodup (hl.filter _), himage,
    Finset.card_image_of_injective _ hdist]

variable [Fintype ι]

theorem Distinct.countP_eq_card (hdist : net.Distinct) {l : List NodeID} (hl : l.Nodup)
    (hlive : ∀ id ∈ l, ∃ i, (net.nodes i).self.id = id) (x : Int) :
    l.countP (fun id ↦ distance (hashTask task) id < x)
      = (Finset.univ.filter fun i ↦
          (net.nodes i).self.id ∈ l ∧ net.distanceTo task i < x).card :=
  hdist.countP_eq_card_filter hl (fun id hid ↦ by simpa using hlive id hid) x

/-- The number of ring entries that are nearer than a node at least as near as the owner. -/
theorem Honest.countP_ring (hnet : net.Honest) (hdist : net.Distinct)
    (hle : net.distanceTo task t ≤ net.distanceTo task j) :
    (net.nodes j).ring.countP (fun id ↦ distance (hashTask task) id < net.distanceTo task t)
      = (Finset.univ.filter fun i ↦
          (net.nodes i).self.id ∈ (net.nodes j).peers
            ∧ net.distanceTo task i < net.distanceTo task t).card := by
  have hself : ¬distance (hashTask task) (net.nodes j).self.id < net.distanceTo task t :=
    not_lt.mpr hle
  rw [(net.nodes j).ring_perm.countP_eq, List.countP_cons_of_neg (by simpa using hself),
    hdist.countP_eq_card (net.nodes j).peers.keys_nodup]
  · simp only [AList.mem_keys]
  · exact fun id hid ↦ hnet.exists_of_mem_ring (DHT.mem_ring.mpr (Or.inr hid))

variable {cfg : Config}

theorem mem_owners :
    j ∈ net.owners cfg task
      ↔ (Finset.univ.filter fun i ↦ net.distanceTo task i < net.distanceTo task j).card
        < cfg.replicationFactor := by
  rw [owners, replicas, Finset.mem_nearest]
  simp

theorem distanceTo_lt_of_notMem_owners (ht : t ∈ net.owners cfg task)
    (hj : j ∉ net.owners cfg task) : net.distanceTo task t < net.distanceTo task j := by
  by_contra hle
  rw [mem_owners] at ht hj
  refine hj (lt_of_le_of_lt (Finset.card_le_card fun i hi ↦ ?_) ht)
  rw [Finset.mem_filter] at hi ⊢
  exact ⟨hi.1, hi.2.trans_le (not_lt.mp hle)⟩

theorem Distinct.owners_subset (hdist : net.Distinct) {V : Finset ι}
    (hV : cfg.replicationFactor ≤ V.card)
    (hsub : net.replicas task cfg.replicationFactor V ⊆ net.owners cfg task) :
    net.owners cfg task ⊆ net.replicas task cfg.replicationFactor V := by
  refine (Finset.eq_of_subset_of_card_le hsub ?_).ge
  have hinj := hdist.distanceTo_injective task
  rw [owners, replicas, replicas, Finset.card_nearest hinj, Finset.card_nearest hinj,
    min_eq_left hV]
  exact min_le_left ..

/-- An owner is among the nearest in every ring of a node that is not nearer. -/
theorem Honest.countP_ring_lt (hnet : net.Honest) (hdist : net.Distinct)
    (ht : t ∈ net.owners cfg task) (hle : net.distanceTo task t ≤ net.distanceTo task j) :
    (net.nodes j).ring.countP (fun id ↦ distance (hashTask task) id < net.distanceTo task t)
      < cfg.replicationFactor := by
  refine lt_of_le_of_lt ((hnet.countP_ring hdist hle).trans_le ?_) (mem_owners.mp ht)
  refine Finset.card_le_card fun i hi ↦ ?_
  rw [Finset.mem_filter] at hi ⊢
  exact ⟨hi.1, hi.2.2⟩

/-- An owner feels responsible, whatever it knows. -/
theorem Honest.responsible_of_mem_owners (hnet : net.Honest) (hdist : net.Distinct)
    (hj : j ∈ net.owners cfg task) :
    (net.nodes j).amIInKClosest task cfg.replicationFactor = true :=
  DHT.amIInKClosest_iff.mpr ((List.mem_nearest_iff (distance_injective _)).mpr
    ⟨DHT.self_mem_ring _, hnet.countP_ring_lt hdist hj (le_refl _)⟩)

theorem Grows.responsible_of_mem_owners {net' : Net ι} (h : net.Grows net') (hnet' : net'.Honest)
    (hdist : net.Distinct) (hj : j ∈ net.owners cfg task) :
    (net'.nodes j).amIInKClosest task cfg.replicationFactor = true :=
  hnet'.responsible_of_mem_owners (h.distinct hdist) ((h.owners_eq cfg task).symm ▸ hj)

/-- A node that knows everybody feels responsible only for what it owns. -/
theorem Honest.not_responsible (hnet : net.Honest) (hdist : net.Distinct)
    (hall : ∀ i, net.Sees j i) (hj : j ∉ net.owners cfg task) :
    (net.nodes j).amIInKClosest task cfg.replicationFactor = false := by
  rw [← Bool.not_eq_true, DHT.amIInKClosest_iff, DHT.closestIDs,
    List.mem_nearest_iff (distance_injective _)]
  rintro ⟨-, hcount⟩
  have hcard := (hnet.countP_ring hdist (le_refl (net.distanceTo task j))).symm.trans_lt hcount
  refine hj (mem_owners.mpr (lt_of_le_of_lt (Finset.card_le_card fun i hi ↦ ?_) hcard))
  rw [Finset.mem_filter] at hi ⊢
  refine ⟨hi.1, (DHT.mem_ring.mp (hall i)).resolve_left fun heq ↦ ?_, hi.2⟩
  exact absurd hi.2 (by rw [hdist heq]; exact lt_irrefl _)

/-- A node that knows everybody and does not feel responsible names every owner. -/
theorem Honest.suggests (hnet : net.Honest) (hdist : net.Distinct) (hall : ∀ i, net.Sees j i)
    (hj : j ∉ net.owners cfg task) (ht : t ∈ net.owners cfg task) :
    ∃ addr ∈ (net.nodes j).closestAddrs cfg task, hashAddress addr = (net.nodes t).self.id := by
  have hid : (net.nodes t).self.id ∈ (net.nodes j).closestIDs task cfg.replicationFactor :=
    (List.mem_nearest_iff (distance_injective _)).mpr
      ⟨hall t, hnet.countP_ring_lt hdist ht (distanceTo_lt_of_notMem_owners ht hj).le⟩
  exact DHT.exists_mem_closestAddrs hid

theorem Distinct.countP_view (hdist : net.Distinct) {l : List NodeID} (hl : l.Nodup)
    (hlive : ∀ id ∈ l, ∃ i, (net.nodes i).self.id = id) {V : Finset ι}
    (hview : ∀ i, (net.nodes i).self.id ∈ l ↔ i ∈ V) (task : String) (x : Int) :
    l.countP (fun id ↦ distance (hashTask task) id < x)
      = (V.filter fun i ↦ net.distanceTo task i < x).card := by
  rw [hdist.countP_eq_card hl hlive]
  congr 1
  ext i
  rw [Finset.mem_filter, Finset.mem_filter]
  simp only [Finset.mem_univ, true_and]
  exact and_congr_left fun _ ↦ hview i

variable [DecidableEq ι] {V : Finset ι}

omit [Fintype ι] in
theorem taken_eq_replicas (hring : (net.nodes j).RingInvariant) (task : String) (k : ℕ)
    (V : Finset ι) : net.taken task k j V = net.replicas task k V := by
  rw [taken, if_neg fun h ↦ hring.self_notMem h.1]

theorem Honest.mem_closestIDs (hnet : net.Honest) (hdist : net.Distinct)
    (hview : ∀ i, net.Sees j i ↔ i ∈ V) :
    (net.nodes i).self.id ∈ (net.nodes j).closestIDs task k ↔ i ∈ net.taken task k j V := by
  rw [DHT.closestIDs, List.mem_nearest_iff (distance_injective _)]
  by_cases hown : (net.nodes j).self.id ∈ (net.nodes j).peers
  · -- the peers are the whole view, and the node comes on top
    have hpeers : ∀ i, (net.nodes i).self.id ∈ (net.nodes j).peers.keys ↔ i ∈ V := by
      intro i
      rw [← AList.mem_keys, ← hview i, Sees, DHT.mem_ring]
      exact ⟨Or.inr, fun h ↦ h.elim (fun heq ↦ heq ▸ hown) id⟩
    have hlive : ∀ id ∈ (net.nodes j).peers.keys, ∃ i, (net.nodes i).self.id = id :=
      fun id hid ↦ hnet.exists_of_mem_ring (DHT.mem_ring.mpr (Or.inr hid))
    have hj : j ∈ V := (hview j).mp (DHT.self_mem_ring _)
    have hcount := hdist.countP_view (net.nodes j).peers.keys_nodup hlive hpeers task
      (net.distanceTo task i)
    simp only [taken, Doubled, hown, true_and]
    rw [replicas, replicas, Finset.mem_nearest_twice hj, ← hcount,
      (net.nodes j).ring_perm.countP_eq, List.countP_cons]
    refine and_congr (hview i) (iff_of_eq ?_)
    simp only [decide_eq_true_eq]
    rfl
  · rw [taken_eq_replicas (DHT.ringInvariant_iff.mpr hown), replicas, Finset.mem_nearest,
      ← hdist.countP_view (DHT.nodup_ring hown) (fun id hid ↦ hnet.exists_of_mem_ring hid) hview]
    exact and_congr_left fun _ ↦ hview i

/-- The addresses that a node starts with are those of the nodes that it takes for the nearest,
itself under its own address. -/
theorem Honest.of_mem_closestAddrs (hnet : net.Honest) (hdist : net.Distinct)
    (hview : ∀ i, net.Sees j i ↔ i ∈ V) {addr : String}
    (h : addr ∈ (net.nodes j).closestAddrs cfg task) :
    ∃ i ∈ net.taken task cfg.replicationFactor j V,
      hashAddress addr = (net.nodes i).self.id ∧ (i = j → addr = (net.nodes j).self.address) := by
  obtain ⟨node, hnode, rfl⟩ := DHT.mem_closestAddrs.mp h
  obtain ⟨id, hid, hat⟩ := DHT.mem_findKClosestNodes.mp hnode
  obtain ⟨i, rfl⟩ := hnet.exists_of_mem_ring (List.mem_of_mem_nearest hid)
  refine ⟨i, (hnet.mem_closestIDs hdist hview).mp hid, (DHT.nodeAt_filed hat).2, ?_⟩
  rintro rfl
  rw [DHT.nodeAt_self] at hat
  rw [Option.some.inj hat]

theorem Honest.exists_mem_closestAddrs (hnet : net.Honest) (hdist : net.Distinct)
    (hview : ∀ i, net.Sees j i ↔ i ∈ V)
    (hi : i ∈ net.taken task cfg.replicationFactor j V) :
    ∃ addr ∈ (net.nodes j).closestAddrs cfg task, hashAddress addr = (net.nodes i).self.id :=
  DHT.exists_mem_closestAddrs ((hnet.mem_closestIDs hdist hview).mpr hi)

end Net

end TaskDiscovery
