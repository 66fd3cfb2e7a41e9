import TaskDiscovery.Dht.Replicas
import TaskDiscovery.Dht.Search

/-!
# Lookups under churn

A registration has been stored at the `k` nodes `S` of a membership that are nearest to its task.
Since then some nodes `J` have joined, which hold nothing, and some of the replicas `C` have
crashed, fewer than `k` together. The nearest replica that is left, `r`, has at most those in front
of it, whatever a node's view of the membership is. So `r` counts itself responsible, and it is
among the nodes that any other node asks.

What can go wrong is the querier's ring. It is a list, and a querier that is its own peer stands in
it twice. If the querier is in front of `r`, and there is no other room, it crowds `r` out
(`churned_find_iff`).
-/

namespace TaskDiscovery

/-- `CleanupStaleData` keeps what the node is responsible for. -/
theorem DHT.slice_cleanupStaleData {dht : DHT} {cfg : Config} {task : String}
    (h : dht.amIInKClosest task cfg.replicationFactor = true) :
    (dht.cleanupStaleData cfg).storage.slice task = dht.storage.slice task := by
  refine AList.slice_foldl_erase Sigma.fst _ _ fun p hp heq ↦ ?_
  have hstale := (List.mem_filter.mp hp).2
  rw [heq, h] at hstale
  contradiction

/-! ## Counting -/

namespace Net

variable {ι : Type}

/-- All positions in the ring of a node are those of nodes of the set. -/
def Within (net : Net ι) (dht : DHT) (T : Finset ι) : Prop :=
  ∀ id ∈ dht.ring, ∃ i ∈ T, (net.nodes i).self.id = id

variable {net : Net ι} {dht : DHT} {T : Finset ι} {task : String} {x : Int}

/-- The entries of a ring below a distance: the node's own, and one for each peer. -/
theorem Within.countP_ring (h : net.Within dht T) (hdist : net.Distinct) :
    dht.ring.countP (fun id ↦ distance (hashTask task) id < x)
      = (T.filter fun i ↦ (net.nodes i).self.id ∈ dht.peers ∧ net.distanceTo task i < x).card
        + if distance (hashTask task) dht.self.id < x then 1 else 0 := by
  rw [dht.ring_perm.countP_eq, List.countP_cons, hdist.countP_eq_card_filter
    dht.peers.keys_nodup fun id hid ↦ h id (DHT.mem_ring.mpr (Or.inr hid))]
  simp only [AList.mem_keys, decide_eq_true_eq]

theorem Within.countP_ring_le (h : net.Within dht T) (hdist : net.Distinct)
    (hself : x ≤ distance (hashTask task) dht.self.id) :
    dht.ring.countP (fun id ↦ distance (hashTask task) id < x)
      ≤ (T.filter fun i ↦ net.distanceTo task i < x).card := by
  rw [h.countP_ring hdist, if_neg (not_lt.mpr hself), Nat.add_zero]
  exact Finset.card_le_card (Finset.monotone_filter_right T fun _ _ hi ↦ hi.2)

theorem Within.greet (h : net.Within dht T) {q : ι} (hq : q ∈ T) (now : Time) :
    net.Within (dht.greet now (net.nodes q).self.address) T := by
  intro id hid
  obtain ⟨addr, hknows, rfl⟩ := DHT.mem_ring_iff_knows.mp hid
  rcases DHT.knows_greet hknows with hknows | rfl
  · exact h _ (DHT.mem_ring_iff_knows.mpr ⟨addr, hknows, rfl⟩)
  · exact ⟨q, hq, (net.nodes q).self_id⟩

end Net

/-! ## Churn -/

variable {ι : Type} [DecidableEq ι]

/-- A registration was stored at the replicas among `S`. Then `J` joined and `C` crashed. Now `r` is
the nearest replica that is left, and `q` queries. -/
structure Churned (cfg : Config) (handling : ℕ → Handling) (net : Net ι) (S J C : Finset ι)
    (task address : String) (r q : ι) : Prop where
  distinct : net.Distinct
  few : J.card + C.card < cfg.replicationFactor
  survivor : r ∈ net.replicas task cfg.replicationFactor S \ C
  nearest : ∀ i ∈ net.replicas task cfg.replicationFactor S \ C,
    net.distanceTo task r ≤ net.distanceTo task i
  querier : q ∉ C
  /-- The two views may differ, and may still have crashed nodes. -/
  view : net.Within (net.nodes q) (S ∪ J)
  view_survivor : net.Within (net.nodes r) (S ∪ J)
  sees : net.Sees q r
  /-- The addresses that the querier has reach the nodes that are still there. -/
  reach : ∀ i addr, (net.nodes q).Knows addr → hashAddress addr = (net.nodes i).self.id →
    net.resolve addr = if i ∈ C then none else some i
  /-- Other replicas may have dropped the registration by now. -/
  copies : ∀ i, (net.nodes i).storage.slice task = []
    ∨ ∃ hb, (net.nodes i).storage.slice task = [⟨address, hb⟩]
  joined : ∀ i ∈ J, (net.nodes i).storage.slice task = []
  stored : ∃ hb, (net.nodes r).storage.slice task = [⟨address, hb⟩]
    ∧ (cfg.serviceHeartbeatTimeout ≤ 0
      ∨ ∀ n, (handling n).now - hb < cfg.serviceHeartbeatTimeout)

namespace Churned

variable {cfg : Config} {handling : ℕ → Handling} {net : Net ι} {S J C : Finset ι}
  {task address : String} {r q i : ι}

/-- What is nearer than the survivor has joined or crashed. -/
theorem mem_of_nearer (h : Churned cfg handling net S J C task address r q) (hi : i ∈ S ∪ J)
    (hlt : net.distanceTo task i < net.distanceTo task r) : i ∈ C ∨ i ∈ J := by
  rcases Finset.mem_union.mp hi with hS | hJ
  · left
    by_contra hC
    have hr := (Finset.mem_sdiff.mp h.survivor).1
    have hreplica : i ∈ net.replicas task cfg.replicationFactor S :=
      Finset.mem_nearest_of_key_le hr hS hlt.le
    exact absurd hlt (not_lt.mpr (h.nearest i (Finset.mem_sdiff.mpr ⟨hreplica, hC⟩)))
  · exact Or.inr hJ

/-- **The rank of the survivor.** -/
theorem card_nearer_lt (h : Churned cfg handling net S J C task address r q) :
    ((S ∪ J).filter fun i ↦ net.distanceTo task i < net.distanceTo task r).card
      < cfg.replicationFactor := by
  have hsub : ((S ∪ J).filter fun i ↦ net.distanceTo task i < net.distanceTo task r) ⊆ J ∪ C := by
    intro i hi
    obtain ⟨hmem, hlt⟩ := Finset.mem_filter.mp hi
    exact Finset.mem_union.mpr (h.mem_of_nearer hmem hlt).symm
  calc _ ≤ (J ∪ C).card := Finset.card_le_card hsub
    _ ≤ J.card + C.card := Finset.card_union_le ..
    _ < cfg.replicationFactor := h.few

theorem querier_mem (h : Churned cfg handling net S J C task address r q) : q ∈ S ∪ J := by
  obtain ⟨i, hi, hid⟩ := h.view _ (DHT.self_mem_ring _)
  exact h.distinct hid ▸ hi

/-- The survivor feels responsible. -/
theorem responsible (h : Churned cfg handling net S J C task address r q) :
    (net.nodes r).amIInKClosest task cfg.replicationFactor = true :=
  DHT.amIInKClosest_iff_countP.mpr
    ((h.view_survivor.countP_ring_le h.distinct (le_refl _)).trans_lt h.card_nearer_lt)

theorem nearerWith_lt (h : Churned cfg handling net S J C task address r q) :
    (net.nodes r).nearerWith (net.nodes q).self.address task < cfg.replicationFactor := by
  rw [DHT.nearerWith_eq 0]
  have hwithin := h.view_survivor.greet h.querier_mem 0
  exact (hwithin.countP_ring_le h.distinct (by rw [DHT.greet_self])).trans_lt h.card_nearer_lt

theorem active_eq (h : Churned cfg handling net S J C task address r q) (now : Time) (i : ι) :
    DHT.activeAddresses ((net.nodes i).storage.slice task) now cfg.serviceHeartbeatTimeout = []
      ∨ DHT.activeAddresses ((net.nodes i).storage.slice task) now cfg.serviceHeartbeatTimeout
        = [address] := by
  rcases h.copies i with hslice | ⟨hb, hslice⟩ <;> rw [hslice, DHT.activeAddresses]
  · exact Or.inl rfl
  · rw [List.filter_cons]
    split_ifs
    · exact Or.inr rfl
    · exact Or.inl rfl

theorem active_survivor (h : Churned cfg handling net S J C task address r q) (n : ℕ) :
    DHT.activeAddresses ((net.nodes r).storage.slice task) (handling n).now
      cfg.serviceHeartbeatTimeout = [address] := by
  obtain ⟨hb, hslice, hfresh⟩ := h.stored
  rw [hslice, DHT.activeAddresses, List.filter_eq_self.mpr]
  · rfl
  · intro entry hentry
    obtain rfl := List.mem_singleton.mp hentry
    rcases hfresh with hoff | hfresh
    · simp [not_lt.mpr hoff]
    · simp [not_le.mpr (hfresh n)]

theorem exists_of_mem (h : Churned cfg handling net S J C task address r q) {node : Node}
    (hnode : node ∈ (net.nodes q).findKClosestNodes task cfg.replicationFactor) :
    ∃ i ∈ S ∪ J, (net.nodes i).self.id = node.id
      ∧ net.resolve node.address = if i ∈ C then none else some i := by
  obtain ⟨hhash, hid⟩ := DHT.hashAddress_of_mem_findKClosestNodes hnode
  obtain ⟨i, hi, heq⟩ := h.view _ (List.mem_of_mem_nearest hid)
  exact ⟨i, hi, heq, h.reach i _ (DHT.knows_of_mem_findKClosestNodes hnode) (hhash.trans heq.symm)⟩

theorem answer_eq (h : Churned cfg handling net S J C task address r q) {answer : List String}
    {n : ℕ} (hanswer : answer ∈ (net.nodes q).ownAnswer cfg (handling n).now task
      :: net.answers cfg handling (net.nodes q).self.address task n
        ((net.nodes q).toAsk cfg task)) : answer = [] ∨ answer = [address] := by
  rcases List.mem_cons.mp hanswer with rfl | hanswer
  · rw [DHT.ownAnswer]
    split_ifs
    · exact h.active_eq _ q
    · exact Or.inl rfl
  · obtain ⟨⟨node, m⟩, -, rfl⟩ := List.mem_map.mp hanswer
    rw [Net.answer]
    split
    · exact Or.inl rfl
    · rw [DHT.answer]
      split_ifs
      · exact h.active_eq ..
      · exact Or.inl rfl

/-- A querier that has the survivor among the nearest finds the registration. -/
theorem find_eq (h : Churned cfg handling net S J C task address r q)
    (hr : (net.nodes r).self.id ∈ (net.nodes q).closestIDs task cfg.replicationFactor)
    (query : String → String → List String) (n : ℕ) :
    (((Environment.alone handling).host cfg q).find cfg query task ⟨net, n⟩).2 = [address] := by
  have hfound :
      (((Environment.alone handling).host cfg q).find cfg query task ⟨net, n⟩).2 ≠ [] := by
    rw [find_ne_nil_iff]
    by_cases hq : q = r
    · subst hq
      exact Or.inl ⟨hr, by rw [h.active_survivor]; exact List.cons_ne_nil _ _⟩
    · right
      rw [← DHT.map_id_findKClosestNodes] at hr
      obtain ⟨node, hnode, hid⟩ := List.mem_map.mp hr
      have hask : node ∈ (net.nodes q).toAsk cfg task := by
        refine List.mem_filter.mpr ⟨hnode, ?_⟩
        simpa [hid] using fun heq ↦ hq (h.distinct heq).symm
      obtain ⟨m, hm⟩ := List.getElem?_of_mem hask
      obtain ⟨i, -, heq, hres⟩ := h.exists_of_mem hnode
      obtain rfl : i = r := h.distinct (heq.trans hid)
      rw [if_neg (Finset.mem_sdiff.mp h.survivor).2] at hres
      refine ⟨m, i, ⟨node, hm, hres, ?_⟩, h.nearerWith_lt⟩
      rw [h.active_survivor]
      exact List.cons_ne_nil _ _
  rw [find_eq_firstAnswer] at hfound ⊢
  exact (h.answer_eq (firstAnswer_mem hfound)).resolve_left hfound

/-- A querier that does not have it finds nothing. -/
theorem find_eq_nil (h : Churned cfg handling net S J C task address r q)
    (hr : (net.nodes r).self.id ∉ (net.nodes q).closestIDs task cfg.replicationFactor)
    (query : String → String → List String) (n : ℕ) :
    (((Environment.alone handling).host cfg q).find cfg query task ⟨net, n⟩).2 = [] := by
  -- whoever is taken instead is nearer, so it has joined or crashed
  have hempty : ∀ i ∈ S ∪ J, i ∉ C → (net.nodes i).self.id ∈ (net.nodes q).closestIDs task
      cfg.replicationFactor → (net.nodes i).storage.slice task = [] := by
    intro i hi hC hid
    have hlt := List.key_lt_of_mem_nearest (distance_injective _) hid h.sees hr
    exact h.joined i ((h.mem_of_nearer hi hlt).resolve_left hC)
  by_contra hfound
  rcases (find_ne_nil_iff cfg handling net q query task n).mp hfound with
    ⟨hid, hactive⟩ | ⟨m, j, ⟨node, hm, hres, hactive⟩, -⟩
  · rw [hempty q h.querier_mem h.querier hid] at hactive
    exact hactive rfl
  · have hnode := (List.mem_filter.mp (List.mem_of_getElem? hm)).1
    obtain ⟨i, hi, heq, hres'⟩ := h.exists_of_mem hnode
    rw [hres] at hres'
    split_ifs at hres' with hC
    obtain rfl := Option.some.inj hres'
    rw [hempty j hi hC (heq ▸ (DHT.hashAddress_of_mem_findKClosestNodes hnode).2)] at hactive
    exact hactive rfl

/-- **Who has the survivor among the nearest.** A querier that is its own peer and nearer than the
survivor takes two places. -/
theorem mem_closestIDs_iff (h : Churned cfg handling net S J C task address r q) :
    (net.nodes r).self.id ∈ (net.nodes q).closestIDs task cfg.replicationFactor
      ↔ ((net.nodes q).self.id ∈ (net.nodes q).peers →
        net.distanceTo task q < net.distanceTo task r →
          ((S ∪ J).filter fun i ↦ net.Sees q i
            ∧ net.distanceTo task i < net.distanceTo task r).card + 1 < cfg.replicationFactor) := by
  have hsees : ((S ∪ J).filter fun i ↦ net.Sees q i
      ∧ net.distanceTo task i < net.distanceTo task r).card < cfg.replicationFactor :=
    (Finset.card_le_card (Finset.monotone_filter_right _ fun _ _ hi ↦ hi.2)).trans_lt
      h.card_nearer_lt
  rw [DHT.closestIDs, List.mem_nearest_iff (distance_injective _)]
  refine (and_iff_right h.sees).trans ?_
  change (net.nodes q).ring.countP (fun id ↦ distance (hashTask task) id
    < net.distanceTo task r) < _ ↔ _
  by_cases hself : (net.nodes q).self.id ∈ (net.nodes q).peers
  · have hpeers : ((S ∪ J).filter fun i ↦ (net.nodes i).self.id ∈ (net.nodes q).peers
        ∧ net.distanceTo task i < net.distanceTo task r)
        = (S ∪ J).filter fun i ↦ net.Sees q i
          ∧ net.distanceTo task i < net.distanceTo task r := by
      refine Finset.filter_congr fun i _ ↦ and_congr_left fun _ ↦ ?_
      rw [Net.Sees, DHT.mem_ring]
      exact ⟨Or.inr, fun hi ↦ hi.elim (fun heq ↦ heq ▸ hself) id⟩
    rw [h.view.countP_ring h.distinct, hpeers]
    change _ + (if net.distanceTo task q < net.distanceTo task r then 1 else 0) < _ ↔ _
    split_ifs with hlt
    · exact ⟨fun hk _ _ ↦ hk, fun hk ↦ hk hself hlt⟩
    · exact iff_of_true hsees fun _ hlt' ↦ absurd hlt' hlt
  · refine iff_of_true ?_ fun hself' ↦ absurd hself' hself
    exact (h.distinct.countP_eq_card_filter (DHT.nodup_ring hself) h.view _).trans_lt hsees

theorem setNode_cleanup_frame (cfg : Config) (net : Net ι) (r j : ι) :
    ((net.setNode r ((net.nodes r).cleanupStaleData cfg)).nodes j).self = (net.nodes j).self
      ∧ ((net.setNode r ((net.nodes r).cleanupStaleData cfg)).nodes j).peers = (net.nodes j).peers
      ∧ ((net.setNode r ((net.nodes r).cleanupStaleData cfg)).nodes j).ring
        = (net.nodes j).ring := by
  by_cases hj : j = r
  · rw [hj, Net.setNode_nodes_self]
    exact ⟨rfl, rfl, rfl⟩
  · rw [Net.setNode_nodes_of_ne hj]
    exact ⟨rfl, rfl, rfl⟩

theorem cleanup (h : Churned cfg handling net S J C task address r q) :
    Churned cfg handling (net.setNode r ((net.nodes r).cleanupStaleData cfg)) S J C task address r
      q := by
  set net' := net.setNode r ((net.nodes r).cleanupStaleData cfg) with hnet'
  have hframe : ∀ j, (net'.nodes j).self = (net.nodes j).self
      ∧ (net'.nodes j).peers = (net.nodes j).peers ∧ (net'.nodes j).ring = (net.nodes j).ring :=
    setNode_cleanup_frame cfg net r
  have hself j := (hframe j).1
  have hslice : ∀ j, (net'.nodes j).storage.slice task = (net.nodes j).storage.slice task := by
    intro j
    by_cases hj : j = r
    · rw [hj, hnet', Net.setNode_nodes_self, DHT.slice_cleanupStaleData h.responsible]
    · rw [hnet', Net.setNode_nodes_of_ne hj]
  have hdist : ∀ i, net'.distanceTo task i = net.distanceTo task i := by
    intro i
    rw [Net.distanceTo, Net.distanceTo, hself]
  have hwithin : ∀ j, net.Within (net.nodes j) (S ∪ J) → net'.Within (net'.nodes j) (S ∪ J) := by
    intro j hj id hid
    rw [(hframe j).2.2] at hid
    obtain ⟨i, hi, heq⟩ := hj id hid
    exact ⟨i, hi, by rw [hself, heq]⟩
  refine ⟨fun i j hij ↦ h.distinct ?_, h.few, ?_, fun i hi ↦ ?_, h.querier, hwithin q h.view,
    hwithin r h.view_survivor, ?_, fun i addr hknows hhash ↦ h.reach i addr ?_ ?_, fun i ↦ ?_,
    fun i hi ↦ ?_, ?_⟩
  · dsimp only at hij ⊢
    rwa [hself, hself] at hij
  · rw [Net.replicas_congr hself]
    exact h.survivor
  · rw [Net.replicas_congr hself] at hi
    rw [hdist, hdist]
    exact h.nearest i hi
  · rw [Net.Sees, hself, (hframe q).2.2]
    exact h.sees
  · rwa [DHT.Knows, hself, (hframe q).2.1] at hknows
  · rwa [hself] at hhash
  · rw [hslice]
    exact h.copies i
  · rw [hslice]
    exact h.joined i hi
  · rw [hslice]
    exact h.stored

end Churned

/-- **Lookups under churn.** The nearest replica that is left keeps the registration when it cleans
up. A query returns the registration, before and after that, if and only if the querier is not its
own peer, or is no nearer than that replica, or has a place left: its view has two nodes less in
front of the replica than `ReplicationFactor`. -/
theorem churned_find_iff {cfg : Config} {handling : ℕ → Handling} {net : Net ι}
    {S J C : Finset ι} {task address : String} {r q : ι}
    (h : Churned cfg handling net S J C task address r q)
    (query : String → String → List String) (n : ℕ) :
    ((net.nodes r).cleanupStaleData cfg).storage.slice task = (net.nodes r).storage.slice task
      ∧ ∀ net' ∈ [net, net.setNode r ((net.nodes r).cleanupStaleData cfg)],
        (((Environment.alone handling).host cfg q).find cfg query task ⟨net', n⟩).2 = [address]
          ↔ ((net.nodes q).self.id ∈ (net.nodes q).peers →
            net.distanceTo task q < net.distanceTo task r →
              ((S ∪ J).filter fun i ↦ net.Sees q i
                ∧ net.distanceTo task i < net.distanceTo task r).card + 1
                < cfg.replicationFactor) := by
  have hfind : ∀ net' : Net ι, Churned cfg handling net' S J C task address r q →
      ((((Environment.alone handling).host cfg q).find cfg query task ⟨net', n⟩).2 = [address]
        ↔ (net'.nodes r).self.id ∈ (net'.nodes q).closestIDs task cfg.replicationFactor) := by
    intro net' h'
    refine ⟨fun hfound ↦ ?_, fun hr ↦ h'.find_eq hr query n⟩
    by_contra hr
    rw [h'.find_eq_nil hr query n] at hfound
    contradiction
  refine ⟨DHT.slice_cleanupStaleData h.responsible, fun net' hnet' ↦ ?_⟩
  rw [← h.mem_closestIDs_iff]
  rcases List.mem_pair.mp hnet' with rfl | rfl
  · exact hfind _ h
  · obtain ⟨-, -, hring⟩ := Churned.setNode_cleanup_frame cfg net r q
    rw [hfind _ h.cleanup, (Churned.setNode_cleanup_frame cfg net r r).1, DHT.closestIDs, hring,
      DHT.closestIDs]

/-- The first two of three nodes hold a registration, and the first has crashed. The third has
joined since, and has been told of some nodes. -/
def lateJoin (told : List (Fin 3)) : Net (Fin 3) :=
  let net := Net.hosts 3 fun i ↦ if i = 0 then [1] else if i = 1 then [0] else told
  { nodes := fun i ↦
      if i = 2 then net.nodes i else (net.nodes i).storeTask 3 "scan" "10.1.0.1:80"
    resolve := fun addr ↦ (net.resolve addr).filter (· ≠ 0) }

section LateJoin

variable {told : List (Fin 3)}

theorem lateJoin_frame (told : List (Fin 3)) (j : Fin 3) :
    ∃ views, ((lateJoin told).nodes j).self = ((Net.hosts 3 views).nodes j).self
      ∧ ((lateJoin told).nodes j).peers = ((Net.hosts 3 views).nodes j).peers := by
  refine ⟨fun i ↦ if i = 0 then [1] else if i = 1 then [0] else told, ?_⟩
  rw [lateJoin]
  dsimp only
  split_ifs <;> exact ⟨rfl, rfl⟩

theorem lateJoin_knows {j : Fin 3} {addr : String} (h : ((lateJoin told).nodes j).Knows addr) :
    ∃ i, addr = Net.hostAddr 3 i := by
  obtain ⟨views, hself, hpeers⟩ := lateJoin_frame told j
  rw [DHT.Knows, hself, hpeers] at h
  exact Net.ofViews_knows (Net.dialable_hostAddr (.inr rfl)) h

theorem lateJoin_id (told : List (Fin 3)) (i : Fin 3) :
    ((lateJoin told).nodes i).self.id = hashAddress (Net.hostAddr 3 i) := by
  obtain ⟨views, hself, -⟩ := lateJoin_frame told i
  rw [DHT.self_id, hself, ← DHT.self_id, Net.hosts_id (.inr rfl)]

theorem lateJoin_within (told : List (Fin 3)) (j : Fin 3) :
    (lateJoin told).Within ((lateJoin told).nodes j) ({0, 1} ∪ {2}) := by
  have hall : ∀ i : Fin 3, i ∈ ({0, 1} ∪ {2} : Finset (Fin 3)) := by decide
  intro id hid
  obtain ⟨addr, hknows, rfl⟩ := DHT.mem_ring_iff_knows.mp hid
  obtain ⟨i, rfl⟩ := lateJoin_knows hknows
  exact ⟨i, hall i, lateJoin_id told i⟩

theorem lateJoin_churned (told : List (Fin 3)) (h : told ∈ [[0, 1], [2, 0, 1]]) :
    Churned ⟨3, 60⟩ (fun _ ↦ .still 5) (lateJoin told) {0, 1} {2} {0} "scan" "10.1.0.1:80" 1
      2 := by
  have hdistinct : (lateJoin told).Distinct := by
    intro i j hij
    dsimp only at hij
    rw [lateJoin_id, lateJoin_id] at hij
    exact Net.hashAddress_hostAddr_injective (.inr rfl) hij
  have hslice : ∀ i, ((lateJoin told).nodes i).storage.slice "scan"
      = if i = 2 then [] else [⟨"10.1.0.1:80", 3⟩] := by
    rcases List.mem_pair.mp h with rfl | rfl <;> decide +kernel
  have hresolve : ∀ j, (lateJoin told).resolve (Net.hostAddr 3 j)
      = if j ∈ ({0} : Finset (Fin 3)) then none else some j := by
    rcases List.mem_pair.mp h with rfl | rfl <;> decide +kernel
  refine ⟨hdistinct, by decide, ?_, ?_, by decide, lateJoin_within told 2,
    lateJoin_within told 1, ?_, fun i addr haddr hhash ↦ ?_, fun i ↦ ?_, fun i hi ↦ ?_,
    ⟨3, hslice 1, Or.inr fun _ ↦ (by decide : (5 : Time) - 3 < 60)⟩⟩
  · rcases List.mem_pair.mp h with rfl | rfl <;> decide +kernel
  · rcases List.mem_pair.mp h with rfl | rfl <;> decide +kernel
  · rcases List.mem_pair.mp h with rfl | rfl <;> decide +kernel
  · obtain ⟨j, rfl⟩ := lateJoin_knows haddr
    obtain rfl : j = i := hdistinct (by dsimp only; rw [lateJoin_id, hhash])
    exact hresolve j
  · rw [hslice]
    split_ifs
    · exact Or.inl rfl
    · exact Or.inr ⟨3, rfl⟩
  · rw [hslice, if_pos (Finset.mem_singleton.mp hi)]

end LateJoin

/-- A node that has joined finds the registration, although the nearest replica has crashed. -/
theorem lateJoin_find :
    (((Environment.alone fun _ ↦ .still 5).host ⟨3, 60⟩ 2).find ⟨3, 60⟩ (fun _ _ ↦ []) "scan"
      ⟨lateJoin [0, 1], 0⟩).2 = ["10.1.0.1:80"] := by
  have hfind := (churned_find_iff (lateJoin_churned [0, 1] (by decide))
    (fun _ _ ↦ []) 0).2 (lateJoin [0, 1]) List.mem_cons_self
  refine hfind.mpr fun hself ↦ absurd hself ?_
  decide +kernel

/-- **A node that is its own peer** does not find it: it stands in its own ring twice, and there is
no place left for the replica. -/
theorem lateJoin_crowded :
    Churned ⟨3, 60⟩ (fun _ ↦ .still 5) (lateJoin [2, 0, 1]) {0, 1} {2} {0} "scan" "10.1.0.1:80" 1 2
      ∧ (((Environment.alone fun _ ↦ .still 5).host ⟨3, 60⟩ 2).find ⟨3, 60⟩ (fun _ _ ↦ []) "scan"
        ⟨lateJoin [2, 0, 1], 0⟩).2 = [] :=
  ⟨lateJoin_churned [2, 0, 1] (by decide), by decide +kernel⟩

end TaskDiscovery
