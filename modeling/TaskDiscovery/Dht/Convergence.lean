import TaskDiscovery.Dht.Redirects
import TaskDiscovery.Dht.Replicas

/-!
# Storing with an outdated view

A node `A` stores a registration and does not know all nodes, while everybody else does. It starts
with the nodes `L` that it takes for the nearest ones, and the registration belongs to the nodes
`T`. Every node of `T` that is contacted accepts. A contacted node outside of `T` other than `A`
names all nodes of `T`, and as it is farther from the task than they are, they are all tried
(`Spread`).

But `A` itself is not asked. If it is in `L` and not in `T`, it stores the registration and counts
that as a success, and when all others in `L` are in `T`, nobody refers it to the node of `T` that
it does not know (`Confined`). The same happens when `A` has become its own peer, which `Store` does
not rule out: it then stands for two of the `k` nodes, and one that it does know is left out. The
registration reaches all of `T` except in these cases: `store_converges_iff`.
-/

namespace TaskDiscovery

variable {ι : Type} [DecidableEq ι] [Fintype ι] {cfg : Config} {handling : ℕ → Handling}
  {net₀ : Net ι} {A : ι} {task address addr : String} {s s' : StoreState × Session ι}

/-! ## The registration spreads -/

/-- The invariant behind convergence. -/
structure Spread (net₀ : Net ι) (cfg : Config) (A : ι) (task address : String)
    (s : StoreState × Session ι) : Prop where
  pursuit : Pursuit net₀ A task address s
  /-- The initial addresses are not forgotten. -/
  listed : ∀ y ∈ (net₀.nodes A).closestAddrs cfg task, y ∈ s.1.queue ∨ y ∈ s.1.attempted
  /-- The nodes to which the task belongs accept. -/
  accepted : ∀ y ∈ s.1.attempted, ∀ t ∈ net₀.owners cfg task,
    hashAddress y = (net₀.nodes t).self.id → (s.2.net.nodes t).Stores task address
  /-- Once a node other than `A` has refused, the nodes to which the task belongs are queued. -/
  covered : (∃ y ∈ s.1.attempted, hashAddress y ≠ (net₀.nodes A).self.id
      ∧ ∀ t ∈ net₀.owners cfg task, hashAddress y ≠ (net₀.nodes t).self.id) →
    ∀ t ∈ net₀.owners cfg task, (s.2.net.nodes t).Stores task address
      ∨ ∃ z ∈ s.1.queue, hashAddress z = (net₀.nodes t).self.id

namespace Spread

theorem init (hnet : net₀.Honest) (hk : 1 ≤ cfg.replicationFactor) (env : Environment ι) :
    Spread net₀ cfg A task address
      ((env.host cfg A).storeInit cfg task ⟨net₀, 0⟩, ⟨net₀, 0⟩) where
  pursuit := .init hnet hk env 0
  listed _ hy := Or.inl hy
  accepted _ hy := absurd hy List.not_mem_nil
  covered := fun ⟨_, hy, _⟩ ↦ absurd hy List.not_mem_nil

omit [DecidableEq ι] in
/-- An address that has been attempted before is dropped. -/
theorem drop {queue : List String} (h : Spread net₀ cfg A task address s)
    (hq : s.1.queue = addr :: queue) (hseen : addr ∈ s.1.attempted) :
    Spread net₀ cfg A task address ({ s.1 with queue := queue }, s.2) where
  pursuit := h.pursuit.drop hq hseen
  listed y hy := by
    rcases h.listed y hy with hy | hy
    · rw [hq] at hy
      rcases List.mem_cons.mp hy with rfl | hy
      · exact Or.inr hseen
      · exact Or.inl hy
    · exact Or.inr hy
  accepted := h.accepted
  covered hrefused t ht := by
    rcases h.covered hrefused t ht with hstores | ⟨z, hz, hhash⟩
    · exact Or.inl hstores
    · rw [hq] at hz
      rcases List.mem_cons.mp hz with rfl | hz
      · exact Or.inl (h.accepted z hseen t ht hhash)
      · exact Or.inr ⟨z, hz, hhash⟩

omit [DecidableEq ι] in
/-- An address is tried: if it belongs to the task, its node has accepted, and if it is of another
node than `A`, the nodes to which the task belongs have been queued. -/
theorem attempt {queue : List String} (h : Spread net₀ cfg A task address s)
    (hq : s.1.queue = addr :: queue) (hpursuit : Pursuit net₀ A task address s')
    (hgrows : s.2.net.Grows s'.2.net)
    (hattempted : s'.1.attempted = addr :: s.1.attempted) (hqueue : ∀ x ∈ queue, x ∈ s'.1.queue)
    (haccepted : ∀ t ∈ net₀.owners cfg task, hashAddress addr = (net₀.nodes t).self.id →
      (s'.2.net.nodes t).Stores task address)
    (hcovered : hashAddress addr ≠ (net₀.nodes A).self.id →
      (∀ t ∈ net₀.owners cfg task, hashAddress addr ≠ (net₀.nodes t).self.id) →
      ∀ t ∈ net₀.owners cfg task, ∃ z, hashAddress z = (net₀.nodes t).self.id
        ∧ (z ∈ s'.1.queue ∨ z ∈ s'.1.attempted)) :
    Spread net₀ cfg A task address s' := by
  have haccepted' : ∀ y ∈ s'.1.attempted, ∀ t ∈ net₀.owners cfg task,
      hashAddress y = (net₀.nodes t).self.id → (s'.2.net.nodes t).Stores task address := by
    intro y hy t ht hhash
    rw [hattempted] at hy
    rcases List.mem_cons.mp hy with rfl | hy
    · exact haccepted t ht hhash
    · exact hgrows.stores t _ _ (h.accepted y hy t ht hhash)
  refine ⟨hpursuit, fun y hy ↦ ?_, haccepted', ?_⟩
  · rw [hattempted]
    rcases h.listed y hy with hy | hy
    · rw [hq] at hy
      rcases List.mem_cons.mp hy with rfl | hy
      · exact Or.inr List.mem_cons_self
      · exact Or.inl (hqueue y hy)
    · exact Or.inr (List.mem_cons_of_mem _ hy)
  · rintro ⟨y, hy, hA, hout⟩ t ht
    rw [hattempted] at hy
    rcases List.mem_cons.mp hy with rfl | hy
    · -- this address has refused
      obtain ⟨z, hhash, hz | hz⟩ := hcovered hA hout t ht
      · exact Or.inr ⟨z, hz, hhash⟩
      · exact Or.inl (haccepted' z hz t ht hhash)
    · -- an earlier one has
      rcases h.covered ⟨y, hy, hA, hout⟩ t ht with hstores | ⟨z, hz, hhash⟩
      · exact Or.inl (hgrows.stores t _ _ hstores)
      · rw [hq] at hz
        rcases List.mem_cons.mp hz with rfl | hz
        · exact Or.inl (haccepted t ht hhash)
        · exact Or.inr ⟨z, hqueue z hz, hhash⟩

/-- **One turn.** -/
theorem turn (hk : 1 ≤ cfg.replicationFactor) (hdist : net₀.Distinct)
    (hall : ∀ j ≠ A, ∀ i, net₀.Sees j i) (h : Spread net₀ cfg A task address s)
    (hturn : Turn (.alone handling) cfg A task address s s') :
    Spread net₀ cfg A task address s' := by
  have hlegal := Environment.alone_legal (ι := ι) handling
  have hpursuit := h.pursuit.turn hlegal hk hturn
  have hgrows := hturn.grows hlegal h.pursuit.honest
  cases hturn with
  | dropped hq hseen => exact h.drop hq hseen
  | @own addr queue hq hnew hself =>
    have hpos : hashAddress addr = (net₀.nodes A).self.id := by
      rw [hself, ← DHT.self_id, h.pursuit.grows.self]
    refine h.attempt hq hpursuit hgrows rfl (fun _ hx ↦ hx) (fun t ht hhash ↦ ?_)
      fun hA ↦ absurd hpos hA
    obtain rfl : A = t := hdist (hpos.symm.trans hhash)
    rw [Net.setNode_nodes_self]
    exact DHT.stores_storeTask.mpr (Or.inl ⟨rfl, rfl⟩)
  | @stored addr queue hq hnew hself j net' resp hserved hresp hnode =>
    have hgrow : net₀.Grows net' := h.pursuit.grows.trans hserved.grows
    have hpos := hserved.hashAddress_eq h.pursuit.grows
    refine h.attempt hq hpursuit hgrows rfl (fun _ hx ↦ hx) (fun t ht hhash ↦ ?_)
      fun hA hout ↦ ?_
    · obtain rfl : j = t := hdist (hpos.symm.trans hhash)
      rw [hnode]
      exact DHT.stores_storeTask.mpr (Or.inl ⟨rfl, rfl⟩)
    · -- a node that knows everybody accepts only what belongs to it
      have hj : j ≠ A := fun hjA ↦ hA (hjA ▸ hpos)
      have hnot := hserved.honest.not_responsible (hgrow.distinct hdist)
        (fun i ↦ hgrow.sees (hall j hj i)) fun hmem ↦ hout j (hgrow.owners_eq .. ▸ hmem) hpos
      rw [hnot] at hresp
      contradiction
  | @redirected addr queue hq hnew hself j net' resp hserved hresp closest hclosest now =>
    have hgrow : net₀.Grows net' := h.pursuit.grows.trans hserved.grows
    have hpos := hserved.hashAddress_eq h.pursuit.grows
    refine h.attempt hq hpursuit hgrows rfl
      (fun x hx ↦ StoreState.mem_queue_redirect.mpr (Or.inl hx)) (fun t ht hhash ↦ ?_)
      fun hA hout t ht ↦ ?_
    · -- a node to which the task belongs does not refuse
      obtain rfl : j = t := hdist (hpos.symm.trans hhash)
      rw [hgrow.responsible_of_mem_owners hserved.honest hdist ht] at hresp
      contradiction
    · have hj : j ≠ A := fun hjA ↦ hA (hjA ▸ hpos)
      have hout' : j ∉ net₀.owners cfg task := fun hmem ↦ hout j hmem hpos
      rw [← hgrow.owners_eq] at hout' ht
      obtain ⟨z, hz, hhash⟩ := hserved.honest.suggests (hgrow.distinct hdist)
        (fun i ↦ hgrow.sees (hall j hj i)) hout' ht
      refine ⟨z, by rw [hhash, hgrow.self], ?_⟩
      by_cases hseen : z ∈ addr :: s.1.attempted
      · exact Or.inr hseen
      · -- it is nearer than the node that refused, hence than the farthest attempted one
        have hfar := (getFarthestDistance_cons (hashTask task) addr s.1.attempted).2 addr
          List.mem_cons_self
        have hlt := Net.distanceTo_lt_of_notMem_owners ht hout'
        rw [Net.distanceTo, Net.distanceTo, ← hhash, hgrow.self j, ← hpos] at hlt
        exact Or.inl (StoreState.mem_queue_redirect.mpr
          (Or.inr ⟨hclosest ▸ hz, hseen, hlt.trans_le hfar⟩))

end Spread

/-! ## The registration stays where it is -/

/-- The invariant when nobody refuses: only the initial addresses are tried. -/
structure Confined (net₀ : Net ι) (cfg : Config) (A : ι) (task address : String)
    (s : StoreState × Session ι) : Prop where
  pursuit : Pursuit net₀ A task address s
  within : ∀ y, y ∈ s.1.queue ∨ y ∈ s.1.attempted → y ∈ (net₀.nodes A).closestAddrs cfg task
  stores : ∀ j, (s.2.net.nodes j).Stores task address → (net₀.nodes j).Stores task address
    ∨ ∃ y ∈ s.1.attempted, hashAddress y = (net₀.nodes j).self.id

namespace Confined

omit [Fintype ι] in
theorem init (hnet : net₀.Honest) (hk : 1 ≤ cfg.replicationFactor) (env : Environment ι) :
    Confined net₀ cfg A task address
      ((env.host cfg A).storeInit cfg task ⟨net₀, 0⟩, ⟨net₀, 0⟩) where
  pursuit := .init hnet hk env 0
  within _ hy := hy.elim id fun hy ↦ absurd hy List.not_mem_nil
  stores _ hstores := Or.inl hstores

omit [DecidableEq ι] [Fintype ι] in
/-- An address is tried, and only its node may have stored something. -/
theorem attempt {queue : List String} (h : Confined net₀ cfg A task address s)
    (hq : s.1.queue = addr :: queue) (hpursuit : Pursuit net₀ A task address s')
    (hattempted : s'.1.attempted = addr :: s.1.attempted) (hqueue : s'.1.queue = queue)
    (hstores : ∀ j, (s'.2.net.nodes j).Stores task address →
      hashAddress addr = (net₀.nodes j).self.id ∨ (s.2.net.nodes j).Stores task address) :
    Confined net₀ cfg A task address s' := by
  refine ⟨hpursuit, fun y hy ↦ h.within y ?_, fun j hj ↦ ?_⟩
  · rw [hattempted, hqueue, List.mem_cons] at hy
    rw [hq, List.mem_cons]
    tauto
  · rw [hattempted]
    rcases hstores j hj with hpos | hold
    · exact Or.inr ⟨addr, List.mem_cons_self, hpos⟩
    · rcases h.stores j hold with hold | ⟨y, hy, hhash⟩
      · exact Or.inl hold
      · exact Or.inr ⟨y, List.mem_cons_of_mem _ hy, hhash⟩

/-- **One turn**, if all initial addresses except that of the node are of owners. -/
theorem turn (hk : 1 ≤ cfg.replicationFactor) (hdist : net₀.Distinct)
    (howners : ∀ y ∈ (net₀.nodes A).closestAddrs cfg task, y ≠ (net₀.nodes A).self.address →
      ∃ t ∈ net₀.owners cfg task, hashAddress y = (net₀.nodes t).self.id)
    (h : Confined net₀ cfg A task address s)
    (hturn : Turn (.alone handling) cfg A task address s s') :
    Confined net₀ cfg A task address s' := by
  have hpursuit := h.pursuit.turn (Environment.alone_legal handling) hk hturn
  cases hturn with
  | @dropped addr queue hq hseen =>
    refine ⟨hpursuit, fun y hy ↦ h.within y (hy.imp_left fun hy ↦ ?_), h.stores⟩
    exact hq ▸ List.mem_cons_of_mem _ hy
  | @own addr queue hq hnew hself =>
    refine h.attempt hq hpursuit rfl rfl fun j hj ↦ ?_
    by_cases hjA : j = A
    · refine Or.inl ?_
      rw [hself, ← DHT.self_id, h.pursuit.grows.self, hjA]
    · rw [Net.setNode_nodes_of_ne hjA] at hj
      exact Or.inr hj
  | @stored addr queue hq hnew hself j net' resp hserved hresp hnode =>
    refine h.attempt hq hpursuit rfl rfl fun l hl ↦ ?_
    by_cases hlj : l = j
    · exact Or.inl (hlj ▸ hserved.hashAddress_eq h.pursuit.grows)
    · rw [hserved.others l hlj] at hl
      exact Or.inr hl
  | @redirected addr queue hq hnew hself j net' resp hserved hresp closest hclosest now =>
    -- an owner does not refuse
    have hgrow : net₀.Grows net' := h.pursuit.grows.trans hserved.grows
    obtain ⟨t, ht, hhash⟩ := howners addr (h.within addr (Or.inl (hq ▸ List.mem_cons_self)))
      (by rwa [← h.pursuit.grows.self])
    have hpos := hserved.hashAddress_eq h.pursuit.grows
    obtain rfl : j = t := hdist (hpos.symm.trans hhash)
    rw [hgrow.responsible_of_mem_owners hserved.honest hdist ht] at hresp
    contradiction

omit [DecidableEq ι] [Fintype ι] in
theorem mem_closestAddrs (h : Confined net₀ cfg A task address s) {j : ι}
    (hstores : (s.2.net.nodes j).Stores task address)
    (hnew : ¬(net₀.nodes j).Stores task address) :
    ∃ y ∈ (net₀.nodes A).closestAddrs cfg task, hashAddress y = (net₀.nodes j).self.id := by
  obtain ⟨y, hy, hhash⟩ := (h.stores j hstores).resolve_left hnew
  exact ⟨y, h.within y (Or.inr hy), hhash⟩

end Confined

/-! ## When the registration converges -/

omit [DecidableEq ι] in
/-- What `Store` leaves behind once it has ended: all owners hold the registration, or it has gone
only to the initial nodes. -/
theorem Spread.owners_store (h : Spread net₀ cfg A task address s) (hq : s.1.queue = [])
    {t : ι} (ht : t ∈ net₀.owners cfg task)
    (hreached : (∃ y ∈ (net₀.nodes A).closestAddrs cfg task,
        hashAddress y ≠ (net₀.nodes A).self.id
          ∧ ∀ t ∈ net₀.owners cfg task, hashAddress y ≠ (net₀.nodes t).self.id)
      ∨ (∃ y ∈ (net₀.nodes A).closestAddrs cfg task, hashAddress y = (net₀.nodes t).self.id)
      ∨ (net₀.nodes t).Stores task address) :
    (s.2.net.nodes t).Stores task address := by
  have hattempted : ∀ y ∈ (net₀.nodes A).closestAddrs cfg task, y ∈ s.1.attempted := by
    intro y hy
    have hlisted := h.listed y hy
    rw [hq] at hlisted
    exact hlisted.resolve_left List.not_mem_nil
  rcases hreached with ⟨y, hy, hrefused⟩ | ⟨y, hy, hhash⟩ | hheld
  · refine (h.covered ⟨y, hattempted y hy, hrefused⟩ t ht).resolve_right ?_
    rintro ⟨z, hz, -⟩
    rw [hq] at hz
    exact List.not_mem_nil hz
  · exact h.accepted y (hattempted y hy) t ht hhash
  · exact h.pursuit.grows.stores t _ _ hheld

/-- If all that `A` takes for the nearest are owners, and `A` does not stand for two of them, then
they are `k` owners, hence all. -/
theorem Net.Distinct.owners_subset_taken {net : Net ι} (hdist : net.Distinct) {V : Finset ι}
    (hV : cfg.replicationFactor ≤ V.card)
    (hown : ∀ x ∈ net.taken task cfg.replicationFactor A V, x ≠ A → x ∈ net.owners cfg task)
    (hA : A ∈ net.owners cfg task ∧ ¬net.Doubled task cfg.replicationFactor A V
      ∨ A ∉ net.taken task cfg.replicationFactor A V) :
    net.owners cfg task ⊆ net.taken task cfg.replicationFactor A V := by
  have hone : ¬net.Doubled task cfg.replicationFactor A V := by
    rcases hA with ⟨-, hone⟩ | hout
    · exact hone
    · intro htwo
      rw [Net.taken, if_pos htwo] at hout
      exact hout htwo.2
  have hsub : net.taken task cfg.replicationFactor A V ⊆ net.owners cfg task := by
    intro x hx
    by_cases hxA : x = A
    · exact hA.elim (fun h ↦ hxA ▸ h.1) fun hout ↦ absurd (hxA ▸ hx) hout
    · exact hown x hx hxA
  rw [Net.taken, if_neg hone] at hsub ⊢
  exact hdist.owners_subset hV hsub

/-- **When `Store` converges.** Everybody but `A` knows all nodes, and `A` knows the nodes of `V`,
at least `k`. After a call of `Store` at `A` all owners of the task hold the registration exactly if
`A` is an owner and does not stand for two of the `k` nodes it takes for the nearest, or is not
among them, or one of the others is not an owner, or the owners that are not among them held the
registration before. -/
theorem store_converges_iff (cfg : Config) (hk : 1 ≤ cfg.replicationFactor)
    (handling : ℕ → Handling) (net : Net ι) (hnet : net.Honest) (hdist : net.Distinct) (A : ι)
    (V : Finset ι) (hV : cfg.replicationFactor ≤ V.card) (hview : ∀ i, net.Sees A i ↔ i ∈ V)
    (hall : ∀ j ≠ A, ∀ i, net.Sees j i) (task address : String) :
    ∃ turns st w, ((Environment.alone handling).host cfg A).storeTurns cfg task address turns
        ⟨net, 0⟩ = (st, w)
      ∧ st.queue = []
      ∧ ((∀ t ∈ net.owners cfg task, (w.net.nodes t).Stores task address)
        ↔ A ∈ net.owners cfg task ∧ ¬net.Doubled task cfg.replicationFactor A V
          ∨ A ∉ net.taken task cfg.replicationFactor A V
          ∨ (∃ x ∈ net.taken task cfg.replicationFactor A V, x ≠ A ∧ x ∉ net.owners cfg task)
          ∨ ∀ t ∈ net.owners cfg task, t ∉ net.taken task cfg.replicationFactor A V →
            (net.nodes t).Stores task address) := by
  have hlegal := Environment.alone_legal (ι := ι) handling
  obtain ⟨turns, hdone, -⟩ := Pursuit.exists_done hk hlegal hnet A task address
  have hspread : Spread net cfg A task address _ := Pursuit.storeTurns_invariant hlegal
    (fun _ h ↦ h.pursuit) (fun _ _ h ↦ h.turn hk hdist hall) (.init hnet hk _) turns
  refine ⟨turns, _, _, rfl, hdone, ?_⟩
  set T := net.owners cfg task with hT
  set L := net.taken task cfg.replicationFactor A V with hL
  have hchosen : ∀ x ∈ L, ∃ y ∈ (net.nodes A).closestAddrs cfg task,
      hashAddress y = (net.nodes x).self.id :=
    fun x hx ↦ hnet.exists_mem_closestAddrs hdist hview hx
  by_cases hrefuses : ∃ x ∈ L, x ≠ A ∧ x ∉ T
  · refine iff_of_true (fun t ht ↦ hspread.owners_store hdone ht (Or.inl ?_))
      (Or.inr (Or.inr (Or.inl hrefuses)))
    obtain ⟨x, hx, hxA, hxT⟩ := hrefuses
    obtain ⟨y, hy, hhash⟩ := hchosen x hx
    exact ⟨y, hy, fun h ↦ hxA (hdist (hhash.symm.trans h)),
      fun t ht h ↦ hxT (hdist (hhash.symm.trans h) ▸ ht)⟩
  · have hown : ∀ x ∈ L, x ≠ A → x ∈ T := by
      intro x hx hxA
      by_contra hxT
      exact hrefuses ⟨x, hx, hxA, hxT⟩
    have howners : ∀ y ∈ (net.nodes A).closestAddrs cfg task, y ≠ (net.nodes A).self.address →
        ∃ t ∈ T, hashAddress y = (net.nodes t).self.id := by
      intro y hy hself
      obtain ⟨x, hx, hhash, hA⟩ := hnet.of_mem_closestAddrs hdist hview hy
      exact ⟨x, hown x hx fun h ↦ hself (hA h), hhash⟩
    constructor
    · intro hstored
      by_contra hnot
      simp only [not_or, not_forall, not_not] at hnot
      obtain ⟨-, -, -, t, ht, htL, hheld⟩ := hnot
      have hconfined : Confined net cfg A task address _ := Pursuit.storeTurns_invariant hlegal
        (fun _ h ↦ h.pursuit) (fun _ _ h ↦ h.turn hk hdist howners) (.init hnet hk _) turns
      obtain ⟨y, hy, hhash⟩ := hconfined.mem_closestAddrs (hstored t ht) hheld
      obtain ⟨x, hx, hhash', -⟩ := hnet.of_mem_closestAddrs hdist hview hy
      exact htL (hdist (hhash.symm.trans hhash') ▸ hx)
    · intro hcond t ht
      refine hspread.owners_store hdone ht (Or.inr ?_)
      by_cases htL : t ∈ L
      · exact Or.inl (hchosen t htL)
      · rcases hcond with hA | hA | hrefuses' | hheld
        · exact absurd (hdist.owners_subset_taken hV hown (Or.inl hA) ht) htL
        · exact absurd (hdist.owners_subset_taken hV hown (Or.inr hA) ht) htL
        · exact absurd hrefuses' hrefuses
        · exact Or.inr (hheld t ht htL)

/-- Three nodes, of which the second does not know the third. -/
def threeViews : Net (Fin 3) :=
  .hosts 3 fun i ↦ if i = 0 then [1, 2] else if i = 1 then [0] else [0, 1]

/-- The second node takes the first for the nearest one, and is referred to the third. -/
theorem threeViews_store_converges :
    ∃ turns st w, ((Environment.alone fun _ ↦ .still 5).host ⟨1, 60⟩ 1).storeTurns ⟨1, 60⟩
        "scan" "10.1.0.1:80" turns ⟨threeViews, 0⟩ = (st, w)
      ∧ st.queue = []
      ∧ ∀ t ∈ threeViews.owners ⟨1, 60⟩ "scan", (w.net.nodes t).Stores "scan" "10.1.0.1:80" := by
  obtain ⟨turns, st, w, hrun, hq, hiff⟩ := store_converges_iff ⟨1, 60⟩ (le_refl 1)
    (fun _ ↦ .still 5) threeViews (Net.hosts_honest (.inr rfl) _) (Net.hosts_distinct (.inr rfl) _)
    1 {0, 1} (by decide) (by decide +kernel) (by decide +kernel) "scan" "10.1.0.1:80"
  exact ⟨turns, st, w, hrun, hq, hiff.mpr (by decide +kernel)⟩

/-- Two nodes, of which the first does not know the second. -/
def twoViews : Net (Fin 2) := .hosts 2 fun i ↦ if i = 0 then [] else [0]

/-- Two nodes that know each other, and the second also is its own peer. -/
def ownPeer : Net (Fin 2) := .hosts 2 fun i ↦ if i = 0 then [1] else [0, 1]

/-- **Registrations that do not converge.** The first node takes itself for the nearest one and
stores the registration, which belongs to the second. A node that is its own peer takes itself for
both of the two nearest ones. -/
theorem twoViews_store_stranded :
    (twoViews.Honest ∧ twoViews.Distinct ∧ (∀ i, twoViews.Sees 0 i ↔ i ∈ ({0} : Finset (Fin 2)))
        ∧ (∀ j ≠ 0, ∀ i, twoViews.Sees j i)
        ∧ (((Environment.alone fun _ ↦ .still 5).host ⟨1, 60⟩ 0).storeTurns ⟨1, 60⟩
            "web" "10.1.0.1:80" 1 ⟨twoViews, 0⟩).1.queue = []
        ∧ ¬∀ t ∈ twoViews.owners ⟨1, 60⟩ "web",
          ((((Environment.alone fun _ ↦ .still 5).host ⟨1, 60⟩ 0).storeTurns ⟨1, 60⟩
            "web" "10.1.0.1:80" 1 ⟨twoViews, 0⟩).2.net.nodes t).Stores "web" "10.1.0.1:80")
      ∧ ownPeer.Honest ∧ ownPeer.Distinct ∧ (∀ j i, ownPeer.Sees j i)
        ∧ (((Environment.alone fun _ ↦ .still 5).host ⟨2, 60⟩ 1).storeTurns ⟨2, 60⟩
            "web" "10.1.0.1:80" 2 ⟨ownPeer, 0⟩).1.queue = []
        ∧ ¬∀ t ∈ ownPeer.owners ⟨2, 60⟩ "web",
          ((((Environment.alone fun _ ↦ .still 5).host ⟨2, 60⟩ 1).storeTurns ⟨2, 60⟩
            "web" "10.1.0.1:80" 2 ⟨ownPeer, 0⟩).2.net.nodes t).Stores "web" "10.1.0.1:80" :=
  ⟨⟨Net.hosts_honest (.inl rfl) _, Net.hosts_distinct (.inl rfl) _, by decide +kernel,
      by decide +kernel, by decide +kernel, by decide +kernel⟩,
    Net.hosts_honest (.inl rfl) _, Net.hosts_distinct (.inl rfl) _, by decide +kernel,
    by decide +kernel, by decide +kernel⟩

end TaskDiscovery
