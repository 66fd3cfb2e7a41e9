import TaskDiscovery.Dht.Find
import TaskDiscovery.Dht.Redirects
import TaskDiscovery.Dht.Replicas

/-!
# Reading what was written

When all nodes know each other, they agree on the owners of every task. A registration then goes to
the owners and to nobody else, whichever node it is made at: the writer picks them from its ring,
and each of them finds itself responsible by its own ring. A query asks one of the owners or is made
at one. So the owners of a task hold what has been registered for it, and everybody else holds
nothing (`Replicated`), and every query returns just that (`run_replicated`).

The time that passes between two calls and within a call is arbitrary, as long as no registration
expires.
-/

namespace TaskDiscovery

variable {ι : Type}

/-! ## Converged networks -/

/-- All nodes know all nodes, each once, under addresses that reach them. -/
structure Net.Converged (net : Net ι) : Prop where
  honest : net.Honest
  distinct : net.Distinct
  sees : ∀ j i, net.Sees j i
  ring : ∀ j, (net.nodes j).RingInvariant

theorem Net.Converged.of_grows {net net' : Net ι} (h : net.Converged) (hgrows : net.Grows net')
    (hhonest : net'.Honest) (hring : ∀ j, (net'.nodes j).RingInvariant) : net'.Converged :=
  ⟨hhonest, hgrows.distinct h.distinct, fun j i ↦ hgrows.sees (h.sees j i), hring⟩

/-- What the storage of a node is like: no address is listed twice, and every heartbeat is a reading
of the clock. -/
structure DHT.Kept (handling : ℕ → Handling) (dht : DHT) : Prop where
  nodup : ∀ task, ((dht.storage.slice task).map ServiceRegistration.address).Nodup
  heartbeat : ∀ task, ∀ entry ∈ dht.storage.slice task,
    ∃ n, entry.lastHeartbeat = (handling n).now

/-- Nothing expires: expiry is off, or two readings of the clock are never that far apart. -/
def NoExpiry (cfg : Config) (handling : ℕ → Handling) : Prop :=
  cfg.serviceHeartbeatTimeout ≤ 0
    ∨ ∀ m n, (handling m).now - (handling n).now < cfg.serviceHeartbeatTimeout

variable {cfg : Config} {handling : ℕ → Handling} {dht : DHT} {task address : String}

theorem DHT.Kept.storeTask (h : dht.Kept handling) (n : ℕ) (task address : String) :
    (dht.storeTask (handling n).now task address).Kept handling where
  nodup t := by
    rw [DHT.storeTask]
    by_cases ht : t = task
    · subst ht
      rw [AList.slice_insert_self]
      exact List.nodup_map_upsert (by exact fun _ ↦ rfl) (by rfl) (h.nodup t)
    · rw [AList.slice_insert_of_ne _ ht]
      exact h.nodup t
  heartbeat t entry hentry := by
    rw [DHT.storeTask] at hentry
    by_cases ht : t = task
    · subst ht
      rw [AList.slice_insert_self] at hentry
      rcases List.mem_upsert hentry with hold | rfl | ⟨old, -, -, rfl⟩
      · exact h.heartbeat t entry hold
      · exact ⟨n, rfl⟩
      · exact ⟨n, rfl⟩
    · rw [AList.slice_insert_of_ne _ ht] at hentry
      exact h.heartbeat t entry hentry

theorem DHT.Kept.of_storage_eq {dht' : DHT} (h : dht.Kept handling)
    (hstorage : dht'.storage = dht.storage) : dht'.Kept handling := by
  refine ⟨?_, ?_⟩ <;> rw [hstorage]
  · exact h.nodup
  · exact h.heartbeat

theorem DHT.Kept.activeAddresses (h : dht.Kept handling) (hfresh : NoExpiry cfg handling) (n : ℕ)
    (task : String) :
    activeAddresses (dht.storage.slice task) (handling n).now cfg.serviceHeartbeatTimeout
      = (dht.storage.slice task).map ServiceRegistration.address := by
  rw [DHT.activeAddresses, List.filter_eq_self.mpr]
  intro entry hentry
  obtain ⟨m, hm⟩ := h.heartbeat task entry hentry
  rw [hm]
  rcases hfresh with hoff | hclose
  · simp [not_lt.mpr hoff]
  · simp [not_le.mpr (hclose n m)]

/-! ## The state of a converged network -/

variable [Fintype ι]

/-- The owners of each task hold what has been registered for it, and nobody else holds anything. -/
structure Replicated (cfg : Config) (handling : ℕ → Handling) (log : List (String × String))
    (net : Net ι) : Prop where
  converged : net.Converged
  kept : ∀ j, (net.nodes j).Kept handling
  stores : ∀ j task address,
    (net.nodes j).Stores task address ↔ j ∈ net.owners cfg task ∧ (task, address) ∈ log

namespace Net.Converged

variable {net : Net ι} {i j t : ι}

/-- The nodes agree on the owners. -/
theorem amIInKClosest_iff (h : net.Converged) :
    (net.nodes j).amIInKClosest task cfg.replicationFactor = true ↔ j ∈ net.owners cfg task := by
  refine ⟨fun hresp ↦ ?_, h.honest.responsible_of_mem_owners h.distinct⟩
  by_contra hj
  rw [h.honest.not_responsible h.distinct (h.sees j) hj] at hresp
  contradiction

theorem of_mem_closestAddrs (h : net.Converged) {addr : String}
    (haddr : addr ∈ (net.nodes i).closestAddrs cfg task) :
    ∃ t ∈ net.owners cfg task, hashAddress addr = (net.nodes t).self.id
      ∧ (t = i → addr = (net.nodes i).self.address) := by
  classical
  rw [Net.owners, ← taken_eq_replicas (h.ring i)]
  exact h.honest.of_mem_closestAddrs h.distinct
    (fun i' ↦ iff_of_true (h.sees i i') (Finset.mem_univ i')) haddr

theorem exists_mem_closestAddrs (h : net.Converged) (i : ι) (ht : t ∈ net.owners cfg task) :
    ∃ addr ∈ (net.nodes i).closestAddrs cfg task, hashAddress addr = (net.nodes t).self.id := by
  classical
  rw [Net.owners, ← taken_eq_replicas (h.ring i)] at ht
  exact h.honest.exists_mem_closestAddrs h.distinct
    (fun i' ↦ iff_of_true (h.sees i i') (Finset.mem_univ i')) ht

omit [Fintype ι] in
theorem foreign (h : net.Converged) (hij : i ≠ j) :
    (net.nodes j).Foreign (net.nodes i).self.address := by
  intro _ _ heq
  exact hij (h.distinct ((net.nodes i).self_id.trans heq))

omit [Fintype ι] in
theorem greet [DecidableEq ι] (h : net.Converged) (hij : i ≠ j) (now : Time) :
    net.Grows (net.setNode j ((net.nodes j).greet now (net.nodes i).self.address))
      ∧ (net.setNode j ((net.nodes j).greet now (net.nodes i).self.address)).Converged
      ∧ ∀ l, ((net.setNode j ((net.nodes j).greet now (net.nodes i).self.address)).nodes l).storage
        = (net.nodes l).storage := by
  set greeted := (net.nodes j).greet now (net.nodes i).self.address with hgreeted
  have hstorage : greeted.storage = (net.nodes j).storage := DHT.greet_storage
  have hgrows : net.Grows (net.setNode j greeted) := by
    refine .setNode DHT.greet_self (fun a ha ↦ ha.greet now _) fun _ _ hs ↦ ?_
    rwa [DHT.Stores, hstorage]
  have hhonest : (net.setNode j greeted).Honest := by
    refine h.honest.setNode DHT.greet_self fun a ha ↦ ?_
    rcases DHT.knows_greet ha with ha | rfl
    · exact ⟨j, ha⟩
    · exact ⟨i, Or.inl rfl⟩
  refine ⟨hgrows, h.of_grows hgrows hhonest fun l ↦ ?_, fun l ↦ ?_⟩ <;> by_cases hl : l = j
  · rw [hl, Net.setNode_nodes_self]
    exact (DHT.ringInvariant_greet (h.ring j)).mpr (h.foreign hij)
  · rw [Net.setNode_nodes_of_ne hl]
    exact h.ring l
  · rw [hl, Net.setNode_nodes_self, hstorage]
  · rw [Net.setNode_nodes_of_ne hl]

/-- An owner is responsible for its task, also after another node has got in touch. -/
theorem amIInKClosest_greet [DecidableEq ι] (h : net.Converged) (hij : i ≠ j)
    (hj : j ∈ net.owners cfg task) (now : Time) :
    ((net.nodes j).greet now (net.nodes i).self.address).amIInKClosest task cfg.replicationFactor
      = true := by
  obtain ⟨hgrows, hconverged, -⟩ := h.greet hij now
  rw [← hgrows.owners_eq cfg task] at hj
  have howner := hconverged.amIInKClosest_iff.mpr hj
  rwa [Net.setNode_nodes_self] at howner

end Net.Converged

/-! ## Writing -/

variable [DecidableEq ι] {net₀ : Net ι} {i : ι} {addr : String} {s s' : StoreState × Session ι}

/-- The invariant of the loop of `Store` at node `i` of a converged network. -/
structure Writing (cfg : Config) (handling : ℕ → Handling) (net₀ : Net ι) (i : ι)
    (task address : String) (s : StoreState × Session ι) : Prop where
  converged : s.2.net.Converged
  grows : net₀.Grows s.2.net
  kept : ∀ j, (s.2.net.nodes j).Kept handling
  /-- Nothing is tried but the initial addresses. -/
  lists : ∀ y, y ∈ s.1.queue ∨ y ∈ s.1.attempted ↔ y ∈ (net₀.nodes i).closestAddrs cfg task
  /-- The registration is where the attempted addresses are, and nothing else has changed. -/
  stores : ∀ j t a, (s.2.net.nodes j).Stores t a ↔ (net₀.nodes j).Stores t a
    ∨ t = task ∧ a = address ∧ ∃ y ∈ s.1.attempted, hashAddress y = (net₀.nodes j).self.id
  success : s.1.attempted ≠ [] → 0 < s.1.successCount

namespace Writing

omit [Fintype ι] [DecidableEq ι] in
theorem attempt {queue : List String} (h : Writing cfg handling net₀ i task address s)
    (hq : s.1.queue = addr :: queue) {j : ι} {base : DHT} {net' : Net ι} (m n : ℕ)
    (hgrows : s.2.net.Grows net') (hhonest : net'.Honest)
    (hothers : ∀ l, l ≠ j → net'.nodes l = s.2.net.nodes l)
    (hnode : net'.nodes j = base.storeTask (handling m).now task address)
    (hstorage : base.storage = (s.2.net.nodes j).storage) (hring : base.RingInvariant)
    (hpos : hashAddress addr = (net₀.nodes j).self.id) :
    Writing cfg handling net₀ i task address
      ({ s.1 with queue := queue, attempted := addr :: s.1.attempted,
                  successCount := s.1.successCount + 1 }, ⟨net', n⟩) := by
  have hkept : base.Kept handling := (h.kept j).of_storage_eq hstorage
  refine ⟨h.converged.of_grows hgrows hhonest fun l ↦ ?_, h.grows.trans hgrows, fun l ↦ ?_,
    fun y ↦ ?_, fun l t a ↦ ?_, fun _ ↦ Nat.succ_pos _⟩
  · by_cases hl : l = j
    · rw [hl, hnode]
      exact hring.storeTask _ _ _
    · rw [hothers l hl]
      exact h.converged.ring l
  · by_cases hl : l = j
    · subst hl
      exact hnode ▸ hkept.storeTask m task address
    · exact (hothers l hl).symm ▸ h.kept l
  · rw [← h.lists, hq, List.mem_cons, List.mem_cons]
    tauto
  · by_cases hl : l = j
    · subst hl
      change (net'.nodes l).Stores t a ↔ _
      rw [hnode, DHT.stores_storeTask, DHT.Stores, hstorage, ← DHT.Stores, h.stores]
      simp only [List.mem_cons, exists_eq_or_imp, hpos]
      tauto
    · have hne : hashAddress addr ≠ (net₀.nodes l).self.id := by
        intro heq
        refine hl (h.converged.distinct ?_)
        dsimp only
        rw [h.grows.self, h.grows.self, ← heq, hpos]
      change (net'.nodes l).Stores t a ↔ _
      rw [hothers l hl, h.stores]
      simp only [List.mem_cons, exists_eq_or_imp, hne, false_or]

/-- **One turn.** Nobody refuses, so the queue gets shorter. -/
theorem turn (hnet : net₀.Converged) (h : Writing cfg handling net₀ i task address s)
    (hturn : Turn (.alone handling) cfg i task address s s') :
    Writing cfg handling net₀ i task address s' ∧ s'.1.queue.length + 1 = s.1.queue.length := by
  have hgrows := hturn.grows (Environment.alone_legal handling) h.converged.honest
  have hchosen : ∀ {addr queue}, s.1.queue = addr :: queue →
      ∃ t ∈ net₀.owners cfg task, hashAddress addr = (net₀.nodes t).self.id
        ∧ (t = i → addr = (net₀.nodes i).self.address) :=
    fun hq ↦ hnet.of_mem_closestAddrs ((h.lists _).mp (Or.inl (hq ▸ List.mem_cons_self)))
  cases hturn with
  | @dropped addr queue hq hseen =>
    refine ⟨⟨h.converged, h.grows, h.kept, fun y ↦ ?_, h.stores, h.success⟩, by rw [hq]; rfl⟩
    rw [← h.lists, hq, List.mem_cons]
    constructor
    · tauto
    · rintro ((rfl | hy) | hy)
      · exact Or.inr hseen
      · exact Or.inl hy
      · exact Or.inr hy
  | @own addr queue hq hnew hself =>
    refine ⟨h.attempt hq s.2.requests s.2.requests hgrows
      (h.converged.honest.setNode rfl fun a ha ↦ ⟨i, ha⟩) (fun l hl ↦ Net.setNode_nodes_of_ne hl)
      Net.setNode_nodes_self rfl (h.converged.ring i) ?_, by rw [hq]; rfl⟩
    rw [hself, ← DHT.self_id, h.grows.self]
  | @stored addr queue hq hnew hself j net' resp hserved hresp hnode =>
    have hpos := hserved.hashAddress_eq h.grows
    have hij : i ≠ j := by
      rintro rfl
      obtain ⟨t, -, hhash, hself'⟩ := hchosen hq
      refine hself ?_
      rw [h.grows.self]
      exact hself' (hnet.distinct (hhash.symm.trans hpos))
    exact ⟨h.attempt hq s.2.requests (s.2.requests + 1) hgrows hserved.honest hserved.others hnode
      DHT.greet_storage ((DHT.ringInvariant_greet (h.converged.ring j)).mpr
        (h.converged.foreign hij)) hpos, by rw [hq]; rfl⟩
  | @redirected addr queue hq hnew hself j net' resp hserved hresp closest hclosest now =>
    -- an owner does not refuse
    have hgrow : net₀.Grows net' := h.grows.trans hserved.grows
    obtain ⟨t, ht, hhash, -⟩ := hchosen hq
    obtain rfl : j = t := hnet.distinct ((hserved.hashAddress_eq h.grows).symm.trans hhash)
    rw [hgrow.responsible_of_mem_owners hserved.honest hnet.distinct ht] at hresp
    contradiction

/-- **Some turns.** -/
theorem turns (hnet : net₀.Converged) (h : Writing cfg handling net₀ i task address s) (n : ℕ) :
    Writing cfg handling net₀ i task address
        ((((Environment.alone handling).host cfg i).storeStep task address)^[n] s)
      ∧ ((((Environment.alone handling).host cfg i).storeStep task address)^[n] s).1.queue.length
        = s.1.queue.length - n := by
  induction n generalizing s with
  | zero => exact ⟨h, rfl⟩
  | succ n ih =>
    rw [Function.iterate_succ_apply]
    by_cases hq : s.1.queue = []
    · rw [Host.storeStep_of_nil hq]
      obtain ⟨h', hlen⟩ := ih h
      exact ⟨h', by rw [hlen, hq]; simp⟩
    · have hknown : ∀ x ∈ s.1.queue, ∃ l, (s.2.net.nodes l).Knows x := by
        intro x hx
        obtain ⟨node, hnode, rfl⟩ := DHT.mem_closestAddrs.mp ((h.lists x).mp (Or.inl hx))
        exact ⟨i, h.grows.knows i _ (DHT.knows_of_mem_findKClosestNodes hnode)⟩
      obtain ⟨h', hshorter⟩ := h.turn hnet (h.converged.honest.turn
        (Environment.alone_legal handling) cfg i task address hknown hq)
      obtain ⟨h'', hlen⟩ := ih h'
      exact ⟨h'', by omega⟩

end Writing

/-- **`Store` in a converged network** succeeds, with one turn for each owner, and the registration
is replicated. -/
theorem Replicated.store {log : List (String × String)} {net : Net ι}
    (h : Replicated cfg handling log net) (hk : 1 ≤ cfg.replicationFactor) {fuel : ℕ}
    (hfuel : cfg.replicationFactor ≤ fuel) (i : ι) (task address : String) (n : ℕ) :
    ∃ w, ((Environment.alone handling).host cfg i).store cfg task address fuel ⟨net, n⟩
        = some (.ok (), w)
      ∧ Replicated cfg handling (log ++ [(task, address)]) w.net := by
  have hinit : Writing cfg handling net i task address
      (((Environment.alone handling).host cfg i).storeInit cfg task ⟨net, n⟩, ⟨net, n⟩) :=
    ⟨h.converged, .refl net, h.kept, fun y ↦ by simp [Host.storeInit, Environment.host],
      fun j t a ↦ by simp [Host.storeInit], fun hne ↦ absurd rfl hne⟩
  obtain ⟨hw, hlen⟩ := hinit.turns h.converged fuel
  set s := (((Environment.alone handling).host cfg i).storeStep task address)^[fuel]
    (((Environment.alone handling).host cfg i).storeInit cfg task ⟨net, n⟩, ⟨net, n⟩) with hs
  have hlength : ((net.nodes i).closestAddrs cfg task).length
      = min cfg.replicationFactor (net.nodes i).ring.length := DHT.length_closestAddrs ..
  have hq : s.1.queue = [] := by
    refine List.eq_nil_of_length_eq_zero (hlen.trans (Nat.sub_eq_zero_of_le ?_))
    exact (hlength.trans_le (min_le_left ..)).trans hfuel
  have hattempted : ∀ y, y ∈ s.1.attempted ↔ y ∈ (net.nodes i).closestAddrs cfg task := by
    intro y
    rw [← hw.lists, hq]
    simp
  have hsuccess : 0 < s.1.successCount := by
    have hpos : 0 < ((net.nodes i).closestAddrs cfg task).length := by
      rw [hlength]
      exact lt_min hk (List.length_pos_of_ne_nil (DHT.ring_ne_nil _))
    obtain ⟨y, hy⟩ := List.exists_mem_of_length_pos hpos
    exact hw.success (List.ne_nil_of_mem ((hattempted y).mpr hy))
  refine ⟨s.2, ?_, hw.converged, hw.kept, fun j t a ↦ ?_⟩
  · rw [Host.store, Host.storeTurns, ← hs]
    simp only [if_pos hq, StoreState.result, if_neg hsuccess.ne']
  · have howner : (∃ y ∈ s.1.attempted, hashAddress y = (net.nodes j).self.id)
        ↔ j ∈ net.owners cfg task := by
      simp only [hattempted]
      constructor
      · rintro ⟨y, hy, hhash⟩
        obtain ⟨t, ht, hhash', -⟩ := h.converged.of_mem_closestAddrs hy
        exact h.converged.distinct (hhash'.symm.trans hhash) ▸ ht
      · exact h.converged.exists_mem_closestAddrs i
    rw [hw.stores, h.stores, howner, hw.grows.owners_eq, List.mem_append, List.mem_singleton,
      Prod.mk.injEq]
    constructor
    · rintro (⟨hj, hlog⟩ | ⟨rfl, rfl, hj⟩)
      · exact ⟨hj, Or.inl hlog⟩
      · exact ⟨hj, Or.inr ⟨rfl, rfl⟩⟩
    · rintro ⟨hj, hlog | ⟨rfl, rfl⟩⟩
      · exact Or.inl ⟨hj, hlog⟩
      · exact Or.inr ⟨rfl, rfl, hj⟩

/-! ## Reading -/

namespace Replicated

variable {log : List (String × String)} {net : Net ι} {t : ι}

abbrev held (net : Net ι) (task : String) (t : ι) : List String :=
  ((net.nodes t).storage.slice task).map ServiceRegistration.address

omit [DecidableEq ι] in
theorem mem_held (h : Replicated cfg handling log net) (ht : t ∈ net.owners cfg task) {a : String} :
    a ∈ held net task t ↔ (task, a) ∈ log :=
  (h.stores t task a).trans (and_iff_right ht)

theorem greet (h : Replicated cfg handling log net) {j : ι} (hij : i ≠ j) (now : Time) :
    net.Grows (net.setNode j ((net.nodes j).greet now (net.nodes i).self.address))
      ∧ Replicated cfg handling log
        (net.setNode j ((net.nodes j).greet now (net.nodes i).self.address)) := by
  obtain ⟨hgrows, hconverged, hstorage⟩ := h.converged.greet hij now
  refine ⟨hgrows, hconverged, fun l ↦ (h.kept l).of_storage_eq (hstorage l), fun l t a ↦ ?_⟩
  rw [hgrows.owners_eq, ← h.stores, DHT.Stores, hstorage, DHT.Stores]

/-- **One `FIND` request** to an owner is answered with what it holds. -/
theorem deliver_find (h : Replicated cfg handling log net) (hfresh : NoExpiry cfg handling)
    (ht : t ∈ net.owners cfg task) (hit : i ≠ t) (hknown : (net.nodes i).Knows addr)
    (hhash : hashAddress addr = (net.nodes t).self.id) (n : ℕ) :
    ∃ net' resp, net.deliver cfg (handling n) addr (findMessage (net.nodes i).self.address task)
        = (net', .ok resp)
      ∧ net.Grows net' ∧ Replicated cfg handling log net'
      ∧ if held net task t ≠ [] then
          resp.type = .foundData
            ∧ resp.payload.decode = some { task := some task, addresses := some (held net task t) }
        else resp.type = .notFound := by
  obtain ⟨j, hres, hpos⟩ := h.converged.honest i addr hknown
  obtain rfl : j = t := h.converged.distinct (hpos.trans hhash)
  obtain ⟨hgrows, hreplicated⟩ := h.greet hit (handling n).now
  have hresp := h.converged.amIInKClosest_greet hit ht (handling n).now
  rw [Net.deliver, hres]
  simp only [DHT.handleMessage_find, hresp, true_and, (h.kept j).activeAddresses hfresh n task]
  refine ⟨_, _, rfl, hgrows, hreplicated, ?_⟩
  split_ifs with hheld
  · exact ⟨rfl, rfl⟩
  · rfl

/-- What a query for a task may return. -/
structure Found (log : List (String × String)) (task : String) (addrs : List String) : Prop where
  nodup : addrs.Nodup
  mem_iff : ∀ a, a ∈ addrs ↔ (task, a) ∈ log

omit [DecidableEq ι] in
theorem found_held (h : Replicated cfg handling log net) (ht : t ∈ net.owners cfg task) :
    Found log task (held net task t) :=
  ⟨(h.kept t).nodup task, fun _ ↦ h.mem_held ht⟩

/-- **The loop of `Find`.** The first owner that is asked settles the query, unless nothing has been
registered. -/
theorem findFrom (h : Replicated cfg handling log net) (hfresh : NoExpiry cfg handling) (n : ℕ)
    {nodes : List Node} (hnodes : ∀ node ∈ nodes, (net.nodes i).Knows node.address
      ∧ ∃ t ∈ net.owners cfg task, hashAddress node.address = (net.nodes t).self.id
        ∧ node.id = (net.nodes t).self.id)
    (hasked : (∃ node ∈ nodes, node.id ≠ (net.nodes i).self.id) ∨ Found log task []) :
    ∃ w addrs, ((Environment.alone handling).host cfg i).findFrom task nodes ⟨net, n⟩ = (w, addrs)
      ∧ Replicated cfg handling log w.net ∧ Found log task addrs := by
  induction nodes generalizing net n with
  | nil =>
    refine ⟨_, _, rfl, h, ?_⟩
    rcases hasked with ⟨node, hnode, -⟩ | hnone
    · exact absurd hnode List.not_mem_nil
    · exact hnone
  | cons node nodes ih =>
    have hrest := fun node' hnode' ↦ hnodes node' (List.mem_cons_of_mem node hnode')
    by_cases hself : node.id = (net.nodes i).self.id
    · rw [Host.findFrom_of_self hself]
      refine ih h n hrest ?_
      rcases hasked with ⟨node', hnode', hne⟩ | hnone
      · rcases List.mem_cons.mp hnode' with rfl | hnode'
        · exact absurd hself hne
        · exact Or.inl ⟨node', hnode', hne⟩
      · exact Or.inr hnone
    · obtain ⟨hknown, t, ht, hhash, hid⟩ := hnodes node List.mem_cons_self
      have hit : i ≠ t := by
        rintro rfl
        exact hself hid
      obtain ⟨net', resp, hdeliver, hgrows, hnet', hresp⟩ :=
        h.deliver_find hfresh ht hit hknown hhash n
      have hsend : ((Environment.alone handling).host cfg i).send node.address
          (findMessage (net.nodes i).self.address task) ⟨net, n⟩ = (⟨net', n + 1⟩, .ok resp) :=
        Environment.send_alone hdeliver i
      have hfound := h.found_held ht
      split_ifs at hresp with hheld
      · exact ⟨_, _, Host.findFrom_of_found hself hsend hresp.1 hresp.2 rfl hheld, hnet', hfound⟩
      · have hnone : Found log task [] := not_not.mp hheld ▸ hfound
        rw [Host.findFrom_of_notFound hself hsend (by rw [hresp]; decide)]
        refine ih hnet' (n + 1) (fun node' hnode' ↦ ?_) (Or.inr hnone)
        obtain ⟨hknown', t', ht', hhash', hid'⟩ := hrest node' hnode'
        refine ⟨hgrows.knows i _ hknown', t', (hgrows.owners_eq cfg task).symm ▸ ht', ?_, ?_⟩
        · rw [hgrows.self, hhash']
        · rw [hgrows.self, hid']

/-- **`Find` in a converged network** returns what has been registered. -/
theorem find (h : Replicated cfg handling log net) (hfresh : NoExpiry cfg handling)
    (hk : 1 ≤ cfg.replicationFactor) (query : String → String → List String) (i : ι)
    (task : String) (n : ℕ) :
    ∃ w addrs, ((Environment.alone handling).host cfg i).find cfg query task ⟨net, n⟩ = (w, addrs)
      ∧ Replicated cfg handling log w.net ∧ Found log task addrs := by
  have hnodes : ∀ node ∈ (net.nodes i).findKClosestNodes task cfg.replicationFactor,
      (net.nodes i).Knows node.address
        ∧ ∃ t ∈ net.owners cfg task, hashAddress node.address = (net.nodes t).self.id
          ∧ node.id = (net.nodes t).self.id := by
    intro node hnode
    obtain ⟨t, ht, hhash, -⟩ := h.converged.of_mem_closestAddrs
      (DHT.mem_closestAddrs.mpr ⟨node, hnode, rfl⟩)
    exact ⟨DHT.knows_of_mem_findKClosestNodes hnode, t, ht, hhash,
      (DHT.hashAddress_of_mem_findKClosestNodes hnode).1.symm.trans hhash⟩
  by_cases hi : i ∈ net.owners cfg task
  · -- the node is an owner itself
    have hresp := h.converged.amIInKClosest_iff.mpr hi
    have hfound := h.found_held hi
    rw [Host.find_eq ((if_pos hresp).trans ((DHT.lookupTask_of_responsible _ _ hresp).trans
      ((h.kept i).activeAddresses hfresh n task)))]
    by_cases hheld : held net task i = []
    · rw [if_neg (not_not.mpr hheld)]
      exact h.findFrom hfresh n hnodes (Or.inr (hheld ▸ hfound))
    · rw [if_pos hheld]
      exact ⟨_, _, rfl, h, hfound⟩
  · -- then all owners are other nodes
    have hresp : ¬(net.nodes i).amIInKClosest task cfg.replicationFactor = true :=
      fun hresp ↦ hi (h.converged.amIInKClosest_iff.mp hresp)
    rw [Host.find_eq (if_neg hresp), if_neg (not_not.mpr rfl)]
    refine h.findFrom hfresh n hnodes (Or.inl ?_)
    have hpos : 0 < ((net.nodes i).closestAddrs cfg task).length := by
      rw [DHT.length_closestAddrs]
      exact lt_min hk (List.length_pos_of_ne_nil (DHT.ring_ne_nil _))
    obtain ⟨y, hy⟩ := List.exists_mem_of_length_pos hpos
    obtain ⟨node, hnode, -⟩ := DHT.mem_closestAddrs.mp hy
    obtain ⟨-, t, ht, -, hid⟩ := hnodes node hnode
    refine ⟨node, hnode, fun hself ↦ hi ?_⟩
    rwa [h.converged.distinct (hself.symm.trans hid)]

end Replicated

/-! ## Runs -/

namespace RegistryCall

def registrations : RegistryCall ι → List (String × String)
  | .register _ task address => [(task, address)]
  | .queryAll .. => []

/-- What a call is to return when `log` has been registered. -/
def Answered (log : List (String × String)) : RegistryCall ι → RegistryReply → Prop
  | .register .., .registered (.ok ()) => True
  | .queryAll _ task, .found (.ok addrs) => Replicated.Found log task addrs
  | _, _ => False

/-- What the calls of a sequence are to return, after `log` has been registered. -/
def AllAnswered : List (String × String) → List (RegistryCall ι) → List RegistryReply → Prop
  | _, [], [] => True
  | log, call :: calls, reply :: replies =>
    call.Answered log reply ∧ AllAnswered (log ++ call.registrations) calls replies
  | _, _, _ => False

end RegistryCall

namespace Replicated

variable {log : List (String × String)} {fuel : ℕ}

/-- **One call.** -/
theorem perform {d : Deployment ι} (h : Replicated cfg handling log d.session.net)
    (hfresh : NoExpiry cfg handling) (hk : 1 ≤ cfg.replicationFactor)
    (hfuel : cfg.replicationFactor ≤ fuel) (call : RegistryCall ι) :
    ∃ d' reply, d.perform cfg (.alone handling) fuel call = some (d', reply)
      ∧ call.Answered log reply
      ∧ Replicated cfg handling (log ++ call.registrations) d'.session.net := by
  cases call with
  | register i task address =>
    obtain ⟨w, hstore, hw⟩ := h.store hk hfuel i task address (d.session.requests + 1)
    obtain ⟨d', hperform, rfl⟩ := Deployment.perform_register hstore
    exact ⟨d', _, hperform, trivial, hw⟩
  | queryAll i task =>
    obtain ⟨w, addrs, hfind, hw, hfound⟩ := h.find hfresh hk
      (handling (d.session.requests + 1)).query i task (d.session.requests + 1)
    obtain ⟨d', hperform, rfl⟩ := Deployment.perform_queryAll hfind
    refine ⟨d', _, hperform, hfound, ?_⟩
    rwa [RegistryCall.registrations, List.append_nil]

/-- **A sequence of calls.** -/
theorem run {d : Deployment ι} (h : Replicated cfg handling log d.session.net)
    (hfresh : NoExpiry cfg handling) (hk : 1 ≤ cfg.replicationFactor)
    (hfuel : cfg.replicationFactor ≤ fuel) (calls : List (RegistryCall ι)) :
    ∃ d' replies, d.run cfg (.alone handling) fuel calls = some (d', replies)
      ∧ RegistryCall.AllAnswered log calls replies
      ∧ Replicated cfg handling (log ++ calls.flatMap RegistryCall.registrations)
        d'.session.net := by
  induction calls generalizing d log with
  | nil => exact ⟨d, [], rfl, trivial, by rwa [List.flatMap_nil, List.append_nil]⟩
  | cons call calls ih =>
    obtain ⟨d₁, reply, hperform, hreply, h₁⟩ := h.perform hfresh hk hfuel call
    obtain ⟨d₂, replies, hrun, hreplies, h₂⟩ := ih h₁
    refine ⟨d₂, reply :: replies, ?_, ⟨hreply, hreplies⟩, ?_⟩
    · simp only [Deployment.run, hperform, hrun]
    · rwa [List.flatMap_cons, ← List.append_assoc]

omit [DecidableEq ι] in
/-- A registration is at `k` nodes, or at all. -/
theorem card_stores {net : Net ι} (h : Replicated cfg handling log net) {task address : String}
    (hlog : (task, address) ∈ log) :
    (Finset.univ.filter fun j ↦ (net.nodes j).Stores task address).card
      = min cfg.replicationFactor (Fintype.card ι) := by
  have howners : (Finset.univ.filter fun j ↦ (net.nodes j).Stores task address)
      = net.owners cfg task := by
    ext j
    rw [Finset.mem_filter, h.stores]
    simp only [Finset.mem_univ, true_and, hlog, and_true]
  rw [howners, Net.owners, Net.replicas,
    Finset.card_nearest (h.converged.distinct.distanceTo_injective task), Finset.card_univ]

omit [DecidableEq ι] in
theorem of_empty (handling : ℕ → Handling) {net : Net ι} (hnet : net.Converged)
    (hempty : ∀ j, (net.nodes j).storage = ∅) : Replicated cfg handling [] net := by
  have hslice : ∀ j task, (net.nodes j).storage.slice task = [] := by
    intro j task
    rw [hempty j]
    rfl
  refine ⟨hnet, fun j ↦ ⟨fun t ↦ ?_, fun t entry hentry ↦ ?_⟩, fun j t a ↦ ?_⟩
  · rw [hslice]
    exact List.nodup_nil
  · rw [hslice] at hentry
    exact absurd hentry List.not_mem_nil
  · rw [DHT.Stores, hslice]
    simp

end Replicated

/-- **Reading what was written.** In a converged network that starts out empty, whatever is
registered and queried at whichever nodes, every registration succeeds, every query returns the
addresses that have been registered for its task, each once, and every registration is at
`ReplicationFactor` nodes, or at all if there are fewer. -/
theorem run_replicated (cfg : Config) (hk : 1 ≤ cfg.replicationFactor) (handling : ℕ → Handling)
    (hfresh : NoExpiry cfg handling) (d : Deployment ι) (hnet : d.session.net.Converged)
    (hempty : ∀ j, (d.session.net.nodes j).storage = ∅) (fuel : ℕ)
    (hfuel : cfg.replicationFactor ≤ fuel) (calls : List (RegistryCall ι)) :
    ∃ d' replies, d.run cfg (.alone handling) fuel calls = some (d', replies)
      ∧ RegistryCall.AllAnswered [] calls replies
      ∧ ∀ r ∈ calls.flatMap RegistryCall.registrations,
        (Finset.univ.filter fun j ↦ (d'.session.net.nodes j).Stores r.1 r.2).card
          = min cfg.replicationFactor (Fintype.card ι) := by
  have hstart : Replicated cfg handling [] d.session.net := .of_empty handling hnet hempty
  obtain ⟨d', replies, hrun, hreplies, hd'⟩ := hstart.run hfresh hk hfuel calls
  exact ⟨d', replies, hrun, hreplies, fun r hr ↦ hd'.card_stores hr⟩

/-- Three nodes that know each other. -/
def fullViews : Net (Fin 3) := .hosts 3 fun i ↦ (List.finRange 3).filter (· ≠ i)

theorem fullViews_converged : fullViews.Converged :=
  ⟨Net.hosts_honest (.inr rfl) _, Net.hosts_distinct (.inr rfl) _, by decide +kernel,
    by decide +kernel⟩

/-- Two services of a task are registered at different nodes, and the third node is asked. -/
theorem fullViews_replicated :
    ∃ d' replies, (⟨⟨fullViews, 0⟩, fun _ ↦ ⟨0, 0, 0⟩⟩ : Deployment (Fin 3)).run ⟨2, 60⟩
        (.alone fun _ ↦ .still 5) 2 [.register 0 "scan" "10.1.0.1:80", .queryAll 2 "scan",
          .register 1 "scan" "10.1.0.2:80", .queryAll 2 "scan"] = some (d', replies)
      ∧ RegistryCall.AllAnswered [] [.register (0 : Fin 3) "scan" "10.1.0.1:80",
        .queryAll 2 "scan", .register 1 "scan" "10.1.0.2:80", .queryAll 2 "scan"] replies
      ∧ (Finset.univ.filter fun j ↦ (d'.session.net.nodes j).Stores "scan" "10.1.0.2:80").card
        = 2 := by
  obtain ⟨d', replies, hrun, hreplies, hcard⟩ := run_replicated ⟨2, 60⟩ (by decide)
    (fun _ ↦ .still 5) (Or.inr fun _ _ ↦ (by decide : (5 : Time) - 5 < 60))
    ⟨⟨fullViews, 0⟩, fun _ ↦ ⟨0, 0, 0⟩⟩ fullViews_converged Net.ofViews_storage 2 (le_refl 2)
    [.register 0 "scan" "10.1.0.1:80", .queryAll 2 "scan", .register 1 "scan" "10.1.0.2:80",
      .queryAll 2 "scan"]
  exact ⟨d', replies, hrun, hreplies, hcard ("scan", "10.1.0.2:80") (by decide)⟩

end TaskDiscovery
