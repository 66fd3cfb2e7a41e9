import Mathlib.Data.Fintype.Option
import Mathlib.Data.Finset.Max
import Mathlib.Data.Fintype.Prod
import TaskDiscovery.Dht.Network
import TaskDiscovery.Lib.Run

/-!
# Storing under partial views

Nodes answer a `STORE` by their own view, and views differ. A node that feels responsible stores the
registration; one that does not names nodes that are strictly nearer to the task. So among the
addresses the loop of `Store` has tried, the nearest one cannot have redirected it: the address it
would have been redirected to is nearer, and the loop tries it before it ends. That is
`Pursuit.progress`, the invariant behind `store_reaches_nearest`.

The loop ends because every address it tries stands in some view. Each node files at most one
address under each position, and in an honest network only the positions of live nodes occur.
-/

namespace TaskDiscovery

variable {ι : Type} [DecidableEq ι]

/-! ## The answer of an honest node -/

/-- A `STORE` request to `addr` has been served by node `j`: nothing is forgotten, the network stays
honest, and only `j` has changed. It has filed the sender and then decided by its own view. -/
structure Served (cfg : Config) (now : Time) (sender task address addr : String) (j : ι)
    (net net' : Net ι) (resp : Message) : Prop where
  resolve : net.resolve addr = some j
  position : (net.nodes j).self.id = hashAddress addr
  grows : net.Grows net'
  honest : net'.Honest
  others : ∀ l, l ≠ j → net'.nodes l = net.nodes l
  answer :
    (net'.nodes j).amIInKClosest task cfg.replicationFactor = true ∧ resp.type = .ok
        ∧ net'.nodes j = ((net.nodes j).greet now sender).storeTask now task address
      ∨ (net'.nodes j).amIInKClosest task cfg.replicationFactor = false
        ∧ resp.type = .notResponsible
        ∧ resp.payload.decode = some { closest := some ((net'.nodes j).closestAddrs cfg task) }

omit [DecidableEq ι] in
theorem Served.hashAddress_eq {cfg : Config} {now : Time} {sender task address addr : String}
    {j : ι} {net₀ net net' : Net ι} {resp : Message}
    (h : Served cfg now sender task address addr j net net' resp) (hgrows : net₀.Grows net) :
    hashAddress addr = (net₀.nodes j).self.id := by
  rw [← h.position, hgrows.self]

namespace Net

variable {net : Net ι} {cfg : Config} {addr : String}

/-- **One request.** In an honest network a `STORE` request to a known address is served. -/
theorem Honest.deliver_store (hnet : net.Honest) (hknown : ∃ l, (net.nodes l).Knows addr)
    (cfg : Config) (h : Handling) (i : ι) (task address : String) :
    ∃ j net' resp, net.deliver cfg h addr (storeMessage (net.nodes i).self.address task address)
        = (net', .ok resp)
      ∧ Served cfg h.now (net.nodes i).self.address task address addr j net net' resp := by
  obtain ⟨l, hl⟩ := hknown
  obtain ⟨j, hres, hpos⟩ := hnet l addr hl
  set sender := (net.nodes i).self.address with hsender
  set greeted := (net.nodes j).greet h.now sender with hgreeted
  have hself : greeted.self = (net.nodes j).self := DHT.greet_self
  have hstorage : greeted.storage = (net.nodes j).storage := DHT.greet_storage
  have hkept : ∀ a, (net.nodes j).Knows a → greeted.Knows a := fun a ha ↦ ha.greet h.now sender
  -- the receiver learns the address of the sender, which the sender knows itself
  have hlearnt : ∀ a, greeted.Knows a → ∃ l, (net.nodes l).Knows a := by
    intro a ha
    rcases DHT.knows_greet ha with ha | rfl
    · exact ⟨j, ha⟩
    · exact ⟨i, Or.inl rfl⟩
  have hothers : ∀ (dht : DHT) l, l ≠ j → (net.setNode j dht).nodes l = net.nodes l :=
    fun _ _ hl ↦ setNode_nodes_of_ne hl
  rw [deliver, hres]
  simp only [DHT.handleMessage_store, ← hgreeted]
  by_cases hresp : greeted.amIInKClosest task cfg.replicationFactor = true
  · simp only [if_pos hresp]
    refine ⟨j, _, _, rfl, hres, hpos, ?_, hnet.setNode hself hlearnt, hothers _, Or.inl ?_⟩
    · refine .setNode hself hkept fun task' address' hs ↦ DHT.stores_storeTask.mpr (Or.inr ?_)
      rwa [DHT.Stores, hstorage]
    · rw [setNode_nodes_self]
      exact ⟨hresp, rfl, rfl⟩
  · simp only [if_neg hresp]
    refine ⟨j, _, _, rfl, hres, hpos, ?_, hnet.setNode hself hlearnt, hothers _, Or.inr ?_⟩
    · refine .setNode hself hkept fun task' address' hs ↦ ?_
      rwa [DHT.Stores, hstorage]
    · rw [setNode_nodes_self]
      exact ⟨Bool.not_eq_true _ ▸ hresp, rfl, rfl⟩

/-- The address that a node has filed under the position of another, or its own. -/
def slot (net : Net ι) : ι × Option ι → Option String
  | (j, none) => some (net.nodes j).self.address
  | (j, some i) => ((net.nodes j).peers.lookup (net.nodes i).self.id).map Node.address

omit [DecidableEq ι] in
/-- In an honest network every known address stands in one of finitely many slots. -/
theorem Honest.exists_slot (hnet : net.Honest) (hknown : ∃ l, (net.nodes l).Knows addr) :
    ∃ p, net.slot p = some addr := by
  obtain ⟨j, hj⟩ := hknown
  obtain ⟨i, -, hpos⟩ := hnet j addr hj
  rcases hj with rfl | ⟨id, node, hnode, rfl⟩
  · exact ⟨(j, none), rfl⟩
  · refine ⟨(j, some i), ?_⟩
    rw [slot, hpos, ((net.nodes j).peers_filed id node hnode).2, hnode]
    rfl

omit [DecidableEq ι] in
theorem Honest.length_le [Fintype ι] (hnet : net.Honest) {l : List String} (hl : l.Nodup)
    (hknown : ∀ x ∈ l, ∃ j, (net.nodes j).Knows x) :
    l.length ≤ Fintype.card (ι × Option ι) := by
  classical
  have hsub : (l.map some).toFinset ⊆ Finset.univ.image net.slot := by
    intro x hx
    obtain ⟨a, ha, rfl⟩ := List.mem_map.mp (List.mem_toFinset.mp hx)
    obtain ⟨p, hp⟩ := hnet.exists_slot (hknown a ha)
    exact Finset.mem_image.mpr ⟨p, Finset.mem_univ p, hp⟩
  have hcard := (Finset.card_le_card hsub).trans Finset.card_image_le
  rwa [List.toFinset_card_of_nodup (hl.map (Option.some_injective _)), List.length_map,
    Finset.card_univ] at hcard

/-- The node that is contacted for an address: the node itself for its own address, otherwise the
one that answers there. -/
def contact (net : Net ι) (i : ι) (addr : String) : Option ι :=
  if addr = (net.nodes i).self.address then some i else net.resolve addr

end Net

/-! ## One turn of the loop -/

/-- What a turn of the loop of `Store` at node `i` can do, in an honest network. -/
inductive Turn (env : Environment ι) (cfg : Config) (i : ι) (task address : String)
    (s : StoreState × Session ι) : StoreState × Session ι → Prop
  /-- An address that has been attempted before is dropped. -/
  | dropped {addr : String} {queue : List String} (hq : s.1.queue = addr :: queue)
      (hseen : addr ∈ s.1.attempted) :
      Turn env cfg i task address s ({ s.1 with queue := queue }, s.2)
  /-- The node stores the registration itself, without asking whether it is responsible. -/
  | own {addr : String} {queue : List String} (hq : s.1.queue = addr :: queue)
      (hnew : addr ∉ s.1.attempted) (hself : addr = (s.2.net.nodes i).self.address) :
      Turn env cfg i task address s
        ({ s.1 with queue := queue, attempted := addr :: s.1.attempted,
                    successCount := s.1.successCount + 1 },
          ⟨s.2.net.setNode i ((s.2.net.nodes i).storeTask (env.handling s.2.requests).now task
            address), s.2.requests⟩)
  /-- Another node, or the node itself under another address, has stored the registration. -/
  | stored {addr : String} {queue : List String} (hq : s.1.queue = addr :: queue)
      (hnew : addr ∉ s.1.attempted) (hself : addr ≠ (s.2.net.nodes i).self.address)
      {j : ι} {net' : Net ι} {resp : Message}
      (hserved : Served cfg (env.handling s.2.requests).now (s.2.net.nodes i).self.address task
        address addr j (env.grow s.2.requests s.2.net) net' resp)
      (hresp : (net'.nodes j).amIInKClosest task cfg.replicationFactor = true)
      (hnode : net'.nodes j
        = (((env.grow s.2.requests s.2.net).nodes j).greet (env.handling s.2.requests).now
          (s.2.net.nodes i).self.address).storeTask (env.handling s.2.requests).now task address) :
      Turn env cfg i task address s
        ({ s.1 with queue := queue, attempted := addr :: s.1.attempted,
                    successCount := s.1.successCount + 1 }, ⟨net', s.2.requests + 1⟩)
  /-- The node is referred to the nearest nodes in the view of the receiver. -/
  | redirected {addr : String} {queue : List String} (hq : s.1.queue = addr :: queue)
      (hnew : addr ∉ s.1.attempted) (hself : addr ≠ (s.2.net.nodes i).self.address)
      {j : ι} {net' : Net ι} {resp : Message}
      (hserved : Served cfg (env.handling s.2.requests).now (s.2.net.nodes i).self.address task
        address addr j (env.grow s.2.requests s.2.net) net' resp)
      (hresp : (net'.nodes j).amIInKClosest task cfg.replicationFactor = false)
      {closest : List String} (hclosest : closest = (net'.nodes j).closestAddrs cfg task)
      (now : Time) :
      Turn env cfg i task address s
        (StoreState.redirect (hashTask task) closest
            { s.1 with queue := queue, attempted := addr :: s.1.attempted },
          ⟨net'.setNode i (closest.foldl (fun dht a ↦ dht.addPeer now a) (net'.nodes i)),
            s.2.requests + 1⟩)

/-- The loop either drops an address or tries one more, and then the queue gets longer by at most
`k` addresses. -/
theorem Turn.lists {env : Environment ι} {cfg : Config} {i : ι} {task address : String}
    {s s' : StoreState × Session ι} (h : Turn env cfg i task address s s') :
    s'.1.attempted = s.1.attempted ∧ s'.1.queue.length < s.1.queue.length
      ∨ s'.1.attempted.length = s.1.attempted.length + 1
        ∧ s'.1.queue.length < s.1.queue.length + cfg.replicationFactor := by
  cases h with
  | dropped hq hseen => exact Or.inl ⟨rfl, by simp [hq]⟩
  | own hq hnew hself =>
    refine Or.inr ⟨rfl, ?_⟩
    simp only [hq, List.length_cons]
    omega
  | stored hq hnew hself hserved hresp hnode =>
    refine Or.inr ⟨rfl, ?_⟩
    simp only [hq, List.length_cons]
    omega
  | redirected hq hnew hself hserved hresp hclosest now =>
    refine Or.inr ⟨rfl, (StoreState.length_queue_redirect ..).trans_lt ?_⟩
    simp only [hq, hclosest, List.length_cons, DHT.length_closestAddrs]
    omega

theorem Net.Grows.addPeers (net : Net ι) (i : ι) (now : Time) (addrs : List String) :
    net.Grows (net.setNode i (addrs.foldl (fun dht a ↦ dht.addPeer now a) (net.nodes i))) := by
  obtain ⟨hself, hstorage⟩ := DHT.foldl_addPeer_frame now addrs (net.nodes i)
  refine .setNode hself (fun _ ha ↦ ha.foldl_addPeer now addrs) fun _ _ hs ↦ ?_
  rwa [DHT.Stores, hstorage]

theorem Turn.grows {env : Environment ι} (henv : env.Legal) {cfg : Config} {i : ι}
    {task address : String} {s s' : StoreState × Session ι} (hnet : s.2.net.Honest)
    (h : Turn env cfg i task address s s') : s.2.net.Grows s'.2.net := by
  have hgrown := (henv s.2.requests s.2.net hnet).1
  cases h with
  | dropped hq hseen => exact .refl _
  | own hq hnew hself =>
    exact .setNode rfl (fun _ ha ↦ ha) fun _ _ hs ↦ DHT.stores_storeTask.mpr (Or.inr hs)
  | stored hq hnew hself hserved hresp hnode => exact hgrown.trans hserved.grows
  | redirected hq hnew hself hserved hresp hclosest now =>
    exact (hgrown.trans hserved.grows).trans (.addPeers ..)

/-- **One turn** in an honest network. -/
theorem Net.Honest.turn {env : Environment ι} (henv : env.Legal) (cfg : Config) (i : ι)
    (task address : String) {s : StoreState × Session ι} (hnet : s.2.net.Honest)
    (hknown : ∀ x ∈ s.1.queue, ∃ l, (s.2.net.nodes l).Knows x) (hne : s.1.queue ≠ []) :
    Turn env cfg i task address s ((env.host cfg i).storeStep task address s) := by
  obtain ⟨st, net, n⟩ := s
  obtain ⟨addr, queue, hq⟩ := List.exists_cons_of_ne_nil hne
  have hq : st.queue = addr :: queue := hq
  simp only [Host.storeStep, hq, Host.storeAt]
  split_ifs with hseen hlocal
  · exact .dropped hq hseen
  · exact .own hq hseen hlocal
  · obtain ⟨hgrown, hhonest⟩ := henv n net hnet
    obtain ⟨l, hl⟩ := hknown addr (hq ▸ List.mem_cons_self)
    obtain ⟨j, net', resp, hdeliver, hserved⟩ :=
      hhonest.deliver_store ⟨l, hgrown.knows l addr hl⟩ cfg (env.handling n) i task address
    have hsend : (env.host cfg i).send addr
        (storeMessage ((env.host cfg i).dht ⟨net, n⟩).self.address task address) ⟨net, n⟩
          = (⟨net', n + 1⟩, .ok resp) := by
      change (env.host cfg i).send addr (storeMessage (net.nodes i).self.address _ _) _ = _
      rw [← hgrown.self]
      simp only [Environment.host, hdeliver]
    simp only [hsend]
    rw [hgrown.self] at hserved
    rcases hserved.answer with ⟨hresp, htype, hnode⟩ | ⟨hresp, htype, hpayload⟩
    · simp only [Host.storeReply, htype]
      exact .stored hq hseen hlocal hserved hresp hnode
    · simp only [Host.storeReply, htype, hpayload, Option.getD_some]
      exact .redirected hq hseen hlocal hserved hresp rfl _

/-! ## The pursuit of nearer nodes -/

/-- The invariant of the loop of `Store` at node `i`, started in the network `net₀`. -/
structure Pursuit (net₀ : Net ι) (i : ι) (task address : String) (s : StoreState × Session ι) :
    Prop where
  grows : net₀.Grows s.2.net
  honest : s.2.net.Honest
  known : ∀ x, x ∈ s.1.queue ∨ x ∈ s.1.attempted → ∃ l, (s.2.net.nodes l).Knows x
  nodup : s.1.attempted.Nodup
  started : s.1.queue ≠ [] ∨ s.1.attempted ≠ []
  /-- An attempted address belongs to a node that has stored the registration, or the loop has a
  nearer address on its lists. -/
  progress : ∀ x ∈ s.1.attempted,
    (0 < s.1.successCount
        ∧ ∃ j, net₀.contact i x = some j ∧ (s.2.net.nodes j).Stores task address)
      ∨ ∃ y, (y ∈ s.1.queue ∨ y ∈ s.1.attempted)
          ∧ distance (hashTask task) (hashAddress y) < distance (hashTask task) (hashAddress x)

namespace Pursuit

variable {net₀ : Net ι} {i : ι} {cfg : Config} {task address addr : String}
  {s : StoreState × Session ι} {queue : List String}

omit [DecidableEq ι] in
theorem drop (h : Pursuit net₀ i task address s) (hq : s.1.queue = addr :: queue)
    (hseen : addr ∈ s.1.attempted) :
    Pursuit net₀ i task address ({ s.1 with queue := queue }, s.2) where
  grows := h.grows
  honest := h.honest
  known x hx := h.known x (hx.imp_left fun hx ↦ hq ▸ List.mem_cons_of_mem _ hx)
  nodup := h.nodup
  started := Or.inr (List.ne_nil_of_mem hseen)
  progress x hx := by
    refine (h.progress x hx).imp_right ?_
    rintro ⟨y, hy, hlt⟩
    refine ⟨y, ?_, hlt⟩
    rw [hq, List.mem_cons] at hy
    rcases hy with (rfl | hy) | hy
    · exact Or.inr hseen
    · exact Or.inl hy
    · exact Or.inr hy

omit [DecidableEq ι] in
/-- An address is tried: nothing is forgotten, the queue may get longer by known addresses, and the
address has been dealt with. -/
theorem attempt (h : Pursuit net₀ i task address s) (hq : s.1.queue = addr :: queue)
    (hnew : addr ∉ s.1.attempted) {st' : StoreState} {w' : Session ι}
    (hattempted : st'.attempted = addr :: s.1.attempted) (hqueue : ∀ x ∈ queue, x ∈ st'.queue)
    (hsuccess : s.1.successCount ≤ st'.successCount) (hgrows : s.2.net.Grows w'.net)
    (hhonest : w'.net.Honest)
    (hknown : ∀ x ∈ st'.queue, x ∈ queue ∨ ∃ l, (w'.net.nodes l).Knows x)
    (hprogress : (0 < st'.successCount
        ∧ ∃ j, net₀.contact i addr = some j ∧ (w'.net.nodes j).Stores task address)
      ∨ ∃ y, (y ∈ st'.queue ∨ y ∈ st'.attempted)
          ∧ distance (hashTask task) (hashAddress y)
            < distance (hashTask task) (hashAddress addr)) :
    Pursuit net₀ i task address (st', w') := by
  have hold : ∀ x, x ∈ s.1.queue ∨ x ∈ s.1.attempted → ∃ l, (w'.net.nodes l).Knows x := by
    intro x hx
    obtain ⟨l, hl⟩ := h.known x hx
    exact ⟨l, hgrows.knows l x hl⟩
  have hlisted : ∀ x, x ∈ s.1.queue ∨ x ∈ s.1.attempted → x ∈ st'.queue ∨ x ∈ st'.attempted := by
    intro x hx
    rw [hq, List.mem_cons] at hx
    rw [hattempted, List.mem_cons]
    rcases hx with (rfl | hx) | hx
    · exact Or.inr (Or.inl rfl)
    · exact Or.inl (hqueue x hx)
    · exact Or.inr (Or.inr hx)
  refine ⟨h.grows.trans hgrows, hhonest, fun x hx ↦ ?_, ?_, Or.inr ?_, fun x hx ↦ ?_⟩
  · rw [hattempted] at hx
    rcases hx with hx | hx
    · rcases hknown x hx with hx | hx
      · exact hold x (Or.inl (hq ▸ List.mem_cons_of_mem _ hx))
      · exact hx
    · rcases List.mem_cons.mp hx with rfl | hx
      · exact hold x (Or.inl (hq ▸ List.mem_cons_self))
      · exact hold x (Or.inr hx)
  · rw [hattempted]
    exact List.nodup_cons.mpr ⟨hnew, h.nodup⟩
  · rw [hattempted]
    exact List.cons_ne_nil _ _
  · rw [hattempted] at hx
    rcases List.mem_cons.mp hx with rfl | hx
    · exact hprogress
    · rcases h.progress x hx with ⟨hpos, j, hj, hstores⟩ | ⟨y, hy, hlt⟩
      · exact Or.inl ⟨hpos.trans_le hsuccess, j, hj, hgrows.stores j _ _ hstores⟩
      · exact Or.inr ⟨y, hlisted y hy, hlt⟩

/-- An address is redirected: the nearer address it names is now on the lists. -/
theorem redirect (h : Pursuit net₀ i task address s) (hq : s.1.queue = addr :: queue)
    (hnew : addr ∉ s.1.attempted) {net' : Net ι} (hgrows : s.2.net.Grows net')
    (hhonest : net'.Honest) {closest : List String}
    (hknown : ∀ y ∈ closest, ∃ l, (net'.nodes l).Knows y)
    (hnearer : ∃ y ∈ closest, distance (hashTask task) (hashAddress y)
      < distance (hashTask task) (hashAddress addr)) (now : Time) (n : ℕ) :
    Pursuit net₀ i task address
      (StoreState.redirect (hashTask task) closest
          { s.1 with queue := queue, attempted := addr :: s.1.attempted },
        ⟨net'.setNode i (closest.foldl (fun dht a ↦ dht.addPeer now a) (net'.nodes i)), n⟩) := by
  have hself := (DHT.foldl_addPeer_frame now closest (net'.nodes i)).1
  have hgrows' := Net.Grows.addPeers net' i now closest
  have hhonest' := hhonest.setNode hself fun a ha ↦
    (DHT.knows_foldl_addPeer ha).elim (fun ha ↦ ⟨i, ha⟩) (hknown a)
  refine h.attempt hq hnew rfl (fun x hx ↦ ?_) (le_refl _) (hgrows.trans hgrows') hhonest'
    (fun x hx ↦ ?_) (Or.inr ?_)
  · exact StoreState.mem_queue_redirect.mpr (Or.inl hx)
  · rcases StoreState.mem_queue_redirect.mp hx with hx | ⟨hx, -, -⟩
    · exact Or.inl hx
    · obtain ⟨l, hl⟩ := hknown x hx
      exact Or.inr ⟨l, hgrows'.knows l x hl⟩
  · obtain ⟨y, hy, hlt⟩ := hnearer
    refine ⟨y, ?_, hlt⟩
    by_cases hseen : y ∈ addr :: s.1.attempted
    · exact Or.inr hseen
    · -- the farthest attempted address is at least as far as the one that redirects
      have hfar := (getFarthestDistance_cons (hashTask task) addr s.1.attempted).2 addr
        List.mem_cons_self
      exact Or.inl (StoreState.mem_queue_redirect.mpr (Or.inr ⟨hy, hseen, hlt.trans_le hfar⟩))

theorem turn {env : Environment ι} (henv : env.Legal) (hk : 1 ≤ cfg.replicationFactor)
    (h : Pursuit net₀ i task address s) {s' : StoreState × Session ι}
    (hturn : Turn env cfg i task address s s') : Pursuit net₀ i task address s' := by
  have hgrown := (henv s.2.requests s.2.net h.honest).1
  have hgrows := hturn.grows henv h.honest
  cases hturn with
  | dropped hq hseen => exact h.drop hq hseen
  | own hq hnew hself =>
    refine h.attempt hq hnew rfl (fun _ hx ↦ hx) (Nat.le_succ _) hgrows
      (h.honest.setNode rfl fun a ha ↦ ⟨i, ha⟩) (fun _ hx ↦ Or.inl hx)
      (Or.inl ⟨Nat.succ_pos _, i, ?_, ?_⟩)
    · rw [Net.contact, if_pos (by rw [hself, h.grows.self])]
    · rw [Net.setNode_nodes_self]
      exact DHT.stores_storeTask.mpr (Or.inl ⟨rfl, rfl⟩)
  | @stored addr queue hq hnew hself j net' resp hserved hresp hnode =>
    refine h.attempt hq hnew rfl (fun _ hx ↦ hx) (Nat.le_succ _) hgrows
      hserved.honest (fun _ hx ↦ Or.inl hx) (Or.inl ⟨Nat.succ_pos _, j, ?_, ?_⟩)
    · rw [Net.contact, if_neg (by rwa [← h.grows.self]), ← h.grows.resolve, ← hgrown.resolve,
        hserved.resolve]
    · rw [hnode]
      exact DHT.stores_storeTask.mpr (Or.inl ⟨rfl, rfl⟩)
  | @redirected addr queue hq hnew hself j net' resp hserved hresp closest hclosest now =>
    refine h.redirect hq hnew (hgrown.trans hserved.grows) hserved.honest ?_ ?_ now _
    · intro y hy
      obtain ⟨node, hnode, rfl⟩ := DHT.mem_closestAddrs.mp (hclosest ▸ hy)
      exact ⟨j, DHT.knows_of_mem_findKClosestNodes hnode⟩
    · obtain ⟨node, hnode, hlt⟩ := DHT.exists_nearer hk hresp
      rw [hserved.grows.self, hserved.position] at hlt
      exact ⟨node.address, hclosest ▸ DHT.mem_closestAddrs.mpr ⟨node, hnode, rfl⟩, hlt⟩

/-- The bound on the number of turns that remain: addresses that can still be tried, each of which
can queue `k` others, and the queue. -/
def turnsLeft [Fintype ι] (cfg : Config) (s : StoreState × Session ι) : ℕ :=
  (Fintype.card (ι × Option ι) - s.1.attempted.length) * (cfg.replicationFactor + 1)
    + s.1.queue.length

theorem turnsLeft_lt [Fintype ι] {env : Environment ι} {s' : StoreState × Session ι}
    (hturn : Turn env cfg i task address s s') (h' : Pursuit net₀ i task address s') :
    turnsLeft cfg s' < turnsLeft cfg s := by
  have hle := h'.honest.length_le h'.nodup fun x hx ↦ h'.known x (Or.inr hx)
  rw [turnsLeft, turnsLeft]
  rcases hturn.lists with ⟨hsame, hlt⟩ | ⟨hmore, hlt⟩
  · rw [hsame]
    omega
  · rw [hmore] at hle ⊢
    obtain ⟨d, hd⟩ := Nat.exists_eq_add_of_le hle
    rw [hd, Nat.add_sub_cancel_left, Nat.add_assoc, Nat.add_sub_cancel_left, Nat.add_mul]
    omega

theorem init (hnet : net₀.Honest) (hk : 1 ≤ cfg.replicationFactor) (env : Environment ι) (n : ℕ) :
    Pursuit net₀ i task address
      ((env.host cfg i).storeInit cfg task ⟨net₀, n⟩, ⟨net₀, n⟩) where
  grows := .refl net₀
  honest := hnet
  known x hx := by
    rcases hx with hx | hx
    · obtain ⟨node, hnode, rfl⟩ := List.mem_map.mp hx
      exact ⟨i, DHT.knows_of_mem_findKClosestNodes hnode⟩
    · simp [Host.storeInit] at hx
  nodup := List.nodup_nil
  started := by
    refine Or.inl (List.ne_nil_of_length_pos ?_)
    rw [Host.storeInit, DHT.length_closestAddrs]
    exact lt_min hk (List.length_pos_of_ne_nil (DHT.ring_ne_nil _))
  progress x hx := by simp [Host.storeInit] at hx

end Pursuit

/-- The nodes that a run of the loop has contacted. -/
def Contacted (net : Net ι) (i : ι) (st : StoreState) (j : ι) : Prop :=
  ∃ addr ∈ st.attempted, net.contact i addr = some j

namespace Pursuit

variable {net₀ : Net ι} {i : ι} {task address : String} {s : StoreState × Session ι}

omit [DecidableEq ι] in
theorem contact_id (h : Pursuit net₀ i task address s) {addr : String}
    (haddr : addr ∈ s.1.attempted) :
    ∃ j, net₀.contact i addr = some j ∧ (net₀.nodes j).self.id = hashAddress addr := by
  obtain ⟨l, hl⟩ := h.known addr (Or.inr haddr)
  obtain ⟨j, hres, hpos⟩ := h.honest l addr hl
  rw [Net.contact]
  split_ifs with hself
  · exact ⟨i, rfl, by rw [DHT.self_id, ← hself]⟩
  · exact ⟨j, by rw [← h.grows.resolve, hres], by rw [← h.grows.self, hpos]⟩

omit [DecidableEq ι] in
/-- Once the queue is empty, the nearest of the attempted addresses has been stored at. -/
theorem stored_of_nearest (h : Pursuit net₀ i task address s) (hq : s.1.queue = []) {x : String}
    (hx : x ∈ s.1.attempted)
    (hmin : ∀ y ∈ s.1.attempted, distance (hashTask task) (hashAddress x)
      ≤ distance (hashTask task) (hashAddress y)) :
    0 < s.1.successCount
      ∧ ∃ j, net₀.contact i x = some j ∧ (s.2.net.nodes j).Stores task address := by
  refine (h.progress x hx).resolve_right ?_
  rintro ⟨y, hy, hlt⟩
  rw [hq] at hy
  exact absurd hlt (not_lt.mpr (hmin y (hy.resolve_left List.not_mem_nil)))

omit [DecidableEq ι] in
theorem success (h : Pursuit net₀ i task address s) (hq : s.1.queue = []) :
    0 < s.1.successCount := by
  obtain ⟨a, ha⟩ := List.exists_mem_of_ne_nil _ (h.started.resolve_left (not_not.mpr hq))
  obtain ⟨x, hx, hmin⟩ := s.1.attempted.toFinset.exists_min_image
    (fun y ↦ distance (hashTask task) (hashAddress y)) ⟨a, List.mem_toFinset.mpr ha⟩
  exact (h.stored_of_nearest hq (List.mem_toFinset.mp hx)
    fun y hy ↦ hmin y (List.mem_toFinset.mpr hy)).1

end Pursuit

/-- **The run rule.** An invariant that the turns of the loop keep holds after any number of
them. -/
theorem Pursuit.storeTurns_invariant {env : Environment ι} (henv : env.Legal) {cfg : Config}
    {net : Net ι} {i : ι} {task address : String} {Inv : StoreState × Session ι → Prop}
    (hpursuit : ∀ s, Inv s → Pursuit net i task address s)
    (hturn : ∀ s s', Inv s → Turn env cfg i task address s s' → Inv s')
    (hinit : Inv ((env.host cfg i).storeInit cfg task ⟨net, 0⟩, ⟨net, 0⟩)) (turns : ℕ) :
    Inv ((env.host cfg i).storeTurns cfg task address turns ⟨net, 0⟩) := by
  refine Function.Iterate.rec Inv hinit (fun s hs ↦ ?_) turns
  by_cases hq : s.1.queue = []
  · rwa [Host.storeStep_of_nil hq]
  · have h := hpursuit s hs
    exact hturn s _ hs (h.honest.turn henv cfg i task address (fun x hx ↦ h.known x (Or.inl hx)) hq)

/-- **Store ends**, and the invariant holds then. -/
theorem Pursuit.exists_done [Fintype ι] {cfg : Config} (hk : 1 ≤ cfg.replicationFactor)
    {env : Environment ι} (henv : env.Legal) {net : Net ι} (hnet : net.Honest) (i : ι)
    (task address : String) :
    ∃ turns, ((env.host cfg i).storeTurns cfg task address turns ⟨net, 0⟩).1.queue = []
      ∧ Pursuit net i task address
        ((env.host cfg i).storeTurns cfg task address turns ⟨net, 0⟩) := by
  have hstep : ∀ s, Pursuit net i task address s → ¬s.1.queue = [] →
      Pursuit net i task address ((env.host cfg i).storeStep task address s)
        ∧ Pursuit.turnsLeft cfg ((env.host cfg i).storeStep task address s)
          < Pursuit.turnsLeft cfg s :=
    fun s hs hne ↦
      have hturn := hs.honest.turn henv cfg i task address (fun x hx ↦ hs.known x (Or.inl hx)) hne
      ⟨hs.turn henv hk hturn, (hs.turn henv hk hturn).turnsLeft_lt hturn⟩
  exact Run.exists_iterate hstep (.init hnet hk env 0)

/-- **Store reaches the nearest contacted node.** In a finite honest network, whatever the views are
and however they grow meanwhile, a call of `Store` at any node ends without an error, and the nodes
nearest to the task among those it contacted hold the registration. -/
theorem store_reaches_nearest [Fintype ι] (cfg : Config) (hk : 1 ≤ cfg.replicationFactor)
    (env : Environment ι) (henv : env.Legal) (net : Net ι) (hnet : net.Honest) (i : ι)
    (task address : String) :
    ∃ turns st w, (env.host cfg i).storeTurns cfg task address turns ⟨net, 0⟩ = (st, w)
      ∧ st.queue = [] ∧ st.result = .ok () ∧ (∃ j, Contacted net i st j)
      ∧ ∀ j, Contacted net i st j →
        (∀ j', Contacted net i st j' → distance (hashTask task) (net.nodes j).self.id
          ≤ distance (hashTask task) (net.nodes j').self.id) →
        (w.net.nodes j).Stores task address := by
  obtain ⟨turns, hdone, h⟩ := Pursuit.exists_done hk henv hnet i task address
  have hsuccess := h.success hdone
  refine ⟨turns, _, _, rfl, hdone, if_neg hsuccess.ne', ?_, ?_⟩
  · obtain ⟨x, hx⟩ := List.exists_mem_of_ne_nil _ (h.started.resolve_left (not_not.mpr hdone))
    obtain ⟨j, hj, -⟩ := h.contact_id hx
    exact ⟨j, x, hx, hj⟩
  · rintro j ⟨x, hx, hj⟩ hmin
    obtain ⟨j₁, hj₁, hx₁⟩ := h.contact_id hx
    obtain rfl := Option.some.inj (hj₁.symm.trans hj)
    obtain ⟨-, j₂, hj₂, hstores⟩ := h.stored_of_nearest hdone hx fun y hy ↦ by
      obtain ⟨j', hj', hy'⟩ := h.contact_id hy
      rw [← hx₁, ← hy']
      exact hmin j' ⟨y, hy, hj'⟩
    obtain rfl := Option.some.inj (hj₂.symm.trans hj)
    exact hstores

/-- Two nodes, the first of which has been told of the second. -/
def twoHosts : Net (Fin 2) := .hosts 2 fun i ↦ if i = 0 then [1] else []

theorem store_reaches_nearest_twoHosts :
    ∃ turns st w, ((Environment.alone fun _ ↦ .still 5).host ⟨1, 0⟩ 0).storeTurns ⟨1, 0⟩
        "resize" "10.1.0.1:80" turns ⟨twoHosts, 0⟩ = (st, w)
      ∧ st.queue = [] ∧ st.result = .ok () ∧ (∃ j, Contacted twoHosts 0 st j)
      ∧ ∀ j, Contacted twoHosts 0 st j →
        (∀ j', Contacted twoHosts 0 st j' →
          distance (hashTask "resize") (twoHosts.nodes j).self.id
            ≤ distance (hashTask "resize") (twoHosts.nodes j').self.id) →
        (w.net.nodes j).Stores "resize" "10.1.0.1:80" :=
  store_reaches_nearest ⟨1, 0⟩ (le_refl 1) (.alone fun _ ↦ .still 5) (Environment.alone_legal _)
    twoHosts (Net.hosts_honest (.inl rfl) _) 0 "resize" "10.1.0.1:80"

end TaskDiscovery
