import Mathlib.Logic.Function.Iterate
import TaskDiscovery.Dht.Message

/-!
# Storing a registration

`DHTNetwork.Store` works through a queue of addresses. It starts from the nodes that are nearest to
the task in the view of the node, sends each of them the registration, and follows the redirects of
those that do not feel responsible, as long as they lead to nodes nearer than the farthest one
tried.

One turn of the loop is `Host.storeStep`; a run is an iteration of it, and the loop has ended when
the queue is empty. The node and the network are given by a `Host`, so that the same loop can be run
against honest nodes and against peers that reply whatever they like.

The latter gain nothing by it: `attempted_bounded` says that the loop never leaves the neighbourhood
it started with.
-/

namespace TaskDiscovery

/-- The variables of the loop. -/
structure StoreState where
  queue : List String
  attempted : List String
  successCount : ℕ
  lastErr : Option String
  deriving DecidableEq

/-- One turn of the loop of `getFarthestDistance`. -/
def fartherDistance (taskHash : NodeID) (farthest : Option Int) (addr : String) : Option Int :=
  let dist := distance taskHash (hashAddress addr)
  match farthest with
  | none => some dist
  | some far => if far < dist then some dist else some far

/-- `getFarthestDistance`. The order in which the attempted addresses are visited does not matter
for a maximum. -/
def getFarthestDistance (taskHash : NodeID) (attempted : List String) : Int :=
  (attempted.foldl (fartherDistance taskHash) none).getD (2 ^ 256)

namespace StoreState

def attempt (addr : String) (st : StoreState) : StoreState :=
  { st with attempted := addr :: st.attempted }

/-- Queue the suggested addresses that are new and nearer than the farthest attempted one. -/
def redirect (taskHash : NodeID) (closest : List String) (st : StoreState) : StoreState :=
  let farthestAttempted := getFarthestDistance taskHash st.attempted
  { st with
    queue := st.queue ++ closest.filter fun addr ↦
      decide (addr ∉ st.attempted)
        && decide (distance taskHash (hashAddress addr) < farthestAttempted) }

/-- What `Store` returns once the queue is empty. -/
def result (st : StoreState) : Except String Unit :=
  if st.successCount = 0 then
    match st.lastErr with
    | some err => .error ("failed to store on any node: " ++ err)
    | none => .error "failed to store on any node: no replicas succeeded"
  else .ok ()

end StoreState

/-- The surroundings of a node's own calls: the node, which other threads may change, the clock, and
the network. -/
structure Host (W : Type) where
  dht : W → DHT
  setDht : DHT → W → W
  now : W → Time
  send : String → Message → W → W × Except String Message

namespace Host

variable {W : Type} (host : Host W) (cfg : Config) (task address : String)

/-- The loop starts with the nearest nodes of the node's own view. -/
def storeInit (w : W) : StoreState where
  queue := (host.dht w).closestAddrs cfg task
  attempted := []
  successCount := 0
  lastErr := none

/-- What the loop does with a reply. Suggested nodes become peers, whether they are tried or not. -/
def storeReply (resp : Message) (st : StoreState) (w : W) : StoreState × W :=
  match resp.type with
  | .ok => ({ st with successCount := st.successCount + 1 }, w)
  | .notResponsible =>
    match resp.payload.decode with
    | none => (st, w)
    | some fields =>
      let closest := fields.closest.getD []
      (st.redirect (hashTask task) closest,
        host.setDht (closest.foldl (fun dht addr ↦ dht.addPeer (host.now w) addr) (host.dht w)) w)
  | _ => (st, w)

/-- Try an address that has been taken from the queue. -/
def storeAt (addr : String) (st : StoreState) (w : W) : StoreState × W :=
  if addr ∈ st.attempted then (st, w)
  else
    let st := st.attempt addr
    if addr = (host.dht w).self.address then
      ({ st with successCount := st.successCount + 1 },
        host.setDht ((host.dht w).storeTask (host.now w) task address) w)
    else
      match host.send addr (storeMessage (host.dht w).self.address task address) w with
      | (w, .error err) => ({ st with lastErr := some err }, w)
      | (w, .ok resp) => host.storeReply task resp st w

/-- One turn of the loop. With an empty queue nothing happens any more. -/
def storeStep (s : StoreState × W) : StoreState × W :=
  match s.1.queue with
  | [] => s
  | addr :: queue => host.storeAt task address addr { s.1 with queue := queue } s.2

variable {host task address} in
theorem storeStep_of_nil {s : StoreState × W} (h : s.1.queue = []) :
    host.storeStep task address s = s := by
  rw [storeStep, h]

/-- The state of the loop after some turns. -/
def storeTurns (n : ℕ) (w : W) : StoreState × W :=
  (host.storeStep task address)^[n] (host.storeInit cfg task w, w)

/-- `DHTNetwork.Store`, given enough turns to empty the queue. -/
def store (fuel : ℕ) (w : W) : Option (Except String Unit × W) :=
  let s := host.storeTurns cfg task address fuel w
  if s.1.queue = [] then some (s.1.result, s.2) else none

end Host

/-! ## The farthest attempted address -/

theorem foldl_fartherDistance (taskHash : NodeID) (l : List String) (far : Int) :
    ∃ r, l.foldl (fartherDistance taskHash) (some far) = some r ∧ far ≤ r
      ∧ (r = far ∨ ∃ x ∈ l, r = distance taskHash (hashAddress x))
      ∧ ∀ x ∈ l, distance taskHash (hashAddress x) ≤ r := by
  induction l generalizing far with
  | nil => exact ⟨far, rfl, le_refl _, Or.inl rfl, by simp⟩
  | cons a l ih =>
    rw [List.foldl_cons, fartherDistance]
    by_cases hlt : far < distance taskHash (hashAddress a)
    · obtain ⟨r, hr, hle, hat, hall⟩ := ih (distance taskHash (hashAddress a))
      simp only [if_pos hlt]
      refine ⟨r, hr, hlt.le.trans hle, Or.inr ?_, List.forall_mem_cons.mpr ⟨hle, hall⟩⟩
      rcases hat with rfl | ⟨x, hx, rfl⟩
      · exact ⟨a, List.mem_cons_self, rfl⟩
      · exact ⟨x, List.mem_cons_of_mem _ hx, rfl⟩
    · obtain ⟨r, hr, hle, hat, hall⟩ := ih far
      simp only [if_neg hlt]
      refine ⟨r, hr, hle, hat.imp_right ?_,
        List.forall_mem_cons.mpr ⟨(not_lt.mp hlt).trans hle, hall⟩⟩
      rintro ⟨x, hx, rfl⟩
      exact ⟨x, List.mem_cons_of_mem _ hx, rfl⟩

/-- Once an address has been attempted, the farthest distance is the largest one attempted. -/
theorem getFarthestDistance_cons (taskHash : NodeID) (a : String) (l : List String) :
    (∃ x ∈ a :: l, getFarthestDistance taskHash (a :: l) = distance taskHash (hashAddress x))
      ∧ ∀ x ∈ a :: l,
        distance taskHash (hashAddress x) ≤ getFarthestDistance taskHash (a :: l) := by
  obtain ⟨r, hr, hle, hat, hall⟩ :=
    foldl_fartherDistance taskHash l (distance taskHash (hashAddress a))
  have heq : getFarthestDistance taskHash (a :: l) = r := by
    rw [getFarthestDistance, List.foldl_cons]
    simp only [fartherDistance]
    rw [hr, Option.getD_some]
  rw [heq]
  refine ⟨?_, List.forall_mem_cons.mpr ⟨hle, hall⟩⟩
  rcases hat with rfl | ⟨x, hx, rfl⟩
  · exact ⟨a, List.mem_cons_self, rfl⟩
  · exact ⟨x, List.mem_cons_of_mem _ hx, rfl⟩

theorem StoreState.mem_queue_redirect {taskHash : NodeID} {closest : List String} {st : StoreState}
    {addr : String} :
    addr ∈ (st.redirect taskHash closest).queue ↔ addr ∈ st.queue
      ∨ addr ∈ closest ∧ addr ∉ st.attempted
        ∧ distance taskHash (hashAddress addr) < getFarthestDistance taskHash st.attempted := by
  rw [redirect]
  simp

theorem StoreState.length_queue_redirect (taskHash : NodeID) (closest : List String)
    (st : StoreState) :
    (st.redirect taskHash closest).queue.length ≤ st.queue.length + closest.length := by
  rw [redirect]
  simp only [List.length_append]
  exact Nat.add_le_add_left (List.length_filter_le ..) _

theorem DHT.foldl_addPeer_frame (now : Time) (addrs : List String) (dht : DHT) :
    (addrs.foldl (fun dht addr ↦ dht.addPeer now addr) dht).self = dht.self
      ∧ (addrs.foldl (fun dht addr ↦ dht.addPeer now addr) dht).storage = dht.storage := by
  induction addrs generalizing dht with
  | nil => exact ⟨rfl, rfl⟩
  | cons addr addrs ih => exact ih (dht.addPeer now addr)

theorem DHT.Knows.foldl_addPeer {dht : DHT} {a : String} (h : dht.Knows a) (now : Time)
    (addrs : List String) : (addrs.foldl (fun dht addr ↦ dht.addPeer now addr) dht).Knows a := by
  induction addrs generalizing dht with
  | nil => exact h
  | cons addr addrs ih => exact ih (h.addPeer now addr)

theorem DHT.knows_foldl_addPeer {dht : DHT} {a : String} {now : Time} {addrs : List String}
    (h : (addrs.foldl (fun dht addr ↦ dht.addPeer now addr) dht).Knows a) :
    dht.Knows a ∨ a ∈ addrs := by
  induction addrs generalizing dht with
  | nil => exact Or.inl h
  | cons addr addrs ih =>
    rcases ih h with h | h
    · rcases knows_addPeer h with h | rfl
      · exact Or.inl h
      · exact Or.inr List.mem_cons_self
    · exact Or.inr (List.mem_cons_of_mem _ h)

/-! ## Arbitrary replies -/

namespace Host

/-- A network whose nodes reply as they please: `send` may be any function of a state of any
type. -/
def ofReplies {N : Type} (now : N → Time)
    (send : String → Message → N → N × Except String Message) : Host (DHT × N) where
  dht := Prod.fst
  setDht dht w := (dht, w.2)
  now w := now w.2
  send addr msg w := let (n, resp) := send addr msg w.2; ((w.1, n), resp)

variable {N : Type} {now : N → Time} {send : String → Message → N → N × Except String Message}
  {cfg : Config} {task address : String} {dht : DHT}

/-- The largest distance from the task among its nearest nodes in the view of a node. -/
def initialRadius (dht : DHT) (cfg : Config) (task : String) : Int :=
  ((dht.findKClosestNodes task cfg.replicationFactor).map fun node ↦
    distance (hashTask task) node.id).foldr max 0

/-- The invariant: what is queued or attempted is no farther than some node of the initial set, and
the node's own storage is written only if it belongs to that set. -/
structure Bounded (dht : DHT) (cfg : Config) (task : String) (s : StoreState × (DHT × N)) :
    Prop where
  self : s.2.1.self = dht.self
  near : ∀ addr, addr ∈ s.1.queue ∨ addr ∈ s.1.attempted →
    ∃ node ∈ dht.findKClosestNodes task cfg.replicationFactor,
      distance (hashTask task) (hashAddress addr) ≤ distance (hashTask task) node.id
  storage : s.2.1.storage = dht.storage
    ∨ dht.amIInKClosest task cfg.replicationFactor = true

theorem bounded_init (n : N) :
    Bounded dht cfg task ((ofReplies now send).storeInit cfg task (dht, n), (dht, n)) where
  self := rfl
  near addr h := by
    rcases h with h | h
    · obtain ⟨node, hnode, rfl⟩ := List.mem_map.mp h
      exact ⟨node, hnode, by rw [(DHT.hashAddress_of_mem_findKClosestNodes hnode).1]⟩
    · simp [storeInit] at h
  storage := Or.inl rfl

/-- The node's own address is near enough only if the node is in the initial set. -/
theorem Bounded.responsible {s : StoreState × (DHT × N)} (h : Bounded dht cfg task s)
    (hself : dht.self.address ∈ s.1.queue) :
    dht.amIInKClosest task cfg.replicationFactor = true := by
  obtain ⟨node, hnode, hle⟩ := h.near _ (Or.inl hself)
  have hid := (DHT.hashAddress_of_mem_findKClosestNodes hnode).2
  rw [← dht.self_id] at hle
  exact DHT.amIInKClosest_iff.mpr
    (List.mem_nearest_of_key_le (distance_injective _) hid dht.self_mem_ring hle)

theorem Bounded.of_subset {s s' : StoreState × (DHT × N)} (h : Bounded dht cfg task s)
    (hself : s'.2.1.self = s.2.1.self) (hstorage : s'.2.1.storage = s.2.1.storage)
    (hsub : ∀ addr, addr ∈ s'.1.queue ∨ addr ∈ s'.1.attempted →
      addr ∈ s.1.queue ∨ addr ∈ s.1.attempted) : Bounded dht cfg task s' where
  self := hself.trans h.self
  near addr haddr := h.near addr (hsub addr haddr)
  storage := by rw [hstorage]; exact h.storage

/-- A redirect queues only addresses nearer than one already attempted. -/
theorem Bounded.redirect {st : StoreState} {w : DHT × N} {addr : String}
    (h : Bounded dht cfg task (st.attempt addr, w)) (closest : List String) {dht' : DHT}
    (hself : dht'.self = w.1.self) (hstorage : dht'.storage = w.1.storage) :
    Bounded dht cfg task ((st.attempt addr).redirect (hashTask task) closest, (dht', w.2)) where
  self := hself.trans h.self
  near x hx := by
    rcases hx with hx | hx
    · rcases StoreState.mem_queue_redirect.mp hx with hold | ⟨-, -, hlt⟩
      · exact h.near x (Or.inl hold)
      · obtain ⟨y, hy, hfar⟩ := (getFarthestDistance_cons (hashTask task) addr st.attempted).1
        obtain ⟨node, hnode, hle⟩ := h.near y (Or.inr hy)
        exact ⟨node, hnode, (hlt.trans_eq hfar).le.trans hle⟩
    · exact h.near x (Or.inr hx)
  storage := by rw [hstorage]; exact h.storage

/-- Whatever a reply says, the loop stays bounded. -/
theorem Bounded.reply {st : StoreState} {w : DHT × N} {addr : String}
    (h : Bounded dht cfg task (st.attempt addr, w)) (resp : Message) :
    Bounded dht cfg task ((ofReplies now send).storeReply task resp (st.attempt addr) w) := by
  rw [storeReply]
  split
  · exact h.of_subset rfl rfl fun _ hx ↦ hx
  · split
    · exact h
    · obtain ⟨hself, hstorage⟩ := DHT.foldl_addPeer_frame (now w.2) _ w.1
      exact h.redirect _ hself hstorage
  · exact h

/-- **One turn.** -/
theorem Bounded.step {s : StoreState × (DHT × N)} (h : Bounded dht cfg task s) :
    Bounded dht cfg task ((ofReplies now send).storeStep task address s) := by
  obtain ⟨st, w⟩ := s
  rw [storeStep]
  rcases hq : st.queue with _ | ⟨addr, queue⟩
  · exact h
  · have hsub : ∀ x, x ∈ queue ∨ x ∈ addr :: st.attempted → x ∈ st.queue ∨ x ∈ st.attempted := by
      intro x hx
      rw [hq]
      simp only [List.mem_cons] at hx ⊢
      tauto
    simp only [storeAt]
    split_ifs with hseen hlocal
    · -- the address had been attempted before
      exact h.of_subset rfl rfl fun x hx ↦ hsub x (hx.imp_right (List.mem_cons_of_mem _))
    · -- the node itself
      have hresp : dht.amIInKClosest task cfg.replicationFactor = true := by
        refine h.responsible ?_
        rw [hq, ← h.self]
        exact hlocal ▸ List.mem_cons_self
      exact ⟨h.self, fun x hx ↦ h.near x (hsub x hx), Or.inr hresp⟩
    · -- a peer, which gets no hold of the node
      split
      · rename_i w' err hsend
        have hnode : w'.1 = w.1 := (congrArg (fun r ↦ r.1.1) hsend).symm
        exact h.of_subset (by rw [hnode]) (by rw [hnode]) hsub
      · rename_i w' resp hsend
        have hnode : w'.1 = w.1 := (congrArg (fun r ↦ r.1.1) hsend).symm
        refine Bounded.reply ?_ resp
        exact h.of_subset (by rw [hnode]) (by rw [hnode]) hsub

theorem bounded_turns (n : ℕ) (net : N) :
    Bounded dht cfg task ((ofReplies now send).storeTurns cfg task address n (dht, net)) := by
  rw [storeTurns]
  induction n with
  | zero => exact bounded_init net
  | succ n ih =>
    rw [Function.iterate_succ_apply']
    exact ih.step

theorem le_initialRadius {node : Node}
    (h : node ∈ dht.findKClosestNodes task cfg.replicationFactor) :
    distance (hashTask task) node.id ≤ initialRadius dht cfg task := by
  rw [initialRadius]
  generalize dht.findKClosestNodes task cfg.replicationFactor = nodes at h
  induction nodes with
  | nil => simp at h
  | cons a l ih =>
    rw [List.map_cons, List.foldr_cons]
    rcases List.mem_cons.mp h with rfl | h
    · exact le_max_left ..
    · exact (ih h).trans (le_max_right ..)

/-- **Store is bounded by its initial replica set.** Whatever the peers reply, at every turn of the
loop each attempted address is at most as far from the task as the farthest of the nodes that were
nearest when the loop started, and the node's own storage is as it was unless the node was one of
them. -/
theorem attempted_bounded (now : N → Time)
    (send : String → Message → N → N × Except String Message) (cfg : Config)
    (task address : String) (dht : DHT) (net : N) (n : ℕ) :
    (∀ addr ∈ ((ofReplies now send).storeTurns cfg task address n (dht, net)).1.attempted,
        distance (hashTask task) (hashAddress addr) ≤ initialRadius dht cfg task)
      ∧ (((ofReplies now send).storeTurns cfg task address n (dht, net)).2.1.storage ≠ dht.storage →
        dht.self ∈ dht.findKClosestNodes task cfg.replicationFactor) := by
  have h : Bounded dht cfg task ((ofReplies now send).storeTurns cfg task address n (dht, net)) :=
    bounded_turns n net
  refine ⟨fun addr haddr ↦ ?_, fun hne ↦ ?_⟩
  · obtain ⟨node, hnode, hle⟩ := h.near addr (Or.inr haddr)
    exact hle.trans (le_initialRadius hnode)
  · have hresp := DHT.amIInKClosest_iff.mp (h.storage.resolve_left hne)
    exact DHT.mem_findKClosestNodes.mpr ⟨_, hresp, dht.nodeAt_self⟩

end Host

end TaskDiscovery
