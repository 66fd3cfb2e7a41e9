import TaskDiscovery.Dht.Store

/-!
# Networks of nodes

A network has finitely or infinitely many nodes and a way to reach them: `resolve` says which node
answers at an address. A request is handled by the node that answers there, in one piece, and its
reply goes back to the sender.

While a node waits for replies, other calls of other nodes go on. An `Environment` says what they do
to the network before each request, what the clocks show, and in which order maps are visited. It is
`Legal` when views only grow and stay honest (`Net.Honest`): every address in any view reaches a
live node that is at the position of that address.
-/

namespace TaskDiscovery

/-- The nodes, and which of them answers at an address. -/
structure Net (ι : Type) where
  nodes : ι → DHT
  resolve : String → Option ι

variable {ι : Type}

namespace Net

/-- Every address in the view of a node reaches a node that is at its position. -/
def Honest (net : Net ι) : Prop :=
  ∀ j addr, (net.nodes j).Knows addr →
    ∃ i, net.resolve addr = some i ∧ (net.nodes i).self.id = hashAddress addr

/-- Nobody has forgotten anything: identities are the same, known peers keep their addresses, and
stored registrations are still there. -/
structure Grows (net net' : Net ι) : Prop where
  resolve : net'.resolve = net.resolve
  self : ∀ j, (net'.nodes j).self = (net.nodes j).self
  knows : ∀ j addr, (net.nodes j).Knows addr → (net'.nodes j).Knows addr
  stores : ∀ j task address, (net.nodes j).Stores task address → (net'.nodes j).Stores task address

theorem Grows.refl (net : Net ι) : Grows net net :=
  ⟨rfl, fun _ ↦ rfl, fun _ _ h ↦ h, fun _ _ _ h ↦ h⟩

theorem Grows.trans {net₁ net₂ net₃ : Net ι} (h : Grows net₁ net₂) (h' : Grows net₂ net₃) :
    Grows net₁ net₃ :=
  ⟨h'.resolve.trans h.resolve, fun j ↦ (h'.self j).trans (h.self j),
    fun j addr ha ↦ h'.knows j addr (h.knows j addr ha),
    fun j task address hs ↦ h'.stores j task address (h.stores j task address hs)⟩

variable [DecidableEq ι]

def setNode (net : Net ι) (j : ι) (dht : DHT) : Net ι :=
  { net with nodes := Function.update net.nodes j dht }

/-- A request to an address: `sendMessage` on one side, `handleMessage` on the other. -/
def deliver (cfg : Config) (h : Handling) (addr : String) (msg : Message) (net : Net ι) :
    Net ι × Except String Message :=
  match net.resolve addr with
  | none => (net, .error "dial: connection refused")
  | some j =>
    match (net.nodes j).handleMessage cfg h msg with
    | (dht, none) => (net.setNode j dht, .error "decode: EOF")
    | (dht, some resp) => (net.setNode j dht, .ok resp)

variable {net : Net ι} {j : ι} {dht : DHT}

@[simp] theorem setNode_nodes_self : (net.setNode j dht).nodes j = dht := by
  simp [setNode]

theorem setNode_nodes_of_ne {i : ι} (h : i ≠ j) : (net.setNode j dht).nodes i = net.nodes i := by
  simp [setNode, h]

@[simp] theorem setNode_setNode {dht' : DHT} :
    (net.setNode j dht).setNode j dht' = net.setNode j dht' := by
  simp [setNode]

@[simp] theorem setNode_eq_self : net.setNode j (net.nodes j) = net := by
  simp [setNode]

/-- What a request does to the network: the receiver, if there is one, has handled it. -/
theorem deliver_fst (cfg : Config) (h : Handling) (addr : String) (msg : Message) (net : Net ι) :
    (net.deliver cfg h addr msg).1 = match net.resolve addr with
      | none => net
      | some j => net.setNode j ((net.nodes j).handleMessage cfg h msg).1 := by
  rw [deliver]
  split
  · rfl
  · split <;> simp [*]

theorem Grows.setNode (hself : dht.self = (net.nodes j).self)
    (hknows : ∀ addr, (net.nodes j).Knows addr → dht.Knows addr)
    (hstores : ∀ task address, (net.nodes j).Stores task address → dht.Stores task address) :
    net.Grows (net.setNode j dht) := by
  refine ⟨rfl, fun i ↦ ?_, fun i ↦ ?_, fun i ↦ ?_⟩ <;> by_cases hi : i = j
  · rw [hi, setNode_nodes_self, hself]
  · rw [setNode_nodes_of_ne hi]
  · rw [hi, setNode_nodes_self]
    exact hknows
  · rw [setNode_nodes_of_ne hi]
    exact fun _ h ↦ h
  · rw [hi, setNode_nodes_self]
    exact hstores
  · rw [setNode_nodes_of_ne hi]
    exact fun _ _ h ↦ h

/-- A node that has learnt only addresses that some node knew leaves the network honest. -/
theorem Honest.setNode (h : net.Honest) (hself : dht.self = (net.nodes j).self)
    (hknows : ∀ addr, dht.Knows addr → ∃ l, (net.nodes l).Knows addr) :
    (net.setNode j dht).Honest := by
  have hid : ∀ i, ((net.setNode j dht).nodes i).self = (net.nodes i).self := by
    intro i
    by_cases hi : i = j
    · rw [hi, setNode_nodes_self, hself]
    · rw [setNode_nodes_of_ne hi]
  intro l addr hl
  have hknown : ∃ l, (net.nodes l).Knows addr := by
    by_cases hlj : l = j
    · rw [hlj, setNode_nodes_self] at hl
      exact hknows addr hl
    · rw [setNode_nodes_of_ne hlj] at hl
      exact ⟨l, hl⟩
  obtain ⟨l', hl'⟩ := hknown
  obtain ⟨i, hres, hpos⟩ := h l' addr hl'
  exact ⟨i, hres, by rw [hid, hpos]⟩

/-- Nodes that have just been created, at addresses that need no completion, and told of some of the
others. -/
def ofViews (addr : ι → String) (views : ι → List ι) (resolve : String → Option ι) (now : Time) :
    Net ι where
  nodes i := ((views i).map addr).foldl (fun dht a ↦ dht.addPeer now a) (DHT.new (addr i) now)
  resolve := resolve

section OfViews

variable {addr : ι → String} {views : ι → List ι} {resolve : String → Option ι} {now : Time}

omit [DecidableEq ι] in
theorem ofViews_self (hdial : ∀ i, DHT.dialable (addr i) = addr i) (i : ι) :
    ((ofViews addr views resolve now).nodes i).self.address = addr i := by
  have h := (DHT.foldl_addPeer_frame now ((views i).map addr) (DHT.new (addr i) now)).1
  rw [ofViews, h, DHT.new_address, hdial]

omit [DecidableEq ι] in
theorem ofViews_storage (i : ι) : ((ofViews addr views resolve now).nodes i).storage = ∅ := by
  have h := (DHT.foldl_addPeer_frame now ((views i).map addr) (DHT.new (addr i) now)).2
  rw [ofViews, h, DHT.new_storage]

omit [DecidableEq ι] in
theorem ofViews_knows (hdial : ∀ i, DHT.dialable (addr i) = addr i) {j : ι} {a : String}
    (h : ((ofViews addr views resolve now).nodes j).Knows a) : ∃ i, a = addr i := by
  rcases DHT.knows_foldl_addPeer h with h | h
  · rcases h with heq | ⟨id, node, hnode, -⟩
    · exact ⟨j, by rw [heq, DHT.new_address, hdial]⟩
    · rw [DHT.new_peers, AList.lookup_empty] at hnode
      contradiction
  · obtain ⟨i, -, rfl⟩ := List.mem_map.mp h
    exact ⟨i, rfl⟩

omit [DecidableEq ι] in
theorem ofViews_honest (hdial : ∀ i, DHT.dialable (addr i) = addr i)
    (hresolve : ∀ i, resolve (addr i) = some i) : (ofViews addr views resolve now).Honest := by
  intro j a ha
  obtain ⟨i, rfl⟩ := ofViews_knows hdial ha
  exact ⟨i, hresolve i, by rw [DHT.self_id, ofViews_self hdial]⟩

end OfViews

/-- The addresses of the nodes of small example networks. -/
def hostAddr (n : ℕ) (i : Fin n) : String := s!"10.0.0.{i.val}:6001"

/-- An example network: node `i` listens at `hostAddr n i` and has been told of `views i`. -/
def hosts (n : ℕ) (views : Fin n → List (Fin n)) : Net (Fin n) :=
  ofViews (hostAddr n) views (fun a ↦ (List.finRange n).find? fun i ↦ hostAddr n i = a) 0

section Hosts

variable {n : ℕ}

theorem dialable_hostAddr (hn : n = 2 ∨ n = 3) (i : Fin n) :
    DHT.dialable (hostAddr n i) = hostAddr n i := by
  revert i
  rcases hn with rfl | rfl <;> decide +kernel

theorem hosts_honest (hn : n = 2 ∨ n = 3) (views : Fin n → List (Fin n)) :
    (hosts n views).Honest := by
  refine ofViews_honest (dialable_hostAddr hn) ?_
  rcases hn with rfl | rfl <;> decide +kernel

theorem hosts_id (hn : n = 2 ∨ n = 3) (views : Fin n → List (Fin n)) (i : Fin n) :
    ((hosts n views).nodes i).self.id = hashAddress (hostAddr n i) := by
  rw [DHT.self_id, hosts, ofViews_self (dialable_hostAddr hn)]

theorem hashAddress_hostAddr_injective (hn : n = 2 ∨ n = 3) :
    Function.Injective fun i ↦ hashAddress (hostAddr n i) := by
  have hnodup : ((List.finRange n).map fun i ↦ hashAddress (hostAddr n i)).Nodup := by
    rcases hn with rfl | rfl <;> decide +kernel
  intro i j hij
  exact List.inj_on_of_nodup_map hnodup (List.mem_finRange i) (List.mem_finRange j) hij

end Hosts

end Net

/-- What goes on beside a call: what the other calls have done to the network before a request, and
what the handling of the request reads. -/
structure Environment (ι : Type) where
  grow : ℕ → Net ι → Net ι
  handling : ℕ → Handling

/-- The other calls only make views grow, and keep the network honest. -/
def Environment.Legal (env : Environment ι) : Prop :=
  ∀ n (net : Net ι), net.Honest → net.Grows (env.grow n net) ∧ (env.grow n net).Honest

/-- Nothing goes on beside the calls. -/
def Environment.alone (handling : ℕ → Handling) : Environment ι := ⟨fun _ net ↦ net, handling⟩

theorem Environment.alone_legal (handling : ℕ → Handling) :
    (Environment.alone (ι := ι) handling).Legal :=
  fun _ net hnet ↦ ⟨.refl net, hnet⟩

/-- Nothing goes on at all: the clock stands still, and forwarded lookups find nothing. -/
def Handling.still (now : Time) : Handling := ⟨now, .asStored, fun _ _ ↦ []⟩

/-- A network during a call, with the number of requests made so far. -/
structure Session (ι : Type) where
  net : Net ι
  requests : ℕ

/-- A node of a network as a host for its own calls. -/
def Environment.host [DecidableEq ι] (env : Environment ι) (cfg : Config) (i : ι) :
    Host (Session ι) where
  dht s := s.net.nodes i
  setDht dht s := { s with net := s.net.setNode i dht }
  now s := (env.handling s.requests).now
  send addr msg s :=
    let (net, resp) :=
      (env.grow s.requests s.net).deliver cfg (env.handling s.requests) addr msg
    (⟨net, s.requests + 1⟩, resp)

/-- A request in a network in which nothing else goes on. -/
theorem Environment.send_alone [DecidableEq ι] {handling : ℕ → Handling} {cfg : Config}
    {net net' : Net ι} {n : ℕ} {addr : String} {msg : Message} {resp : Except String Message}
    (h : net.deliver cfg (handling n) addr msg = (net', resp)) (i : ι) :
    ((Environment.alone handling).host cfg i).send addr msg ⟨net, n⟩
      = (⟨net', n + 1⟩, resp) := by
  simp only [host, alone, h]

end TaskDiscovery
