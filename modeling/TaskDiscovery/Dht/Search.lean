import TaskDiscovery.Dht.Find
import TaskDiscovery.Lib.Run

/-!
# What a query finds

`Find` asks one node after the other, and each of them files the querier as a peer before it
answers. So the network changes while the loop runs. The answers do not depend on that: filing the
querier a second time changes no ring, and nothing that is stored changes at all. What `Find`
returns is therefore the first non-empty answer that the nodes would give in the network as it is at
the start (`find_eq_firstAnswer`).

An asked node answers from its storage only if it counts itself among the nearest, by its own ring
with the querier in it. A node that holds a registration and does not count itself among them keeps
silent, and this is the only way in which a reachable copy is missed (`find_ne_nil_iff`).
-/

namespace TaskDiscovery

/-! ## Filing the querier -/

namespace DHT

variable {dht dht' : DHT} {task sender : String} {k : ℕ} {now now' : Time}

theorem rebuildRing_congr {selfID : NodeID} {peers peers' : AList fun _ : NodeID ↦ Node}
    (h : peers.keys = peers'.keys) : rebuildRing selfID peers = rebuildRing selfID peers' := by
  rw [rebuildRing, rebuildRing, h]

theorem ring_greet_eq : (dht.greet now sender).ring = (dht.greet now' sender).ring := by
  rw [greet, greet]
  split_ifs
  · rw [addPeer, addPeer]
    dsimp only
    split_ifs
    · rfl
    · refine rebuildRing_congr ?_
      rw [AList.keys_insert, AList.keys_insert]
  · rfl

theorem ring_greet_greet : ((dht.greet now sender).greet now' sender).ring
    = (dht.greet now sender).ring := by
  by_cases h : sender ≠ "" ∧ sender ≠ dht.self.address
  · have hgreet : dht.greet now sender = dht.addPeer now sender := if_pos h
    have hmem : hashAddress sender ∈ (dht.addPeer now sender).peers :=
      mem_peers_addPeer.mpr (Or.inl rfl)
    rw [hgreet, greet, if_pos ⟨h.1, by simpa using h.2⟩, addPeer]
    exact if_pos hmem
  · rw [show dht.greet now sender = dht from if_neg h, greet, if_neg h]

/-- The positions of the ring that are nearer to a task than the node, after a sender has been
filed. -/
def nearerWith (dht : DHT) (sender task : String) : ℕ :=
  dht.ring.countP (fun id ↦ distance (hashTask task) id < distance (hashTask task) dht.self.id)
    + if sender ≠ "" ∧ sender ≠ dht.self.address ∧ hashAddress sender ∉ dht.peers
        ∧ distance (hashTask task) (hashAddress sender) < distance (hashTask task) dht.self.id
      then 1 else 0

/-- A node is responsible if fewer than `k` positions of its ring are nearer. -/
theorem amIInKClosest_iff_countP :
    dht.amIInKClosest task k = true ↔ dht.ring.countP (fun id ↦ distance (hashTask task) id
      < distance (hashTask task) dht.self.id) < k := by
  rw [amIInKClosest_iff, closestIDs, List.mem_nearest_iff (distance_injective _)]
  exact and_iff_right dht.self_mem_ring

theorem nearerWith_eq (now : Time) : dht.nearerWith sender task
    = (dht.greet now sender).ring.countP (fun id ↦ distance (hashTask task) id
      < distance (hashTask task) dht.self.id) := by
  rw [nearerWith, greet]
  by_cases hsender : sender ≠ "" ∧ sender ≠ dht.self.address
  · rw [if_pos hsender]
    by_cases hmem : hashAddress sender ∈ dht.peers
    · have hring : (dht.addPeer now sender).ring = dht.ring := if_pos hmem
      rw [hring, if_neg fun h ↦ h.2.2.1 hmem, Nat.add_zero]
    · rw [(ring_addPeer_perm hmem).countP_eq, List.countP_cons]
      simp [hsender, hmem]
  · rw [if_neg hsender, if_neg fun h ↦ hsender ⟨h.1, h.2.1⟩, Nat.add_zero]

theorem amIInKClosest_greet_iff :
    (dht.greet now sender).amIInKClosest task k = true ↔ dht.nearerWith sender task < k := by
  rw [amIInKClosest_iff_countP, greet_self, nearerWith_eq now]

/-- What a node that is asked for a task has to offer. -/
def answer (dht : DHT) (cfg : Config) (now : Time) (sender task : String) : List String :=
  if dht.nearerWith sender task < cfg.replicationFactor then
    activeAddresses (dht.storage.slice task) now cfg.serviceHeartbeatTimeout
  else []

theorem handleMessage_find_of_answer (cfg : Config) (h : Handling) (dht : DHT)
    (sender task : String) :
    dht.handleMessage cfg h (findMessage sender task)
      = (dht.greet h.now sender, some (
        if dht.answer cfg h.now sender task ≠ [] then
          (dht.greet h.now sender).reply .foundData (.object
            { task := some task, addresses := some (dht.answer cfg h.now sender task) })
        else (dht.greet h.now sender).reply .notFound)) := by
  rw [handleMessage_find, answer]
  simp only [amIInKClosest_greet_iff]
  by_cases hresp : dht.nearerWith sender task < cfg.replicationFactor
  · simp only [hresp, true_and, if_true]
  · simp [hresp]

end DHT

/-! ## Answers -/

/-- The first answer that is not empty. -/
def firstAnswer (answers : List (List String)) : List String :=
  (answers.find? (· ≠ [])).getD []

section FirstAnswer

variable {answer : List String} {answers : List (List String)}

theorem firstAnswer_nil_cons : firstAnswer ([] :: answers) = firstAnswer answers := by
  simp [firstAnswer]

theorem firstAnswer_cons (h : answer ≠ []) : firstAnswer (answer :: answers) = answer := by
  simp [firstAnswer, h]

theorem firstAnswer_ne_nil_iff : firstAnswer answers ≠ [] ↔ ∃ answer ∈ answers, answer ≠ [] := by
  induction answers with
  | nil => simp [firstAnswer]
  | cons answer answers ih =>
    by_cases h : answer = []
    · rw [h, firstAnswer_nil_cons, ih]
      simp
    · rw [firstAnswer_cons h]
      exact iff_of_true h ⟨answer, List.mem_cons_self, h⟩

theorem firstAnswer_mem (h : firstAnswer answers ≠ []) : firstAnswer answers ∈ answers := by
  induction answers with
  | nil => simp [firstAnswer] at h
  | cons answer answers ih =>
    by_cases hanswer : answer = []
    · rw [hanswer, firstAnswer_nil_cons] at h ⊢
      exact List.mem_cons_of_mem _ (ih h)
    · rw [firstAnswer_cons hanswer]
      exact List.mem_cons_self

end FirstAnswer

namespace Net

variable {ι : Type} {cfg : Config} {net net' net'' : Net ι} {sender task addr : String}

/-- What is found at an address. -/
def answer (net : Net ι) (cfg : Config) (now : Time) (sender task addr : String) : List String :=
  match net.resolve addr with
  | none => []
  | some j => (net.nodes j).answer cfg now sender task

/-- Nothing has happened but that some nodes have filed the sender. -/
structure Asked (sender : String) (net net' : Net ι) : Prop where
  resolve : net'.resolve = net.resolve
  self : ∀ j, (net'.nodes j).self = (net.nodes j).self
  storage : ∀ j, (net'.nodes j).storage = (net.nodes j).storage
  ring : ∀ j now, ((net'.nodes j).greet now sender).ring = ((net.nodes j).greet now sender).ring

theorem Asked.refl (sender : String) (net : Net ι) : Asked sender net net :=
  ⟨rfl, fun _ ↦ rfl, fun _ ↦ rfl, fun _ _ ↦ rfl⟩

theorem Asked.trans (h : Asked sender net net') (h' : Asked sender net' net'') :
    Asked sender net net'' :=
  ⟨h'.resolve.trans h.resolve, fun j ↦ (h'.self j).trans (h.self j),
    fun j ↦ (h'.storage j).trans (h.storage j), fun j now ↦ (h'.ring j now).trans (h.ring j now)⟩

theorem Asked.answer_eq (h : Asked sender net net') (cfg : Config) (now : Time)
    (task addr : String) :
    net'.answer cfg now sender task addr = net.answer cfg now sender task addr := by
  have hnearer : ∀ j, (net'.nodes j).nearerWith sender task
      = (net.nodes j).nearerWith sender task := by
    intro j
    rw [DHT.nearerWith_eq now, DHT.nearerWith_eq now, h.ring, h.self]
  rw [answer, answer, h.resolve]
  split
  · rfl
  · rw [DHT.answer, DHT.answer, hnearer, h.storage]

variable [DecidableEq ι]

theorem asked_setNode (j : ι) (now : Time) (sender : String) :
    Asked sender net (net.setNode j ((net.nodes j).greet now sender)) := by
  refine ⟨rfl, fun l ↦ ?_, fun l ↦ ?_, fun l now' ↦ ?_⟩ <;> by_cases hl : l = j
  · rw [hl, setNode_nodes_self, DHT.greet_self]
  · rw [setNode_nodes_of_ne hl]
  · rw [hl, setNode_nodes_self, DHT.greet_storage]
  · rw [setNode_nodes_of_ne hl]
  · rw [hl, setNode_nodes_self, DHT.ring_greet_greet, DHT.ring_greet_eq]
  · rw [setNode_nodes_of_ne hl]

/-- **One `FIND` request** brings the answer of the node that it reaches. -/
theorem deliver_find (net : Net ι) (cfg : Config) (h : Handling) (sender task addr : String) :
    ∃ net' result, net.deliver cfg h addr (findMessage sender task) = (net', result)
      ∧ Asked sender net net'
      ∧ (net.answer cfg h.now sender task addr = [] →
        (∃ err, result = .error err) ∨ ∃ resp, result = .ok resp ∧ resp.type ≠ .foundData)
      ∧ (net.answer cfg h.now sender task addr ≠ [] →
        ∃ resp fields, result = .ok resp ∧ resp.type = .foundData
          ∧ resp.payload.decode = some fields
          ∧ fields.addresses = some (net.answer cfg h.now sender task addr)) := by
  rcases hres : net.resolve addr with _ | j
  · have hanswer : net.answer cfg h.now sender task addr = [] := by
      rw [answer, hres]
    exact ⟨net, .error "dial: connection refused", by rw [deliver, hres], .refl sender net,
      fun _ ↦ Or.inl ⟨_, rfl⟩, fun hne ↦ absurd hanswer hne⟩
  · have hanswer : net.answer cfg h.now sender task addr
        = (net.nodes j).answer cfg h.now sender task := by
      rw [answer, hres]
    have hasked : Asked sender net (net.setNode j ((net.nodes j).greet h.now sender)) :=
      asked_setNode j h.now sender
    rw [hanswer, deliver, hres]
    simp only [DHT.handleMessage_find_of_answer]
    by_cases hnil : (net.nodes j).answer cfg h.now sender task = []
    · refine ⟨_, _, rfl, hasked, fun _ ↦ Or.inr ⟨_, rfl, ?_⟩, fun hne ↦ absurd hnil hne⟩
      rw [if_neg (not_not.mpr hnil)]
      exact MsgType.noConfusion
    · rw [if_pos hnil]
      exact ⟨_, _, rfl, hasked, fun h ↦ absurd h hnil, fun _ ↦ ⟨_, _, rfl, rfl, rfl, rfl⟩⟩

end Net

/-! ## The loop -/

variable {ι : Type} [DecidableEq ι] {cfg : Config} {handling : ℕ → Handling} {task : String}

/-- The nodes that a node asks about a task, one after the other. -/
def DHT.toAsk (dht : DHT) (cfg : Config) (task : String) : List Node :=
  (dht.findKClosestNodes task cfg.replicationFactor).filter (·.id ≠ dht.self.id)

/-- The answers that some nodes give, if they are asked one after the other. -/
def Net.answers (net : Net ι) (cfg : Config) (handling : ℕ → Handling) (sender task : String)
    (n : ℕ) (nodes : List Node) : List (List String) :=
  (nodes.zipIdx n).map fun p ↦ net.answer cfg (handling p.2).now sender task p.1.address

theorem findFrom_eq_firstAnswer {net₀ net : Net ι} {q : ι}
    (h : Net.Asked (net₀.nodes q).self.address net₀ net) (nodes : List Node) (n : ℕ) :
    (((Environment.alone handling).host cfg q).findFrom task nodes ⟨net, n⟩).2
      = firstAnswer (net₀.answers cfg handling (net₀.nodes q).self.address task n
        (nodes.filter (·.id ≠ (net₀.nodes q).self.id))) := by
  induction nodes generalizing net n with
  | nil => rfl
  | cons node nodes ih =>
    have hdht : (((Environment.alone handling).host cfg q).dht ⟨net, n⟩).self
        = (net₀.nodes q).self := h.self q
    by_cases hself : node.id = (net₀.nodes q).self.id
    · rw [Host.findFrom_of_self (hdht.symm ▸ hself), ih h n,
        List.filter_cons_of_neg (by simpa using hself)]
    obtain ⟨net', result, hdeliver, hasked, hnil, hfound⟩ := net.deliver_find cfg (handling n)
      (net₀.nodes q).self.address task node.address
    have hself' : node.id ≠ (((Environment.alone handling).host cfg q).dht ⟨net, n⟩).self.id :=
      hdht.symm ▸ hself
    have hsend : ((Environment.alone handling).host cfg q).send node.address
        (findMessage (((Environment.alone handling).host cfg q).dht ⟨net, n⟩).self.address task)
        ⟨net, n⟩ = (⟨net', n + 1⟩, result) := by
      rw [hdht]
      exact Environment.send_alone hdeliver q
    rw [h.answer_eq] at hnil hfound
    have hanswers : net₀.answers cfg handling (net₀.nodes q).self.address task n
        ((node :: nodes).filter (·.id ≠ (net₀.nodes q).self.id))
        = net₀.answer cfg (handling n).now (net₀.nodes q).self.address task node.address
          :: net₀.answers cfg handling (net₀.nodes q).self.address task (n + 1)
            (nodes.filter (·.id ≠ (net₀.nodes q).self.id)) := by
      rw [List.filter_cons_of_pos (by simpa using hself)]
      rfl
    rw [hanswers]
    by_cases hanswer : net₀.answer cfg (handling n).now (net₀.nodes q).self.address task
        node.address = []
    · rw [hanswer, firstAnswer_nil_cons, ← ih (h.trans hasked) (n + 1)]
      rcases hnil hanswer with ⟨err, rfl⟩ | ⟨resp, rfl, htype⟩
      · rw [Host.findFrom_of_error hself' hsend]
      · rw [Host.findFrom_of_notFound hself' hsend htype]
    · obtain ⟨resp, fields, rfl, htype, hdecode, haddrs⟩ := hfound hanswer
      rw [firstAnswer_cons hanswer,
        Host.findFrom_of_found hself' hsend htype hdecode haddrs hanswer]

/-- What a node finds in its own storage when it queries. -/
def DHT.ownAnswer (dht : DHT) (cfg : Config) (now : Time) (task : String) : List String :=
  if dht.amIInKClosest task cfg.replicationFactor then
    activeAddresses (dht.storage.slice task) now cfg.serviceHeartbeatTimeout
  else []

/-- **What `Find` returns**: the first answer, of the node itself and of those it asks, in the
network as it is at the start. -/
theorem find_eq_firstAnswer (net : Net ι) (q : ι) (query : String → String → List String) (n : ℕ) :
    (((Environment.alone handling).host cfg q).find cfg query task ⟨net, n⟩).2
      = firstAnswer ((net.nodes q).ownAnswer cfg (handling n).now task
        :: net.answers cfg handling (net.nodes q).self.address task n
          ((net.nodes q).toAsk cfg task)) := by
  have hown : (if (net.nodes q).amIInKClosest task cfg.replicationFactor then
      (net.nodes q).lookupTask cfg (handling n).now query task else [])
      = (net.nodes q).ownAnswer cfg (handling n).now task := by
    rw [DHT.ownAnswer]
    split_ifs with hresp
    · exact DHT.lookupTask_of_responsible _ _ hresp
    · rfl
  rw [Host.find_eq hown]
  by_cases hnil : (net.nodes q).ownAnswer cfg (handling n).now task = []
  · rw [if_neg (not_not.mpr hnil), hnil, firstAnswer_nil_cons]
    exact findFrom_eq_firstAnswer (.refl _ net) _ n
  · rw [if_pos hnil, firstAnswer_cons hnil]

/-! ## Copies -/

/-- The node itself is among the nearest, by its own ring, and stores an unexpired registration. -/
def DHT.HasCopy (dht : DHT) (cfg : Config) (now : Time) (task : String) : Prop :=
  dht.self.id ∈ dht.closestIDs task cfg.replicationFactor
    ∧ activeAddresses (dht.storage.slice task) now cfg.serviceHeartbeatTimeout ≠ []

/-- The node that is asked as number `m` is reached, it is `j`, and it stores an unexpired
registration. -/
def Net.ReachesCopy (net : Net ι) (cfg : Config) (handling : ℕ → Handling) (q : ι) (task : String)
    (n m : ℕ) (j : ι) : Prop :=
  ∃ node, ((net.nodes q).toAsk cfg task)[m]? = some node ∧ net.resolve node.address = some j
    ∧ DHT.activeAddresses ((net.nodes j).storage.slice task) (handling (n + m)).now
      cfg.serviceHeartbeatTimeout ≠ []

omit [DecidableEq ι] in
/-- The answers that are not empty are those of the copies whose holders feel responsible. -/
theorem Net.exists_answer_iff {net : Net ι} {q : ι} {n : ℕ} :
    (∃ answer ∈ net.answers cfg handling (net.nodes q).self.address task n
        ((net.nodes q).toAsk cfg task), answer ≠ [])
      ↔ ∃ m j, net.ReachesCopy cfg handling q task n m j
        ∧ (net.nodes j).nearerWith (net.nodes q).self.address task < cfg.replicationFactor := by
  have hanswer : ∀ now addr, net.answer cfg now (net.nodes q).self.address task addr ≠ []
      ↔ ∃ j, net.resolve addr = some j
        ∧ (net.nodes j).nearerWith (net.nodes q).self.address task < cfg.replicationFactor
        ∧ DHT.activeAddresses ((net.nodes j).storage.slice task) now
          cfg.serviceHeartbeatTimeout ≠ [] := by
    intro now addr
    rw [Net.answer]
    rcases net.resolve addr with _ | j
    · simp
    · simp [DHT.answer]
  constructor
  · rintro ⟨answer, hmem, hne⟩
    obtain ⟨⟨node, m⟩, hnode, rfl⟩ := List.mem_map.mp hmem
    obtain ⟨hle, hget⟩ := List.mk_mem_zipIdx_iff_le_and_getElem?_sub.mp hnode
    obtain ⟨j, hres, hresp, hactive⟩ := (hanswer _ _).mp hne
    exact ⟨m - n, j, ⟨node, hget, hres, by rwa [Nat.add_sub_cancel' hle]⟩, hresp⟩
  · rintro ⟨m, j, ⟨node, hget, hres, hactive⟩, hresp⟩
    refine ⟨_, List.mem_map.mpr ⟨(node, n + m), ?_, rfl⟩, (hanswer _ _).mpr
      ⟨j, hres, hresp, hactive⟩⟩
    exact List.mk_mem_zipIdx_iff_le_and_getElem?_sub.mpr
      ⟨Nat.le_add_right n m, by rwa [Nat.add_sub_cancel_left]⟩

/-- **When a query is answered.** A query finds something if and only if the querier is one of the
nearest and has a copy itself, or one of the nodes it asks is reached, has a copy, and fewer than
`ReplicationFactor` positions of its own ring, with the querier in it, are nearer to the task than
its own. -/
theorem find_ne_nil_iff (cfg : Config) (handling : ℕ → Handling) (net : Net ι) (q : ι)
    (query : String → String → List String) (task : String) (n : ℕ) :
    (((Environment.alone handling).host cfg q).find cfg query task ⟨net, n⟩).2 ≠ []
      ↔ (net.nodes q).HasCopy cfg (handling n).now task
        ∨ ∃ m j, net.ReachesCopy cfg handling q task n m j
          ∧ (net.nodes j).nearerWith (net.nodes q).self.address task < cfg.replicationFactor := by
  rw [find_eq_firstAnswer, firstAnswer_ne_nil_iff, List.exists_mem_cons_iff,
    Net.exists_answer_iff, DHT.HasCopy, DHT.ownAnswer, ← DHT.amIInKClosest_iff]
  refine or_congr ?_ Iff.rfl
  split_ifs with hresp
  · exact (and_iff_right hresp).symm
  · simp [hresp]

/-- A chain of views: the second node knows the first, which knows the third. -/
def chainViews : Net (Fin 3) := .hosts 3 fun i ↦ if i = 0 then [2] else if i = 1 then [0] else []

/-- The first node holds a registration, from before it learnt of the third. -/
def chainCopy : Net (Fin 3) :=
  chainViews.setNode 0 ((chainViews.nodes 0).storeTask 3 "scan" "10.1.0.1:80")

/-- **A copy that is missed.** The second node asks the first, which is reached and holds an
unexpired registration, but takes the third for the nearest. -/
theorem chainCopy_missed :
    chainCopy.ReachesCopy ⟨1, 60⟩ (fun _ ↦ .still 5) 1 "scan" 0 0 0
      ∧ (((Environment.alone fun _ ↦ .still 5).host ⟨1, 60⟩ 1).find ⟨1, 60⟩ (fun _ _ ↦ []) "scan"
        ⟨chainCopy, 0⟩).2 = [] := by
  refine ⟨⟨⟨hashAddress "10.0.0.0:6001", "10.0.0.0:6001", 0⟩, ?_, ?_, ?_⟩, ?_⟩
  all_goals decide +kernel

end TaskDiscovery
