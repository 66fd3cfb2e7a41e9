import TaskDiscovery.Dht.Table

/-!
# Messages between nodes

Nodes exchange JSON messages over short connections: one request, at most one reply. A payload is
kept raw until its type has been looked at, and then decoded into the structure of that type. Here a
payload is absent, or not decodable, or an object with the fields that any of the structures has; a
field that an object lacks decodes to the zero value.

`handleMessage` is the whole of what a node does for another one. It files the sender as a peer
first, whatever the message, and compares the sender with itself as a string only.
-/

namespace TaskDiscovery

inductive MsgType
  | ping
  | pong
  | join
  | peerList
  | store
  | find
  | foundData
  | notFound
  | ok
  | notResponsible
  | other (name : String)
  deriving DecidableEq

/-- The fields of the payload structures. -/
structure Fields where
  task : Option String := none
  address : Option String := none
  addresses : Option (List String) := none
  peers : Option (List String) := none
  closest : Option (List String) := none
  deriving DecidableEq

/-- The raw payload of a message. -/
inductive Payload
  | absent
  | malformed
  | object (fields : Fields)
  deriving DecidableEq

/-- `json.Unmarshal` into one of the payload structures, which fails without an object. -/
def Payload.decode : Payload → Option Fields
  | absent => none
  | malformed => none
  | object fields => some fields

structure Message where
  type : MsgType
  sender : String
  payload : Payload := .absent
  deriving DecidableEq

/-- What the handling of a message reads from its surroundings: the clock, the order in which a map
is visited, and the answers of other nodes to forwarded lookups. -/
structure Handling where
  now : Time
  order : RangeOrder (Sigma fun _ : NodeID ↦ Node)
  query : String → String → List String

namespace DHT

variable (cfg : Config) (h : Handling) (dht : DHT)

def closestAddrs (task : String) : List String :=
  (dht.findKClosestNodes task cfg.replicationFactor).map Node.address

def reply (type : MsgType) (payload : Payload := .absent) : Message :=
  ⟨type, dht.self.address, payload⟩

/-- The sender of a message becomes a peer. -/
def greet (now : Time) (sender : String) : DHT :=
  if sender ≠ "" ∧ sender ≠ dht.self.address then dht.addPeer now sender else dht

/-- The `STORE` case: store if responsible, otherwise name the nodes that are. -/
def handleStore (payload : Payload) : DHT × Option Message :=
  match payload.decode with
  | none => (dht, none)
  | some fields =>
    let task := fields.task.getD ""
    let address := fields.address.getD ""
    -- a ring of at most `k` nodes has only responsible ones
    if dht.ring.length ≤ cfg.replicationFactor then
      (dht.storeTask h.now task address, some (dht.reply .ok))
    else if dht.amIInKClosest task cfg.replicationFactor then
      (dht.storeTask h.now task address, some (dht.reply .ok))
    else
      (dht, some (dht.reply .notResponsible
        (.object { closest := some (dht.closestAddrs cfg task) })))

def handleFind (payload : Payload) : Option Message :=
  match payload.decode with
  | none => none
  | some fields =>
    let task := fields.task.getD ""
    if dht.ring.length ≤ cfg.replicationFactor || dht.amIInKClosest task cfg.replicationFactor then
      let addrs := dht.lookupTask cfg h.now h.query task
      if addrs ≠ [] then
        some (dht.reply .foundData (.object { task := some task, addresses := some addrs }))
      else some (dht.reply .notFound)
    else some (dht.reply .notFound)

def handleMessage (msg : Message) : DHT × Option Message :=
  let dht := dht.greet h.now msg.sender
  match msg.type with
  | .ping => (dht, some (dht.reply .pong))
  | .join =>
    let peers := (dht.getPeers h.order).map Node.address
    (dht, some (dht.reply .peerList (.object { peers := some peers })))
  | .store => dht.handleStore cfg h msg.payload
  | .find => (dht, dht.handleFind cfg h msg.payload)
  | _ => (dht, none)

end DHT

def storeMessage (sender task address : String) : Message :=
  ⟨.store, sender, .object { task := some task, address := some address }⟩

/-- **Handling `STORE`.** After the sender has been filed, the node stores the registration if it is
among the nearest, and otherwise names the nodes that are. -/
theorem DHT.handleMessage_store (cfg : Config) (h : Handling) (dht : DHT)
    (sender task address : String) :
    dht.handleMessage cfg h (storeMessage sender task address)
      = if (dht.greet h.now sender).amIInKClosest task cfg.replicationFactor then
          ((dht.greet h.now sender).storeTask h.now task address,
            some ((dht.greet h.now sender).reply .ok))
        else
          (dht.greet h.now sender, some ((dht.greet h.now sender).reply .notResponsible (.object
            { closest := some ((dht.greet h.now sender).closestAddrs cfg task) }))) := by
  change (if (dht.greet h.now sender).ring.length ≤ cfg.replicationFactor then _
    else if (dht.greet h.now sender).amIInKClosest task cfg.replicationFactor then _ else _) = _
  by_cases hlen : (dht.greet h.now sender).ring.length ≤ cfg.replicationFactor
  · rw [if_pos hlen, if_pos (amIInKClosest_of_length_le hlen)]
    rfl
  · rw [if_neg hlen]
    rfl

theorem DHT.mem_closestAddrs {cfg : Config} {dht : DHT} {task addr : String} :
    addr ∈ dht.closestAddrs cfg task
      ↔ ∃ node ∈ dht.findKClosestNodes task cfg.replicationFactor, node.address = addr := by
  rw [closestAddrs, List.mem_map]

theorem DHT.exists_mem_closestAddrs {cfg : Config} {dht : DHT} {task : String} {id : NodeID}
    (h : id ∈ dht.closestIDs task cfg.replicationFactor) :
    ∃ addr ∈ dht.closestAddrs cfg task, hashAddress addr = id := by
  obtain ⟨node, hnode⟩ := exists_nodeAt (List.mem_of_mem_nearest h)
  exact ⟨node.address, mem_closestAddrs.mpr
    ⟨node, mem_findKClosestNodes.mpr ⟨id, h, hnode⟩, rfl⟩, (nodeAt_filed hnode).2⟩

theorem DHT.length_closestAddrs (cfg : Config) (dht : DHT) (task : String) :
    (dht.closestAddrs cfg task).length = min cfg.replicationFactor dht.ring.length := by
  rw [closestAddrs, List.length_map, length_findKClosestNodes]

section Greet

variable {dht : DHT} {now : Time} {sender : String}

@[simp] theorem DHT.greet_self : (dht.greet now sender).self = dht.self := by
  rw [greet]
  split_ifs <;> rfl

@[simp] theorem DHT.greet_storage : (dht.greet now sender).storage = dht.storage := by
  rw [greet]
  split_ifs <;> rfl

theorem DHT.Knows.greet {addr : String} (h : dht.Knows addr) (now : Time) (sender : String) :
    (dht.greet now sender).Knows addr := by
  rw [DHT.greet]
  split_ifs
  · exact h.addPeer now sender
  · exact h

theorem DHT.knows_greet {addr : String} (h : (dht.greet now sender).Knows addr) :
    dht.Knows addr ∨ addr = sender := by
  rw [DHT.greet] at h
  split_ifs at h
  · exact knows_addPeer h
  · exact Or.inl h

/-- The sender of a message, if it is to become a peer, is at another position than the node. -/
def DHT.Foreign (dht : DHT) (sender : String) : Prop :=
  sender ≠ "" → sender ≠ dht.self.address → hashAddress sender ≠ dht.self.id

instance (dht : DHT) (sender : String) : Decidable (dht.Foreign sender) :=
  inferInstanceAs (Decidable (_ → _ → _))

theorem DHT.ringInvariant_greet (h : dht.RingInvariant) :
    (dht.greet now sender).RingInvariant ↔ dht.Foreign sender := by
  rw [greet, Foreign]
  split_ifs with hsender
  · rw [ringInvariant_addPeer h]
    exact ⟨fun h _ _ ↦ h, fun h ↦ h hsender.1 hsender.2⟩
  · exact ⟨fun _ hne hne' ↦ absurd ⟨hne, hne'⟩ hsender, fun _ ↦ h⟩

end Greet

def findMessage (sender task : String) : Message :=
  ⟨.find, sender, .object { task := some task }⟩

end TaskDiscovery
