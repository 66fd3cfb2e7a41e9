import TaskDiscovery.Dht.Network

/-!
# Finding registrations

`DHTNetwork.Find` asks the nodes that are nearest to a task, in turn, until one of them has
addresses. A node that is itself one of the nearest looks into its own storage first. `DHTRegistry`
is what the proxy uses of all this: `Register` is a `Store`, and `QueryAll` a `Find`.

A node that is responsible for a task never forwards a lookup of it (`lookupTask_of_responsible`),
so a `FIND` request is answered from the storage of the node that receives it.
-/

namespace TaskDiscovery

/-! ## Lookups -/

namespace DHT

variable {dht : DHT} {task : String}

theorem lookupTask_of_responsible {cfg : Config} (now : Time)
    (query : String → String → List String)
    (h : dht.amIInKClosest task cfg.replicationFactor = true) :
    dht.lookupTask cfg now query task
      = activeAddresses (dht.storage.slice task) now cfg.serviceHeartbeatTimeout := by
  have hresp : ((dht.findKClosestNodes task cfg.replicationFactor).any fun node ↦
      node.id = dht.self.id) = true := h
  rw [lookupTask]
  simp only [hresp]
  split_ifs with hnil <;> simp_all

/-- **Handling `FIND`.** After the sender has been filed, a responsible node answers with the active
addresses it stores, and any other node with nothing. -/
theorem handleMessage_find (cfg : Config) (h : Handling) (dht : DHT) (sender task : String) :
    dht.handleMessage cfg h (findMessage sender task)
      = (dht.greet h.now sender, some (
        if (dht.greet h.now sender).amIInKClosest task cfg.replicationFactor = true
            ∧ activeAddresses (dht.storage.slice task) h.now cfg.serviceHeartbeatTimeout ≠ [] then
          (dht.greet h.now sender).reply .foundData (.object
            { task := some task,
              addresses := some (activeAddresses (dht.storage.slice task) h.now
                cfg.serviceHeartbeatTimeout) })
        else (dht.greet h.now sender).reply .notFound)) := by
  have hslice : (dht.greet h.now sender).storage = dht.storage := greet_storage
  change (dht.greet h.now sender, (dht.greet h.now sender).handleFind cfg h _) = _
  generalize dht.greet h.now sender = greeted at hslice ⊢
  -- a ring of at most `k` nodes has only responsible ones
  have hcond : (decide (greeted.ring.length ≤ cfg.replicationFactor)
      || greeted.amIInKClosest task cfg.replicationFactor)
      = greeted.amIInKClosest task cfg.replicationFactor := by
    by_cases hlen : greeted.ring.length ≤ cfg.replicationFactor
    · rw [amIInKClosest_of_length_le hlen, Bool.or_true]
    · simp [hlen]
  rw [handleFind]
  simp only [findMessage, Payload.decode, Option.getD_some, hcond]
  by_cases hresp : greeted.amIInKClosest task cfg.replicationFactor = true
  · rw [lookupTask_of_responsible h.now h.query hresp, hslice]
    simp only [hresp, if_true, true_and]
    split_ifs <;> rfl
  · simp [hresp]

end DHT

/-! ## `Find` -/

namespace Host

variable {W : Type} (host : Host W)

/-- The loop of `Find`: the first node that has addresses answers. -/
def findFrom (task : String) : List Node → W → W × List String
  | [], w => (w, [])
  | node :: nodes, w =>
    if node.id = (host.dht w).self.id then findFrom task nodes w
    else
      match host.send node.address (findMessage (host.dht w).self.address task) w with
      | (w, .error _) => findFrom task nodes w
      | (w, .ok resp) =>
        if resp.type = .foundData then
          match resp.payload.decode with
          | none => findFrom task nodes w
          | some fields =>
            let addrs := fields.addresses.getD []
            if addrs ≠ [] then (w, addrs) else findFrom task nodes w
        else findFrom task nodes w

/-- `DHTNetwork.Find`. It never fails; what it does not find is the empty list. -/
def find (cfg : Config) (query : String → String → List String) (task : String) (w : W) :
    W × List String :=
  let kClosest := (host.dht w).findKClosestNodes task cfg.replicationFactor
  let addrs := if (host.dht w).amIInKClosest task cfg.replicationFactor then
    (host.dht w).lookupTask cfg (host.now w) query task else []
  if addrs ≠ [] then (w, addrs) else host.findFrom task kClosest w

variable {host} {task : String} {node : Node} {nodes : List Node} {w w' : W} {resp : Message}

theorem findFrom_of_self (hself : node.id = (host.dht w).self.id) :
    host.findFrom task (node :: nodes) w = host.findFrom task nodes w := by
  rw [findFrom, if_pos hself]

theorem findFrom_of_found (hself : node.id ≠ (host.dht w).self.id)
    (hsend : host.send node.address (findMessage (host.dht w).self.address task) w
      = (w', .ok resp))
    (htype : resp.type = .foundData) {fields : Fields} {addrs : List String}
    (hdecode : resp.payload.decode = some fields) (haddrs : fields.addresses = some addrs)
    (hne : addrs ≠ []) : host.findFrom task (node :: nodes) w = (w', addrs) := by
  simp only [findFrom, if_neg hself, hsend, if_pos htype, hdecode, haddrs, Option.getD_some,
    if_pos hne]

theorem findFrom_of_error (hself : node.id ≠ (host.dht w).self.id) {err : String}
    (hsend : host.send node.address (findMessage (host.dht w).self.address task) w
      = (w', .error err)) :
    host.findFrom task (node :: nodes) w = host.findFrom task nodes w' := by
  simp only [findFrom, if_neg hself, hsend]

theorem findFrom_of_notFound (hself : node.id ≠ (host.dht w).self.id)
    (hsend : host.send node.address (findMessage (host.dht w).self.address task) w
      = (w', .ok resp))
    (htype : resp.type ≠ .foundData) :
    host.findFrom task (node :: nodes) w = host.findFrom task nodes w' := by
  simp only [findFrom, if_neg hself, hsend, if_neg htype]

theorem find_eq {cfg : Config} {query : String → String → List String} {addrs : List String}
    (hlocal : (if (host.dht w).amIInKClosest task cfg.replicationFactor then
      (host.dht w).lookupTask cfg (host.now w) query task else []) = addrs) :
    host.find cfg query task w = if addrs ≠ [] then (w, addrs)
      else host.findFrom task ((host.dht w).findKClosestNodes task cfg.replicationFactor) w := by
  rw [← hlocal]
  rfl

end Host

/-! ## `DHTRegistry` -/

/-- The counters of a registry. -/
structure RegistryStats where
  regCount : UInt64
  queryCount : UInt64
  errorCount : UInt64

/-- A network in which every node has its registry. -/
structure Deployment (ι : Type) where
  session : Session ι
  stats : ι → RegistryStats

inductive RegistryCall (ι : Type)
  | register (i : ι) (task address : String)
  | queryAll (i : ι) (task : String)

inductive RegistryReply
  | registered (result : Except String Unit)
  | found (result : Except String (List String))

namespace Deployment

variable {ι : Type} [DecidableEq ι] (cfg : Config) (env : Environment ι) (fuel : ℕ)

def count (d : Deployment ι) (i : ι) (f : RegistryStats → RegistryStats) : Deployment ι :=
  { d with stats := Function.update d.stats i (f (d.stats i)) }

/-- `DHTRegistry.Register`, given enough turns. -/
def register (d : Deployment ι) (i : ι) (task address : String) :
    Option (Deployment ι × Except String Unit) :=
  match (env.host cfg i).store cfg task address fuel d.session with
  | none => none
  | some (.error err, session) =>
    some ({ d with session := session }.count i
      fun s ↦ { s with errorCount := s.errorCount + 1 }, .error ("dht store: " ++ err))
  | some (.ok (), session) =>
    some ({ d with session := session }.count i
      fun s ↦ { s with regCount := s.regCount + 1 }, .ok ())

def queryAll (d : Deployment ι) (i : ι) (task : String) :
    Deployment ι × Except String (List String) :=
  let (session, addrs) :=
    (env.host cfg i).find cfg (env.handling d.session.requests).query task d.session
  ({ d with session := session }.count i fun s ↦ { s with queryCount := s.queryCount + 1 },
    .ok addrs)

def tick (d : Deployment ι) : Deployment ι :=
  { d with session := { d.session with requests := d.session.requests + 1 } }

def perform (d : Deployment ι) : RegistryCall ι → Option (Deployment ι × RegistryReply)
  | .register i task address =>
    match d.tick.register cfg env fuel i task address with
    | none => none
    | some (d, result) => some (d, .registered result)
  | .queryAll i task =>
    let (d, result) := d.tick.queryAll cfg env i task
    some (d, .found result)

/-- A sequence of calls, with the replies. -/
def run (d : Deployment ι) : List (RegistryCall ι) → Option (Deployment ι × List RegistryReply)
  | [] => some (d, [])
  | call :: calls =>
    match d.perform cfg env fuel call with
    | none => none
    | some (d, reply) =>
      match run d calls with
      | none => none
      | some (d, replies) => some (d, reply :: replies)

variable {cfg env fuel} {d : Deployment ι} {i : ι} {task address : String} {w : Session ι}

theorem perform_register
    (hstore : (env.host cfg i).store cfg task address fuel d.tick.session = some (.ok (), w)) :
    ∃ d', d.perform cfg env fuel (.register i task address) = some (d', .registered (.ok ()))
      ∧ d'.session = w := by
  refine ⟨{ d.tick with session := w }.count i fun s ↦ { s with regCount := s.regCount + 1 },
    ?_, rfl⟩
  simp only [perform, register, hstore]

theorem perform_queryAll {addrs : List String}
    (hfind : (env.host cfg i).find cfg (env.handling d.tick.session.requests).query task
      d.tick.session = (w, addrs)) :
    ∃ d', d.perform cfg env fuel (.queryAll i task) = some (d', .found (.ok addrs))
      ∧ d'.session = w := by
  refine ⟨{ d.tick with session := w }.count i fun s ↦ { s with queryCount := s.queryCount + 1 },
    ?_, rfl⟩
  simp only [perform, queryAll, hfind]

end Deployment

end TaskDiscovery
