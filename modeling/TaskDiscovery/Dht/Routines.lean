import TaskDiscovery.Dht.Network
import TaskDiscovery.Lib.Run

/-!
# Goroutines and messages in flight

The calls of `Dht.Store` run in one piece. Here the nodes of a cluster run their goroutines
concurrently: joining through the bootstrap nodes, the ticks of the discovery and maintenance loops,
pings, and calls of `Store` and `Find`. A `Routine` says where a goroutine is. Between two steps of
it anything else may happen, in particular between a request, its handling by the receiver and the
arrival of the reply, and any of the three may fail. One step adds at most one peer.

A message is handled by the receiver in one piece. What cannot be known, such as the clock or the
order in which a map is visited, comes with the event.
-/

namespace TaskDiscovery

/-- The connection of a goroutine: it has sent a request, or `sendMessage` has returned. -/
inductive Wire
  | closed
  | request (addr : String) (msg : Message)
  | returned (result : Except String Message)

/-- Where a goroutine of a node is. The loops over the bootstrap nodes of `joinNetwork` and
`peerDiscoveryLoop` differ in one line and share their states; `joining` says which of the two it
is. -/
inductive Routine
  | idle
  /-- At the head of the loop over the bootstrap nodes. -/
  | bootstrapping (joining : Bool) (bootstraps : List String)
  /-- Waiting for the answer of `bootstrap` to `JOIN`. -/
  | joined (joining : Bool) (bootstrap : String) (bootstraps : List String)
  /-- Adding the peers that `bootstrap` has named. -/
  | listed (joining : Bool) (peers : List String) (bootstrap : String) (bootstraps : List String)
  /-- At the start of `pingPeer`. -/
  | ping (addr : String)
  /-- Waiting for the answer to `PING`. -/
  | pinged (addr : String)
  /-- At the head of the loop of `Store`. -/
  | storing (task address : String) (st : StoreState)
  /-- Waiting for the answer to `STORE`. -/
  | sent (task address : String) (st : StoreState)
  /-- Adding the nodes that a `NOT_RESPONSIBLE` answer has named. -/
  | suggested (task address : String) (st : StoreState) (closest : List String)
  /-- At the head of the loop of `Find`, or of the same loop in `forwardLookup`. -/
  | finding (task : String) (nodes : List Node)
  /-- Waiting for the answer to `FIND`. -/
  | asked (task : String) (nodes : List Node)

namespace Routine

variable (now : Time) (dht : DHT)

/-- A `JOIN` call has returned. An unreadable list of peers is skipped together with the bootstrap
node; any other answer counts as an empty list. -/
def joinReply (joining : Bool) (bootstrap : String) (bootstraps : List String) :
    Except String Message → Routine
  | .error _ => bootstrapping joining bootstraps
  | .ok resp =>
    if resp.type = .peerList then
      match resp.payload.decode with
      | none => bootstrapping joining bootstraps
      | some fields => listed joining (fields.peers.getD []) bootstrap bootstraps
    else listed joining [] bootstrap bootstraps

/-- A `STORE` call has returned. The queue depends on the suggested nodes, but not on the peers, so
it is filled before they are added. -/
def storeReply (task address : String) (st : StoreState) : Except String Message → Routine
  | .error err => storing task address { st with lastErr := some err }
  | .ok resp =>
    match resp.type with
    | .ok => storing task address { st with successCount := st.successCount + 1 }
    | .notResponsible =>
      match resp.payload.decode with
      | none => storing task address st
      | some fields =>
        let closest := fields.closest.getD []
        suggested task address (st.redirect (hashTask task) closest) closest
    | _ => storing task address st

/-- A `FIND` call has returned. The search ends with the first addresses. -/
def findReply (task : String) (nodes : List Node) : Except String Message → Routine
  | .error _ => finding task nodes
  | .ok resp =>
    if resp.type = .foundData then
      match resp.payload.decode with
      | none => finding task nodes
      | some fields => if fields.addresses.getD [] = [] then finding task nodes else idle
    else finding task nodes

/-- A goroutine that waits goes on when `sendMessage` has returned. -/
def resume (wire : Wire) (waiting : Routine) (next : Except String Message → DHT × Routine) :
    DHT × Routine × Wire :=
  match wire with
  | .returned result => ((next result).1, (next result).2, .closed)
  | _ => (dht, waiting, wire)

/-- **One step of a goroutine** of the node `dht`. -/
def step (wire : Wire) : Routine → DHT × Routine × Wire
  | idle => (dht, idle, wire)
  | bootstrapping _ [] => (dht, idle, .closed)
  | bootstrapping joining (bootstrap :: bootstraps) =>
    if bootstrap = dht.self.address then (dht, bootstrapping joining bootstraps, .closed)
    else
      (dht, joined joining bootstrap bootstraps,
        .request bootstrap ⟨.join, dht.self.address, .absent⟩)
  | joined joining bootstrap bootstraps =>
    resume dht wire (joined joining bootstrap bootstraps) fun result ↦
      (dht, joinReply joining bootstrap bootstraps result)
  | listed joining (peer :: peers) bootstrap bootstraps =>
    (if peer ≠ dht.self.address then dht.addPeer now peer else dht,
      listed joining peers bootstrap bootstraps, .closed)
  | listed joining [] bootstrap bootstraps =>
    -- only `joinNetwork` adds the bootstrap node, and it does not compare it with the node again
    (if joining then dht.addPeer now bootstrap else dht, bootstrapping joining bootstraps, .closed)
  | ping addr => (dht, pinged addr, .request addr ⟨.ping, dht.self.address, .absent⟩)
  | pinged addr =>
    resume dht wire (pinged addr) fun result ↦
      (match result with
        | .error _ => dht.removePeer (hashAddress addr)
        | .ok _ => dht, idle)
  | storing task address st =>
    match st.queue with
    | [] => (dht, idle, .closed)
    | addr :: queue =>
      let st := { st with queue := queue }
      if addr ∈ st.attempted then (dht, storing task address st, .closed)
      else
        let st := st.attempt addr
        if addr = dht.self.address then
          (dht.storeTask now task address,
            storing task address { st with successCount := st.successCount + 1 }, .closed)
        else
          (dht, sent task address st,
            .request addr (storeMessage dht.self.address task address))
  | sent task address st =>
    resume dht wire (sent task address st) fun result ↦ (dht, storeReply task address st result)
  | suggested task address st (addr :: closest) =>
    (dht.addPeer now addr, suggested task address st closest, .closed)
  | suggested task address st [] => (dht, storing task address st, .closed)
  | finding _ [] => (dht, idle, .closed)
  | finding task (node :: nodes) =>
    if node.id = dht.self.id then (dht, finding task nodes, .closed)
    else
      (dht, asked task nodes, .request node.address (findMessage dht.self.address task))
  | asked task nodes =>
    resume dht wire (asked task nodes) fun result ↦ (dht, findReply task nodes result)

end Routine

/-- The goroutines that a node starts: `joinNetwork`, a tick of `peerDiscoveryLoop`, `pingPeer`, and
the calls of `Store` and `Find` that its process makes. -/
inductive NodeCall
  | joinNetwork
  | discover
  | pingPeer (addr : String)
  | store (task address : String)
  | find (task : String)

/-- Where a goroutine starts. `Find` looks at the node's own storage first if the node is one of the
nearest. A node that is responsible does not forward its lookups, so nothing is asked here. -/
def NodeCall.begin (cfg : Config) (now : Time) (bootstraps : List String) (dht : DHT) :
    NodeCall → Routine
  | joinNetwork => .bootstrapping true bootstraps
  | discover => .bootstrapping false bootstraps
  | pingPeer addr => .ping addr
  | store task address =>
    .storing task address ⟨dht.closestAddrs cfg task, [], 0, none⟩
  | find task =>
    if dht.amIInKClosest task cfg.replicationFactor
        && decide (dht.lookupTask cfg now (fun _ _ ↦ []) task ≠ []) then .idle
    else .finding task (dht.findKClosestNodes task cfg.replicationFactor)

/-- A goroutine: the node it belongs to, where it is, and its connection. -/
structure Goroutine (ι : Type) where
  node : ι
  routine : Routine
  wire : Wire

/-- Nodes with their bootstrap lists, and their goroutines. -/
structure Cluster (ι κ : Type) where
  net : Net ι
  bootstraps : ι → List String
  goroutines : κ → Goroutine ι

inductive Cluster.Event (ι κ : Type)
  /-- A node starts, with its listener bound to the address. -/
  | start (i : ι) (boundAddr : String)
  /-- A goroutine that has ended is used for a new call. A ping may be for any address: the peers
  were listed when the maintenance loop ticked, which may be long ago. -/
  | spawn (t : κ) (i : ι) (now : Time) (call : NodeCall)
  /-- A goroutine takes a step. -/
  | step (t : κ) (now : Time)
  /-- The request of a goroutine reaches its receiver and is handled. -/
  | deliver (t : κ) (h : Handling)
  /-- The request or the reply is lost, or a deadline has passed. -/
  | fail (t : κ) (err : String)
  /-- The cleanup of a maintenance tick. -/
  | cleanup (i : ι) (now : Time)

namespace Cluster

variable {ι κ : Type} [DecidableEq ι] [DecidableEq κ]

def setGoroutine (c : Cluster ι κ) (t : κ) (g : Goroutine ι) : Cluster ι κ :=
  { c with goroutines := Function.update c.goroutines t g }

def owner (c : Cluster ι κ) (t : κ) : DHT := c.net.nodes (c.goroutines t).node

/-- **One event.** -/
def act (cfg : Config) (c : Cluster ι κ) : Event ι κ → Cluster ι κ
  | .start i boundAddr => { c with net := c.net.setNode i ((c.net.nodes i).start boundAddr) }
  | .spawn t i now call =>
    match (c.goroutines t).routine with
    | .idle =>
      c.setGoroutine t ⟨i, call.begin cfg now (c.bootstraps i) (c.net.nodes i), .closed⟩
    | _ => c
  | .step t now =>
    let g := c.goroutines t
    let (dht, routine, wire) := g.routine.step now (c.owner t) g.wire
    { c.setGoroutine t ⟨g.node, routine, wire⟩ with net := c.net.setNode g.node dht }
  | .deliver t h =>
    let g := c.goroutines t
    match g.wire with
    | .request addr msg =>
      let (net, result) := c.net.deliver cfg h addr msg
      { c.setGoroutine t { g with wire := .returned result } with net := net }
    | _ => c
  | .fail t err =>
    let g := c.goroutines t
    match g.wire with
    | .closed => c
    | _ => c.setGoroutine t { g with wire := .returned (.error err) }
  | .cleanup i now =>
    { c with net := c.net.setNode i (((c.net.nodes i).cleanupExpiredRegistrations now
      cfg.serviceHeartbeatTimeout).cleanupStaleData cfg) }

/-! ## A goroutine left alone

When nothing else happens, the goroutine of a call of `Store` computes what `Host.storeStep`
does. -/

/-- The cluster with another network, where goroutine `t` of node `i` is at `r`. -/
def running (c : Cluster ι κ) (t : κ) (i : ι) (net : Net ι) (r : Routine) (wire : Wire) :
    Cluster ι κ :=
  { c with net := net, goroutines := Function.update c.goroutines t ⟨i, r, wire⟩ }

variable {cfg : Config} {c : Cluster ι κ} {t : κ} {i : ι} {net : Net ι} {r : Routine} {wire : Wire}

theorem running_step (cfg : Config) (now : Time) :
    (c.running t i net r wire).act cfg (.step t now)
      = c.running t i (net.setNode i (r.step now (net.nodes i) wire).1)
        (r.step now (net.nodes i) wire).2.1 (r.step now (net.nodes i) wire).2.2 := by
  simp [act, running, setGoroutine, owner]

theorem running_deliver (h : Handling) (addr : String) (msg : Message) :
    (c.running t i net r (.request addr msg)).act cfg (.deliver t h)
      = c.running t i (net.deliver cfg h addr msg).1 r
        (.returned (net.deliver cfg h addr msg).2) := by
  simp [act, running, setGoroutine]

theorem exec_suggested (now : Time) (task address : String) (st : StoreState)
    (closest : List String) :
    Run.exec (act cfg) (c.running t i net (.suggested task address st closest) .closed)
        (List.replicate (closest.length + 1) (.step t now))
      = c.running t i
        (net.setNode i (closest.foldl (fun dht addr ↦ dht.addPeer now addr) (net.nodes i)))
        (.storing task address st) .closed := by
  induction closest generalizing net with
  | nil => exact running_step cfg now
  | cons addr closest ih =>
    rw [List.length_cons, List.replicate_succ, Run.exec_cons, running_step]
    simp only [Routine.step]
    rw [ih, Net.setNode_nodes_self, Net.setNode_setNode]
    rfl

/-- The step with which a goroutine takes note of the answer to its `STORE` request. -/
theorem exec_sent (cfg : Config) (c : Cluster ι κ) (t : κ) (i : ι) (net : Net ι)
    (task address : String) (st : StoreState) (result : Except String Message) :
    Run.exec (act cfg) (c.running t i net (.sent task address st) (.returned result)) [.step t 0]
      = c.running t i net (Routine.storeReply task address st result) .closed := by
  rw [Run.exec_cons, Run.exec_nil, running_step]
  simp only [Routine.step, Routine.resume, Net.setNode_eq_self]

theorem exec_storeReply (cfg : Config) (c : Cluster ι κ) (t : κ) (i : ι) (env : Environment ι)
    (task address : String) (st : StoreState) (resp : Message) (w : Session ι) :
    ∃ events, Run.exec (act cfg)
        (c.running t i w.net (.sent task address st) (.returned (.ok resp))) events
      = c.running t i ((env.host cfg i).storeReply task resp st w).2.net
        (.storing task address ((env.host cfg i).storeReply task resp st w).1) .closed := by
  have hsent := exec_sent cfg c t i w.net task address st (.ok resp)
  by_cases hnot : resp.type = .notResponsible
  · rcases hpayload : resp.payload.decode with _ | fields
    · refine ⟨_, hsent.trans ?_⟩
      simp only [Routine.storeReply, Host.storeReply, hnot, hpayload]
    · refine ⟨[.step t 0] ++ List.replicate ((fields.closest.getD []).length + 1)
        (.step t (env.handling w.requests).now), ?_⟩
      simp only [Routine.storeReply, hnot, hpayload] at hsent
      rw [Run.exec_append, hsent, exec_suggested]
      simp only [Host.storeReply, hnot, hpayload]
      rfl
  · -- an acceptance is counted, and any other reply is passed over
    refine ⟨_, hsent.trans ?_⟩
    rcases htype : resp.type <;> simp only [Routine.storeReply, Host.storeReply, htype]
    exact absurd htype hnot

/-- **One turn of `Store` in steps.** In an environment in which nothing else happens, some steps of
the goroutine take it from one turn of the loop to the next. -/
theorem exec_storeStep (cfg : Config) (c : Cluster ι κ) (t : κ) (i : ι) {env : Environment ι}
    (hquiet : ∀ n net, env.grow n net = net) (task address : String) (s : StoreState × Session ι) :
    ∃ events, Run.exec (act cfg) (c.running t i s.2.net (.storing task address s.1) .closed) events
      = c.running t i ((env.host cfg i).storeStep task address s).2.net
        (.storing task address ((env.host cfg i).storeStep task address s).1) .closed := by
  obtain ⟨st, net, n⟩ := s
  rw [Host.storeStep]
  rcases hq : st.queue with _ | ⟨addr, queue⟩
  · exact ⟨[], rfl⟩
  simp only [Host.storeAt]
  split_ifs with hseen hlocal
  · refine ⟨[.step t 0], ?_⟩
    rw [Run.exec_cons, Run.exec_nil, running_step]
    simp only [Routine.step, hq, if_pos hseen, Net.setNode_eq_self]
  · refine ⟨[.step t (env.handling n).now], ?_⟩
    have hself : addr = (net.nodes i).self.address := hlocal
    rw [Run.exec_cons, Run.exec_nil, running_step]
    simp only [Routine.step, hq, if_neg hseen, if_pos hself]
    rfl
  · have hself : ¬addr = (net.nodes i).self.address := hlocal
    set msg := storeMessage (net.nodes i).self.address task address with hmsg
    -- send the request, and have it handled
    have hrequest : Run.exec (act cfg) (c.running t i net (.storing task address st) .closed)
        [.step t 0, .deliver t (env.handling n)]
        = c.running t i (net.deliver cfg (env.handling n) addr msg).1
          (.sent task address (StoreState.attempt addr { st with queue := queue }))
          (.returned (net.deliver cfg (env.handling n) addr msg).2) := by
      rw [Run.exec_cons, Run.exec_cons, Run.exec_nil, running_step]
      simp only [Routine.step, hq, if_neg hseen, if_neg hself, Net.setNode_eq_self,
        running_deliver, ← hmsg]
    have hsend : (env.host cfg i).send addr
        (storeMessage ((env.host cfg i).dht ⟨net, n⟩).self.address task address) ⟨net, n⟩
        = (⟨(net.deliver cfg (env.handling n) addr msg).1, n + 1⟩,
          (net.deliver cfg (env.handling n) addr msg).2) := by
      simp only [Environment.host, hquiet, hmsg]
    simp only [hsend]
    generalize net.deliver cfg (env.handling n) addr msg = delivered at hrequest
    obtain ⟨net', err | resp⟩ := delivered
    · refine ⟨[.step t 0, .deliver t (env.handling n)] ++ [.step t 0], ?_⟩
      rw [Run.exec_append, hrequest, exec_sent, Routine.storeReply]
    · obtain ⟨events, hevents⟩ := exec_storeReply cfg c t i env task address
        (StoreState.attempt addr { st with queue := queue }) resp ⟨net', n + 1⟩
      exact ⟨[.step t 0, .deliver t (env.handling n)] ++ events,
        by rw [Run.exec_append, hrequest, hevents]⟩

/-- **`Store` in steps.** Left alone, a goroutine that calls `Store` goes through the turns of
`Host.storeTurns`. -/
theorem exec_storeTurns (cfg : Config) (c : Cluster ι κ) (t : κ) (i : ι) {env : Environment ι}
    (hquiet : ∀ n net, env.grow n net = net) (now : Time) (task address : String)
    (hidle : (c.goroutines t).routine = .idle) (turns : ℕ) :
    ∃ events, Run.exec (act cfg) c (.spawn t i now (.store task address) :: events)
      = c.running t i ((env.host cfg i).storeTurns cfg task address turns ⟨c.net, 0⟩).2.net
        (.storing task address ((env.host cfg i).storeTurns cfg task address turns ⟨c.net, 0⟩).1)
        .closed := by
  rw [Host.storeTurns]
  induction turns with
  | zero =>
    refine ⟨[], ?_⟩
    simp only [Run.exec_cons, Run.exec_nil, act, hidle]
    rfl
  | succ turns ih =>
    obtain ⟨events, hevents⟩ := ih
    rw [Function.iterate_succ_apply']
    generalize (fun s ↦ (env.host cfg i).storeStep task address s)^[turns]
      ((env.host cfg i).storeInit cfg task ⟨c.net, 0⟩, ⟨c.net, 0⟩) = s at hevents ⊢
    obtain ⟨events', hevents'⟩ := exec_storeStep cfg c t i hquiet task address s
    exact ⟨events ++ events', by rw [← List.cons_append, Run.exec_append, hevents, hevents']⟩

end Cluster

end TaskDiscovery
