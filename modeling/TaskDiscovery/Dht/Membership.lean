import Mathlib.Data.Fintype.Basic
import TaskDiscovery.Dht.Routines
import TaskDiscovery.Lib.Run

/-!
# The ring lists every node once

The ring of a node should be strictly ascending and list the node and its peers, the node itself not
being one of them. Then each of the `k` nearest positions is a different node. `rebuildRing` sees to
everything but the last part (`ringInvariant_iff`), and the last part is left to the callers of
`AddPeer`.

They compare addresses, if anything, while the ring compares the hashes of canonical addresses. A
bootstrap node is compared with the node by its text before the `JOIN` request, and the nodes named
by a `NOT_RESPONSIBLE` answer are not compared at all. So a node can add itself
(`selfBootstrap_doubled`), and it does whenever it is told so: `always_ringInvariant_iff`.
-/

namespace TaskDiscovery

namespace DHT

variable {dht : DHT} {now : Time}

theorem cleanup_frame (cfg : Config) (dht : DHT) (now : Time) :
    ((dht.cleanupExpiredRegistrations now cfg.serviceHeartbeatTimeout).cleanupStaleData cfg).self
        = dht.self
      ∧ ((dht.cleanupExpiredRegistrations now cfg.serviceHeartbeatTimeout).cleanupStaleData
        cfg).peers = dht.peers := by
  rw [cleanupExpiredRegistrations]
  split_ifs <;> exact ⟨rfl, rfl⟩

theorem handleStore_frame (cfg : Config) (h : Handling) (dht : DHT) (payload : Payload) :
    (dht.handleStore cfg h payload).1.self = dht.self
      ∧ (dht.handleStore cfg h payload).1.peers = dht.peers := by
  rw [handleStore]
  split
  · exact ⟨rfl, rfl⟩
  · dsimp only
    split_ifs <;> exact ⟨rfl, rfl⟩

/-- Handling a message changes the peers by adding the sender only. -/
theorem handleMessage_frame (cfg : Config) (h : Handling) (dht : DHT) (msg : Message) :
    (dht.handleMessage cfg h msg).1.self = (dht.greet h.now msg.sender).self
      ∧ (dht.handleMessage cfg h msg).1.peers = (dht.greet h.now msg.sender).peers := by
  rw [handleMessage]
  dsimp only
  split
  case h_3 => exact handleStore_frame ..
  all_goals exact ⟨rfl, rfl⟩

theorem ringInvariant_handleMessage (hring : dht.RingInvariant) (cfg : Config) (h : Handling)
    (msg : Message) :
    (dht.handleMessage cfg h msg).1.RingInvariant ↔ dht.Foreign msg.sender := by
  obtain ⟨hself, hpeers⟩ := dht.handleMessage_frame cfg h msg
  rw [ringInvariant_congr hself hpeers, ringInvariant_greet hring]

end DHT

namespace Routine

/-- The address that the next step of a goroutine of `dht` passes to `AddPeer`. -/
def adds (dht : DHT) : Routine → Option String
  | listed _ (peer :: _) _ _ => if peer ≠ dht.self.address then some peer else none
  | listed joining [] bootstrap _ => if joining then some bootstrap else none
  | suggested _ _ _ (addr :: _) => some addr
  | _ => none

variable {dht : DHT} {now : Time} {wire : Wire}

theorem ringInvariant_resume (h : dht.RingInvariant) {waiting : Routine}
    {next : Except String Message → DHT × Routine}
    (hnext : ∀ result, (next result).1.RingInvariant) :
    (resume dht wire waiting next).1.RingInvariant := by
  cases wire with
  | returned result => exact hnext result
  | closed => exact h
  | request addr msg => exact h

theorem ringInvariant_storing (h : dht.RingInvariant) (task address : String) (st : StoreState) :
    ((storing task address st).step now dht wire).1.RingInvariant := by
  rw [step]
  split
  · exact h
  · dsimp only
    split_ifs
    · exact h
    · exact h.storeTask now task address
    · exact h

/-- **One step of a goroutine.** It keeps the invariant of its node exactly if what it adds is at
another position. -/
theorem ringInvariant_step (h : dht.RingInvariant) (r : Routine) :
    (r.step now dht wire).1.RingInvariant
      ↔ ∀ addr ∈ r.adds dht, hashAddress addr ≠ dht.self.id := by
  have hquiet {dht' : DHT} (hkeep : dht'.RingInvariant) :
      dht'.RingInvariant ↔ ∀ addr ∈ (none : Option String), hashAddress addr ≠ dht.self.id :=
    iff_of_true hkeep fun _ haddr ↦ absurd haddr (Option.not_mem_none _)
  cases r with
  | listed joining peers bootstrap bootstraps =>
    cases peers with
    | nil => cases joining <;> simp [step, adds, h, DHT.ringInvariant_addPeer]
    | cons peer peers =>
      by_cases hpeer : peer = dht.self.address <;>
        simp [step, adds, hpeer, h, DHT.ringInvariant_addPeer]
  | suggested task address st closest =>
    cases closest <;> simp [step, adds, h, DHT.ringInvariant_addPeer]
  | idle => exact hquiet h
  | ping addr => exact hquiet h
  | bootstrapping joining bootstraps =>
    refine hquiet ?_
    cases bootstraps with
    | nil => exact h
    | cons bootstrap bootstraps =>
      rw [step]
      split_ifs <;> exact h
  | finding task nodes =>
    refine hquiet ?_
    cases nodes with
    | nil => exact h
    | cons node nodes =>
      rw [step]
      split_ifs <;> exact h
  | storing task address st => exact hquiet (ringInvariant_storing h task address st)
  | joined joining bootstrap bootstraps => exact hquiet (ringInvariant_resume h fun _ ↦ h)
  | sent task address st => exact hquiet (ringInvariant_resume h fun _ ↦ h)
  | asked task nodes => exact hquiet (ringInvariant_resume h fun _ ↦ h)
  | pinged addr =>
    refine hquiet (ringInvariant_resume h fun result ↦ ?_)
    cases result with
    | error err => exact h.removePeer _
    | ok resp => exact h

end Routine

variable {ι κ : Type}

/-- The request on the wire, if it is delivered, does not make its receiver its own peer. -/
def Wire.Foreign (net : Net ι) : Wire → Prop
  | .request addr msg => ∀ j ∈ net.resolve addr, (net.nodes j).Foreign msg.sender
  | _ => True

instance (net : Net ι) : ∀ wire : Wire, Decidable (wire.Foreign net)
  | .request addr msg =>
    inferInstanceAs (Decidable (∀ j ∈ net.resolve addr, (net.nodes j).Foreign msg.sender))
  | .closed => .isTrue trivial
  | .returned _ => .isTrue trivial

namespace Cluster

/-- The ring of every node is in order. -/
def RingsOrdered (c : Cluster ι κ) : Prop := ∀ i, (c.net.nodes i).RingInvariant

instance [Fintype ι] (c : Cluster ι κ) : Decidable c.RingsOrdered :=
  inferInstanceAs (Decidable (∀ i, (c.net.nodes i).RingInvariant))

/-- No node is made its own peer: a node does not start at a position that it has filed a peer
under; the sender of a handled message, unless it is empty or the node's own address, is at another
position; and so is an address that a goroutine is about to add. -/
def NoSelfAdd (c : Cluster ι κ) : Event ι κ → Prop
  | .start i boundAddr =>
    hashAddress ((c.net.nodes i).advertised boundAddr) ∉ (c.net.nodes i).peers
  | .step t _ =>
    ∀ addr ∈ (c.goroutines t).routine.adds (c.owner t), hashAddress addr ≠ (c.owner t).self.id
  | .deliver t _ => (c.goroutines t).wire.Foreign c.net
  | _ => True

instance (c : Cluster ι κ) : ∀ e, Decidable (c.NoSelfAdd e)
  | .start i boundAddr => inferInstanceAs (Decidable
      (hashAddress ((c.net.nodes i).advertised boundAddr) ∉ (c.net.nodes i).peers))
  | .step t _ => inferInstanceAs (Decidable (∀ addr ∈ (c.goroutines t).routine.adds (c.owner t),
      hashAddress addr ≠ (c.owner t).self.id))
  | .deliver t _ => inferInstanceAs (Decidable ((c.goroutines t).wire.Foreign c.net))
  | .spawn .. => .isTrue trivial
  | .fail .. => .isTrue trivial
  | .cleanup .. => .isTrue trivial

variable [DecidableEq ι]

theorem ringsOrdered_setNode {c : Cluster ι κ} (h : c.RingsOrdered) (i : ι) (dht : DHT)
    (goroutines : κ → Goroutine ι) :
    RingsOrdered { c with net := c.net.setNode i dht, goroutines := goroutines }
      ↔ dht.RingInvariant := by
  constructor
  · intro h'
    have hi : ((c.net.setNode i dht).nodes i).RingInvariant := h' i
    rwa [Net.setNode_nodes_self] at hi
  · intro hdht j
    change ((c.net.setNode i dht).nodes j).RingInvariant
    by_cases hj : j = i
    · rwa [hj, Net.setNode_nodes_self]
    · rw [Net.setNode_nodes_of_ne hj]
      exact h j

theorem ringsOrdered_deliver {c : Cluster ι κ} (h : c.RingsOrdered) (cfg : Config) (hh : Handling)
    (addr : String) (msg : Message) (goroutines : κ → Goroutine ι) :
    RingsOrdered { c with net := (c.net.deliver cfg hh addr msg).1, goroutines := goroutines }
      ↔ ∀ j ∈ c.net.resolve addr, (c.net.nodes j).Foreign msg.sender := by
  rw [Net.deliver_fst]
  rcases c.net.resolve addr with _ | j
  · exact iff_of_true h (by simp)
  · refine (ringsOrdered_setNode h j _ _).trans ?_
    rw [DHT.ringInvariant_handleMessage (h j)]
    simp

variable [DecidableEq κ]

/-- **One event** keeps the rings in order exactly if it makes no node its own peer. -/
theorem ringsOrdered_act (cfg : Config) {c : Cluster ι κ} (h : c.RingsOrdered) (e : Event ι κ) :
    (c.act cfg e).RingsOrdered ↔ c.NoSelfAdd e := by
  cases e with
  | start i boundAddr =>
    exact (ringsOrdered_setNode h i _ c.goroutines).trans (DHT.ringInvariant_start boundAddr)
  | spawn t i now call =>
    refine iff_of_true ?_ trivial
    rw [act]
    split <;> exact h
  | step t now =>
    exact (ringsOrdered_setNode h _ _ _).trans (Routine.ringInvariant_step (h _) _)
  | deliver t hh =>
    simp only [act, NoSelfAdd]
    cases (c.goroutines t).wire with
    | request addr msg => exact ringsOrdered_deliver h cfg hh addr msg _
    | closed => exact iff_of_true h trivial
    | returned result => exact iff_of_true h trivial
  | fail t err =>
    refine iff_of_true ?_ trivial
    simp only [act]
    split <;> exact h
  | cleanup i now =>
    obtain ⟨hself, hpeers⟩ := (c.net.nodes i).cleanup_frame cfg now
    refine iff_of_true ((ringsOrdered_setNode h i _ c.goroutines).mpr ?_) trivial
    exact (DHT.ringInvariant_congr hself hpeers).mpr (h i)

/-- **The rings stay in order exactly if no node is made its own peer.** In any cluster whose rings
are in order, whatever is in flight, and for any order of events. -/
theorem always_ringInvariant_iff (cfg : Config) (c : Cluster ι κ) (hc : c.RingsOrdered)
    (events : List (Event ι κ)) :
    Run.Always (act cfg) RingsOrdered c events ↔ Run.Meets (act cfg) NoSelfAdd c events := by
  have hstep (c : Cluster ι κ) (e : Event ι κ) (_ : True) (_ : True) (h : c.RingsOrdered) :
      (c.act cfg e).RingsOrdered ↔ c.NoSelfAdd e := ringsOrdered_act cfg h e
  exact Run.always_iff_meets (fun _ _ _ _ ↦ trivial) hstep (fun _ _ ↦ trivial) trivial hc

/-- A cluster whose nodes run nothing yet. -/
def ofNet (net : Net ι) (bootstraps : ι → List String) (node : κ → ι) : Cluster ι κ :=
  ⟨net, bootstraps, fun t ↦ ⟨node t, .idle, .closed⟩⟩

/-- Two nodes that do not know of each other; the second is the bootstrap node of the first. -/
def twoStrangers : Cluster (Fin 2) Unit :=
  ofNet (.hosts 2 fun _ ↦ []) (fun _ ↦ [Net.hostAddr 2 1]) fun _ ↦ 0

/-- The first node starts and joins through the second. -/
def joinOther : List (Event (Fin 2) Unit) :=
  [.start 0 (Net.hostAddr 2 0), .spawn () 0 0 .joinNetwork, .step () 0, .deliver () (.still 0),
    .step () 0, .step () 0, .step () 0]

theorem joinOther_always_ringInvariant :
    Run.Always (act ⟨2, 60⟩) RingsOrdered twoStrangers joinOther
      ∧ hashAddress (Net.hostAddr 2 1)
        ∈ ((Run.exec (act ⟨2, 60⟩) twoStrangers joinOther).net.nodes 0).peers :=
  ⟨(always_ringInvariant_iff ⟨2, 60⟩ twoStrangers (by decide +kernel) joinOther).mpr
    (by decide +kernel), by decide +kernel⟩

/-- One node that listens on all interfaces and has itself, under another name, as bootstrap
node. -/
def selfBootstrap : Cluster (Fin 1) Unit :=
  ofNet (.ofViews (fun _ ↦ ":6001") (fun _ ↦ [])
      (fun a ↦ if a = "127.0.0.1:6001" ∨ a = "localhost:6001" then some 0 else none) 0)
    (fun _ ↦ ["localhost:6001"]) fun _ ↦ 0

/-- The node starts, sends itself the `JOIN` request, and adds its bootstrap node. -/
def joinItself : List (Event (Fin 1) Unit) :=
  [.start 0 "[::]:6001", .spawn () 0 0 .joinNetwork, .step () 0, .deliver () (.still 0), .step () 0,
    .step () 0]

/-- Three nodes: the first knows the second, and the others know everybody. -/
def threeHosts : Cluster (Fin 3) Unit :=
  ofNet (.hosts 3 fun i ↦ if i = 0 then [1] else if i = 1 then [0, 2] else [0, 1]) (fun _ ↦ [])
    fun _ ↦ 0

/-- The first node stores a registration locally, then asks the second to, which is not responsible
and names the two nodes that are: the third and the first. -/
def storeRedirected : List (Event (Fin 3) Unit) :=
  [.spawn () 0 0 (.store "scan" "10.1.0.1:80"), .step () 0, .step () 0, .deliver () (.still 0),
    .step () 0, .step () 0, .step () 0]

/-- **A node adds itself.** Through a bootstrap node that is itself under another name, and through
an honest answer to its own `STORE` request. -/
theorem selfBootstrap_doubled :
    (selfBootstrap.RingsOrdered
        ∧ ¬Run.Always (act ⟨2, 60⟩) RingsOrdered selfBootstrap joinItself)
      ∧ threeHosts.RingsOrdered
        ∧ ¬Run.Always (act ⟨2, 60⟩) RingsOrdered threeHosts storeRedirected := by
  refine ⟨⟨by decide +kernel, fun h ↦ ?_⟩, by decide +kernel, fun h ↦ ?_⟩
  · exact absurd (h _ (List.prefix_refl _)) (by decide +kernel)
  · exact absurd (h _ (List.prefix_refl _)) (by decide +kernel)

end Cluster

end TaskDiscovery
