import TaskDiscovery.Dht.ReadYourWrites
import TaskDiscovery.Dht.Search
import TaskDiscovery.Lib.Rows
import TaskDiscovery.Lib.SharedCursor

/-!
# Rotation over the instances of a task

`DHTRegistry.Query` keeps a cursor for each task and returns the address at the cursor, in a list
that it fetches anew with every call. The list comes from the storage of the node itself or from
that of another one, and different owners of a task may hold its addresses in different orders. A
cursor goes round a list only if it is the same list every time.

In a converged network it is. A node always reads from the same owner: from itself if it is one, and
otherwise from the nearest (`DHT.sourceID`). Queries change no storage, and the nodes that a query
reaches know its sender already. So as many queries at one node as there are addresses return each
of them once, whatever is asked elsewhere in between (`queries_rotate`).
-/

namespace TaskDiscovery

/-! ## The registries -/

/-- The registries of a network, with the cursors of each. -/
structure Registries (ι : Type) extends Deployment ι where
  roundRobinCursor : ι → SyncMap String Int64

/-- The calls that register nothing. -/
inductive LookupCall (ι : Type)
  | query (i : ι) (task : String)
  | queryAll (i : ι) (task : String)
  deriving DecidableEq

inductive LookupReply
  | one (result : Except String String)
  | all (result : Except String (List String))
  /-- The index is out of range. -/
  | panics

/-- The element of a slice at an index that may be negative. -/
def elementAt {α : Type} (l : List α) : Int → Option α
  | .ofNat n => l[n]?
  | .negSucc _ => none

namespace Registries

variable {ι : Type} [DecidableEq ι] (cfg : Config) (env : Environment ι)

/-- The counter of a node for a task, which is zero until it is first used. -/
def cursor (r : Registries ι) (i : ι) (task : String) : Int64 :=
  (r.roundRobinCursor i task).getD 0

def query (r : Registries ι) (i : ι) (task : String) : Registries ι × LookupReply :=
  let (session, addrs) :=
    (env.host cfg i).find cfg (env.handling r.session.requests).query task r.session
  let d := { r.toDeployment with session := session }.count i
    fun s ↦ { s with queryCount := s.queryCount + 1 }
  if addrs = [] then ({ r with toDeployment := d }, .one (.ok ""))
  else
    let counter := r.cursor i task + 1
    let idx := (counter - 1).toInt.tmod addrs.length
    ({ toDeployment := d,
       roundRobinCursor := Function.update r.roundRobinCursor i
        ((r.roundRobinCursor i).store task counter) },
      match elementAt addrs idx with
      | some addr => .one (.ok addr)
      | none => .panics)

def perform (r : Registries ι) : LookupCall ι → Registries ι × LookupReply
  | .query i task => query cfg env { r with toDeployment := r.tick } i task
  | .queryAll i task =>
    let (d, result) := r.tick.queryAll cfg env i task
    ({ r with toDeployment := d }, .all result)

end Registries

/-! ## What a lookup leaves behind -/

/-- **The invariant rule for `Find`.** What the requests to the listed nodes keep, the loop
keeps. -/
theorem Host.findFrom_invariant {W : Type} {host : Host W} {task : String} (Inv : W → Prop)
    {nodes : List Node}
    (hsend : ∀ node ∈ nodes, ∀ w, Inv w → node.id ≠ (host.dht w).self.id →
      Inv (host.send node.address (findMessage (host.dht w).self.address task) w).1)
    {w : W} (hw : Inv w) : Inv (host.findFrom task nodes w).1 := by
  induction nodes generalizing w with
  | nil => exact hw
  | cons node nodes ih =>
    have hrest : ∀ {w}, Inv w → Inv (host.findFrom task nodes w).1 :=
      ih fun node' hnode' ↦ hsend node' (List.mem_cons_of_mem _ hnode')
    rw [findFrom]
    by_cases hself : node.id = (host.dht w).self.id
    · rw [if_pos hself]
      exact hrest hw
    have hnext := hsend node List.mem_cons_self w hw hself
    rw [if_neg hself]
    generalize host.send node.address (findMessage (host.dht w).self.address task) w = reply
      at hnext ⊢
    obtain ⟨w', err | resp⟩ := reply
    · exact hrest hnext
    · simp only
      split_ifs
      · split
        · exact hrest hnext
        · split_ifs
          · exact hnext
          · exact hrest hnext
      · exact hrest hnext

theorem Host.find_fst {W : Type} (host : Host W) (cfg : Config)
    (query : String → String → List String) (task : String) (w : W) :
    (host.find cfg query task w).1 = w
      ∨ (host.find cfg query task w).1
        = (host.findFrom task ((host.dht w).findKClosestNodes task cfg.replicationFactor) w).1 := by
  rw [Host.find_eq rfl]
  generalize (if (host.dht w).amIInKClosest task cfg.replicationFactor then _ else _) = addrs
  by_cases hne : addrs ≠ []
  · exact .inl (by rw [if_pos hne])
  · exact .inr (by rw [if_neg hne])

variable {ι : Type} {cfg : Config} {handling : ℕ → Handling} {task : String}

/-- A converged network in which nothing has been stored or dropped since it was `net₀`. -/
structure Net.Undisturbed (net₀ net : Net ι) : Prop where
  converged : net.Converged
  self : ∀ j, (net.nodes j).self = (net₀.nodes j).self
  knows : ∀ j addr, (net₀.nodes j).Knows addr → (net.nodes j).Knows addr
  storage : ∀ j, (net.nodes j).storage = (net₀.nodes j).storage

theorem Net.Undisturbed.refl {net : Net ι} (h : net.Converged) : net.Undisturbed net :=
  ⟨h, fun _ ↦ rfl, fun _ _ h ↦ h, fun _ ↦ rfl⟩

theorem Net.Undisturbed.trans {net₁ net₂ net₃ : Net ι} (h : net₁.Undisturbed net₂)
    (h' : net₂.Undisturbed net₃) : net₁.Undisturbed net₃ :=
  ⟨h'.converged, fun j ↦ (h'.self j).trans (h.self j),
    fun j addr ha ↦ h'.knows j addr (h.knows j addr ha),
    fun j ↦ (h'.storage j).trans (h.storage j)⟩

section Lookups

variable [DecidableEq ι] {net₀ net : Net ι} {i : ι}

theorem Net.Undisturbed.send (h : net₀.Undisturbed net) (cfg : Config) (handling : ℕ → Handling)
    (task : String) {node : Node} (hknows : (net₀.nodes i).Knows node.address)
    (hhash : hashAddress node.address = node.id) (hself : node.id ≠ (net.nodes i).self.id) (n : ℕ) :
    net₀.Undisturbed (((Environment.alone handling).host cfg i).send node.address
      (findMessage (net.nodes i).self.address task) ⟨net, n⟩).1.net := by
  obtain ⟨j, hres, hpos⟩ := h.converged.honest i _ (h.knows i _ hknows)
  have hij : i ≠ j := by
    rintro rfl
    exact hself (hhash.symm.trans hpos.symm)
  have hnet : (((Environment.alone handling).host cfg i).send node.address
      (findMessage (net.nodes i).self.address task) ⟨net, n⟩).1.net
      = net.setNode j ((net.nodes j).greet (handling n).now (net.nodes i).self.address) := by
    change (net.deliver cfg (handling n) node.address _).1 = _
    rw [Net.deliver_fst, hres]
    simp only [DHT.handleMessage_find]
  obtain ⟨hgrows, hconverged, hstorage⟩ := h.converged.greet hij (handling n).now
  rw [hnet]
  exact h.trans ⟨hconverged, hgrows.self, hgrows.knows, hstorage⟩

/-- **A lookup** leaves the network undisturbed. -/
theorem Net.Converged.undisturbed_find (h : net.Converged) (cfg : Config)
    (handling : ℕ → Handling) (i : ι) (query : String → String → List String) (task : String)
    (n : ℕ) :
    net.Undisturbed
      (((Environment.alone handling).host cfg i).find cfg query task ⟨net, n⟩).1.net := by
  rcases Host.find_fst ((Environment.alone handling).host cfg i) cfg query task ⟨net, n⟩ with
    hlocal | hloop
  · rw [hlocal]
    exact .refl h
  · rw [hloop]
    refine Host.findFrom_invariant (fun w : Session ι ↦ net.Undisturbed w.net) ?_ (.refl h)
    intro node hnode w hw hself
    exact hw.send cfg handling task (DHT.knows_of_mem_findKClosestNodes hnode)
      (DHT.hashAddress_of_mem_findKClosestNodes hnode).1 hself w.requests

end Lookups

/-! ## Where a node reads -/

/-- The position of the owner that a node reads from: its own if it is responsible, and otherwise
the nearest to the task. -/
def DHT.sourceID (dht : DHT) (cfg : Config) (task : String) : Option NodeID :=
  if dht.amIInKClosest task cfg.replicationFactor then some dht.self.id
  else (dht.closestIDs task cfg.replicationFactor).head?

/-- The unexpired addresses that a node holds for a task. -/
def Net.activeAt (net : Net ι) (cfg : Config) (task : String) (t : ι) (now : Time) : List String :=
  DHT.activeAddresses ((net.nodes t).storage.slice task) now cfg.serviceHeartbeatTimeout

theorem Net.Converged.mem_ring_iff {net : Net ι} (h : net.Converged) {j : ι} {id : NodeID} :
    id ∈ (net.nodes j).ring ↔ ∃ l, (net.nodes l).self.id = id := by
  refine ⟨h.honest.exists_of_mem_ring, ?_⟩
  rintro ⟨l, rfl⟩
  exact h.sees j l

theorem Net.Undisturbed.sourceID_eq {net₀ net : Net ι} (h : net₀.Undisturbed net)
    (hnet₀ : net₀.Converged) (cfg : Config) (task : String) (i : ι) :
    (net.nodes i).sourceID cfg task = (net₀.nodes i).sourceID cfg task := by
  have hring : (net.nodes i).ring.Perm (net₀.nodes i).ring := by
    refine (List.perm_ext_iff_of_nodup (DHT.nodup_ring (h.converged.ring i).self_notMem)
      (DHT.nodup_ring (hnet₀.ring i).self_notMem)).mpr fun id ↦ ?_
    rw [h.converged.mem_ring_iff, hnet₀.mem_ring_iff]
    simp only [h.self]
  have hclosest : (net.nodes i).closestIDs task cfg.replicationFactor
      = (net₀.nodes i).closestIDs task cfg.replicationFactor :=
    hring.nearest_eq (distance_injective _)
  have hresp : (net.nodes i).amIInKClosest task cfg.replicationFactor
      = (net₀.nodes i).amIInKClosest task cfg.replicationFactor := by
    rw [Bool.eq_iff_iff, DHT.amIInKClosest_iff, DHT.amIInKClosest_iff, hclosest, h.self]
  rw [DHT.sourceID, DHT.sourceID, hresp, hclosest, h.self]

section Sources

variable [Fintype ι] [DecidableEq ι] {net : Net ι} {i : ι}

theorem Net.Converged.answer_eq (h : net.Converged) {t : ι} (ht : t ∈ net.owners cfg task)
    (hit : i ≠ t) {addr : String} (hknows : (net.nodes i).Knows addr)
    (hhash : hashAddress addr = (net.nodes t).self.id) (now : Time) :
    net.answer cfg now (net.nodes i).self.address task addr = net.activeAt cfg task t now := by
  obtain ⟨j, hres, hpos⟩ := h.honest i addr hknows
  obtain rfl : j = t := h.distinct (hpos.trans hhash)
  have hresp : (net.nodes j).nearerWith (net.nodes i).self.address task
      < cfg.replicationFactor :=
    DHT.amIInKClosest_greet_iff.mp (h.amIInKClosest_greet hit ht now)
  rw [Net.answer, hres]
  simp only [DHT.answer, if_pos hresp, Net.activeAt]

/-- **What `Query` and `QueryAll` read** in a converged network is what the source of the node
holds. -/
theorem Net.Converged.find_eq (h : net.Converged) (hk : 1 ≤ cfg.replicationFactor)
    (handling : ℕ → Handling) (i : ι) (task : String) :
    ∃ t ∈ net.owners cfg task, (net.nodes i).sourceID cfg task = some (net.nodes t).self.id
      ∧ ∀ query n, net.activeAt cfg task t (handling n).now ≠ [] →
        (((Environment.alone handling).host cfg i).find cfg query task ⟨net, n⟩).2
          = net.activeAt cfg task t (handling n).now := by
  by_cases hi : i ∈ net.owners cfg task
  · have hresp := h.amIInKClosest_iff.mpr hi
    refine ⟨i, hi, by rw [DHT.sourceID, if_pos hresp], fun query n hne ↦ ?_⟩
    rw [find_eq_firstAnswer, DHT.ownAnswer, if_pos hresp]
    exact firstAnswer_cons hne
  · have hresp : ¬(net.nodes i).amIInKClosest task cfg.replicationFactor = true :=
      fun hresp ↦ hi (h.amIInKClosest_iff.mp hresp)
    -- the nodes that are asked are the nearest ones, since the node is not one of them
    have hask : (net.nodes i).toAsk cfg task
        = (net.nodes i).findKClosestNodes task cfg.replicationFactor := by
      refine List.filter_eq_self.mpr fun node hnode ↦ ?_
      have hall := List.any_eq_false.mp (Bool.not_eq_true _ ▸ hresp) node hnode
      simpa using hall
    have hpos : 0 < ((net.nodes i).findKClosestNodes task cfg.replicationFactor).length := by
      rw [DHT.length_findKClosestNodes]
      exact lt_min hk (List.length_pos_of_ne_nil (DHT.ring_ne_nil _))
    obtain ⟨node, nodes, hnodes⟩ := List.exists_cons_of_ne_nil (List.ne_nil_of_length_pos hpos)
    have hnode : node ∈ (net.nodes i).findKClosestNodes task cfg.replicationFactor :=
      hnodes ▸ List.mem_cons_self
    obtain ⟨t, ht, hhash, -⟩ := h.of_mem_closestAddrs
      (DHT.mem_closestAddrs.mpr ⟨node, hnode, rfl⟩)
    have hit : i ≠ t := by
      rintro rfl
      exact hi ht
    refine ⟨t, ht, ?_, fun query n hne ↦ ?_⟩
    · rw [DHT.sourceID, if_neg hresp, ← DHT.map_id_findKClosestNodes, hnodes, List.map_cons,
        List.head?_cons, ← hhash, (DHT.hashAddress_of_mem_findKClosestNodes hnode).1]
    · have hanswer := h.answer_eq ht hit (DHT.knows_of_mem_findKClosestNodes hnode) hhash
        (handling n).now
      rw [find_eq_firstAnswer, DHT.ownAnswer, if_neg hresp, firstAnswer_nil_cons, hask, hnodes,
        Net.answers, List.zipIdx_cons, List.map_cons, hanswer]
      exact firstAnswer_cons hne

end Sources

/-! ## Rotation -/

/-- A converged network in which, whenever the clock is read, the unexpired addresses that each
owner of the task holds are the given ones. -/
structure Serving [Fintype ι] (cfg : Config) (handling : ℕ → Handling) (task : String)
    (addrs : List String) (net : Net ι) : Prop where
  converged : net.Converged
  nodup : addrs.Nodup
  /-- An owner has one registration for each address. -/
  registered : ∀ t ∈ net.owners cfg task,
    (((net.nodes t).storage.slice task).map ServiceRegistration.address).Nodup
  active : ∀ t ∈ net.owners cfg task, ∀ n,
    (net.activeAt cfg task t (handling n).now).Perm addrs

/-- What has been registered in a converged network is served. -/
theorem Replicated.serving [Fintype ι] {log : List (String × String)} {net : Net ι}
    (h : Replicated cfg handling log net) (hfresh : NoExpiry cfg handling) {addrs : List String}
    (haddrs : addrs.Nodup) (hlog : ∀ addr, addr ∈ addrs ↔ (task, addr) ∈ log) :
    Serving cfg handling task addrs net where
  converged := h.converged
  nodup := haddrs
  registered t _ := (h.kept t).nodup task
  active t ht n := by
    rw [Net.activeAt, (h.kept t).activeAddresses hfresh n task]
    refine (List.perm_ext_iff_of_nodup ((h.kept t).nodup task) haddrs).mpr fun addr ↦ ?_
    exact (h.mem_held ht).trans (hlog addr).symm

/-- An owner holds its addresses in one order. -/
theorem Serving.activeAt_eq [Fintype ι] {addrs : List String} {net : Net ι}
    (h : Serving cfg handling task addrs net) {t : ι} (ht : t ∈ net.owners cfg task) (m n : ℕ) :
    net.activeAt cfg task t (handling m).now = net.activeAt cfg task t (handling n).now :=
  congrArg (List.map ServiceRegistration.address) (List.filter_eq_of_map_perm (h.registered t ht)
    ((h.active t ht m).trans (h.active t ht n).symm))

/-- **What a node finds** for the task is always the same list. -/
theorem Serving.find_eq [Fintype ι] [DecidableEq ι] {addrs : List String} {net₀ : Net ι}
    (h : Serving cfg handling task addrs net₀) (hk : 1 ≤ cfg.replicationFactor)
    (hne : addrs ≠ []) (i : ι) :
    ∃ held : List String, held.Perm addrs ∧ ∀ net, net₀.Undisturbed net → ∀ query n,
      (((Environment.alone handling).host cfg i).find cfg query task ⟨net, n⟩).2 = held := by
  obtain ⟨t, ht, hsource, -⟩ := h.converged.find_eq hk handling i task
  refine ⟨net₀.activeAt cfg task t (handling 0).now, h.active t ht 0, fun net hnet query n ↦ ?_⟩
  -- the network has changed since, but the node reads from the same owner
  obtain ⟨t', -, hsource', hfind⟩ := hnet.converged.find_eq hk handling i task
  obtain rfl : t' = t := by
    rw [hnet.sourceID_eq h.converged, hsource, hnet.self] at hsource'
    exact h.converged.distinct (Option.some.inj hsource').symm
  have hactive : net.activeAt cfg task t' (handling n).now
      = net₀.activeAt cfg task t' (handling 0).now := by
    rw [Net.activeAt, hnet.storage, ← Net.activeAt, h.activeAt_eq ht n 0]
  rw [hfind query n, hactive]
  rw [hactive]
  intro hnil
  have hperm := h.active t' ht 0
  rw [hnil] at hperm
  exact hne hperm.symm.eq_nil

namespace Registries

variable [DecidableEq ι] {r : Registries ι} {i : ι}

/-- A query returns the address at its cursor and moves the cursor. -/
theorem perform_query {env : Environment ι} {addrs : List String} (hne : addrs ≠ [])
    (hfind : ((env.host cfg i).find cfg (env.handling r.tick.session.requests).query task
      r.tick.session).2 = addrs) :
    (r.perform cfg env (.query i task)).2
        = (match elementAt addrs ((r.cursor i task).toInt.tmod addrs.length) with
          | some addr => .one (.ok addr)
          | none => .panics)
      ∧ (r.perform cfg env (.query i task)).1.cursor i task = r.cursor i task + 1 := by
  have hcursor : cursor { r with toDeployment := r.tick } i task = r.cursor i task := rfl
  simp only [perform, query, hfind, if_neg hne, hcursor, Int64.add_sub_cancel, true_and]
  simp only [cursor, Function.update_self, SyncMap.store_self, Option.getD_some]

theorem session_perform (cfg : Config) (env : Environment ι) (r : Registries ι)
    (call : LookupCall ι) :
    ∃ l t, (r.perform cfg env call).1.session
      = ((env.host cfg l).find cfg (env.handling r.tick.session.requests).query t
        r.tick.session).1 := by
  cases call with
  | query l t =>
    refine ⟨l, t, ?_⟩
    simp only [perform, query]
    split_ifs <;> rfl
  | queryAll l t => exact ⟨l, t, rfl⟩

theorem roundRobinCursor_perform_query (env : Environment ι) (r : Registries ι) (l : ι)
    (t : String) :
    (r.perform cfg env (.query l t)).1.roundRobinCursor = r.roundRobinCursor
      ∨ (r.perform cfg env (.query l t)).1.roundRobinCursor
        = Function.update r.roundRobinCursor l
          ((r.roundRobinCursor l).store t (r.cursor l t + 1)) := by
  simp only [perform, query]
  split_ifs
  · exact .inl rfl
  · exact .inr rfl

theorem cursor_perform_of_ne (env : Environment ι) {call : LookupCall ι}
    (hne : call ≠ .query i task) :
    (r.perform cfg env call).1.cursor i task = r.cursor i task := by
  cases call with
  | queryAll l t => rfl
  | query l t =>
    rw [cursor, cursor]
    rcases roundRobinCursor_perform_query env r l t with hsame | hmoved
    · rw [hsame]
    · rw [hmoved]
      by_cases hl : i = l
      · subst hl
        have ht : task ≠ t := by
          rintro rfl
          exact hne rfl
        rw [Function.update_self, SyncMap.store_of_ne _ ht]
      · rw [Function.update_of_ne hl]

/-- The rotation has come to `c`: nothing has been stored, and the cursor is at `c`. -/
structure TurnedTo (net₀ : Net ι) (i : ι) (task : String) (c : ℕ) (r : Registries ι) : Prop where
  undisturbed : net₀.Undisturbed r.session.net
  cursor : (r.cursor i task).toInt = c

namespace TurnedTo

variable {net₀ : Net ι} {c : ℕ}

theorem undisturbed_perform (h : TurnedTo net₀ i task c r) (cfg : Config)
    (handling : ℕ → Handling) (call : LookupCall ι) :
    net₀.Undisturbed (r.perform cfg (.alone handling) call).1.session.net := by
  obtain ⟨l, t, hsession⟩ := session_perform cfg (.alone handling) r call
  rw [hsession]
  exact h.undisturbed.trans (h.undisturbed.converged.undisturbed_find ..)

theorem perform_of_ne (h : TurnedTo net₀ i task c r) {call : LookupCall ι}
    (hne : call ≠ .query i task) :
    TurnedTo net₀ i task c (r.perform cfg (.alone handling) call).1 :=
  ⟨h.undisturbed_perform cfg handling call, by rw [cursor_perform_of_ne _ hne, h.cursor]⟩

/-- **One query** returns the next element of the list. -/
theorem perform_query (h : TurnedTo net₀ i task c r) {held : List String} (hne : held ≠ [])
    (hfind : ∀ net, net₀.Undisturbed net → ∀ query n,
      (((Environment.alone handling).host cfg i).find cfg query task ⟨net, n⟩).2 = held)
    (hc : c + 1 < 2 ^ 63) :
    some (r.perform cfg (.alone handling) (.query i task)).2
        = (held.map fun addr ↦ LookupReply.one (.ok addr))[c % held.length]?
      ∧ TurnedTo net₀ i task (c + 1) (r.perform cfg (.alone handling) (.query i task)).1 := by
  obtain ⟨hreply, hmoved⟩ := Registries.perform_query hne (hfind r.tick.session.net h.undisturbed
    (handling r.tick.session.requests).query r.tick.session.requests)
  have hlt : c % held.length < held.length := Nat.mod_lt _ (List.length_pos_of_ne_nil hne)
  have hidx : (r.cursor i task).toInt.tmod held.length = ((c % held.length : ℕ) : Int) := by
    rw [h.cursor, Int.tmod_eq_emod_of_nonneg (Int.natCast_nonneg c), Int.natCast_mod]
  refine ⟨?_, h.undisturbed_perform cfg handling (.query i task), ?_⟩
  · rw [hreply, hidx, List.getElem?_map]
    simp only [elementAt, List.getElem?_eq_getElem hlt, Option.map_some]
  · rw [hmoved, Int64.toInt_add, h.cursor]
    exact Int.bmod_eq_of_le (by simp; omega) (by simp; omega)

end TurnedTo

end Registries

/-- **Queries rotate over all instances.** In a converged network whose owners of a task hold some
unexpired addresses, as many queries for the task at one node as there are addresses return each of
the addresses once. They may start at any place of the cursor that leaves room for them, the node
may be an owner or not, and other lookups may take place at any node in between. -/
theorem queries_rotate [Fintype ι] [DecidableEq ι] (cfg : Config)
    (hk : 1 ≤ cfg.replicationFactor) (handling : ℕ → Handling) (r : Registries ι) (task : String)
    (addrs : List String) (hne : addrs ≠ [])
    (hserving : Serving cfg handling task addrs r.session.net) (i : ι) (c : ℕ)
    (hcursor : (r.cursor i task).toInt = c) (hbound : c + addrs.length < 2 ^ 63)
    (calls : List (LookupCall ι)) (hcalls : calls.count (.query i task) = addrs.length) :
    addrs.Nodup ∧ (SharedCursor.given (.query i task) calls
        (Run.outputs (Registries.perform cfg (.alone handling)) r calls)).Perm
      (addrs.map fun addr ↦ .one (.ok addr)) := by
  obtain ⟨held, hperm, hfind⟩ := hserving.find_eq hk hne i
  have hlength : held.length = addrs.length := hperm.length_eq
  have hne' : held ≠ [] := by
    intro hnil
    rw [hnil] at hperm
    exact hne hperm.symm.eq_nil
  have hreads : (SharedCursor.given (.query i task) calls
      (Run.outputs (Registries.perform cfg (.alone handling)) r calls)).Reads
      ((held.map fun addr ↦ LookupReply.one (.ok addr)).turn c) := by
    refine SharedCursor.reads_given (Registries.TurnedTo r.session.net i task)
      (c + addrs.length) ?_ ?_ ⟨.refl hserving.converged, hcursor⟩ ?_
    · exact fun c r call hcall h ↦ h.perform_of_ne hcall
    · intro c r hc h
      rw [List.length_map]
      exact h.perform_query hne' hfind (by omega)
    · rw [hcalls]
  refine ⟨hserving.nodup, ?_⟩
  refine (hreads.perm_of_infix (List.infix_refl _) ?_).trans (hperm.map _)
  rw [SharedCursor.length_given, hcalls, List.length_map, hlength]

/-- A node asks twice, and another one in between. -/
def interruptedQueries : List (LookupCall (Fin 3)) :=
  [.query 2 "scan", .queryAll 0 "scan", .query 2 "scan"]

/-- Two services are registered at different nodes, and the third node asks for them. -/
theorem fullViews_rotates :
    ∃ d replies, (⟨⟨fullViews, 0⟩, fun _ ↦ ⟨0, 0, 0⟩⟩ : Deployment (Fin 3)).run ⟨2, 60⟩
        (.alone fun _ ↦ .still 5) 2
        [.register 0 "scan" "10.1.0.1:80", .register 1 "scan" "10.1.0.2:80"] = some (d, replies)
      ∧ (SharedCursor.given (LookupCall.query 2 "scan") interruptedQueries
        (Run.outputs (Registries.perform ⟨2, 60⟩ (.alone fun _ ↦ .still 5)) ⟨d, fun _ _ ↦ none⟩
          interruptedQueries)).Perm
        [.one (.ok "10.1.0.1:80"), .one (.ok "10.1.0.2:80")] := by
  have hfresh : NoExpiry ⟨2, 60⟩ fun _ ↦ .still 5 :=
    Or.inr fun _ _ ↦ (by decide : (5 : Time) - 5 < 60)
  have hstart : Replicated ⟨2, 60⟩ (fun _ ↦ .still 5) [] fullViews :=
    .of_empty _ fullViews_converged Net.ofViews_storage
  obtain ⟨d, replies, hrun, -, hd⟩ := hstart.run (d := ⟨⟨fullViews, 0⟩, fun _ ↦ ⟨0, 0, 0⟩⟩) hfresh
    (by decide) (le_refl 2)
    [.register 0 "scan" "10.1.0.1:80", .register 1 "scan" "10.1.0.2:80"]
  refine ⟨d, replies, hrun, ?_⟩
  have hserving : Serving ⟨2, 60⟩ (fun _ ↦ .still 5) "scan" ["10.1.0.1:80", "10.1.0.2:80"]
      d.session.net := hd.serving hfresh (by decide) (by simp [RegistryCall.registrations])
  exact (queries_rotate ⟨2, 60⟩ (by decide) (fun _ ↦ .still 5) ⟨d, fun _ _ ↦ none⟩ "scan" _
    (by simp) hserving 2 0 rfl (by decide) interruptedQueries (by decide)).2

end TaskDiscovery
