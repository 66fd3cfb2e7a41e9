import TaskDiscovery.Dht.Replicas
import TaskDiscovery.Dht.Routines

/-!
# Joining through one bootstrap node

All nodes but one have that one as their bootstrap node. They join through it, and when all have
joined, each of them asks it once more who is there. Then everybody knows everybody.

The bootstrap node files whoever asks it, before it answers. So after the first round it knows all
nodes, although those who came early have not heard of those who came late. The answers of the
second round are complete. They do not name the bootstrap node, which the nodes have added when they
joined.

The goroutines of a round may run in any order and interleave in any way. The invariant says for
each of them what it has learnt at the point where it is (`Stage`), and knowing more never
invalidates it.
-/

namespace TaskDiscovery

variable {ι : Type}

namespace Net

variable {net net' : Net ι} {b i j : ι}

/-- A node knows another one by its own address. -/
def Met (net : Net ι) (i j : ι) : Prop := (net.nodes i).Knows (net.nodes j).self.address

theorem Met.mono (h : net.Met i j) (hgrows : net.Grows net') : net'.Met i j := by
  rw [Met, hgrows.self]
  exact hgrows.knows _ _ h

/-- The nodes know each other by their own addresses only, and `b` can be reached. -/
structure Familiar (net : Net ι) (b : ι) : Prop where
  distinct : net.Distinct
  named : ∀ i, (net.nodes i).self.address ≠ ""
  reach : net.resolve (net.nodes b).self.address = some b
  ring : ∀ i, (net.nodes i).RingInvariant
  knows : ∀ i addr, (net.nodes i).Knows addr → ∃ j, addr = (net.nodes j).self.address

theorem Familiar.address_ne (h : net.Familiar b) (hij : i ≠ j) :
    (net.nodes i).self.address ≠ (net.nodes j).self.address := by
  intro heq
  refine hij (h.distinct ?_)
  dsimp only
  rw [DHT.self_id, DHT.self_id, heq]

variable [DecidableEq ι]

theorem grows_addPeer (net : Net ι) (i : ι) (now : Time) (addr : String) :
    net.Grows (net.setNode i ((net.nodes i).addPeer now addr)) :=
  .setNode rfl (fun _ ha ↦ ha.addPeer now addr) fun _ _ hs ↦ hs

theorem Familiar.addPeer (h : net.Familiar b) (hij : i ≠ j) (now : Time) :
    (net.setNode i ((net.nodes i).addPeer now (net.nodes j).self.address)).Familiar b := by
  set net' := net.setNode i ((net.nodes i).addPeer now (net.nodes j).self.address) with hnet'
  have hgrows : net.Grows net' := net.grows_addPeer i now _
  refine ⟨hgrows.distinct h.distinct, fun l ↦ ?_, ?_, fun l ↦ ?_, fun l addr hl ↦ ?_⟩
  · rw [hgrows.self]
    exact h.named l
  · rw [hgrows.self, hgrows.resolve]
    exact h.reach
  · by_cases hl : l = i
    · rw [hl, hnet', setNode_nodes_self, DHT.ringInvariant_addPeer (h.ring i), ← DHT.self_id]
      exact fun heq ↦ hij (h.distinct heq).symm
    · rw [hnet', setNode_nodes_of_ne hl]
      exact h.ring l
  · have hknown : ∃ j, addr = (net.nodes j).self.address := by
      by_cases hli : l = i
      · rw [hli, hnet', setNode_nodes_self] at hl
        rcases DHT.knows_addPeer hl with hl | rfl
        · exact h.knows i addr hl
        · exact ⟨j, rfl⟩
      · rw [hnet', setNode_nodes_of_ne hli] at hl
        exact h.knows l addr hl
    obtain ⟨j', rfl⟩ := hknown
    exact ⟨j', by rw [hgrows.self]⟩

theorem Familiar.met_addPeer (h : net.Familiar b) (now : Time) :
    (net.setNode i ((net.nodes i).addPeer now (net.nodes j).self.address)).Met i j := by
  have hgrows := net.grows_addPeer i now (net.nodes j).self.address
  rw [Met, hgrows.self, setNode_nodes_self]
  have hmem : hashAddress (net.nodes j).self.address
      ∈ ((net.nodes i).addPeer now (net.nodes j).self.address).ring :=
    DHT.mem_ring.mpr (Or.inr (DHT.mem_peers_addPeer.mpr (Or.inl rfl)))
  obtain ⟨addr, hknows, hhash⟩ := DHT.mem_ring_iff_knows.mp hmem
  have hknown : ∃ j', addr = (net.nodes j').self.address := by
    rcases DHT.knows_addPeer hknows with hknows' | rfl
    · exact h.knows i addr hknows'
    · exact ⟨j, rfl⟩
  obtain ⟨j', rfl⟩ := hknown
  rw [← DHT.self_id, ← DHT.self_id] at hhash
  exact h.distinct hhash ▸ hknows

end Net

/-! ## Where a goroutine is -/

/-- What a node has learnt at the end of a round: of the bootstrap node when it joins, and of
everybody in the second round. -/
def Done (net : Net ι) (b : ι) (joining : Bool) (i : ι) : Prop :=
  i ≠ b → net.Met b i ∧ (joining = true → net.Met i b) ∧ (joining = false → ∀ j, net.Met i j)

/-- The list of peers that the bootstrap node has given to node `i`. -/
structure Offered (net : Net ι) (joining : Bool) (i : ι) (peers : List String) : Prop where
  known : ∀ addr ∈ peers, ∃ j, addr = (net.nodes j).self.address
  complete : joining = false → ∀ j, (net.nodes j).self.address ∈ peers ∨ net.Met i j

/-- Where the goroutine of node `i` can be in a round, and what has been learnt by then. -/
inductive Stage (net : Net ι) (b : ι) (joining : Bool) (i : ι) : Routine → Wire → Prop
  | starting (hi : i ≠ b) :
    Stage net b joining i (.bootstrapping joining [(net.nodes b).self.address]) .closed
  | asking (hi : i ≠ b) :
    Stage net b joining i (.joined joining (net.nodes b).self.address [])
      (.request (net.nodes b).self.address ⟨.join, (net.nodes i).self.address, .absent⟩)
  | answered (hi : i ≠ b) {resp : Message} {fields : Fields} (htype : resp.type = .peerList)
      (hdecode : resp.payload.decode = some fields)
      (hoffer : Offered net joining i (fields.peers.getD [])) (hmet : net.Met b i) :
    Stage net b joining i (.joined joining (net.nodes b).self.address []) (.returned (.ok resp))
  | adding (hi : i ≠ b) {peers : List String} (hoffer : Offered net joining i peers)
      (hmet : net.Met b i) :
    Stage net b joining i (.listed joining peers (net.nodes b).self.address []) .closed
  | leaving (hdone : Done net b joining i) :
    Stage net b joining i (.bootstrapping joining []) .closed
  | idle (hdone : Done net b joining i) : Stage net b joining i .idle .closed

section Mono

variable {net net' : Net ι} {b i : ι} {joining : Bool}

theorem Done.mono (h : Done net b joining i) (hgrows : net.Grows net') :
    Done net' b joining i := by
  intro hi
  obtain ⟨hmet, hjoin, hall⟩ := h hi
  exact ⟨hmet.mono hgrows, fun hj ↦ (hjoin hj).mono hgrows, fun hj j ↦ (hall hj j).mono hgrows⟩

theorem Offered.mono {peers : List String} (h : Offered net joining i peers)
    (hgrows : net.Grows net') : Offered net' joining i peers := by
  refine ⟨fun addr haddr ↦ ?_, fun hj j ↦ ?_⟩
  · obtain ⟨j, rfl⟩ := h.known addr haddr
    exact ⟨j, by rw [hgrows.self]⟩
  · rw [hgrows.self]
    exact (h.complete hj j).imp_right fun hmet ↦ hmet.mono hgrows

theorem Offered.tail (hfamiliar : net.Familiar b) {j : ι} {peers : List String}
    (h : Offered net joining i ((net.nodes j).self.address :: peers)) (hgrows : net.Grows net')
    (hj : net'.Met i j) : Offered net' joining i peers := by
  have hmono := h.mono hgrows
  refine ⟨fun addr haddr ↦ hmono.known addr (List.mem_cons_of_mem _ haddr), fun hjoin l ↦ ?_⟩
  by_cases hl : l = j
  · exact Or.inr (hl ▸ hj)
  · refine (hmono.complete hjoin l).imp_left fun hmem ↦ (List.mem_cons.mp hmem).resolve_left ?_
    rw [hgrows.self]
    exact hfamiliar.address_ne hl

theorem Stage.mono {r : Routine} {wire : Wire} (h : Stage net b joining i r wire)
    (hgrows : net.Grows net') : Stage net' b joining i r wire := by
  cases h with
  | starting hi => rw [← hgrows.self]; exact .starting hi
  | asking hi => rw [← hgrows.self, ← hgrows.self i]; exact .asking hi
  | answered hi htype hdecode hoffer hmet =>
    rw [← hgrows.self]
    exact .answered hi htype hdecode (hoffer.mono hgrows) (hmet.mono hgrows)
  | adding hi hoffer hmet =>
    rw [← hgrows.self]
    exact .adding hi (hoffer.mono hgrows) (hmet.mono hgrows)
  | leaving hdone => exact .leaving (hdone.mono hgrows)
  | idle hdone => exact .idle (hdone.mono hgrows)

end Mono

/-- The state of a round among the given nodes. When the second round starts, the bootstrap node and
the others know each other. -/
structure Learning (nodes : ι → Node) (b : ι) (joining : Bool) (c : Cluster ι ι) : Prop where
  self : ∀ i, (c.net.nodes i).self = nodes i
  familiar : c.net.Familiar b
  first : c.bootstraps b = []
  others : ∀ i ≠ b, c.bootstraps i = [(c.net.nodes b).self.address]
  node : ∀ i, (c.goroutines i).node = i
  stage : ∀ i, Stage c.net b joining i (c.goroutines i).routine (c.goroutines i).wire
  joined : joining = false → ∀ i, c.net.Met b i ∧ c.net.Met i b

variable [DecidableEq ι] {nodes : ι → Node} {b t : ι} {joining : Bool} {c : Cluster ι ι}

theorem Learning.update (h : Learning nodes b joining c) {net' : Net ι} (hgrows : c.net.Grows net')
    (hfamiliar : net'.Familiar b) {r : Routine} {wire : Wire}
    (hstage : Stage net' b joining t r wire) :
    Learning nodes b joining
      { c with net := net', goroutines := Function.update c.goroutines t ⟨t, r, wire⟩ } := by
  refine ⟨fun i ↦ (hgrows.self i).trans (h.self i), hfamiliar, h.first, fun i hi ↦ ?_,
    fun i ↦ ?_, fun i ↦ ?_, fun hj i ↦ ?_⟩
  · dsimp only
    rw [hgrows.self]
    exact h.others i hi
  · by_cases hi : i = t
    · simp [hi]
    · simpa [hi] using h.node i
  · by_cases hi : i = t
    · simpa [hi] using hstage
    · simpa [hi] using (h.stage i).mono hgrows
  · exact ⟨(h.joined hj i).1.mono hgrows, (h.joined hj i).2.mono hgrows⟩

/-! ## One event -/

theorem Cluster.act_step_eq {cfg : Config} {now : Time} {i : ι} {r r' : Routine}
    {wire wire' : Wire} {dht : DHT} (hg : c.goroutines t = ⟨i, r, wire⟩)
    (hstep : r.step now (c.net.nodes i) wire = (dht, r', wire')) :
    c.act cfg (.step t now)
      = { c with net := c.net.setNode i dht,
                 goroutines := Function.update c.goroutines t ⟨i, r', wire'⟩ } := by
  simp only [act, owner, setGoroutine, hg, hstep]

theorem Learning.quiet {cfg : Config} {now : Time} {r r' : Routine} {wire wire' : Wire}
    (h : Learning nodes b joining c) (hg : c.goroutines t = ⟨t, r, wire⟩)
    (hstep : r.step now (c.net.nodes t) wire = (c.net.nodes t, r', wire'))
    (hstage : Stage c.net b joining t r' wire') :
    Learning nodes b joining (c.act cfg (.step t now)) := by
  rw [Cluster.act_step_eq hg hstep, Net.setNode_eq_self]
  exact h.update (.refl c.net) h.familiar hstage

theorem Learning.add {cfg : Config} {now : Time} {r r' : Routine} {wire wire' : Wire} {j : ι}
    (h : Learning nodes b joining c) (hg : c.goroutines t = ⟨t, r, wire⟩) (hj : t ≠ j)
    (hstep : r.step now (c.net.nodes t) wire
      = ((c.net.nodes t).addPeer now (c.net.nodes j).self.address, r', wire'))
    (hstage : ∀ net', c.net.Grows net' → net'.Met t j → Stage net' b joining t r' wire') :
    Learning nodes b joining (c.act cfg (.step t now)) := by
  rw [Cluster.act_step_eq hg hstep]
  have hgrows := c.net.grows_addPeer t now (c.net.nodes j).self.address
  exact h.update hgrows (h.familiar.addPeer hj now)
    (hstage _ hgrows (h.familiar.met_addPeer now))

/-- **One step of a goroutine.** -/
theorem Learning.step (h : Learning nodes b joining c) (cfg : Config) (now : Time) (t : ι) :
    Learning nodes b joining (c.act cfg (.step t now)) := by
  have hnode := h.node t
  have hstage := h.stage t
  rcases hg : c.goroutines t with ⟨node, r, wire⟩
  rw [hg] at hnode hstage
  obtain rfl : node = t := hnode
  dsimp only at hstage
  cases hstage with
  | starting hi =>
    refine h.quiet hg ?_ (.asking hi)
    rw [Routine.step, if_neg (h.familiar.address_ne hi.symm)]
  | asking hi => exact h.quiet hg rfl (.asking hi)
  | answered hi htype hdecode hoffer hmet =>
    refine h.quiet hg ?_ (.adding hi hoffer hmet)
    simp only [Routine.step, Routine.resume, Routine.joinReply, if_pos htype, hdecode]
  | @adding hi peers hoffer hmet =>
    rcases peers with _ | ⟨peer, peers⟩
    · have hall : joining = false → ∀ j, c.net.Met node j :=
        fun hj j ↦ (hoffer.complete hj j).resolve_left List.not_mem_nil
      cases joining with
      | true =>
        refine h.add hg hi rfl fun net' hgrows hbootstrap ↦ .leaving fun _ ↦ ?_
        exact ⟨hmet.mono hgrows, fun _ ↦ hbootstrap, fun hj ↦ absurd hj (by decide)⟩
      | false =>
        exact h.quiet hg rfl (.leaving fun _ ↦ ⟨hmet, fun hj ↦ absurd hj (by decide), hall⟩)
    · obtain ⟨j, rfl⟩ := hoffer.known peer List.mem_cons_self
      by_cases hj : node = j
      · subst hj
        refine h.quiet hg ?_ (.adding hi (hoffer.tail h.familiar (.refl _) (Or.inl rfl)) hmet)
        rw [Routine.step, if_neg (not_not.mpr rfl)]
      · have hstep : (Routine.listed joining ((c.net.nodes j).self.address :: peers)
            (c.net.nodes b).self.address []).step now (c.net.nodes node) .closed
            = ((c.net.nodes node).addPeer now (c.net.nodes j).self.address,
              .listed joining peers (c.net.nodes b).self.address [], .closed) := by
          rw [Routine.step, if_pos (h.familiar.address_ne (Ne.symm hj))]
        refine h.add hg hj hstep fun net' hgrows hmet' ↦ ?_
        rw [← hgrows.self]
        exact .adding hi (hoffer.tail h.familiar hgrows hmet') (hmet.mono hgrows)
  | leaving hdone => exact h.quiet hg rfl (.idle hdone)
  | idle hdone => exact h.quiet hg rfl (.idle hdone)

/-- The answer to `JOIN` names the peers of the node, the sender among them. -/
theorem DHT.mem_joinReply {dht : DHT} {ord : RangeOrder (Sigma fun _ : NodeID ↦ Node)}
    {addr : String} :
    addr ∈ (dht.getPeers ord).map Node.address
      ↔ ∃ id node, dht.peers.lookup id = some node ∧ node.address = addr := by
  rw [DHT.getPeers, List.map_map, List.mem_map]
  constructor
  · rintro ⟨⟨id, node⟩, hmem, rfl⟩
    exact ⟨id, node, AList.mem_entries_iff.mp (ord.mem_arrange.mp hmem), rfl⟩
  · rintro ⟨id, node, hlookup, rfl⟩
    exact ⟨⟨id, node⟩, ord.mem_arrange.mpr (AList.mem_entries_iff.mpr hlookup), rfl⟩

/-- **The bootstrap node answers.** -/
theorem Learning.deliver (h : Learning nodes b joining c) (cfg : Config) (handling : Handling)
    (t : ι) :
    Learning nodes b joining (c.act cfg (.deliver t handling)) := by
  have hnode := h.node t
  have hstage := h.stage t
  rcases hg : c.goroutines t with ⟨node, r, wire⟩
  rw [hg] at hnode hstage
  obtain rfl : node = t := hnode
  dsimp only at hstage
  cases hstage with
  | asking hi =>
    have hfam := h.familiar
    set dht := (c.net.nodes b).addPeer handling.now (c.net.nodes node).self.address with hdht
    have hgreet : (c.net.nodes b).greet handling.now (c.net.nodes node).self.address = dht :=
      if_pos ⟨hfam.named node, hfam.address_ne hi⟩
    have hact : c.act cfg (.deliver node handling)
        = { c with net := c.net.setNode b dht,
                   goroutines := Function.update c.goroutines node
                    ⟨node, .joined joining (c.net.nodes b).self.address [],
                      .returned (.ok (dht.reply .peerList (.object
                      { peers := some ((dht.getPeers handling.order).map Node.address) })))⟩ } := by
      simp only [Cluster.act, Cluster.setGoroutine, hg, Net.deliver, hfam.reach, DHT.handleMessage,
        hgreet]
    have hgrows := c.net.grows_addPeer b handling.now (c.net.nodes node).self.address
    have hfam' := hfam.addPeer hi.symm handling.now
    have hmet := hfam.met_addPeer (i := b) (j := node) handling.now
    rw [← hdht] at hgrows hfam' hmet
    rw [hact]
    refine h.update hgrows hfam' ?_
    rw [← hgrows.self]
    refine .answered hi rfl rfl ⟨fun addr haddr ↦ ?_, fun hj j ↦ ?_⟩ hmet
    · obtain ⟨id, peer, hlookup, rfl⟩ := DHT.mem_joinReply.mp haddr
      refine hfam'.knows b _ (Or.inr ⟨id, peer, ?_, rfl⟩)
      rwa [Net.setNode_nodes_self]
    · by_cases hjb : j = b
      · exact Or.inr (hjb ▸ (h.joined hj node).2.mono hgrows)
      · left
        have hknows : ((c.net.setNode b dht).nodes b).Knows
            ((c.net.setNode b dht).nodes j).self.address :=
          (h.joined hj j).1.mono hgrows
        rcases hknows with heq | ⟨id, peer, hlookup, haddr⟩
        · exact absurd heq (hfam'.address_ne hjb)
        · rw [Net.setNode_nodes_self] at hlookup
          exact DHT.mem_joinReply.mpr ⟨id, peer, hlookup, haddr⟩
  | _ =>
    -- there is no request to deliver
    have hact : c.act cfg (.deliver node handling) = c := by
      simp only [Cluster.act, hg]
    rwa [hact]

/-! ## A round -/

namespace Cluster

/-- A goroutine takes a step, or its request is handled: nothing fails, and nothing else goes on. -/
def Event.Reliable {κ : Type} : Event ι κ → Prop
  | .step .. => True
  | .deliver .. => True
  | _ => False

def AllIdle {κ : Type} (c : Cluster ι κ) : Prop := ∀ t, (c.goroutines t).routine = .idle

/-- Every node makes the same call. -/
def callAll (c : Cluster ι ι) (cfg : Config) (call : NodeCall) : Cluster ι ι :=
  { c with goroutines := fun i ↦
      ⟨i, call.begin cfg 0 (c.bootstraps i) (c.net.nodes i), .closed⟩ }

/-- All nodes have just been started, with listeners bound to a port, at different positions. All
but `b` have the address of `b` as their only bootstrap node. -/
structure Bootstrapped (c : Cluster ι ι) (b : ι) : Prop where
  started : ∀ i, ∃ listenAddr now boundAddr host port,
    c.net.nodes i = (DHT.new listenAddr now).start boundAddr
      ∧ Go.splitHostPort boundAddr.toList = some (host, port) ∧ port ≠ []
  distinct : c.net.Distinct
  reach : c.net.resolve (c.net.nodes b).self.address = some b
  first : c.bootstraps b = []
  others : ∀ i ≠ b, c.bootstraps i = [(c.net.nodes b).self.address]

end Cluster

/-- **A round.** -/
theorem Learning.run {cfg : Config} {events : List (Cluster.Event ι ι)}
    (h : Learning nodes b joining c) (hevents : ∀ e ∈ events, e.Reliable) :
    Learning nodes b joining (Run.exec (Cluster.act cfg) c events) := by
  induction events generalizing c with
  | nil => exact h
  | cons e events ih =>
    rw [Run.exec_cons]
    refine ih ?_ fun e' he' ↦ hevents e' (List.mem_cons_of_mem _ he')
    have he := hevents e List.mem_cons_self
    cases e with
    | step t now => exact h.step cfg now t
    | deliver t handling => exact h.deliver cfg handling t
    | start i boundAddr => exact he.elim
    | spawn t i now call => exact he.elim
    | fail t err => exact he.elim
    | cleanup i now => exact he.elim

omit [DecidableEq ι] in
theorem Learning.done (h : Learning nodes b joining c) (hidle : c.AllIdle) (i : ι) :
    Done c.net b joining i := by
  have hstage := h.stage i
  rw [hidle i] at hstage
  generalize (c.goroutines i).wire = wire at hstage
  cases hstage with
  | idle hdone => exact hdone

theorem DHT.start_address_ne {dht : DHT} {boundAddr : String} {host port : List Char}
    (hsplit : Go.splitHostPort boundAddr.toList = some (host, port)) (hport : port ≠ []) :
    (dht.start boundAddr).self.address ≠ "" := by
  have haddr :
      ∃ h, (dht.start boundAddr).self.address = String.ofList (Go.joinHostPort h port) := by
    simp only [DHT.start, DHT.advertised, hsplit, if_neg hport]
    exact ⟨_, rfl⟩
  obtain ⟨h, haddr⟩ := haddr
  rw [haddr]
  intro hempty
  have hnil : Go.joinHostPort h port = [] := by
    simpa using congrArg String.toList hempty
  rw [Go.joinHostPort] at hnil
  split_ifs at hnil <;> simp at hnil

omit [DecidableEq ι] in
theorem Stage.begin {net : Net ι} {bootstraps : ι → List String} (hfirst : bootstraps b = [])
    (hothers : ∀ i ≠ b, bootstraps i = [(net.nodes b).self.address]) (joining : Bool) (i : ι) :
    Stage net b joining i (.bootstrapping joining (bootstraps i)) .closed := by
  by_cases hi : i = b
  · rw [hi, hfirst]
    exact .leaving fun hne ↦ absurd rfl hne
  · rw [hothers i hi]
    exact .starting hi

omit [DecidableEq ι] in
theorem Cluster.Bootstrapped.learning (h : c.Bootstrapped b) (cfg : Config) :
    Learning (fun i ↦ (c.net.nodes i).self) b true (c.callAll cfg .joinNetwork) := by
  have hpeers : ∀ i, (c.net.nodes i).peers = ∅ := by
    intro i
    obtain ⟨listenAddr, now, boundAddr, host, port, hnode, -⟩ := h.started i
    rw [hnode]
    exact DHT.new_peers listenAddr now
  refine ⟨fun _ ↦ rfl, ⟨h.distinct, fun i ↦ ?_, h.reach, fun i ↦ ?_, fun i addr haddr ↦ ?_⟩,
    h.first, h.others, fun _ ↦ rfl, Stage.begin h.first h.others true,
    fun hj ↦ absurd hj (by decide)⟩
  · obtain ⟨listenAddr, now, boundAddr, host, port, hnode, hsplit, hport⟩ := h.started i
    change (c.net.nodes i).self.address ≠ ""
    rw [hnode]
    exact DHT.start_address_ne hsplit hport
  · refine DHT.ringInvariant_iff.mpr ?_
    change (c.net.nodes i).self.id ∉ (c.net.nodes i).peers
    rw [hpeers]
    exact AList.notMem_empty _
  · rcases haddr with rfl | ⟨id, node, hlookup, -⟩
    · exact ⟨i, rfl⟩
    · change (c.net.nodes i).peers.lookup id = some node at hlookup
      rw [hpeers, AList.lookup_empty] at hlookup
      contradiction

omit [DecidableEq ι] in
theorem Learning.callAll (h : Learning nodes b true c) (hidle : c.AllIdle) (cfg : Config) :
    Learning nodes b false (c.callAll cfg .discover) := by
  refine ⟨h.self, h.familiar, h.first, h.others, fun _ ↦ rfl, Stage.begin h.first h.others false,
    fun _ i ↦ ?_⟩
  by_cases hi : i = b
  · rw [hi]
    exact ⟨Or.inl rfl, Or.inl rfl⟩
  · obtain ⟨hmet, hjoin, -⟩ := h.done hidle i hi
    exact ⟨hmet, hjoin rfl⟩

omit [DecidableEq ι] in
/-- After the second round everybody knows everybody. -/
theorem Learning.met (h : Learning nodes b false c) (hidle : c.AllIdle) (i j : ι) :
    c.net.Met i j := by
  by_cases hi : i = b
  · exact hi ▸ (h.joined rfl j).1
  · exact (h.done hidle i hi).2.2 rfl j

omit [DecidableEq ι] in
theorem Learning.rings (h : Learning nodes b false c) (hidle : c.AllIdle) (i : ι) :
    (c.net.nodes i).ring.Nodup ∧ ∀ id, id ∈ (c.net.nodes i).ring ↔ ∃ j, id = (nodes j).id := by
  refine ⟨DHT.nodup_ring (h.familiar.ring i).self_notMem, fun id ↦ ?_⟩
  rw [DHT.mem_ring_iff_knows]
  constructor
  · rintro ⟨addr, hknows, rfl⟩
    obtain ⟨j, rfl⟩ := h.familiar.knows i addr hknows
    exact ⟨j, by rw [← DHT.self_id, h.self]⟩
  · rintro ⟨j, rfl⟩
    exact ⟨_, h.met hidle i j, by rw [← DHT.self_id, h.self]⟩

/-! ## Rounds come to an end -/

namespace Cluster

/-- The goroutine can run to its end, with nothing else going on. -/
def Finishes (cfg : Config) (c : Cluster ι ι) (t : ι) : Prop :=
  ∃ events : List (Event ι ι), (∀ e ∈ events, e.Reliable)
    ∧ ((Run.exec (act cfg) c events).goroutines t).routine = .idle
    ∧ ∀ i ≠ t, (Run.exec (act cfg) c events).goroutines i = c.goroutines i

variable {cfg : Config} {i : ι} {r r' : Routine} {wire wire' : Wire}

theorem finishes_of_idle (h : (c.goroutines t).routine = .idle) : c.Finishes cfg t :=
  ⟨[], by simp, h, fun _ _ ↦ rfl⟩

theorem Finishes.cons {e : Event ι ι} (he : e.Reliable)
    (hothers : ∀ i ≠ t, (c.act cfg e).goroutines i = c.goroutines i)
    (h : (c.act cfg e).Finishes cfg t) : c.Finishes cfg t := by
  obtain ⟨events, hevents, hidle, hframe⟩ := h
  refine ⟨e :: events, ?_, hidle, fun i hi ↦ (hframe i hi).trans (hothers i hi)⟩
  intro e' he'
  rcases List.mem_cons.mp he' with rfl | he'
  · exact he
  · exact hevents e' he'

theorem finishes_of_step {dht : DHT} (hg : c.goroutines t = ⟨i, r, wire⟩)
    (hstep : r.step 0 (c.net.nodes i) wire = (dht, r', wire'))
    (h : ∀ c' : Cluster ι ι, c'.goroutines t = ⟨i, r', wire'⟩ → c'.Finishes cfg t) :
    c.Finishes cfg t := by
  have hact : c.act cfg (.step t 0) = _ := act_step_eq hg hstep
  refine .cons (e := .step t 0) trivial (fun l hl ↦ ?_) (h _ ?_)
  · rw [hact]
    exact Function.update_of_ne hl ..
  · rw [hact]
    exact Function.update_self ..

theorem finishes_of_listed {peers bootstraps : List String} {bootstrap : String}
    (hrest : ∀ c' : Cluster ι ι, c'.goroutines t = ⟨i, .bootstrapping joining bootstraps, .closed⟩ →
      c'.Finishes cfg t)
    (hg : c.goroutines t = ⟨i, .listed joining peers bootstrap bootstraps, .closed⟩) :
    c.Finishes cfg t := by
  induction peers generalizing c with
  | nil => exact finishes_of_step hg rfl hrest
  | cons peer peers ih => exact finishes_of_step hg rfl fun c' hc' ↦ ih hc'

theorem finishes_of_returned {bootstraps : List String} {bootstrap : String}
    {result : Except String Message}
    (hrest : ∀ c' : Cluster ι ι, c'.goroutines t = ⟨i, .bootstrapping joining bootstraps, .closed⟩ →
      c'.Finishes cfg t)
    (hg : c.goroutines t = ⟨i, .joined joining bootstrap bootstraps, .returned result⟩) :
    c.Finishes cfg t := by
  have hstep : (Routine.joined joining bootstrap bootstraps).step 0 (c.net.nodes i)
      (.returned result)
      = (c.net.nodes i, Routine.joinReply joining bootstrap bootstraps result, .closed) := rfl
  rcases result with err | resp
  · exact finishes_of_step hg hstep hrest
  · by_cases htype : resp.type = .peerList
    · rcases hdecode : resp.payload.decode with _ | fields
      · simp only [Routine.joinReply, if_pos htype, hdecode] at hstep
        exact finishes_of_step hg hstep hrest
      · simp only [Routine.joinReply, if_pos htype, hdecode] at hstep
        exact finishes_of_step hg hstep fun _ hc' ↦ finishes_of_listed hrest hc'
    · simp only [Routine.joinReply, if_neg htype] at hstep
      exact finishes_of_step hg hstep fun _ hc' ↦ finishes_of_listed hrest hc'

theorem finishes_of_request {bootstraps : List String} {bootstrap addr : String} {msg : Message}
    (hrest : ∀ c' : Cluster ι ι, c'.goroutines t = ⟨i, .bootstrapping joining bootstraps, .closed⟩ →
      c'.Finishes cfg t)
    (hg : c.goroutines t = ⟨i, .joined joining bootstrap bootstraps, .request addr msg⟩) :
    c.Finishes cfg t := by
  have hact : c.act cfg (.deliver t (.still 0))
      = { c with net := (c.net.deliver cfg (.still 0) addr msg).1,
                 goroutines := Function.update c.goroutines t
                  ⟨i, .joined joining bootstrap bootstraps,
                    .returned (c.net.deliver cfg (.still 0) addr msg).2⟩ } := by
    simp only [act, setGoroutine, hg]
  have hreturned : (c.act cfg (.deliver t (.still 0))).goroutines t
      = ⟨i, .joined joining bootstrap bootstraps,
        .returned (c.net.deliver cfg (.still 0) addr msg).2⟩ := by
    rw [hact]
    exact Function.update_self ..
  refine .cons (e := .deliver t (.still 0)) trivial (fun l hl ↦ ?_)
    (finishes_of_returned hrest hreturned)
  rw [hact]
  exact Function.update_of_ne hl ..

theorem finishes_of_bootstrapping {bootstraps : List String}
    (hg : c.goroutines t = ⟨i, .bootstrapping joining bootstraps, .closed⟩) :
    c.Finishes cfg t := by
  induction bootstraps generalizing c with
  | nil => exact finishes_of_step hg rfl fun c' hc' ↦ finishes_of_idle (by rw [hc'])
  | cons bootstrap bootstraps ih =>
    by_cases hself : bootstrap = (c.net.nodes i).self.address
    · exact finishes_of_step hg (by rw [Routine.step, if_pos hself]) fun c' hc' ↦ ih hc'
    · exact finishes_of_step hg (by rw [Routine.step, if_neg hself]) fun c' hc' ↦
        finishes_of_request (fun c' hc' ↦ ih hc') hc'

end Cluster

theorem Learning.finishes (h : Learning nodes b joining c) (cfg : Config) (t : ι) :
    c.Finishes cfg t := by
  have hstage := h.stage t
  rcases hg : c.goroutines t with ⟨node, r, wire⟩
  rw [hg] at hstage
  dsimp only at hstage
  cases hstage with
  | starting hi => exact Cluster.finishes_of_bootstrapping hg
  | asking hi =>
    exact Cluster.finishes_of_request (fun _ hc' ↦ Cluster.finishes_of_bootstrapping hc') hg
  | answered hi htype hdecode hoffer hmet =>
    exact Cluster.finishes_of_returned (fun _ hc' ↦ Cluster.finishes_of_bootstrapping hc') hg
  | adding hi hoffer hmet =>
    exact Cluster.finishes_of_listed (fun _ hc' ↦ Cluster.finishes_of_bootstrapping hc') hg
  | leaving hdone => exact Cluster.finishes_of_bootstrapping hg
  | idle hdone => exact Cluster.finishes_of_idle (by rw [hg])

/-- The goroutines of some nodes can be run to their ends, one after the other. -/
theorem Learning.exists_run (h : Learning nodes b joining c) (cfg : Config) (order : List ι) :
    ∃ events : List (Cluster.Event ι ι), (∀ e ∈ events, e.Reliable)
      ∧ (∀ t ∈ order, ((Run.exec (Cluster.act cfg) c events).goroutines t).routine = .idle)
      ∧ ∀ t ∉ order, (Run.exec (Cluster.act cfg) c events).goroutines t = c.goroutines t := by
  induction order generalizing c with
  | nil => exact ⟨[], by simp, by simp, fun _ _ ↦ rfl⟩
  | cons t order ih =>
    obtain ⟨events, hevents, hidle, hframe⟩ := h.finishes cfg t
    obtain ⟨events', hevents', hidle', hframe'⟩ := ih (h.run hevents)
    refine ⟨events ++ events', ?_, fun l hl ↦ ?_, fun l hl ↦ ?_⟩
    · intro e he
      exact (List.mem_append.mp he).elim (hevents e) (hevents' e)
    · rw [Run.exec_append]
      by_cases hmem : l ∈ order
      · exact hidle' l hmem
      · obtain rfl := (List.mem_cons.mp hl).resolve_right hmem
        rw [hframe' l hmem, hidle]
    · rw [Run.exec_append]
      rw [List.mem_cons, not_or] at hl
      rw [hframe' l hl.2, hframe l hl.1]

/-- **A round can always be finished**, whatever has happened in it. -/
theorem Learning.exists_allIdle [Fintype ι] (h : Learning nodes b joining c) (cfg : Config) :
    ∃ events : List (Cluster.Event ι ι), (∀ e ∈ events, e.Reliable)
      ∧ (Run.exec (Cluster.act cfg) c events).AllIdle := by
  obtain ⟨events, hevents, hidle, -⟩ := h.exists_run cfg (Finset.univ : Finset ι).toList
  exact ⟨events, hevents, fun t ↦ hidle t (by simp)⟩

/-- Every node has made a call, and all calls have returned. The calls may have been made in any
order, and may have interleaved in any way. -/
def Cluster.Round (cfg : Config) (call : NodeCall) (c c' : Cluster ι ι) : Prop :=
  ∃ events : List (Cluster.Event ι ι), (∀ e ∈ events, e.Reliable)
    ∧ Run.exec (Cluster.act cfg) (c.callAll cfg call) events = c' ∧ c'.AllIdle

/-- **Joining through one bootstrap node.** All nodes join, and when they have, all of them ask for
peers once more. This can be done, and however it is done, the ring of every node then lists all
nodes, each once. -/
theorem bootstrapped_rings [Fintype ι] (cfg : Config) (c : Cluster ι ι) (b : ι)
    (hc : c.Bootstrapped b) :
    (∃ c₁ c₂, c.Round cfg .joinNetwork c₁ ∧ c₁.Round cfg .discover c₂)
      ∧ ∀ c₁ c₂, c.Round cfg .joinNetwork c₁ → c₁.Round cfg .discover c₂ → ∀ i,
        (c₂.net.nodes i).ring.Nodup
          ∧ ∀ id, id ∈ (c₂.net.nodes i).ring ↔ ∃ j, id = (c.net.nodes j).self.id := by
  have hjoin := hc.learning cfg
  constructor
  · obtain ⟨joins, hjoins, hjoined⟩ := hjoin.exists_allIdle cfg
    have htick := (hjoin.run hjoins).callAll hjoined cfg
    obtain ⟨ticks, hticks, hticked⟩ := htick.exists_allIdle cfg
    exact ⟨_, _, ⟨joins, hjoins, rfl, hjoined⟩, ticks, hticks, rfl, hticked⟩
  · rintro _ _ ⟨joins, hjoins, rfl, hjoined⟩ ⟨ticks, hticks, rfl, hticked⟩
    exact (((hjoin.run hjoins).callAll hjoined cfg).run hticks).rings hticked

/-- Three nodes, of which the last two have the first as their bootstrap node. -/
def lobby : Cluster (Fin 3) (Fin 3) where
  net :=
    { nodes := fun i ↦ (DHT.new (Net.hostAddr 3 i) 0).start (Net.hostAddr 3 i)
      resolve := fun a ↦ (List.finRange 3).find? fun i ↦ Net.hostAddr 3 i = a }
  bootstraps i := if i = 0 then [] else [Net.hostAddr 3 0]
  goroutines i := ⟨i, .idle, .closed⟩

theorem lobby_bootstrapped : lobby.Bootstrapped 0 where
  started i := ⟨Net.hostAddr 3 i, 0, Net.hostAddr 3 i, s!"10.0.0.{i.val}".toList, "6001".toList,
    rfl, by decide +kernel +revert, by decide⟩
  distinct := by decide +kernel
  reach := by decide +kernel
  first := rfl
  others i hi := by
    have haddr : (lobby.net.nodes 0).self.address = Net.hostAddr 3 0 := by decide +kernel
    rw [haddr]
    exact if_neg hi

/-- The three nodes get to know each other. -/
theorem lobby_rings : ∃ c₁ c₂, lobby.Round ⟨2, 60⟩ .joinNetwork c₁ ∧ c₁.Round ⟨2, 60⟩ .discover c₂
    ∧ ∀ i, (c₂.net.nodes i).ring.Nodup
      ∧ ∀ id, id ∈ (c₂.net.nodes i).ring ↔ ∃ j, id = (lobby.net.nodes j).self.id := by
  obtain ⟨⟨c₁, c₂, hjoin, htick⟩, hrings⟩ := bootstrapped_rings ⟨2, 60⟩ lobby 0 lobby_bootstrapped
  exact ⟨c₁, c₂, hjoin, htick, hrings c₁ c₂ hjoin htick⟩

end TaskDiscovery
