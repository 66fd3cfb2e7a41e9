import TaskDiscovery.Client.Proxy
import TaskDiscovery.Transport.Statuses

/-!
# The proxy over its three transports

A client should not be able to tell which transport its proxy uses.

It can. The registration for TLS is not given a capacity and sends 1, so the three transports leave
the same registry behind exactly when 1 is what was requested (`register_uniform_iff`). The queries
for UDP and TCP take every status other than `NOTFOUND` and `ERR` for a success. A `FORBIDDEN`
response has no address, and no address is how the client says that nothing was found, so the proxy
answers `NOTFOUND`. Over TLS it answers `ERR`. Any other response comes through all three transports
as it is (`query_preserved_iff`).
-/

namespace TaskDiscovery

/-- The capacity under which a registry lists an address. -/
def MemoryRegistry.capacityOf (reg : MemoryRegistry) (task addr : String) : Option Int64 :=
  ((reg.services.slice task).find? fun e ↦ e.address = addr).map ServiceEntry.capacity

def StoreBackedRegistry.capacityOf (sr : StoreBackedRegistry) (task addr : String) :
    Option Int64 :=
  sr.memCache.capacityOf task addr

namespace Client

open Go (IP)

variable {σ : Type} {backend : Backend σ} {req : ProxyRequest} {reg : σ}

/-! ## Registrations -/

/-- A registry that takes capacities lists an address under the one it was registered with. -/
structure Records (ops : RegistryOps σ) (capacityOf : σ → String → String → Option Int64) :
    Prop where
  register : ∃ f, ops.registerWithCapacity = some f ∧
    ∀ reg now₁ now₂ task addr capacity, Go.Trimmed task → Go.Trimmed addr →
      capacityOf (f reg now₁ now₂ task addr capacity) task addr
        = some (normalizedCapacity capacity)

theorem capacityOf_registerWithCapacity (reg : MemoryRegistry) (now : Time) {task addr : String}
    (capacity : Int64) (ht : Go.Trimmed task) (ha : Go.Trimmed addr) :
    (reg.registerWithCapacity now task addr capacity).capacityOf task addr
      = some (normalizedCapacity capacity) := by
  rw [reg.registerWithCapacity_of_trimmed ht ha, MemoryRegistry.capacityOf,
    MemoryRegistry.slice_putEntry, if_pos rfl, List.find?_upsert_self ?_ ?_, Option.map_some]
  · cases (reg.services.slice task).find? fun e ↦ e.address = addr <;> rfl
  · intro e
    rfl
  · rfl

theorem memory_records : Records MemoryRegistry.ops MemoryRegistry.capacityOf :=
  ⟨_, rfl, fun reg now₁ _ _ _ capacity ht ha ↦
    capacityOf_registerWithCapacity reg now₁ capacity ht ha⟩

theorem storeBacked_records : Records StoreBackedRegistry.ops StoreBackedRegistry.capacityOf := by
  refine ⟨_, rfl, fun sr now₁ now₂ task addr capacity ht ha ↦ ?_⟩
  have hcache : (sr.registerWithCapacity now₁ now₂ task addr capacity).memCache
      = sr.memCache.registerWithCapacity now₁ task addr (normalizedCapacity capacity) := by
    rw [StoreBackedRegistry.registerWithCapacity, ht.trimSpace_eq, ha.trimSpace_eq,
      if_neg (by simp [ht.ne_empty, ha.ne_empty]), StoreBackedRegistry.registerEntry]
    generalize sr.memCache.registerWithCapacity now₁ task addr (normalizedCapacity capacity) = cache
    rcases sr.store.register task _ with ⟨store, err | _⟩ <;> rfl
  rw [StoreBackedRegistry.capacityOf, hcache, capacityOf_registerWithCapacity _ _ _ ht ha,
    normalizedCapacity_idem]

def sentCapacity (backendProto : String) (req : ProxyRequest) : Int64 :=
  if backendProto = "tls" then 1 else req.capacity

theorem handle_register {f : σ → Time → Time → String → String → Int64 → σ}
    (hf : backend.ops.registerWithCapacity = some f) {task address : String} (capacity : Int64)
    (ht : Go.Trimmed task) (ha : Go.Trimmed address) :
    backend.handle { command := "REGISTER", task := task, address := address, capacity := capacity }
        reg
      = (f reg backend.now₁ backend.now₂ task address (normalizedCapacity capacity),
          { status := "OK" }) := by
  simp only [Backend.handle, handleMessage, handleRegister, ht.trimSpace_eq, ha.trimSpace_eq,
    ht.ne_empty, ha.ne_empty, or_self, if_false, hf]

theorem forwardRegister_delivered {f : σ → Time → Time → String → String → Int64 → σ}
    (hf : backend.ops.registerWithCapacity = some f) (hpos : 0 < req.capacity)
    (ht : Go.Trimmed req.task) (ha : Go.Trimmed req.address) (backendProto : String) :
    forwardRegister backend .delivered backendProto req reg
      = (f reg backend.now₁ backend.now₂ req.task req.address (sentCapacity backendProto req),
          .ok ()) := by
  rw [forwardRegister_eq_exchange, registerMessage, registerReader, sentCapacity,
    normalizedCapacity_of_pos hpos]
  split_ifs
  · have hone : normalizedCapacity 1 = 1 := by decide
    simp only [exchange, handle_register hf _ ht ha, hone, readRegisteredTLS, if_true]
  · simp only [exchange, handle_register hf _ ht ha, normalizedCapacity_of_pos hpos,
      readRegistered, if_true]

/-- **A registration through the proxy.** -/
theorem handleCentralizedRequest_register {f : σ → Time → Time → String → String → Int64 → σ}
    (hf : backend.ops.registerWithCapacity = some f) (hreq : req.Accepted)
    (hcmd : req.command = "REGISTER") (reg : σ) (backendProto : String) :
    handleCentralizedRequest backend .delivered backendProto req reg
      = if req.task = "" ∨ req.address = "" then
          (reg, { status := .err, error := "task and address required" })
        else (f reg backend.now₁ backend.now₂ req.task req.address (sentCapacity backendProto req),
          { status := .ok }) := by
  simp only [handleCentralizedRequest, hcmd]
  by_cases hblank : req.task = "" ∨ req.address = ""
  · rw [if_pos hblank, if_pos hblank]
  · obtain ⟨ht, ha⟩ := not_or.mp hblank
    rw [if_neg hblank, if_neg hblank,
      forwardRegister_delivered hf hreq.capacity ⟨hreq.task, ht⟩ ⟨hreq.address, ha⟩]
    rfl

/-- Registering through the proxy does not depend on the transport: an `OK` means that the address
is listed under the capacity that was requested, and the registry is the same whichever transport
was used. -/
structure Uniform (backend : Backend σ) (capacityOf : σ → String → String → Option Int64)
    (req : ProxyRequest) (reg : σ) : Prop where
  recorded : ∀ backendProto,
    (handleCentralizedRequest backend .delivered backendProto req reg).2.status = .ok →
      capacityOf (handleCentralizedRequest backend .delivered backendProto req reg).1 req.task
        req.address = some req.capacity
  same : ∀ backendProto backendProto',
    (handleCentralizedRequest backend .delivered backendProto req reg).1
      = (handleCentralizedRequest backend .delivered backendProto' req reg).1

theorem uniform_iff {capacityOf : σ → String → String → Option Int64}
    (hrec : Records backend.ops capacityOf) (hreq : req.Accepted)
    (hcmd : req.command = "REGISTER") :
    Uniform backend capacityOf req reg
      ↔ req.task = "" ∨ req.address = "" ∨ req.capacity = 1 := by
  obtain ⟨f, hf, hrec⟩ := hrec
  have hhandle := handleCentralizedRequest_register hf hreq hcmd reg
  by_cases hblank : req.task = "" ∨ req.address = ""
  · have hrefused : Uniform backend capacityOf req reg := by
      constructor
      · intro p hok
        rw [hhandle, if_pos hblank] at hok
        cases hok
      · intro p p'
        rw [hhandle, hhandle, if_pos hblank, if_pos hblank]
    exact iff_of_true hrefused (by tauto)
  obtain ⟨ht, ha⟩ := not_or.mp hblank
  have hlisted : ∀ p, capacityOf
      (handleCentralizedRequest backend .delivered p req reg).1 req.task req.address
        = some (normalizedCapacity (sentCapacity p req)) := by
    intro p
    rw [hhandle, if_neg hblank]
    exact hrec _ _ _ _ _ _ ⟨hreq.task, ht⟩ ⟨hreq.address, ha⟩
  constructor
  · -- over TLS the capacity is not sent, and the server takes it to be one
    intro h
    have hone : normalizedCapacity (sentCapacity "tls" req) = 1 := by
      rw [sentCapacity, if_pos rfl]
      decide
    have hok : (handleCentralizedRequest backend .delivered "tls" req reg).2.status = .ok := by
      rw [hhandle, if_neg hblank]
    have hsame := (hlisted "tls").symm.trans (h.recorded "tls" hok)
    rw [hone] at hsame
    exact Or.inr (Or.inr (Option.some.inj hsame).symm)
  · intro h
    have hcapacity : req.capacity = 1 := by tauto
    have hsent : ∀ p, sentCapacity p req = 1 := by
      intro p
      rw [sentCapacity, hcapacity, ite_self]
    constructor
    · intro p _
      rw [hlisted, hsent, hcapacity]
      decide
    · intro p p'
      rw [hhandle, hhandle, hsent, hsent]

/-- **When registering does not depend on the transport.** For every request that the proxy accepts
and every state of either registry, an `OK` means that the requested capacity was recorded and all
transports lead to the same state, if and only if the request is refused because a name is missing
or the requested capacity is 1. -/
theorem register_uniform_iff {unmarshal : String → Except String CentralizedMessage}
    {data : String} {req : ProxyRequest} (hparse : parseProxyRequest unmarshal data = .ok req)
    (hcmd : req.command = "REGISTER") (now₁ now₂ : Time) (requestorIP : Option IP) :
    (∀ reg : MemoryRegistry,
      Uniform ⟨MemoryRegistry.ops, now₁, now₂, requestorIP⟩ MemoryRegistry.capacityOf req reg
        ↔ req.task = "" ∨ req.address = "" ∨ req.capacity = 1)
    ∧ ∀ sr : StoreBackedRegistry,
      Uniform ⟨StoreBackedRegistry.ops, now₁, now₂, requestorIP⟩ StoreBackedRegistry.capacityOf
          req sr
        ↔ req.task = "" ∨ req.address = "" ∨ req.capacity = 1 :=
  have hreq := parseProxyRequest_accepted hparse
  ⟨fun _ ↦ uniform_iff memory_records hreq hcmd, fun _ ↦ uniform_iff storeBacked_records hreq hcmd⟩

def capacityMessage (capacity : Int64) : CentralizedMessage :=
  { command := "register", task := " scan", address := "10.0.0.1:80", capacity := capacity }

def capacityRequest (capacity : Int64) : ProxyRequest :=
  { command := "REGISTER", task := "scan", address := "10.0.0.1:80", capacity := capacity }

/-- A service that does not state its capacity has capacity 1 over all transports. -/
theorem unstated_uniform :
    parseProxyRequest (fun _ ↦ .ok (capacityMessage 0)) "\x7b\x7d" = .ok (capacityRequest 1)
      ∧ Uniform ⟨MemoryRegistry.ops, 0, 0, none⟩ MemoryRegistry.capacityOf (capacityRequest 1)
          MemoryRegistry.new :=
  have hparse : parseProxyRequest (fun _ ↦ .ok (capacityMessage 0)) "\x7b\x7d"
      = .ok (capacityRequest 1) := by
    decide +kernel
  ⟨hparse, ((register_uniform_iff hparse rfl 0 0 none).1 MemoryRegistry.new).mpr
    (Or.inr (Or.inr rfl))⟩

/-- A service of capacity 5 is answered `OK` over each transport and is listed with capacity 1 after
a registration over TLS. -/
theorem tls_capacity_dropped :
    parseProxyRequest (fun _ ↦ .ok (capacityMessage 5)) "\x7b\x7d" = .ok (capacityRequest 5)
      ∧ (["udp", "tcp", "tls"].map fun backendProto ↦
        let (reg, result) := handleCentralizedRequest ⟨MemoryRegistry.ops, 0, 0, none⟩ .delivered
          backendProto (capacityRequest 5) MemoryRegistry.new
        (result.status, reg.capacityOf "scan" "10.0.0.1:80"))
      = [(.ok, some 5), (.ok, some 5), (.ok, some 1)] := by
  decide +kernel

/-! ## Queries -/

/-- What a query can come to. -/
inductive Finding
  | found (address : String)
  | notFound
  | forbidden
  | error
  deriving DecidableEq

/-- What the server says. -/
def responseFinding (resp : CentralizedResponse) : Finding :=
  if resp.status = "OK" then .found resp.address
  else if resp.status = "NOTFOUND" then .notFound
  else if resp.status = "FORBIDDEN" then .forbidden
  else .error

/-- What the proxy says. It has no word for a service that is forbidden. -/
def resultFinding (result : ProxyResult) : Finding :=
  match result.status with
  | .ok => .found result.address
  | .notFound => .notFound
  | .err => .error

/-- The response to a query with a task: a lookup ends with an address or without one, or is
forbidden. -/
theorem queryResponse_cases (result : Except RegistryError String) :
    (∃ addr, addr ≠ "" ∧ queryResponse result = { status := "OK", address := addr })
      ∨ queryResponse result = { status := "NOTFOUND" }
      ∨ queryResponse result = { status := "FORBIDDEN" } := by
  rcases result with err | addr
  · cases err <;> simp [queryResponse]
  · by_cases haddr : addr = ""
    · simp [queryResponse, haddr]
    · exact Or.inl ⟨addr, haddr, by simp [queryResponse, haddr]⟩

theorem handle_query (reg : σ) (task : String) :
    (backend.handle { command := "QUERY", task := task } reg).2
      = if Go.trimSpace task = "" then { status := "ERR", error := "task required" }
        else queryResponse (backend.ops.getServiceForRequestor reg (Go.trimSpace task)
          backend.requestorIP).2 := by
  simp only [Backend.handle, handleMessage, handleQuery]
  split_ifs <;> rfl

/-- What the proxy makes of a response that reaches it. -/
def relayed (backendProto : String) (resp : CentralizedResponse) : Finding :=
  resultFinding (queryResult (queryReader backendProto resp))

theorem relayed_ok (backendProto : String) {addr : String} (haddr : addr ≠ "") :
    relayed backendProto { status := "OK", address := addr } = .found addr := by
  rw [relayed, queryReader]
  split_ifs <;> simp [readFound, readFoundTLS, queryResult, resultFinding, haddr]

theorem relayed_notFound (backendProto : String) :
    relayed backendProto { status := "NOTFOUND" } = .notFound := by
  rw [relayed, queryReader]
  split_ifs <;> simp [readFound, readFoundTLS, queryResult, resultFinding]

theorem relayed_err (backendProto err : String) :
    relayed backendProto { status := "ERR", error := err } = .error := by
  rw [relayed, queryReader]
  split_ifs <;> simp [readFound, readFoundTLS, queryResult, resultFinding]

/-- The transports differ, and none of them says what the server said. -/
theorem relayed_forbidden (backendProto : String) :
    relayed backendProto { status := "FORBIDDEN" }
      = if backendProto = "tls" then .error else .notFound := by
  rw [relayed, queryReader]
  split_ifs <;> simp [readFound, readFoundTLS, queryResult, resultFinding]

theorem resultFinding_query (hcmd : req.command = "QUERY") (reg : σ) (d : Delivery)
    (backendProto : String) :
    resultFinding (handleCentralizedRequest backend d backendProto req reg).2
      = if req.task = "" ∨ d ≠ .delivered then .error
        else relayed backendProto
          (backend.handle { command := "QUERY", task := req.task } reg).2 := by
  simp only [handleCentralizedRequest, hcmd, forwardQuery_eq_exchange]
  by_cases htask : req.task = ""
  · rw [if_pos htask, if_pos (Or.inl htask)]
    rfl
  rw [if_neg htask]
  cases d with
  | delivered =>
    rw [if_neg (by simp [htask])]
    simp only [exchange, relayed, queryMessage]
  | unserved err =>
    rw [if_pos (by simp)]
    simp only [exchange, queryResult, resultFinding]
  | unanswered err =>
    rw [if_pos (by simp)]
    simp only [exchange, queryResult, resultFinding]

/-- One transport passes on what the server says unless the exchange fails or the server forbids the
service. -/
theorem resultFinding_eq_iff (hcmd : req.command = "QUERY") (reg : σ) (d : Delivery)
    (backendProto : String) :
    resultFinding (handleCentralizedRequest backend d backendProto req reg).2
        = responseFinding (backend.handle { command := "QUERY", task := req.task } reg).2
      ↔ Go.trimSpace req.task = "" ∨ d = .delivered
        ∧ (backend.handle { command := "QUERY", task := req.task } reg).2.status
          ≠ "FORBIDDEN" := by
  rw [resultFinding_query hcmd, handle_query]
  by_cases hblank : Go.trimSpace req.task = ""
  · rw [if_pos hblank, relayed_err, ite_self]
    exact iff_of_true rfl (Or.inl hblank)
  have htask : req.task ≠ "" := by
    intro htask
    rw [htask] at hblank
    exact hblank (by decide)
  simp only [htask, hblank, if_false, false_or]
  generalize (backend.ops.getServiceForRequestor reg (Go.trimSpace req.task)
    backend.requestorIP).2 = result
  by_cases hd : d = .delivered
  · rw [if_neg (not_not.mpr hd), and_iff_right hd]
    rcases queryResponse_cases result with ⟨addr, haddr, heq⟩ | heq | heq
    · rw [heq, relayed_ok _ haddr]
      simp [responseFinding]
    · rw [heq, relayed_notFound]
      simp [responseFinding]
    · rw [heq, relayed_forbidden]
      split_ifs <;> simp [responseFinding]
  · rw [if_pos hd]
    rcases queryResponse_cases result with ⟨addr, haddr, heq⟩ | heq | heq <;>
      simp [heq, hd, responseFinding]

/-- **When the outcome of a query survives the proxy.** For every registry in every state, with any
firewall, and every `QUERY` request, what the proxy says is what the server says over every
transport, if and only if the request has no task, or every exchange is completed and the server
does not forbid the service. -/
theorem query_preserved_iff (backend : Backend σ) (req : ProxyRequest)
    (hcmd : req.command = "QUERY") (reg : σ) (d : String → Delivery) :
    (∀ backendProto,
      resultFinding (handleCentralizedRequest backend (d backendProto) backendProto req reg).2
        = responseFinding (backend.handle { command := "QUERY", task := req.task } reg).2)
      ↔ Go.trimSpace req.task = "" ∨ (∀ backendProto, d backendProto = .delivered)
        ∧ (backend.handle { command := "QUERY", task := req.task } reg).2.status
          ≠ "FORBIDDEN" := by
  simp only [resultFinding_eq_iff hcmd]
  constructor
  · intro h
    by_cases hblank : Go.trimSpace req.task = ""
    · exact Or.inl hblank
    · have hall := fun p ↦ (h p).resolve_left hblank
      exact Or.inr ⟨fun p ↦ (hall p).1, (hall "udp").2⟩
  · rintro (hblank | ⟨hdelivered, hforbidden⟩) p
    · exact Or.inl hblank
    · exact Or.inr ⟨hdelivered p, hforbidden⟩

/-- A registry with one service, behind a firewall. -/
def guarded (fw : Option Firewall) : MemoryRegistry :=
  (MemoryRegistry.new.register 0 "scan" "10.0.0.2:80").setFirewall fw

def scanQuery : ProxyRequest := { command := "QUERY", task := "scan", address := "", capacity := 1 }

/-- Without a firewall, the address comes through, here over TLS. -/
theorem unguarded_preserved :
    resultFinding (handleCentralizedRequest ⟨MemoryRegistry.ops, 0, 0, some [10, 0, 0, 1]⟩
      .delivered "tls" scanQuery (guarded none)).2 = .found "10.0.0.2:80" := by
  have hresp : responseFinding ((Backend.mk MemoryRegistry.ops 0 0 (some [10, 0, 0, 1])).handle
      { command := "QUERY", task := "scan" } (guarded none)).2 = .found "10.0.0.2:80" := by
    decide +kernel
  rw [← hresp]
  exact (query_preserved_iff ⟨MemoryRegistry.ops, 0, 0, some [10, 0, 0, 1]⟩ scanQuery rfl
    (guarded none) fun _ ↦ .delivered).mpr (Or.inr ⟨fun _ ↦ rfl, by decide +kernel⟩) "tls"

/-- A rule for another service only. -/
def elsewhere : Firewall := ⟨[{ sourceIP := [10, 0, 0, 1], destIP := [10, 0, 0, 3] }]⟩

/-- The firewall forbids the service. Over UDP and TCP the client hears that there is none, over TLS
that there was an error. -/
theorem forbidden_reported_absent :
    ((Backend.mk MemoryRegistry.ops 0 0 (some [10, 0, 0, 1])).handle
        { command := "QUERY", task := "scan" } (guarded (some elsewhere))).2
      = { status := "FORBIDDEN" }
      ∧ (["udp", "tcp", "tls"].map fun backendProto ↦
        (handleCentralizedRequest ⟨MemoryRegistry.ops, 0, 0, some [10, 0, 0, 1]⟩ .delivered
          backendProto scanQuery (guarded (some elsewhere))).2)
      = [{ status := .notFound }, { status := .notFound },
          { status := .err, error := "server error: FORBIDDEN" }] := by
  decide +kernel

end Client

end TaskDiscovery
