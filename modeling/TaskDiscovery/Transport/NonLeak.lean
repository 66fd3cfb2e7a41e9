import TaskDiscovery.Lib.Run
import TaskDiscovery.Registry.Effects
import TaskDiscovery.Transport.Messages

/-!
# No answer crosses the firewall

A registry enforces a firewall when some invariant of its state is kept by every call of the
protocol handler and makes every address it returns reachable for the requestor that asked
(`Enforces`). The handler then answers `OK` only with reachable addresses, in every state of a run
of messages and maintenance (`Enforces.query_ok`).

Both registries enforce the firewall that their cache carries. In the store-backed one an address
has three ways out: the cache, the cache after hydration, and the fallback over the store's own
entries. The last reads the destination differently, but whatever it accepts the cache's reading
accepts too.
-/

namespace TaskDiscovery

open Go (IP)

/-- The destination of the address is known and the firewall lets the requestor reach it. -/
def Reachable (fw : Firewall) (src : IP) (addr : String) : Prop :=
  ∃ d, destinationIPFromAddress addr = some d ∧ fw.isAllowed src d = true

theorem queryResponse_ok {result : Except RegistryError String}
    (h : (queryResponse result).status = "OK") :
    ∃ addr, result = .ok addr ∧ (queryResponse result).address = addr := by
  rcases result with err | addr
  · rcases err <;> simp [queryResponse] at h
  · by_cases hne : addr = ""
    · simp [queryResponse, hne] at h
    · exact ⟨addr, rfl, by simp [queryResponse, hne]⟩

/-! ## Servers -/

/-- A registry with the maintenance its server performs between messages. -/
structure Server (σ μ : Type) where
  ops : RegistryOps σ
  maintain : σ → μ → σ

/-- What happens to a server: a message from some requestor, or maintenance. -/
inductive Event (μ : Type)
  | message (now₁ now₂ : Time) (msg : CentralizedMessage) (requestorIP : Option IP)
  | maintenance (m : μ)

def Server.step {σ μ : Type} (srv : Server σ μ) (s : σ) : Event μ → σ
  | .message now₁ now₂ msg requestorIP => (handleMessage srv.ops s now₁ now₂ msg requestorIP).1
  | .maintenance m => srv.maintain s m

/-- `MemoryRegistry` with `Cleanup`, given by the instant and the timeout. -/
def memoryServer : Server MemoryRegistry (Time × Time) where
  ops := MemoryRegistry.ops
  maintain reg p := (reg.cleanup p.1 p.2).1

/-- `Cleanup` or `WarmCacheFromDB`. -/
inductive StoreMaintenance
  | cleanup (now₁ now₂ timeout : Time)
  | warmCacheFromDB (now : Time) (ord : WarmOrders)

/-- `StoreBackedRegistry` with its maintenance. -/
def storeBackedServer : Server StoreBackedRegistry StoreMaintenance where
  ops := StoreBackedRegistry.ops
  maintain sr
    | .cleanup now₁ now₂ timeout => (sr.cleanup now₁ now₂ timeout).1
    | .warmCacheFromDB now ord => (sr.warmCacheFromDB now ord).1

/-- The invariant `Inv` is kept by everything that happens to the server, and under it a lookup
returns only addresses that the requestor may reach. -/
structure Enforces {σ μ : Type} (srv : Server σ μ) (fw : Firewall) (Inv : σ → Prop) : Prop where
  register : ∀ s now₁ now₂ task addr, Inv s → Inv (srv.ops.register s now₁ now₂ task addr)
  registerWithCapacity : ∀ f, srv.ops.registerWithCapacity = some f →
    ∀ s now₁ now₂ task addr capacity, Inv s → Inv (f s now₁ now₂ task addr capacity)
  lookup : ∀ s task requestorIP, Inv s → Inv (srv.ops.getServiceForRequestor s task requestorIP).1
  maintain : ∀ s m, Inv s → Inv (srv.maintain s m)
  reachable : ∀ s task src addr, Inv s →
    (srv.ops.getServiceForRequestor s task (some src)).2 = .ok addr → Reachable fw src addr

namespace Enforces

variable {σ μ : Type} {srv : Server σ μ} {fw : Firewall} {Inv : σ → Prop}

theorem handleMessage (h : Enforces srv fw Inv) {s : σ} (hs : Inv s) (now₁ now₂ : Time)
    (msg : CentralizedMessage) (requestorIP : Option IP) :
    Inv (handleMessage srv.ops s now₁ now₂ msg requestorIP).1 := by
  rw [TaskDiscovery.handleMessage]
  split
  · simp only [handleRegister]
    split_ifs
    · exact hs
    · rcases hcap : srv.ops.registerWithCapacity with _ | f
      · exact h.register _ _ _ _ _ hs
      · exact h.registerWithCapacity f hcap _ _ _ _ _ _ hs
  · simp only [handleQuery]
    split_ifs
    · exact hs
    · exact h.lookup _ _ _ hs
  · exact hs

theorem step (h : Enforces srv fw Inv) (s : σ) (ev : Event μ) (hs : Inv s) :
    Inv (srv.step s ev) := by
  cases ev with
  | message now₁ now₂ msg requestorIP => exact h.handleMessage hs now₁ now₂ msg requestorIP
  | maintenance m => exact h.maintain s m hs

theorem query_ok (h : Enforces srv fw Inv) {s : σ} (hs : Inv s) {now₁ now₂ : Time}
    {msg : CentralizedMessage} {src : IP} (hcmd : msg.command = "QUERY")
    (hok : (TaskDiscovery.handleMessage srv.ops s now₁ now₂ msg (some src)).2.status = "OK") :
    Reachable fw src
      (TaskDiscovery.handleMessage srv.ops s now₁ now₂ msg (some src)).2.address := by
  simp only [TaskDiscovery.handleMessage, hcmd, handleQuery] at hok ⊢
  split_ifs at hok ⊢ with hblank
  · exact absurd hok (by simp)
  · obtain ⟨addr, hget, haddr⟩ := queryResponse_ok hok
    rw [haddr]
    exact h.reachable _ _ _ _ hs hget

theorem run_query_ok (h : Enforces srv fw Inv) {s : σ} (hs : Inv s) (evs : List (Event μ))
    {now₁ now₂ : Time} {msg : CentralizedMessage} {src : IP} (hcmd : msg.command = "QUERY")
    (hok : (TaskDiscovery.handleMessage srv.ops (Run.exec srv.step s evs) now₁ now₂ msg
      (some src)).2.status = "OK") :
    Reachable fw src (TaskDiscovery.handleMessage srv.ops (Run.exec srv.step s evs) now₁ now₂ msg
      (some src)).2.address :=
  h.query_ok (Run.invariant h.step hs evs) hcmd hok

end Enforces

/-! ## The registries -/

theorem MemoryRegistry.reachable_of_ok {reg reg' : MemoryRegistry} {fw : Firewall} {task : String}
    {src : IP} {addr : String} (hfw : reg.firewall = some fw)
    (h : reg.getServiceForRequestor task (some src) = (reg', .ok addr)) :
    Reachable fw src addr := by
  obtain ⟨⟨e, he, rfl⟩, -⟩ := MemoryRegistry.getServiceForRequestor_ok h
  rw [hfw, MemoryRegistry.mem_allowedEntries] at he
  exact he.2

theorem memoryServer_enforces (fw : Firewall) :
    Enforces memoryServer fw fun reg ↦ reg.firewall = some fw := by
  refine ⟨?register, ?registerWithCapacity, ?lookup, ?maintain, ?reachable⟩ <;>
    simp only [memoryServer, MemoryRegistry.ops]
  case register =>
    intro reg now₁ now₂ task addr hfw
    rw [MemoryRegistry.register_firewall, hfw]
  case registerWithCapacity =>
    intro f hf reg now₁ now₂ task addr capacity hfw
    obtain rfl := Option.some.inj hf
    rw [MemoryRegistry.registerWithCapacity_firewall, hfw]
  case lookup =>
    intro reg task requestorIP hfw
    rw [(reg.getServiceForRequestor_frame task requestorIP).2, hfw]
  case maintain =>
    intro reg m hfw
    rw [reg.cleanup_firewall m.1 m.2, hfw]
  case reachable =>
    intro reg task src addr hfw hget
    rcases h : reg.getServiceForRequestor task (some src) with ⟨reg', result⟩
    rw [h] at hget
    exact MemoryRegistry.reachable_of_ok hfw (h.trans (congrArg _ hget))

theorem reachable_of_permits {fw : Firewall} {src : IP} {addr : String}
    (h : MemoryRegistry.permits storeDestinationIP (some fw) (some src) addr = true) :
    Reachable fw src addr := by
  rw [MemoryRegistry.permits] at h
  rcases hdest : storeDestinationIP addr with _ | d
  · simp [hdest] at h
  · rw [hdest] at h
    exact ⟨d, destinationIPFromAddress_of_store hdest, h⟩

theorem StoreBackedRegistry.reachable_of_ok {sr sr' : StoreBackedRegistry} {fw : Firewall}
    {task : String} {src : IP} {addr : String} (hfw : sr.memCache.firewall = some fw)
    (h : sr.getServiceForRequestor task (some src) = (sr', .ok addr)) :
    Reachable fw src addr := by
  have ht : Go.trimSpace task ≠ "" := by
    intro ht
    rw [StoreBackedRegistry.getServiceForRequestor, if_pos ht] at h
    simp at h
  rcases (StoreBackedRegistry.getServiceForRequestor_cases ht h).2.2 with
    ⟨a, hcache, -, hresult⟩ | ⟨_, -, -, -, hresult⟩ | ⟨-, hagain, -⟩ |
    ⟨e, -, -, hpermit, -, -, hresult⟩ | ⟨_, -, -, hresult⟩
  · obtain rfl := Except.ok.inj hresult
    exact MemoryRegistry.reachable_of_ok hfw hcache
  · simp at hresult
  · -- hydration keeps the firewall of the cache it fills
    refine MemoryRegistry.reachable_of_ok ?_ hagain
    rw [populateAll_firewall, hfw]
  · obtain rfl := Except.ok.inj hresult
    rw [hfw] at hpermit
    exact reachable_of_permits hpermit
  · simp at hresult

theorem storeBackedServer_enforces (fw : Firewall) :
    Enforces storeBackedServer fw fun sr ↦ sr.memCache.firewall = some fw := by
  refine ⟨?register, ?registerWithCapacity, ?lookup, ?maintain, ?reachable⟩ <;>
    simp only [storeBackedServer, StoreBackedRegistry.ops]
  case register =>
    intro sr now₁ now₂ task addr hfw
    rw [StoreBackedRegistry.register,
      (StoreBackedRegistry.registerWithCapacity_config now₁ now₂ task addr 1).firewall, hfw]
  case registerWithCapacity =>
    intro f hf sr now₁ now₂ task addr capacity hfw
    obtain rfl := Option.some.inj hf
    rw [(StoreBackedRegistry.registerWithCapacity_config now₁ now₂ task addr capacity).firewall,
      hfw]
  case lookup =>
    intro sr task requestorIP hfw
    rw [(StoreBackedRegistry.getServiceForRequestor_config sr task requestorIP).firewall, hfw]
  case maintain =>
    intro sr m hfw
    cases m with
    | cleanup now₁ now₂ timeout =>
      rw [(StoreBackedRegistry.cleanup_config now₁ now₂ timeout).firewall, hfw]
    | warmCacheFromDB now ord =>
      rw [(StoreBackedRegistry.warmCacheFromDB_config now ord).firewall, hfw]
  case reachable =>
    intro sr task src addr hfw hget
    rcases h : sr.getServiceForRequestor task (some src) with ⟨sr', result⟩
    rw [h] at hget
    exact StoreBackedRegistry.reachable_of_ok hfw (h.trans (congrArg _ hget))

/-- **Firewall non-leak.** Set a firewall on a registry in any state, and let any messages and any
maintenance happen. A query from a known requestor that is then answered `OK` carries an address
whose destination is known and allowed for that requestor. -/
theorem ok_answer_reachable (fw : Firewall) :
    (∀ (reg : MemoryRegistry) (evs : List (Event (Time × Time))) (now₁ now₂ : Time)
        (msg : CentralizedMessage) (src : IP),
      let s := Run.exec memoryServer.step (reg.setFirewall (some fw)) evs
      let answer := (handleMessage MemoryRegistry.ops s now₁ now₂ msg (some src)).2
      msg.command = "QUERY" → answer.status = "OK" → Reachable fw src answer.address)
    ∧ ∀ (sr : StoreBackedRegistry) (evs : List (Event StoreMaintenance)) (now₁ now₂ : Time)
        (msg : CentralizedMessage) (src : IP),
      let s := Run.exec storeBackedServer.step (sr.setFirewall (some fw)) evs
      let answer := (handleMessage StoreBackedRegistry.ops s now₁ now₂ msg (some src)).2
      msg.command = "QUERY" → answer.status = "OK" → Reachable fw src answer.address := by
  refine ⟨?_, ?_⟩
  · intro reg evs now₁ now₂ msg src s answer hcmd hok
    exact (memoryServer_enforces fw).run_query_ok rfl evs hcmd hok
  · intro sr evs now₁ now₂ msg src s answer hcmd hok
    exact (storeBackedServer_enforces fw).run_query_ok rfl evs hcmd hok

/-- One source may reach one destination. -/
def oneRuleFirewall : Firewall := ⟨[{ sourceIP := [10, 0, 0, 1], destIP := [10, 0, 0, 2] }]⟩

/-- Two instances register, and the cache is warmed. -/
def twoInstances : List (Event StoreMaintenance) :=
  [.message 1 2 { command := "REGISTER", task := "svc", address := "10.9.9.9:80" } none,
    .message 3 4 { command := "REGISTER", task := "svc", address := "10.0.0.2:80" } none,
    .maintenance (.warmCacheFromDB 5 .asStored)]

/-- The answer to the permitted source after that. -/
def answerAfterWarm : CentralizedResponse :=
  (handleMessage StoreBackedRegistry.ops
    (Run.exec storeBackedServer.step
      ((StoreBackedRegistry.new .empty 1 0).setFirewall (some oneRuleFirewall)) twoInstances) 6 7
    { command := "QUERY", task := "svc" } (some [10, 0, 0, 1])).2

/-- The permitted source gets an answer, and it is the instance it may reach. -/
theorem answerAfterWarm_reachable :
    answerAfterWarm.status = "OK"
      ∧ Reachable oneRuleFirewall [10, 0, 0, 1] answerAfterWarm.address := by
  have hok : answerAfterWarm.status = "OK" := by decide +kernel
  rw [answerAfterWarm] at hok ⊢
  exact ⟨hok, (ok_answer_reachable oneRuleFirewall).2 _ twoInstances 6 7
    { command := "QUERY", task := "svc" } [10, 0, 0, 1] rfl hok⟩

end TaskDiscovery
