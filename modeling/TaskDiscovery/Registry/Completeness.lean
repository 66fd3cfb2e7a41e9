import TaskDiscovery.Lib.Run
import TaskDiscovery.Registry.Effects

/-!
# When the cache knows every instance of a task

A cache hit balances over the entries the cache holds, so a task of which the cache holds only some
active instances hides the others. `Complete` says that this does not happen.

Hydration and warming fill the cache task by task and keep it complete. A registration fills it by
one address: that is complete only when the task was in the cache already, or when the store knows
no other active address of it (`RegistersWhole`). The condition is exact for every operation
(`complete_step_iff`), hence for runs. A heartbeat after the eviction of a task with two instances
does not meet it.
-/

namespace TaskDiscovery

open Go (IP)

namespace StoreBackedRegistry

variable {sr sr' : StoreBackedRegistry}

/-- A task with an entry in the cache has all its active addresses there. -/
def Complete (sr : StoreBackedRegistry) : Prop :=
  ∀ task, sr.memCache.HasTask task →
    ∀ addr, sr.store.table.Active task addr → sr.memCache.Holds task addr

/-- The registration of a pair cannot create a partial task: it is void, the task is cached, or no
other address of it is active. -/
def RegistersWhole (sr : StoreBackedRegistry) (task addr : String) : Prop :=
  Go.trimSpace task = "" ∨ Go.trimSpace addr = "" ∨ sr.memCache.HasTask (Go.trimSpace task)
    ∨ ∀ addr', sr.store.table.Active (Go.trimSpace task) addr' → addr' = Go.trimSpace addr

/-- The condition on a call: only registrations are restricted. -/
def FillsTask (sr : StoreBackedRegistry) : Op → Prop
  | .register _ _ task addr => sr.RegistersWhole task addr
  | .registerWithCapacity _ _ task addr _ => sr.RegistersWhole task addr
  | _ => True

theorem complete_congr
    (hholds : ∀ task addr, sr'.memCache.Holds task addr ↔ sr.memCache.Holds task addr)
    (hactive : ∀ task addr, sr'.store.table.Active task addr ↔ sr.store.table.Active task addr)
    (h : Complete sr) : Complete sr' := by
  intro task htask addr haddr
  obtain ⟨addr₀, hheld⟩ := htask.exists_holds
  have hcached : sr.memCache.HasTask task := ((hholds task addr₀).mp hheld).hasTask
  exact (hholds task addr).mpr (h task hcached addr ((hactive task addr).mp haddr))

/-! ## Registrations -/

theorem complete_registerEntry_iff (hq : Quiet sr) (hc : Complete sr) (now₁ now₂ : Time)
    {task addr : String} (ht : Go.Trimmed task) (ha : Go.Trimmed addr) (capacity : Int64) :
    Complete (sr.registerEntry now₁ now₂ task addr capacity)
      ↔ sr.memCache.HasTask task ∨ ∀ addr', sr.store.table.Active task addr' → addr' = addr := by
  obtain ⟨-, htable, hcache⟩ := registerEntry_of_quiet hq now₁ now₂ task addr capacity
  simp only [Complete, htable, hcache, Table.active_register]
  constructor
  · intro h
    by_cases hcached : sr.memCache.HasTask task
    · exact Or.inl hcached
    · refine Or.inr fun addr' hact ↦ ?_
      have hnew : (sr.memCache.registerWithCapacity now₁ task addr capacity).Holds task addr :=
        (MemoryRegistry.holds_registerWithCapacity ht ha).mpr (Or.inl ⟨rfl, rfl⟩)
      have hheld := h task hnew.hasTask addr' (Or.inr hact)
      rcases (MemoryRegistry.holds_registerWithCapacity ht ha).mp hheld with ⟨-, heq⟩ | hold
      · exact heq
      · exact absurd hold.hasTask hcached
  · intro h task' htask' addr' hact
    rw [MemoryRegistry.holds_registerWithCapacity ht ha]
    rcases hact with hnew | hact
    · exact Or.inl hnew
    · obtain ⟨addr₀, hheld⟩ := htask'.exists_holds
      rcases (MemoryRegistry.holds_registerWithCapacity ht ha).mp hheld with ⟨rfl, -⟩ | hold
      · rcases h with hcached | honly
        · exact Or.inr (hc task' hcached addr' hact)
        · exact Or.inl ⟨rfl, honly addr' hact⟩
      · exact Or.inr (hc task' hold.hasTask addr' hact)

/-- A registration keeps completeness exactly when it cannot create a partial task. -/
theorem complete_registerWithCapacity_iff (hq : Quiet sr) (hc : Complete sr) (now₁ now₂ : Time)
    (task addr : String) (capacity : Int64) :
    Complete (sr.registerWithCapacity now₁ now₂ task addr capacity)
      ↔ sr.RegistersWhole task addr := by
  rw [RegistersWhole]
  rcases registerWithCapacity_cases sr now₁ now₂ task addr capacity with
    ⟨hblank, heq⟩ | ⟨ht, ha, heq⟩
  · rw [heq, ← or_assoc]
    exact ⟨fun _ ↦ Or.inl hblank, fun _ ↦ hc⟩
  · rw [heq, complete_registerEntry_iff hq hc now₁ now₂ ht ha]
    simp [ht.ne_empty, ha.ne_empty]

/-! ## Lookups -/

theorem holds_of_services_eq {reg reg' : MemoryRegistry} (h : reg'.services = reg.services)
    (task addr : String) : reg'.Holds task addr ↔ reg.Holds task addr := by
  rw [MemoryRegistry.Holds, h, MemoryRegistry.Holds]

/-- A lookup never makes a task partial: what it hydrates, it hydrates whole. -/
theorem complete_getServiceForRequestor (hq : Quiet sr) (hc : Complete sr) (task : String)
    (requestorIP : Option IP) : Complete (sr.getServiceForRequestor task requestorIP).1 := by
  by_cases ht : Go.trimSpace task = ""
  · rwa [getServiceForRequestor, if_pos ht]
  rcases hget : sr.getServiceForRequestor task requestorIP with ⟨after, result⟩
  rcases (getServiceForRequestor_cases ht hget).2.2 with
    ⟨addr, hcache, htable, -⟩ | ⟨_, -, hcache, htable, -⟩ | ⟨-, hagain, htable⟩ |
    ⟨e, -, -, -, hcache, htable, -⟩ | ⟨_, hrel, -, -⟩
  · have hserv := (MemoryRegistry.getServiceForRequestor_ok hcache).2.1
    exact complete_congr (holds_of_services_eq hserv) (fun _ _ ↦ by rw [htable]) hc
  · exact complete_congr (fun _ _ ↦ by rw [hcache]) (fun _ _ ↦ by rw [htable]) hc
  · have hholds : ∀ task' addr', after.memCache.Holds task' addr'
        ↔ (task' = Go.trimSpace task ∧ sr.store.table.Active (Go.trimSpace task) addr')
          ∨ sr.memCache.Holds task' addr' := by
      intro task' addr'
      have hserv := (MemoryRegistry.getServiceForRequestor_frame (populateAll sr.memCache
        ((sr.store.table.listTaskServices sr.store.collation (Go.trimSpace task)).map fun e ↦
          (Go.trimSpace task, e))) (Go.trimSpace task) requestorIP).1
      rw [hagain] at hserv
      rw [holds_of_services_eq hserv, holds_hydrated]
    intro task' htask' addr' hact
    rw [htable] at hact
    rw [hholds]
    obtain ⟨addr₀, hheld⟩ := htask'.exists_holds
    rcases (hholds task' addr₀).mp hheld with ⟨rfl, -⟩ | hold
    · exact Or.inl ⟨rfl, hact⟩
    · exact Or.inr (hc task' hold.hasTask addr' hact)
  · refine complete_congr (fun _ _ ↦ by rw [hcache]) (fun task' addr' ↦ ?_) hc
    rw [htable, Table.active_incrementQueryCount]
  · exact absurd hq.reliable hrel

/-! ## Warming -/

theorem complete_warmCacheFromDB (hq : Quiet sr) (now : Time) (ord : WarmOrders) :
    Complete (sr.warmCacheFromDB now ord).1 := by
  intro task htask addr hact
  rw [(warmCacheFromDB_of_quiet hq now ord).2.1] at hact
  obtain ⟨addr₀, hheld⟩ := htask.exists_holds
  have hloaded := ((holds_warmCacheFromDB hq).mp hheld).1
  exact (holds_warmCacheFromDB hq).mpr ⟨hloaded, hact⟩

/-! ## Runs -/

/-- **One call keeps completeness exactly when it fills tasks whole.** -/
theorem complete_step_iff (hq : Quiet sr) (hc : Complete sr) (op : Op)
    (hop : op.isCleanup = false) : Complete (sr.step op) ↔ sr.FillsTask op := by
  cases op with
  | register now₁ now₂ task addr =>
    rw [step, register, FillsTask]
    exact complete_registerWithCapacity_iff hq hc now₁ now₂ task addr 1
  | registerWithCapacity now₁ now₂ task addr capacity =>
    rw [step, FillsTask]
    exact complete_registerWithCapacity_iff hq hc now₁ now₂ task addr capacity
  | getServiceForRequestor task requestorIP =>
    rw [step]
    exact iff_of_true (complete_getServiceForRequestor hq hc task requestorIP) trivial
  | warmCacheFromDB now ord =>
    rw [step]
    exact iff_of_true (complete_warmCacheFromDB hq now ord) trivial
  | listServices now₁ now₂ ord =>
    refine iff_of_true ?_ trivial
    simp only [step, listServices]
    split_ifs
    · exact complete_warmCacheFromDB hq now₂ ord
    · exact hc
  | cleanup now₁ now₂ timeout => simp [Op.isCleanup] at hop

theorem complete_start (ps : PostgresStore) (cacheMaxSize : Int) (now : Time) (threshold : Int)
    (fw : Option Firewall) : Complete (start ps cacheMaxSize now threshold fw) :=
  fun _ htask ↦ absurd rfl htask

/-- **Cache completeness, exactly.** Over a reliable store with any contents, a run without cleanup
keeps the cache complete in every state if and only if each of its registrations, when made, cannot
create a partial task. -/
theorem always_complete_iff {ps : PostgresStore} (hrel : ps.Reliable) (cacheMaxSize : Int)
    (now : Time) (threshold : Int) (fw : Option Firewall) {ops : List Op}
    (hops : ∀ op ∈ ops, op.isCleanup = false) :
    Run.Always step Complete (start ps cacheMaxSize now threshold fw) ops
      ↔ Run.Meets step FillsTask (start ps cacheMaxSize now threshold fw) ops :=
  Run.always_iff_meets (fun _ op _ hq ↦ quiet_step hq op)
    (fun _ op hop hq hc ↦ complete_step_iff hq hc op hop) hops
    (quiet_start hrel cacheMaxSize now threshold fw)
    (complete_start ps cacheMaxSize now threshold fw)

def secondInstance : List Op :=
  [.register 1 2 "svc" "10.0.0.1:80", .register 3 4 "svc" "10.0.0.2:80"]

theorem secondInstance_always_complete :
    Run.Always step Complete (start .empty 1 0 1 none) secondInstance := by
  refine (always_complete_iff PostgresStore.empty_reliable 1 0 1 none (by decide)).mpr ⟨?_, ?_, ?_⟩
  · exact Or.inr (Or.inr (Or.inr fun addr' hact ↦ absurd hact (Table.not_active_empty _ _)))
  · exact Or.inr (Or.inr (Or.inl (by decide +kernel)))
  · trivial

/-- With room for one task, `svc` is evicted by the warm and comes back with one of its two
instances. -/
def evictedHeartbeat : List Op :=
  [.register 1 2 "svc" "10.0.0.1:80", .register 3 4 "svc" "10.0.0.2:80",
    .register 5 6 "web" "10.0.0.3:80", .getServiceForRequestor "web" none,
    .warmCacheFromDB 7 .asStored, .register 8 9 "svc" "10.0.0.1:80"]

theorem evictedHeartbeat_not_always_complete :
    (∀ op ∈ evictedHeartbeat, op.isCleanup = false)
      ∧ ¬Run.Always step Complete (start .empty 1 0 1 none) evictedHeartbeat := by
  refine ⟨by decide, fun h ↦ ?_⟩
  have hheld := h evictedHeartbeat List.prefix_rfl "svc" (by decide +kernel) "10.0.0.2:80"
    (by decide +kernel)
  exact absurd hheld (by decide +kernel)

end StoreBackedRegistry

end TaskDiscovery
