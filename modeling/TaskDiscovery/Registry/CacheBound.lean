import Mathlib.Data.Finset.Card
import TaskDiscovery.Lib.Run
import TaskDiscovery.Registry.Fallback
import TaskDiscovery.Registry.Representation

/-!
# The bound of the cache

`cacheMaxSize` bounds what a warm loads. Registrations and admitted misses put tasks into the cache
as well, and they do not look at it: each of them adds the task it is about (`heldTasks_register`,
`heldTasks_lookup`), whatever is there already. A warm replaces the cache by at most as many tasks
as the bound allows (`card_heldTasks_warm`), and a cleanup only removes (`heldTasks_cleanup`).

Between two warms the bound therefore holds exactly as long as no registration and no admission
brings in another task when the cache is full (`always_withinBound_iff`).
-/

namespace TaskDiscovery

open Go (IP)

/-! ## The tasks of a cache -/

namespace MemoryRegistry

variable {reg : MemoryRegistry} {task : String}

/-- The tasks that have an entry. -/
def heldTasks (reg : MemoryRegistry) : Finset String :=
  reg.services.keys.toFinset.filter fun task ↦ reg.HasTask task

@[simp] theorem mem_heldTasks : task ∈ reg.heldTasks ↔ reg.HasTask task := by
  rw [heldTasks, Finset.mem_filter, List.mem_toFinset, and_iff_right_iff_imp]
  intro h
  by_contra hkey
  rw [HasTask, AList.slice, AList.lookup_eq_none.mpr hkey] at h
  exact h rfl

theorem hasTask_iff_exists_holds : reg.HasTask task ↔ ∃ addr, reg.Holds task addr :=
  ⟨HasTask.exists_holds, fun ⟨_, h⟩ ↦ h.hasTask⟩

theorem heldTasks_congr {reg' : MemoryRegistry} (h : reg'.services = reg.services) :
    reg'.heldTasks = reg.heldTasks := by
  ext task
  rw [mem_heldTasks, mem_heldTasks, HasTask, h, HasTask]

theorem heldTasks_registerWithCapacity {now : Time} {addr : String} {capacity : Int64}
    (ht : Go.Trimmed task) (ha : Go.Trimmed addr) :
    (reg.registerWithCapacity now task addr capacity).heldTasks = insert task reg.heldTasks := by
  ext task'
  simp only [mem_heldTasks, Finset.mem_insert, hasTask_iff_exists_holds,
    holds_registerWithCapacity ht ha]
  constructor
  · rintro ⟨addr', ⟨rfl, -⟩ | h⟩
    · exact Or.inl rfl
    · exact Or.inr ⟨addr', h⟩
  · rintro (rfl | ⟨addr', h⟩)
    · exact ⟨addr, Or.inl ⟨rfl, rfl⟩⟩
    · exact ⟨addr', Or.inr h⟩

theorem heldTasks_cleanup (reg : MemoryRegistry) (now timeout : Time) :
    (reg.cleanup now timeout).1.heldTasks ⊆ reg.heldTasks := by
  intro task htask
  rw [mem_heldTasks, HasTask, slice_cleanup] at htask
  rw [mem_heldTasks]
  intro hnil
  exact htask (by rw [hnil, List.filter_nil])

end MemoryRegistry

namespace StoreBackedRegistry

variable {sr sr' : StoreBackedRegistry} {task : String}

/-! ## What the operations add -/

theorem heldTasks_register (hq : Quiet sr) (now₁ now₂ : Time) (task addr : String)
    (capacity : Int64) :
    (sr.registerWithCapacity now₁ now₂ task addr capacity).memCache.heldTasks
      = if Go.trimSpace task = "" ∨ Go.trimSpace addr = "" then sr.memCache.heldTasks
        else insert (Go.trimSpace task) sr.memCache.heldTasks := by
  rcases sr.registerWithCapacity_cases now₁ now₂ task addr capacity with
    ⟨hblank, heq⟩ | ⟨ht, ha, heq⟩
  · rw [heq, if_pos hblank]
  · rw [heq, (registerEntry_of_quiet hq _ _ _ _ _).2.2,
      MemoryRegistry.heldTasks_registerWithCapacity ht ha, if_neg]
    exact not_or.mpr ⟨ht.ne_empty, ha.ne_empty⟩

/-- A lookup of the task fills it in: it is not cached, the miss counts as enough, and the store has
an active entry. -/
def FillsIn (sr : StoreBackedRegistry) (task : String) : Prop :=
  task ≠ "" ∧ ¬sr.memCache.HasTask task ∧ sr.admits task = true
    ∧ ∃ addr, sr.store.table.Active task addr

theorem storeEntries_eq_nil_iff :
    sr.storeEntries task = [] ↔ ∀ addr, ¬sr.store.table.Active task addr := by
  simp only [← Table.mem_map_listTaskServices (c := sr.store.collation)]
  constructor
  · intro hnil addr hmem
    rw [storeEntries] at hnil
    rw [hnil] at hmem
    simp at hmem
  · intro hnone
    by_contra hne
    obtain ⟨e, he⟩ := List.exists_mem_of_ne_nil _ hne
    exact hnone e.address (List.mem_map_of_mem he)

theorem heldTasks_hydrated (hact : ∃ addr, sr.store.table.Active task addr) :
    (sr.hydrated task).heldTasks = insert task sr.memCache.heldTasks := by
  ext task'
  simp only [MemoryRegistry.mem_heldTasks, Finset.mem_insert,
    MemoryRegistry.hasTask_iff_exists_holds, hydrated, holds_hydrated]
  constructor
  · rintro ⟨addr, ⟨rfl, -⟩ | h⟩
    · exact Or.inl rfl
    · exact Or.inr ⟨addr, h⟩
  · rintro (rfl | ⟨addr, h⟩)
    · obtain ⟨addr, h⟩ := hact
      exact ⟨addr, Or.inl ⟨rfl, h⟩⟩
    · exact ⟨addr, Or.inr h⟩

theorem heldTasks_of_hydrated {requestorIP : Option IP} {cache : MemoryRegistry}
    {result : Except RegistryError String}
    (h : (sr.hydrated task).getServiceForRequestor task requestorIP = (cache, result)) :
    cache.heldTasks = (sr.hydrated task).heldTasks := by
  have hframe := ((sr.hydrated task).getServiceForRequestor_frame task requestorIP).1
  rw [h] at hframe
  exact MemoryRegistry.heldTasks_congr hframe

theorem heldTasks_lookup (hq : Quiet sr) {task' : String} (requestorIP : Option IP)
    (h : sr.FillsIn (Go.trimSpace task')) :
    (sr.getServiceForRequestor task' requestorIP).1.memCache.heldTasks
      = insert (Go.trimSpace task') sr.memCache.heldTasks := by
  obtain ⟨hne, hcold, hadmits, hact⟩ := h
  have hentries : sr.storeEntries (Go.trimSpace task') ≠ [] := fun hnil ↦ by
    obtain ⟨addr, haddr⟩ := hact
    exact storeEntries_eq_nil_iff.mp hnil addr haddr
  rw [getServiceForRequestor_of_cold hq.reliable (Go.trimmed_trimSpace hne) hcold hentries rfl,
    if_pos hadmits]
  rcases hget : (sr.missed (Go.trimSpace task')).admitTask (Go.trimSpace task')
    (sr.storeEntries (Go.trimSpace task')) requestorIP with ⟨after, result⟩
  rw [← heldTasks_hydrated hact]
  exact heldTasks_of_hydrated (admitTask_cases hget).1

theorem heldTasks_lookup_of_not (hq : Quiet sr) {task' : String} (requestorIP : Option IP)
    (h : ¬sr.FillsIn (Go.trimSpace task')) :
    (sr.getServiceForRequestor task' requestorIP).1.memCache.heldTasks = sr.memCache.heldTasks := by
  by_cases hne : Go.trimSpace task' = ""
  · rw [getServiceForRequestor, if_pos hne]
  by_cases hserve : ¬sr.memCache.HasTask (Go.trimSpace task')
      ∧ ∃ addr, sr.store.table.Active (Go.trimSpace task') addr
  · -- not admitted: the store answers
    obtain ⟨hcold, hact⟩ := hserve
    have hentries : sr.storeEntries (Go.trimSpace task') ≠ [] := fun hnil ↦ by
      obtain ⟨addr, haddr⟩ := hact
      exact storeEntries_eq_nil_iff.mp hnil addr haddr
    have hadmits : ¬sr.admits (Go.trimSpace task') = true := fun hadmits ↦
      h ⟨hne, hcold, hadmits, hact⟩
    rw [getServiceForRequestor_of_cold hq.reliable (Go.trimmed_trimSpace hne) hcold hentries rfl,
      if_neg hadmits]
    rcases hget : (sr.missed (Go.trimSpace task')).serveFromStore (Go.trimSpace task')
      (sr.storeEntries (Go.trimSpace task')) requestorIP with ⟨after, result⟩
    rw [(serveFromStore_cases hget).2.2.1]
    rfl
  · -- hydrating a task that is there, or that has nothing, adds none
    have hhydrated : (sr.hydrated (Go.trimSpace task')).heldTasks = sr.memCache.heldTasks := by
      by_cases hact : ∃ addr, sr.store.table.Active (Go.trimSpace task') addr
      · have hcached : sr.memCache.HasTask (Go.trimSpace task') := by
          by_contra hcold
          exact hserve ⟨hcold, hact⟩
        rw [heldTasks_hydrated hact, Finset.insert_eq_self, MemoryRegistry.mem_heldTasks]
        exact hcached
      · have hnil := storeEntries_eq_nil_iff.mpr (not_exists.mp hact)
        rw [storeEntries] at hnil
        rw [hydrated, hnil, List.map_nil, populateAll_nil]
    rcases hget : sr.getServiceForRequestor task' requestorIP with ⟨after, result⟩
    rcases (getServiceForRequestor_cases hne hget).2.2 with
      ⟨addr, hcache, -, -⟩ | ⟨_, -, hcache, -, -⟩ | ⟨-, hagain, -⟩ | ⟨e, -, -, -, hcache, -, -⟩ |
      ⟨_, hrel, -, -⟩
    · exact MemoryRegistry.heldTasks_congr (MemoryRegistry.getServiceForRequestor_ok hcache).2.1
    · rw [hcache]
    · rw [← hhydrated]
      exact heldTasks_of_hydrated hagain
    · rw [hcache]
    · exact absurd hq.reliable hrel

/-- **A warm respects the bound.** -/
theorem card_heldTasks_warm (hq : Quiet sr) (hbound : 0 < sr.cacheMaxSize) (now : Time)
    (ord : WarmOrders) :
    ((sr.warmCacheFromDB now ord).1.memCache.heldTasks.card : Int) ≤ sr.cacheMaxSize := by
  set top := (sr.warmedTable ord).listTopTasksByQueryCount sr.store.collation
    sr.cacheMaxSize.toNat with htop
  have hsub : (sr.warmCacheFromDB now ord).1.memCache.heldTasks ⊆ top.toFinset := by
    intro task htask
    rw [MemoryRegistry.mem_heldTasks] at htask
    obtain ⟨addr, hheld⟩ := htask.exists_holds
    have hload := ((holds_warmCacheFromDB hq).mp hheld).1
    rw [List.mem_toFinset]
    exact hload.resolve_left (not_le.mpr hbound)
  have hcard := (Finset.card_le_card hsub).trans top.toFinset_card_le
  have hlen : top.length ≤ sr.cacheMaxSize.toNat := by
    rw [htop, Table.listTopTasksByQueryCount]
    exact List.length_take_le _ _
  omega

/-! ## Runs -/

/-- The cache has entries of at most as many tasks as it is configured for. -/
def WithinBound (sr : StoreBackedRegistry) : Prop :=
  (sr.memCache.heldTasks.card : Int) ≤ sr.cacheMaxSize

instance (sr : StoreBackedRegistry) : Decidable sr.WithinBound :=
  inferInstanceAs (Decidable (_ ≤ _))

/-- There is room for the task: the cache holds it already, or it is not full. -/
def HasRoom (sr : StoreBackedRegistry) (task : String) : Prop :=
  sr.memCache.HasTask task ∨ (sr.memCache.heldTasks.card : Int) < sr.cacheMaxSize

/-- The call brings in no task for which there is no room. -/
def Fits (sr : StoreBackedRegistry) : Op → Prop
  | .register _ _ task addr | .registerWithCapacity _ _ task addr _ =>
    Go.trimSpace task = "" ∨ Go.trimSpace addr = "" ∨ sr.HasRoom (Go.trimSpace task)
  | .getServiceForRequestor task _ =>
    sr.FillsIn (Go.trimSpace task) → sr.HasRoom (Go.trimSpace task)
  | .warmCacheFromDB _ _ | .listServices _ _ _ | .cleanup _ _ _ => True

theorem card_insert_le_iff (h : sr.WithinBound) (task : String) :
    ((insert task sr.memCache.heldTasks).card : Int) ≤ sr.cacheMaxSize ↔ sr.HasRoom task := by
  rw [WithinBound] at h
  rw [HasRoom, ← MemoryRegistry.mem_heldTasks]
  by_cases hmem : task ∈ sr.memCache.heldTasks
  · rw [Finset.insert_eq_of_mem hmem]
    exact iff_of_true h (Or.inl hmem)
  · rw [Finset.card_insert_of_notMem hmem, or_iff_right hmem]
    omega

theorem withinBound_register_iff (hq : Quiet sr) (h : sr.WithinBound) (now₁ now₂ : Time)
    (task addr : String) (capacity : Int64) :
    (sr.registerWithCapacity now₁ now₂ task addr capacity).WithinBound
      ↔ Go.trimSpace task = "" ∨ Go.trimSpace addr = "" ∨ sr.HasRoom (Go.trimSpace task) := by
  rw [WithinBound, heldTasks_register hq, (registerWithCapacity_config ..).cacheMaxSize, ← or_assoc]
  split_ifs with hblank
  · exact iff_of_true h (Or.inl hblank)
  · rw [card_insert_le_iff h, or_iff_right hblank]

/-- **One call keeps the bound exactly when it fits.** -/
theorem withinBound_step_iff (hq : Quiet sr) (hbound : 0 < sr.cacheMaxSize) (h : sr.WithinBound)
    (op : Op) : (sr.step op).WithinBound ↔ sr.Fits op := by
  have hwarm (now : Time) (ord : WarmOrders) : (sr.warmCacheFromDB now ord).1.WithinBound := by
    rw [WithinBound, (warmCacheFromDB_config now ord).cacheMaxSize]
    exact card_heldTasks_warm hq hbound now ord
  cases op with
  | register now₁ now₂ task addr =>
    rw [step, register]
    exact withinBound_register_iff hq h now₁ now₂ task addr 1
  | registerWithCapacity now₁ now₂ task addr capacity =>
    rw [step]
    exact withinBound_register_iff hq h now₁ now₂ task addr capacity
  | getServiceForRequestor task requestorIP =>
    rw [step, WithinBound, (getServiceForRequestor_config ..).cacheMaxSize, Fits]
    by_cases hfill : sr.FillsIn (Go.trimSpace task)
    · rw [heldTasks_lookup hq requestorIP hfill, card_insert_le_iff h]
      exact ⟨fun hroom _ ↦ hroom, fun hroom ↦ hroom hfill⟩
    · rw [heldTasks_lookup_of_not hq requestorIP hfill]
      exact iff_of_true h fun hfill' ↦ absurd hfill' hfill
  | warmCacheFromDB now ord => exact iff_of_true (hwarm now ord) trivial
  | listServices now₁ now₂ ord =>
    refine iff_of_true ?_ trivial
    simp only [step, listServices]
    split_ifs
    · exact hwarm now₂ ord
    · exact h
  | cleanup now₁ now₂ timeout =>
    refine iff_of_true ?_ trivial
    have hconfig : SameConfig sr (sr.cleanup now₁ now₂ timeout).1 :=
      cleanup_config now₁ now₂ timeout
    have hcache : (sr.cleanup now₁ now₂ timeout).1.memCache
        = (sr.memCache.cleanup now₁ timeout).1 := by
      simp only [cleanup]
      rcases sr.store.cleanup now₂ timeout with ⟨store, err | flagged⟩ <;> rfl
    have hcard := Finset.card_le_card (sr.memCache.heldTasks_cleanup now₁ timeout)
    rw [WithinBound] at h
    rw [step, WithinBound, hconfig.cacheMaxSize, hcache]
    omega

/-- **The bound, exactly.** Over a store that does not fail, with any contents, a bounded cache has
entries of at most `n` tasks in every state of a run if and only if no registration and no admitted
miss of the run brings in another task when there are `n` already. -/
theorem always_withinBound_iff {store : PostgresStore} (hrel : store.Reliable) {n : Int}
    (hn : 0 < n) (now : Time) (threshold : Int) (fw : Option Firewall) (ops : List Op) :
    Run.Always step (fun sr ↦ (sr.memCache.heldTasks.card : Int) ≤ n)
        (start store n now threshold fw) ops
      ↔ Run.Meets step Fits (start store n now threshold fw) ops := by
  have hinv : ∀ sr op, True → (Quiet sr ∧ sr.cacheMaxSize = n) →
      Quiet (step sr op) ∧ (step sr op).cacheMaxSize = n := fun sr op _ h ↦
    ⟨quiet_step h.1 op, (step_config sr op).cacheMaxSize.trans h.2⟩
  refine Run.always_iff_meets hinv (fun sr op _ hsr hP ↦ ?_) (fun _ _ ↦ trivial)
    ⟨quiet_start hrel n now threshold fw, rfl⟩ ?_
  · obtain ⟨hq, rfl⟩ := hsr
    rw [← withinBound_step_iff hq hn hP op, WithinBound, (step_config sr op).cacheMaxSize]
  · exact_mod_cast hn.le

/-- A cache for one task, two instances of the task, a lookup and a warm. -/
def oneTask : List Op :=
  [.register 1 1 "scan" "10.0.0.1:80", .register 2 2 "scan" "10.0.0.2:80",
    .getServiceForRequestor "scan" none, .warmCacheFromDB 3 WarmOrders.asStored]

theorem oneTask_withinBound :
    PostgresStore.empty.Reliable ∧ (0 : Int) < 1
      ∧ Run.Always step (fun sr ↦ (sr.memCache.heldTasks.card : Int) ≤ 1) (start .empty 1 0 1 none)
        oneTask := by
  refine ⟨PostgresStore.empty_reliable, by decide,
    (always_withinBound_iff PostgresStore.empty_reliable (by decide) 0 1 none oneTask).mpr
      ⟨Or.inr (Or.inr (Or.inr (by decide +kernel))), Or.inr (Or.inr (Or.inl (by decide +kernel))),
        fun hfill ↦ absurd hfill.2.1 (by decide +kernel), trivial, trivial⟩⟩

def twoTasks : PostgresStore where
  table := Table.register
    (Table.register ∅ "scan" { address := "10.0.0.1:80", lastHeartbeat := 0, capacity := 1 })
    "ping" { address := "10.0.0.2:80", lastHeartbeat := 0, capacity := 1 }
  collation := .codePoint
  outage := fun _ ↦ none
  calls := 0

/-- A cache for one task takes in the second when it is registered, and when it is looked up. -/
theorem twoTasks_beyondBound :
    (Run.exec step (start .empty 1 0 1 none) [.register 1 1 "scan" "10.0.0.1:80",
        .register 2 2 "ping" "10.0.0.2:80"]).memCache.heldTasks.card = 2
      ∧ (Run.exec step (start twoTasks 1 0 1 none) [.getServiceForRequestor "scan" none,
        .getServiceForRequestor "ping" none]).memCache.heldTasks.card = 2 := by
  decide +kernel

end StoreBackedRegistry

end TaskDiscovery
