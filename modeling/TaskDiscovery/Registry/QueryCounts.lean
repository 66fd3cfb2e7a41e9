import TaskDiscovery.Registry.Completeness

/-!
# Query counts, in the cache and in the table

A lookup answered by the cache is counted in the cache, one answered from the store is counted in
the row, and a warm writes the cache's counters back as absolute values. The two sets of books agree
with the lookups actually served as long as every cached pair carries the whole count of its pair.
That is the invariant `Ledger`:

* a cached pair is counted by its counter, and its row may lag behind;
* a pair that is not cached is counted by its row.

A call breaks the books in three ways, and `CountSafe` excludes exactly these: a registration that
caches a pair with a nonzero count in its row, since the counter starts again at zero; a
registration whose counter key is that of another pair; and a refused lookup of a cached task whose
counters are ahead of their rows, since hydration overwrites them.
-/

namespace TaskDiscovery

open Go (IP)

/-- One more lookup of `task` served by `addr`. -/
def bump (served : String → String → ℕ) (task addr : String) : String → String → ℕ :=
  fun task' addr' ↦
    if task' = task ∧ addr' = addr then served task' addr' + 1 else served task' addr'

theorem le_bump (served : String → String → ℕ) (task addr task' addr' : String) :
    served task' addr' ≤ bump served task addr task' addr' := by
  rw [bump]
  split_ifs <;> omega

/-- The lookups served after one more lookup of `task` with this result. -/
def recordAnswer (served : String → String → ℕ) (task : String) :
    Except RegistryError String → String → String → ℕ
  | .ok addr => bump served task addr
  | .error _ => served

/-- The books of a cache and a table agree with the lookups served. -/
structure Ledger (cache : MemoryRegistry) (t : Table) (served : String → String → ℕ) : Prop where
  /-- Without cleanup every row is active. -/
  active : ∀ {task addr row}, t.lookup (task, addr) = some row → row.isActive = true
  nonneg : ∀ task addr, 0 ≤ t.queryCount task addr
  /-- Different rows have different counter keys. -/
  keys : ∀ {task addr task' addr'}, t.Active task addr → t.Active task' addr' →
    counterKey task addr = counterKey task' addr' → task = task' ∧ addr = addr'
  cached_active : ∀ {task addr}, cache.Holds task addr → t.Active task addr
  counter_cached : ∀ {key n}, cache.queryCounters key = some n →
    ∃ task addr, cache.Holds task addr ∧ key = counterKey task addr
  entry_zero : ∀ {task e}, e ∈ cache.services.slice task → e.queryCount = 0
  behind : ∀ task addr, t.queryCount task addr ≤ served task addr
  cached : ∀ {task addr}, cache.Holds task addr → cache.count task addr = served task addr
  uncached : ∀ {task addr}, ¬cache.Holds task addr → t.queryCount task addr = served task addr

namespace Ledger

variable {cache cache' : MemoryRegistry} {t : Table} {served : String → String → ℕ}

theorem ne_key (h : Ledger cache t served) {task addr task' addr' : String}
    (hact : t.Active task addr) (hact' : t.Active task' addr')
    (hne : ¬(task' = task ∧ addr' = addr)) : counterKey task' addr' ≠ counterKey task addr :=
  fun hkey ↦ hne (h.keys hact' hact hkey)

theorem counter_eq_none (h : Ledger cache t served) {task addr : String}
    (hkey : ∀ task' addr', t.Active task' addr' → counterKey task' addr' = counterKey task addr →
      task' = task ∧ addr' = addr)
    (hnot : ¬cache.Holds task addr) : cache.queryCounters (counterKey task addr) = none := by
  rcases hcounter : cache.queryCounters (counterKey task addr) with _ | n
  · rfl
  · obtain ⟨task', addr', hheld, heq⟩ := h.counter_cached hcounter
    obtain ⟨rfl, rfl⟩ := hkey task' addr' (h.cached_active hheld) heq.symm
    exact absurd hheld hnot

theorem entry_zero_putEntry {task addr : String} {f : ServiceEntry → ServiceEntry}
    {fresh : ServiceEntry} (hf : ∀ e, (f e).queryCount = e.queryCount)
    (hfresh : fresh.queryCount = 0)
    (h : ∀ {task e}, e ∈ cache.services.slice task → e.queryCount = 0) {task' : String}
    {e : ServiceEntry} (he : e ∈ (cache.putEntry task addr f fresh).services.slice task') :
    e.queryCount = 0 := by
  rw [MemoryRegistry.slice_putEntry] at he
  split_ifs at he
  · rcases List.mem_upsert he with hold | rfl | ⟨e', he', -, rfl⟩
    · exact h hold
    · exact hfresh
    · rw [hf, h he']
  · exact h he

/-! ## The moves -/

section Register

variable {now₁ now₂ : Time} {task addr : String} {capacity : Int64}

theorem active_register (h : Ledger cache t served) {e : ServiceEntry} {task' addr' : String}
    {row : Row} (hrow : (t.register task e).lookup (task', addr') = some row) :
    row.isActive = true := by
  rw [Table.lookup_register] at hrow
  split_ifs at hrow
  · obtain rfl := Option.some.inj hrow
    rfl
  · exact h.active hrow

theorem keys_register (h : Ledger cache t served) {e : ServiceEntry}
    (hkey : ∀ task' addr', t.Active task' addr' →
      counterKey task' addr' = counterKey task e.address → task' = task ∧ addr' = e.address)
    {task₁ addr₁ task₂ addr₂ : String} (h₁ : (t.register task e).Active task₁ addr₁)
    (h₂ : (t.register task e).Active task₂ addr₂)
    (heq : counterKey task₁ addr₁ = counterKey task₂ addr₂) : task₁ = task₂ ∧ addr₁ = addr₂ := by
  rcases Table.active_register.mp h₁ with ⟨rfl, rfl⟩ | hold₁
  · rcases Table.active_register.mp h₂ with ⟨rfl, rfl⟩ | hold₂
    · exact ⟨rfl, rfl⟩
    · obtain ⟨rfl, rfl⟩ := hkey task₂ addr₂ hold₂ heq.symm
      exact ⟨rfl, rfl⟩
  · rcases Table.active_register.mp h₂ with ⟨rfl, rfl⟩ | hold₂
    · exact hkey task₁ addr₁ hold₁ heq
    · exact h.keys hold₁ hold₂ heq

/-- A pair that is new to the cache has neither a counter nor a served lookup. -/
theorem count_of_new (h : Ledger cache t served)
    (hkey : ∀ task' addr', t.Active task' addr' → counterKey task' addr' = counterKey task addr →
      task' = task ∧ addr' = addr)
    (hnot : ¬cache.Holds task addr) (hzero : t.queryCount task addr = 0) :
    cache.count task addr = served task addr := by
  rw [MemoryRegistry.count, h.counter_eq_none hkey hnot, Option.getD_none, ← h.uncached hnot, hzero]

/-- A registration whose key is its own, of a pair that is cached already or has not been served,
keeps the books. -/
theorem register (h : Ledger cache t served) (ht : Go.Trimmed task) (ha : Go.Trimmed addr)
    (hkey : ∀ task' addr', t.Active task' addr' → counterKey task' addr' = counterKey task addr →
      task' = task ∧ addr' = addr)
    (hfresh : cache.Holds task addr ∨ t.queryCount task addr = 0) :
    Ledger (cache.registerWithCapacity now₁ task addr capacity)
      (t.register task { address := addr, lastHeartbeat := now₂, capacity := capacity })
      served := by
  have hcount : ∀ task' addr',
      (t.register task { address := addr, lastHeartbeat := now₂, capacity := capacity }).queryCount
        task' addr' = t.queryCount task' addr' :=
    Table.queryCount_register_of_zero rfl fun row hrow ↦ h.active hrow
  have hcounters : (cache.registerWithCapacity now₁ task addr capacity).queryCounters
      = cache.queryCounters := by
    rw [MemoryRegistry.registerWithCapacity_of_trimmed ht ha]
    rfl
  have hholds : ∀ {task' addr'},
      (cache.registerWithCapacity now₁ task addr capacity).Holds task' addr'
        ↔ (task' = task ∧ addr' = addr) ∨ cache.Holds task' addr' :=
    MemoryRegistry.holds_registerWithCapacity ht ha
  refine ⟨h.active_register, fun task' addr' ↦ (hcount task' addr').symm ▸ h.nonneg task' addr',
    h.keys_register hkey, ?cached_active, ?counter_cached, ?entry_zero,
    fun task' addr' ↦ (hcount task' addr').symm ▸ h.behind task' addr', ?cached, ?uncached⟩
  case cached_active =>
    intro task' addr' hheld
    exact Table.active_register.mpr ((hholds.mp hheld).imp id h.cached_active)
  case counter_cached =>
    intro key n hn
    rw [hcounters] at hn
    obtain ⟨task', addr', hheld, rfl⟩ := h.counter_cached hn
    exact ⟨task', addr', hholds.mpr (Or.inr hheld), rfl⟩
  case entry_zero =>
    intro task' e he
    rw [MemoryRegistry.registerWithCapacity_of_trimmed ht ha] at he
    exact entry_zero_putEntry (by exact fun _ ↦ rfl) (by rfl) h.entry_zero he
  case cached =>
    intro task' addr' hheld
    rw [MemoryRegistry.count, hcounters, ← MemoryRegistry.count]
    by_cases hold : cache.Holds task' addr'
    · exact h.cached hold
    · obtain ⟨rfl, rfl⟩ := (hholds.mp hheld).resolve_right hold
      exact h.count_of_new hkey hold (hfresh.resolve_left hold)
  case uncached =>
    intro task' addr' hnot
    rw [hcount]
    exact h.uncached fun hheld ↦ hnot (hholds.mpr (Or.inr hheld))

end Register

/-- A lookup served by a cached pair goes to its counter. -/
theorem serve (h : Ledger cache t served) {task addr : String} (hheld : cache.Holds task addr)
    (hserv : cache'.services = cache.services)
    (hcnt : cache'.queryCounters = cache.queryCounters.store (counterKey task addr)
      ((cache.queryCounters (counterKey task addr)).getD 0 + 1)) :
    Ledger cache' t (bump served task addr) := by
  have hholds : ∀ {task' addr'}, cache'.Holds task' addr' ↔ cache.Holds task' addr' :=
    fun {task' addr'} ↦ StoreBackedRegistry.holds_of_services_eq hserv task' addr'
  refine ⟨h.active, h.nonneg, h.keys, fun hh ↦ h.cached_active (hholds.mp hh), ?counter_cached,
    ?entry_zero, ?behind, ?cached, ?uncached⟩
  case counter_cached =>
    intro key n hn
    by_cases hk : key = counterKey task addr
    · exact ⟨task, addr, hholds.mpr hheld, hk⟩
    · rw [hcnt, SyncMap.store_of_ne _ hk] at hn
      obtain ⟨task', addr', hheld', rfl⟩ := h.counter_cached hn
      exact ⟨task', addr', hholds.mpr hheld', rfl⟩
  case entry_zero =>
    intro task' e he
    rw [hserv] at he
    exact h.entry_zero he
  case behind =>
    intro task' addr'
    have hle := le_bump served task addr task' addr'
    have hbehind := h.behind task' addr'
    omega
  case cached =>
    intro task' addr' hheld'
    rw [MemoryRegistry.count, hcnt, bump]
    by_cases hp : task' = task ∧ addr' = addr
    · obtain ⟨rfl, rfl⟩ := hp
      have hcached := h.cached hheld
      rw [MemoryRegistry.count] at hcached
      rw [SyncMap.store_self, Option.getD_some, hcached, if_pos ⟨rfl, rfl⟩]
      rfl
    · have hne := h.ne_key (h.cached_active hheld) (h.cached_active (hholds.mp hheld')) hp
      rw [SyncMap.store_of_ne _ hne, if_neg hp]
      exact h.cached (hholds.mp hheld')
  case uncached =>
    intro task' addr' hnot
    rw [bump, if_neg]
    · exact h.uncached fun hheld' ↦ hnot (hholds.mpr hheld')
    · rintro ⟨rfl, rfl⟩
      exact hnot (hholds.mpr hheld)

/-- A lookup served by a pair that is not cached goes to its row. -/
theorem countRow (h : Ledger cache t served) {task addr : String} (hact : t.Active task addr)
    (hnot : ¬cache.Holds task addr) :
    Ledger cache (t.incrementQueryCount task addr).1 (bump served task addr) := by
  have hcount := Table.queryCount_incrementQueryCount hact
  refine ⟨?active, ?nonneg, ?keys, ?cached_active, h.counter_cached, h.entry_zero, ?behind,
    ?cached, ?uncached⟩
  case active =>
    intro task' addr' row hrow
    rw [Table.lookup_incrementQueryCount] at hrow
    split_ifs at hrow
    · obtain ⟨row', hrow', rfl⟩ := Option.map_eq_some_iff.mp hrow
      simp [h.active hrow']
    · exact h.active hrow
  case nonneg =>
    intro task' addr'
    have hnonneg := h.nonneg task' addr'
    rw [hcount]
    split_ifs <;> omega
  case keys =>
    intro task₁ addr₁ task₂ addr₂ h₁ h₂ heq
    exact h.keys (Table.active_incrementQueryCount.mp h₁) (Table.active_incrementQueryCount.mp h₂)
      heq
  case cached_active =>
    intro task' addr' hheld
    exact Table.active_incrementQueryCount.mpr (h.cached_active hheld)
  case behind =>
    intro task' addr'
    have hbehind := h.behind task' addr'
    rw [hcount, bump]
    split_ifs <;> push_cast <;> omega
  case cached =>
    intro task' addr' hheld
    rw [h.cached hheld, bump, if_neg]
    rintro ⟨rfl, rfl⟩
    exact hnot hheld
  case uncached =>
    intro task' addr' hnot'
    have huncached := h.uncached hnot'
    rw [hcount, bump]
    split_ifs <;> push_cast <;> omega

theorem populateCacheEntry (h : Ledger cache t served) {task : String} {e : ServiceEntry}
    (hact : t.Active task e.address) (hcount : e.queryCount = served task e.address) :
    Ledger (populateCacheEntry cache task e) t served := by
  refine ⟨h.active, h.nonneg, h.keys, ?cached_active, ?counter_cached, ?entry_zero, h.behind,
    ?cached, ?uncached⟩
  case cached_active =>
    intro task' addr' hheld
    rcases holds_populateCacheEntry.mp hheld with ⟨rfl, rfl⟩ | hold
    · exact hact
    · exact h.cached_active hold
  case counter_cached =>
    intro key n hn
    by_cases hk : key = counterKey task e.address
    · exact ⟨task, e.address, holds_populateCacheEntry.mpr (Or.inl ⟨rfl, rfl⟩), hk⟩
    · rw [populateCacheEntry_queryCounters, SyncMap.store_of_ne _ hk] at hn
      obtain ⟨task', addr', hheld, rfl⟩ := h.counter_cached hn
      exact ⟨task', addr', holds_populateCacheEntry.mpr (Or.inr hheld), rfl⟩
  case entry_zero =>
    intro task' e' he'
    exact entry_zero_putEntry (by exact fun _ ↦ rfl) (by rfl) h.entry_zero he'
  case cached =>
    intro task' addr' hheld
    rw [MemoryRegistry.count, populateCacheEntry_queryCounters]
    by_cases hp : task' = task ∧ addr' = e.address
    · rw [hp.1, hp.2, SyncMap.store_self, Option.getD_some, hcount]
    · have hold := (holds_populateCacheEntry.mp hheld).resolve_left hp
      rw [SyncMap.store_of_ne _ (h.ne_key hact (h.cached_active hold) hp)]
      exact h.cached hold
  case uncached =>
    intro task' addr' hnot
    exact h.uncached fun hheld ↦ hnot (holds_populateCacheEntry.mpr (Or.inr hheld))

theorem populateAll {l : List (String × ServiceEntry)} (h : Ledger cache t served)
    (hl : ∀ p ∈ l, t.Active p.1 p.2.address ∧ p.2.queryCount = served p.1 p.2.address) :
    Ledger (populateAll cache l) t served := by
  induction l generalizing cache with
  | nil => exact h
  | cons p l ih =>
    obtain ⟨hact, hcount⟩ := hl p List.mem_cons_self
    exact ih (h.populateCacheEntry hact hcount) fun q hq ↦ hl q (List.mem_cons_of_mem _ hq)

/-- Hydrating a task whose cached counters agree with their rows keeps the books. -/
theorem hydrate (h : Ledger cache t served) {task : String}
    (hsync : ∀ addr, cache.Holds task addr → cache.count task addr = t.queryCount task addr)
    (c : Collation) :
    Ledger (TaskDiscovery.populateAll cache
      ((t.listTaskServices c task).map fun e ↦ (task, e))) t served := by
  refine h.populateAll fun p hp ↦ ?_
  obtain ⟨e, he, rfl⟩ := List.mem_map.mp hp
  refine ⟨Table.mem_map_listTaskServices.mp (List.mem_map_of_mem he), ?_⟩
  rw [Table.queryCount_of_mem_listTaskServices he]
  by_cases hheld : cache.Holds task e.address
  · rw [← hsync e.address hheld, h.cached hheld]
  · exact h.uncached hheld

/-! ## Writing back -/

theorem listed (h : Ledger cache t served) {ord : TaskOrder} {task : String} {e : ServiceEntry}
    (he : (task, e) ∈ pairs ord cache.listServices) :
    cache.Holds task e.address ∧ e.queryCount = served task e.address := by
  rw [mem_pairs, MemoryRegistry.slice_listServices] at he
  obtain ⟨e₀, he₀, rfl⟩ := List.mem_map.mp he
  have hheld : cache.Holds task e₀.address := List.mem_map_of_mem he₀
  rw [MemoryRegistry.withCount_address]
  refine ⟨hheld, ?_⟩
  rw [← h.cached hheld, MemoryRegistry.count, MemoryRegistry.withCount]
  rcases cache.queryCounters (counterKey task e₀.address) with _ | n
  · exact h.entry_zero he₀
  · rfl

/-- The fold of a write-back: rows stay active, no row appears, and exactly the listed pairs with a
positive count are set to it. -/
private theorem syncTable_spec {served : String → String → ℕ} (l : List (String × ServiceEntry))
    {t : Table} (hl : ∀ p ∈ l, t.Active p.1 p.2.address ∧ p.2.queryCount = served p.1 p.2.address)
    (hactive : ∀ {task addr row}, t.lookup (task, addr) = some row → row.isActive = true) :
    (∀ {task addr row}, (StoreBackedRegistry.syncTable t l).lookup (task, addr) = some row →
        row.isActive = true)
      ∧ (∀ task addr, (StoreBackedRegistry.syncTable t l).Active task addr ↔ t.Active task addr)
      ∧ ∀ task addr, (StoreBackedRegistry.syncTable t l).queryCount task addr
          = if (∃ p ∈ l, p.1 = task ∧ p.2.address = addr) ∧ 0 < served task addr
            then (served task addr : Int) else t.queryCount task addr := by
  refine ⟨fun {task addr row} hrow ↦ ?_, fun task addr ↦ ?_, fun task addr ↦ ?_⟩ <;>
    rcases StoreBackedRegistry.lookup_syncTable t l (task, addr) with
      ⟨hnone, hlook⟩ | ⟨p, hp, hpos, hkey, hlook⟩
  · exact hactive (hlook.symm.trans hrow)
  · obtain rfl := Option.some.inj (hlook.symm.trans hrow)
    rfl
  · rw [Table.Active, Table.Active, hlook]
  · obtain ⟨rfl, rfl⟩ := Prod.mk.inj hkey
    exact iff_of_true ⟨_, hlook, rfl⟩ (hl p hp).1
  · -- a listed pair that was not written has no count
    have hzero : ¬((∃ p ∈ l, p.1 = task ∧ p.2.address = addr) ∧ 0 < served task addr) := by
      rintro ⟨⟨p, hp, rfl, rfl⟩, hserved⟩
      have hcount := (hl p hp).2
      exact hnone p hp (by omega) rfl
    rw [if_neg hzero, Table.queryCount, Table.queryCount, hlook]
  · obtain ⟨rfl, rfl⟩ := Prod.mk.inj hkey
    have hcount := (hl p hp).2
    rw [if_pos ⟨⟨p, hp, rfl, rfl⟩, by omega⟩, Table.queryCount, hlook]
    exact hcount

/-- **Writing back settles the books.** Afterwards every row carries the count of its pair, cached
or not. -/
theorem sync (h : Ledger cache t served) (ord : TaskOrder) :
    (∀ {task addr row},
        (StoreBackedRegistry.syncTable t (pairs ord cache.listServices)).lookup (task, addr)
          = some row → row.isActive = true)
      ∧ (∀ task addr, (StoreBackedRegistry.syncTable t (pairs ord cache.listServices)).Active
          task addr ↔ t.Active task addr)
      ∧ ∀ task addr, (StoreBackedRegistry.syncTable t (pairs ord cache.listServices)).queryCount
          task addr = served task addr := by
  have hl : ∀ p ∈ pairs ord cache.listServices,
      t.Active p.1 p.2.address ∧ p.2.queryCount = served p.1 p.2.address := by
    rintro ⟨task, e⟩ hp
    obtain ⟨hheld, hcount⟩ := h.listed hp
    exact ⟨h.cached_active hheld, hcount⟩
  obtain ⟨hact, hsame, hcount⟩ := syncTable_spec _ hl h.active
  refine ⟨hact, hsame, fun task addr ↦ ?_⟩
  rw [hcount]
  split_ifs with hset
  · rfl
  · by_cases hheld : cache.Holds task addr
    · -- cached and not written: nothing was served, and the row has no count either
      have hzero : ¬0 < served task addr := by
        refine fun hpos ↦ hset ⟨?_, hpos⟩
        obtain ⟨e, he, rfl⟩ := List.mem_map.mp hheld
        refine ⟨(task, MemoryRegistry.withCount cache.queryCounters task e), ?_, rfl,
          MemoryRegistry.withCount_address _ _ _⟩
        rw [mem_pairs, MemoryRegistry.slice_listServices]
        exact List.mem_map_of_mem he
      have hbehind := h.behind task addr
      have hnonneg := h.nonneg task addr
      omega
    · exact h.uncached hheld

/-- A warm keeps the books: the new cache takes over the settled rows. -/
theorem warm (h : Ledger cache t served) (ord : WarmOrders) (c : Collation) (cacheMaxSize : Int)
    (fw : Option Firewall) :
    let T := StoreBackedRegistry.syncTable t (pairs ord.sync cache.listServices)
    Ledger (copyRoundRobinState cache (TaskDiscovery.populateAll
      (MemoryRegistry.new.setFirewall fw)
      (StoreBackedRegistry.loadedPairs c cacheMaxSize ord.load T))) T served := by
  intro T
  obtain ⟨hact, hsame, hcount⟩ := h.sync ord.sync
  have hnew : Ledger (MemoryRegistry.new.setFirewall fw) T served := by
    refine ⟨hact, ?_, ?_, fun hh ↦ absurd hh (MemoryRegistry.not_holds_new _ _), ?_, ?_, ?_,
      fun hh ↦ absurd hh (MemoryRegistry.not_holds_new _ _), fun _ ↦ hcount _ _⟩
    · intro task addr
      rw [hcount]
      exact Int.natCast_nonneg _
    · intro task₁ addr₁ task₂ addr₂ h₁ h₂ heq
      exact h.keys ((hsame _ _).mp h₁) ((hsame _ _).mp h₂) heq
    · intro key n hn
      exact absurd hn (by simp [MemoryRegistry.new, MemoryRegistry.setFirewall])
    · intro task e he
      exact absurd he (by simp [MemoryRegistry.new, MemoryRegistry.setFirewall])
    · intro task addr
      rw [hcount]
  have hloaded := hnew.populateAll (l := StoreBackedRegistry.loadedPairs c cacheMaxSize ord.load T)
    (by
      rintro ⟨task, e⟩ hp
      obtain ⟨-, he⟩ := StoreBackedRegistry.mem_loadedPairs.mp hp
      refine ⟨Table.mem_map_listTaskServices.mp (List.mem_map_of_mem he), ?_⟩
      rw [Table.queryCount_of_mem_listTaskServices he, hcount])
  -- copying cursors changes neither entries nor counters
  exact ⟨hloaded.active, hloaded.nonneg, hloaded.keys, hloaded.cached_active,
    hloaded.counter_cached, hloaded.entry_zero, hloaded.behind, hloaded.cached, hloaded.uncached⟩

theorem lookup (h : Ledger cache t served) {task : String} (ht : Go.Trimmed task)
    {requestorIP : Option IP} {result : Except RegistryError String}
    (hget : cache.getServiceForRequestor task requestorIP = (cache', result)) :
    Ledger cache' t (recordAnswer served task result) := by
  rcases result with err | addr
  · rw [MemoryRegistry.getServiceForRequestor_error hget]
    exact h
  · obtain ⟨⟨e, he, rfl⟩, hserv, -, hcnt⟩ := MemoryRegistry.getServiceForRequestor_ok hget
    rw [ht.trimSpace_eq] at he hcnt
    have hheld : cache.Holds task e.address := List.mem_map_of_mem (List.mem_of_mem_filter he)
    exact h.serve hheld hserv hcnt

end Ledger

namespace StoreBackedRegistry

variable {sr sr' : StoreBackedRegistry}

/-! ## The condition on calls -/

/-- A registration is safe for the books when it is void, or when no other row has its counter key
and the pair is cached already or has no count in the store. -/
def RegisterCountSafe (sr : StoreBackedRegistry) (task addr : String) : Prop :=
  Go.trimSpace task = "" ∨ Go.trimSpace addr = ""
    ∨ (∀ task' addr', sr.store.table.Active task' addr' →
          counterKey task' addr' = counterKey (Go.trimSpace task) (Go.trimSpace addr) →
          task' = Go.trimSpace task ∧ addr' = Go.trimSpace addr)
      ∧ (sr.memCache.Holds (Go.trimSpace task) (Go.trimSpace addr)
        ∨ sr.store.table.queryCount (Go.trimSpace task) (Go.trimSpace addr) = 0)

/-- A lookup is safe for the books when the cached entries allowed for the requestor have a positive
weight, or when none is allowed and every counter of the task agrees with its row. A task that is
not cached is of the second kind. -/
def LookupCountSafe (sr : StoreBackedRegistry) (task : String) (requestorIP : Option IP) : Prop :=
  let allowed := MemoryRegistry.allowedEntries sr.memCache.firewall requestorIP
    (sr.memCache.services.slice (Go.trimSpace task))
  0 < totalServiceWeight allowed
    ∨ allowed = [] ∧ ∀ addr, sr.memCache.Holds (Go.trimSpace task) addr →
        sr.memCache.count (Go.trimSpace task) addr
          = sr.store.table.queryCount (Go.trimSpace task) addr

/-- The condition on a call. Warms are not restricted. -/
def CountSafe (sr : StoreBackedRegistry) : Op → Prop
  | .register _ _ task addr => sr.RegisterCountSafe task addr
  | .registerWithCapacity _ _ task addr _ => sr.RegisterCountSafe task addr
  | .getServiceForRequestor task requestorIP => sr.LookupCountSafe task requestorIP
  | _ => True

/-! ## Calls keep the books -/

theorem ledger_registerWithCapacity {served : String → String → ℕ} (hq : Quiet sr)
    (h : Ledger sr.memCache sr.store.table served) (now₁ now₂ : Time) {task addr : String}
    (capacity : Int64) (hsafe : sr.RegisterCountSafe task addr) :
    Ledger (sr.registerWithCapacity now₁ now₂ task addr capacity).memCache
        (sr.registerWithCapacity now₁ now₂ task addr capacity).store.table served
      ∧ ∀ task' addr', sr.store.table.queryCount task' addr'
          ≤ (sr.registerWithCapacity now₁ now₂ task addr capacity).store.table.queryCount
              task' addr' := by
  rcases registerWithCapacity_cases sr now₁ now₂ task addr capacity with
    ⟨-, heq⟩ | ⟨ht, ha, heq⟩
  · rw [heq]
    exact ⟨h, fun _ _ ↦ Int.le_refl _⟩
  · obtain ⟨hkey, hfresh⟩ := (hsafe.resolve_left ht.ne_empty).resolve_left ha.ne_empty
    obtain ⟨-, htable, hcache⟩ := registerEntry_of_quiet hq now₁ now₂ (Go.trimSpace task)
      (Go.trimSpace addr) (normalizedCapacity capacity)
    rw [heq, htable, hcache]
    refine ⟨h.register ht ha hkey hfresh, fun task' addr' ↦ ?_⟩
    rw [Table.queryCount_register_of_zero rfl fun row hrow ↦ h.active hrow]

theorem ledger_getServiceForRequestor {served : String → String → ℕ} (hq : Quiet sr)
    (h : Ledger sr.memCache sr.store.table served) {task : String} {requestorIP : Option IP}
    (ht : Go.trimSpace task ≠ "") (hsafe : sr.LookupCountSafe task requestorIP)
    {result : Except RegistryError String}
    (hget : sr.getServiceForRequestor task requestorIP = (sr', result)) :
    Ledger sr'.memCache sr'.store.table (recordAnswer served (Go.trimSpace task) result)
      ∧ ∀ task' addr', sr.store.table.queryCount task' addr'
          ≤ sr'.store.table.queryCount task' addr' := by
  have htrim := Go.trimmed_trimSpace ht
  -- when the cache misses, nothing was allowed and the counters agree with the rows
  have hmissed : sr.Missed (Go.trimSpace task) requestorIP →
      MemoryRegistry.allowedEntries sr.memCache.firewall requestorIP
          (sr.memCache.services.slice (Go.trimSpace task)) = []
        ∧ ∀ addr, sr.memCache.Holds (Go.trimSpace task) addr →
            sr.memCache.count (Go.trimSpace task) addr
              = sr.store.table.queryCount (Go.trimSpace task) addr := by
    rintro ⟨err, herr⟩
    refine hsafe.resolve_left fun hpos ↦ ?_
    obtain ⟨reg', addr, hok⟩ := MemoryRegistry.getServiceForRequestor_of_pos htrim hpos
    rw [hok] at herr
    exact absurd (Prod.mk.inj herr).2 (by simp)
  rcases (getServiceForRequestor_cases ht hget).2.2 with
    ⟨addr, hcache, htable, rfl⟩ | ⟨err, -, hcache, htable, rfl⟩ | ⟨hmiss, hcache, htable⟩ |
    ⟨e, hmiss, hentry, hpermit, hcache, htable, rfl⟩ | ⟨_, hrel, -, -⟩
  · rw [htable]
    exact ⟨h.lookup htrim hcache, fun _ _ ↦ Int.le_refl _⟩
  · rw [htable, hcache]
    exact ⟨h, fun _ _ ↦ Int.le_refl _⟩
  · rw [htable]
    have hsync := (hmissed hmiss).2
    exact ⟨(h.hydrate hsync sr.store.collation).lookup htrim hcache, fun _ _ ↦ Int.le_refl _⟩
  · have hact : sr.store.table.Active (Go.trimSpace task) e.address :=
      Table.mem_map_listTaskServices.mp (List.mem_map_of_mem hentry)
    have hnot : ¬sr.memCache.Holds (Go.trimSpace task) e.address := by
      intro hheld
      obtain ⟨e₀, he₀, haddr⟩ := List.mem_map.mp hheld
      have hmem : e₀ ∈ MemoryRegistry.allowedEntries sr.memCache.firewall requestorIP
          (sr.memCache.services.slice (Go.trimSpace task)) := by
        refine List.mem_filter.mpr ⟨he₀, ?_⟩
        rw [haddr]
        exact MemoryRegistry.permits_of_storePermits hpermit
      rw [(hmissed hmiss).1] at hmem
      exact absurd hmem List.not_mem_nil
    rw [htable, hcache]
    refine ⟨h.countRow hact hnot, fun task' addr' ↦ ?_⟩
    rw [Table.queryCount_incrementQueryCount hact]
    split_ifs <;> omega
  · exact absurd hq.reliable hrel

theorem ledger_warmCacheFromDB {served : String → String → ℕ} (hq : Quiet sr)
    (h : Ledger sr.memCache sr.store.table served) (now : Time) (ord : WarmOrders) :
    Ledger (sr.warmCacheFromDB now ord).1.memCache (sr.warmCacheFromDB now ord).1.store.table served
      ∧ ∀ task addr, (sr.warmCacheFromDB now ord).1.store.table.queryCount task addr
          = served task addr := by
  obtain ⟨-, htable, hcache⟩ := warmCacheFromDB_of_quiet hq now ord
  rw [htable, hcache]
  exact ⟨h.warm ord _ _ _, (h.sync ord.sync).2.2⟩

end StoreBackedRegistry

/-! ## Runs -/

/-- A registry together with the number of lookups of each task that each address has served. -/
structure Audit where
  reg : StoreBackedRegistry
  served : String → String → ℕ

namespace Audit

open StoreBackedRegistry

def servedAfter (s : Audit) : Op → String → String → ℕ
  | .getServiceForRequestor task requestorIP =>
    recordAnswer s.served (Go.trimSpace task) (s.reg.getServiceForRequestor task requestorIP).2
  | _ => s.served

/-- A call, recording the answer of a lookup. -/
def step (s : Audit) (op : Op) : Audit := ⟨s.reg.step op, s.servedAfter op⟩

def start (reg : StoreBackedRegistry) : Audit := ⟨reg, fun _ _ ↦ 0⟩

/-- A call conserves the counts: no `query_count` goes down, and after a warm every row has the
number of lookups its pair has served. -/
def Conserves (s : Audit) (op : Op) : Prop :=
  (∀ task addr, s.reg.store.table.queryCount task addr
      ≤ (s.step op).reg.store.table.queryCount task addr)
    ∧ ∀ now ord, op = .warmCacheFromDB now ord → ∀ task addr,
        (s.step op).reg.store.table.queryCount task addr = (s.step op).served task addr

/-- The condition on a call, in the state before it. -/
def CountSafe (s : Audit) (op : Op) : Prop := s.reg.CountSafe op

/-- The registry is quiet and its books agree with the lookups served. -/
structure Balanced (s : Audit) : Prop where
  quiet : Quiet s.reg
  ledger : Ledger s.reg.memCache s.reg.store.table s.served

/-- **One safe call** conserves the counts and leaves the books balanced. -/
theorem Balanced.step {s : Audit} (h : Balanced s) {op : Op} (hop : op.isCleanup = false)
    (hsafe : s.CountSafe op) : Balanced (s.step op) ∧ s.Conserves op := by
  have hquiet : Quiet (s.reg.step op) := quiet_step h.quiet op
  -- it is enough to keep the books and not to lower a count, unless the call is a warm
  have hassemble : (∀ now ord, op ≠ .warmCacheFromDB now ord) →
      (Ledger (s.reg.step op).memCache (s.reg.step op).store.table (s.servedAfter op)
        ∧ ∀ task addr, s.reg.store.table.queryCount task addr
            ≤ (s.reg.step op).store.table.queryCount task addr) →
      Balanced (s.step op) ∧ s.Conserves op := fun hw hb ↦
    ⟨⟨hquiet, hb.1⟩, hb.2, fun now ord heq ↦ absurd heq (hw now ord)⟩
  cases op with
  | register now₁ now₂ task addr =>
    refine hassemble (by simp) ?_
    simp only [StoreBackedRegistry.step, register, servedAfter]
    exact ledger_registerWithCapacity h.quiet h.ledger now₁ now₂ 1 hsafe
  | registerWithCapacity now₁ now₂ task addr capacity =>
    refine hassemble (by simp) ?_
    simp only [StoreBackedRegistry.step, servedAfter]
    exact ledger_registerWithCapacity h.quiet h.ledger now₁ now₂ capacity hsafe
  | getServiceForRequestor task requestorIP =>
    refine hassemble (by simp) ?_
    rw [StoreBackedRegistry.step, servedAfter]
    rcases hget : s.reg.getServiceForRequestor task requestorIP with ⟨after, result⟩
    by_cases ht : Go.trimSpace task = ""
    · rw [getServiceForRequestor, if_pos ht] at hget
      obtain ⟨rfl, rfl⟩ := Prod.mk.inj hget
      exact ⟨h.ledger, fun _ _ ↦ Int.le_refl _⟩
    · exact ledger_getServiceForRequestor h.quiet h.ledger ht hsafe hget
  | warmCacheFromDB now ord =>
    obtain ⟨hledger, hcount⟩ := ledger_warmCacheFromDB h.quiet h.ledger now ord
    simp only [Conserves, Audit.step, StoreBackedRegistry.step, servedAfter] at hquiet ⊢
    refine ⟨⟨hquiet, hledger⟩, fun task addr ↦ ?_, fun _ _ _ ↦ hcount⟩
    rw [hcount]
    exact h.ledger.behind task addr
  | listServices now₁ now₂ ord =>
    refine hassemble (by simp) ?_
    simp only [StoreBackedRegistry.step, servedAfter, listServices]
    split_ifs
    · obtain ⟨hledger, hcount⟩ := ledger_warmCacheFromDB h.quiet h.ledger now₂ ord
      refine ⟨hledger, fun task addr ↦ ?_⟩
      rw [hcount]
      exact h.ledger.behind task addr
    · exact ⟨h.ledger, fun _ _ ↦ Int.le_refl _⟩
  | cleanup now₁ now₂ timeout => simp [Op.isCleanup] at hop

theorem ledger_empty (fw : Option Firewall) :
    Ledger (MemoryRegistry.new.setFirewall fw) ∅ fun _ _ ↦ 0 where
  active hrow := absurd hrow (by simp)
  nonneg _ _ := Int.le_refl 0
  keys h₁ := absurd h₁ (Table.not_active_empty _ _)
  cached_active hh := absurd hh (MemoryRegistry.not_holds_new _ _)
  counter_cached hn := absurd hn (by simp [MemoryRegistry.new, MemoryRegistry.setFirewall])
  entry_zero he := absurd he (by simp [MemoryRegistry.new, MemoryRegistry.setFirewall])
  behind _ _ := Int.le_refl 0
  cached hh := absurd hh (MemoryRegistry.not_holds_new _ _)
  uncached _ := rfl

theorem balanced_start {ps : PostgresStore} (hrel : ps.Reliable) (hempty : ps.table = ∅)
    (cacheMaxSize : Int) (now : Time) (threshold : Int) (fw : Option Firewall) :
    Balanced (start (StoreBackedRegistry.start ps cacheMaxSize now threshold fw)) := by
  refine ⟨quiet_start hrel cacheMaxSize now threshold fw, ?_⟩
  change Ledger (MemoryRegistry.new.setFirewall fw) ps.table fun _ _ ↦ 0
  rw [hempty]
  exact ledger_empty fw

/-- **Query-count conservation.** Over a reliable store that starts empty, every run without cleanup
whose calls are safe for the books conserves the query counts at every call. -/
theorem safe_run_conserves {ps : PostgresStore} (hrel : ps.Reliable) (hempty : ps.table = ∅)
    (cacheMaxSize : Int) (now : Time) (threshold : Int) (fw : Option Firewall) {ops : List Op}
    (hops : ∀ op ∈ ops, op.isCleanup = false)
    (hsafe : Run.Meets step CountSafe
      (start (StoreBackedRegistry.start ps cacheMaxSize now threshold fw)) ops) :
    Run.Meets step Conserves
      (start (StoreBackedRegistry.start ps cacheMaxSize now threshold fw)) ops :=
  hsafe.transfer (fun _ _ hop hbal hc ↦ hbal.step hop hc) hops
    (balanced_start hrel hempty cacheMaxSize now threshold fw)

/-- Register, look up twice, warm. -/
def twoLookups : List Op :=
  [.register 1 2 "svc" "10.0.0.1:80", .getServiceForRequestor "svc" none,
    .getServiceForRequestor " svc" none, .warmCacheFromDB 3 .asStored]

theorem twoLookups_conserves :
    Run.Meets step Conserves (start (StoreBackedRegistry.start .empty 1 0 1 none)) twoLookups := by
  refine safe_run_conserves PostgresStore.empty_reliable rfl 1 0 1 none (by decide) ⟨?_, ?_, ?_, ?_⟩
  · exact Or.inr (Or.inr ⟨fun _ _ hact ↦ absurd hact (Table.not_active_empty _ _), Or.inr rfl⟩)
  · exact Or.inl (by decide +kernel)
  · exact Or.inl (by decide +kernel)
  · exact ⟨trivial, trivial⟩

/-- With room for one task, `svc` is evicted with a count of two, comes back by a heartbeat and is
looked up once. -/
def evictedCount : List Op :=
  [.register 1 2 "svc" "10.0.0.1:80", .getServiceForRequestor "svc" none,
    .getServiceForRequestor "svc" none, .register 3 4 "web" "10.0.0.3:80",
    .getServiceForRequestor "web" none, .getServiceForRequestor "web" none,
    .getServiceForRequestor "web" none, .warmCacheFromDB 5 .asStored,
    .register 6 7 "svc" "10.0.0.1:80", .getServiceForRequestor "svc" none]

/-- The next warm rolls the count of `svc` back from two to one, after three lookups. -/
theorem evictedCount_not_conserved :
    (∀ op ∈ evictedCount ++ [.warmCacheFromDB 8 .asStored], op.isCleanup = false)
      ∧ ¬Run.Meets step Conserves (start (StoreBackedRegistry.start .empty 1 0 1 none))
          (evictedCount ++ [.warmCacheFromDB 8 .asStored]) := by
  refine ⟨by decide, fun h ↦ ?_⟩
  have hlast := (Run.meets_append.mp h).2.1
  have hmono := hlast.1 "svc" "10.0.0.1:80"
  exact absurd hmono (by decide +kernel)

end Audit

end TaskDiscovery
