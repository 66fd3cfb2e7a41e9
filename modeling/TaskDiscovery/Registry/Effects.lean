import TaskDiscovery.Registry.StoreBacked

/-!
# What the operations of the store-backed registry can do

One statement for each operation says everything later invariants need, so that no proof about runs
opens the functions again.

* `getServiceForRequestor_cases` lists the five ways in which a lookup ends, as the inductive
  predicate `LookupStep` on the cache and the table.
* `registerEntry_of_quiet` and `warmCacheFromDB_of_quiet` give the states after a registration and
  after a warm when the store is reliable and nothing is waiting to be retried (`Quiet`).
* No operation changes the firewall, whatever the store does.
-/

namespace TaskDiscovery

open Go (IP)

/-! ## Populating -/

@[simp] theorem populateCacheEntry_firewall (cache : MemoryRegistry) (task : String)
    (e : ServiceEntry) : (populateCacheEntry cache task e).firewall = cache.firewall := rfl

@[simp] theorem populateCacheEntry_queryCounters (cache : MemoryRegistry) (task : String)
    (e : ServiceEntry) :
    (populateCacheEntry cache task e).queryCounters
      = cache.queryCounters.store (counterKey task e.address) e.queryCount := rfl

@[simp] theorem populateAll_nil (cache : MemoryRegistry) : populateAll cache [] = cache := rfl

@[simp] theorem populateAll_cons (cache : MemoryRegistry) (p : String × ServiceEntry)
    (l : List (String × ServiceEntry)) :
    populateAll cache (p :: l) = populateAll (populateCacheEntry cache p.1 p.2) l := rfl

@[simp] theorem populateAll_firewall (cache : MemoryRegistry) (l : List (String × ServiceEntry)) :
    (populateAll cache l).firewall = cache.firewall := by
  induction l generalizing cache with
  | nil => rfl
  | cons p l ih => rw [populateAll_cons, ih, populateCacheEntry_firewall]

theorem holds_populateCacheEntry {cache : MemoryRegistry} {task : String} {e : ServiceEntry}
    {task' addr' : String} :
    (populateCacheEntry cache task e).Holds task' addr'
      ↔ (task' = task ∧ addr' = e.address) ∨ cache.Holds task' addr' := by
  -- the counter that is set beside the entry does not matter here
  change (cache.putEntry task e.address _ _).Holds task' addr' ↔ _
  exact MemoryRegistry.holds_putEntry (by exact fun _ ↦ rfl) (by rfl)

theorem holds_populateAll {cache : MemoryRegistry} {l : List (String × ServiceEntry)}
    {task addr : String} :
    (populateAll cache l).Holds task addr
      ↔ (∃ e, (task, e) ∈ l ∧ e.address = addr) ∨ cache.Holds task addr := by
  induction l generalizing cache with
  | nil => simp
  | cons p l ih =>
    rw [populateAll_cons, ih, holds_populateCacheEntry]
    constructor
    · rintro (⟨e, he, rfl⟩ | ⟨rfl, rfl⟩ | h)
      · exact Or.inl ⟨e, List.mem_cons_of_mem _ he, rfl⟩
      · exact Or.inl ⟨p.2, List.mem_cons_self, rfl⟩
      · exact Or.inr h
    · rintro (⟨e, he, rfl⟩ | h)
      · rcases List.mem_cons.mp he with rfl | he
        · exact Or.inr (Or.inl ⟨rfl, rfl⟩)
        · exact Or.inl ⟨e, he, rfl⟩
      · exact Or.inr (Or.inr h)

theorem holds_hydrated {cache : MemoryRegistry} {t : Table} {c : Collation}
    {task task' addr' : String} :
    (populateAll cache ((t.listTaskServices c task).map fun e ↦ (task, e))).Holds task' addr'
      ↔ (task' = task ∧ t.Active task addr') ∨ cache.Holds task' addr' := by
  rw [holds_populateAll, ← Table.mem_map_listTaskServices (c := c)]
  refine or_congr_left ?_
  simp only [List.mem_map, Prod.mk.injEq]
  constructor
  · rintro ⟨e, ⟨e', he', rfl, rfl⟩, rfl⟩
    exact ⟨rfl, e', he', rfl⟩
  · rintro ⟨rfl, e, he, rfl⟩
    exact ⟨e, ⟨e, he, rfl, rfl⟩, rfl⟩

namespace StoreBackedRegistry

variable {sr sr' : StoreBackedRegistry}

/-! ## Configuration -/

/-- What no operation of a run changes: the failure schedule, the collation, the cache bound, the
admission threshold and the firewall. -/
structure SameConfig (sr sr' : StoreBackedRegistry) : Prop where
  outage : sr'.store.outage = sr.store.outage
  collation : sr'.store.collation = sr.store.collation
  cacheMaxSize : sr'.cacheMaxSize = sr.cacheMaxSize
  admitAfterMiss : sr'.admitAfterMiss = sr.admitAfterMiss
  firewall : sr'.memCache.firewall = sr.memCache.firewall

theorem SameConfig.refl (sr : StoreBackedRegistry) : SameConfig sr sr := ⟨rfl, rfl, rfl, rfl, rfl⟩

theorem SameConfig.trans {sr₁ sr₂ sr₃ : StoreBackedRegistry} (h : SameConfig sr₁ sr₂)
    (h' : SameConfig sr₂ sr₃) : SameConfig sr₁ sr₃ :=
  ⟨h'.outage.trans h.outage, h'.collation.trans h.collation,
    h'.cacheMaxSize.trans h.cacheMaxSize, h'.admitAfterMiss.trans h.admitAfterMiss,
    h'.firewall.trans h.firewall⟩

theorem SameConfig.reliable (h : SameConfig sr sr') (hrel : sr.store.Reliable) :
    sr'.store.Reliable := fun n ↦ by rw [h.outage, hrel n]

/-! ## Lookups -/

/-- The cache cannot answer a lookup. It is then left as it is. -/
def Missed (sr : StoreBackedRegistry) (task : String) (requestorIP : Option IP) : Prop :=
  ∃ err, sr.memCache.getServiceForRequestor task requestorIP = (sr.memCache, .error err)

/-- The five ways in which a lookup of the trimmed task `task` ends, seen on the cache, the table
and the result. Only a store that fails a call can lead to `failed`. -/
inductive LookupStep (sr : StoreBackedRegistry) (task : String) (requestorIP : Option IP)
    (sr' : StoreBackedRegistry) (result : Except RegistryError String) : Prop
  /-- The cache answered. -/
  | hit (addr : String)
      (hcache : sr.memCache.getServiceForRequestor task requestorIP = (sr'.memCache, .ok addr))
      (htable : sr'.store.table = sr.store.table) (hresult : result = .ok addr)
  /-- The cache could not answer and neither could the store. -/
  | refused (err : RegistryError) (hmiss : sr.Missed task requestorIP)
      (hcache : sr'.memCache = sr.memCache) (htable : sr'.store.table = sr.store.table)
      (hresult : result = .error err)
  /-- The task was hydrated and looked up again. -/
  | admitted (hmiss : sr.Missed task requestorIP)
      (hcache : (populateAll sr.memCache
        ((sr.store.table.listTaskServices sr.store.collation task).map fun e ↦
          (task, e))).getServiceForRequestor task requestorIP = (sr'.memCache, result))
      (htable : sr'.store.table = sr.store.table)
  /-- An entry of the store was served and counted there. -/
  | counted (e : ServiceEntry) (hmiss : sr.Missed task requestorIP)
      (hentry : e ∈ sr.store.table.listTaskServices sr.store.collation task)
      (hpermit : MemoryRegistry.permits storeDestinationIP sr.memCache.firewall requestorIP
        e.address = true)
      (hcache : sr'.memCache = sr.memCache)
      (htable : sr'.store.table = (sr.store.table.incrementQueryCount task e.address).1)
      (hresult : result = .ok e.address)
  /-- A store call failed. -/
  | failed (err : RegistryError) (hrel : ¬sr.store.Reliable)
      (hcache : sr'.memCache = sr.memCache) (hresult : result = .error err)

theorem selectFallback_ok {fw : Option Firewall} {cursors cursors' : SyncMap String Int64}
    {task : String} {entries : List ServiceEntry} {requestorIP : Option IP} {addr : String}
    (h : selectFallback fw cursors task entries requestorIP = (cursors', .ok addr)) :
    ∃ e ∈ entries, e.address = addr
      ∧ MemoryRegistry.permits storeDestinationIP fw requestorIP e.address = true := by
  simp only [selectFallback] at h
  split_ifs at h
  · simp at h
  · simp at h
  · simp at h
  · split at h
    · simp at h
    · rename_i addr' hsel
      obtain rfl := Except.ok.inj (Prod.mk.inj h).2
      obtain ⟨e, he, rfl⟩ := selectWeightedAddress_mem hsel
      obtain ⟨e', he', rfl⟩ := List.mem_map.mp he
      obtain ⟨hmem, hpermit⟩ := List.mem_filter.mp he'
      exact ⟨e', hmem, rfl, hpermit⟩

/-- Selecting among the store's entries moves at most the fallback cursor. -/
theorem selectFromStoreEntries_cases {task : String} {entries : List ServiceEntry}
    {requestorIP : Option IP} {result : Except RegistryError String}
    (h : sr.selectFromStoreEntries task entries requestorIP = (sr', result)) :
    (∃ cursors, sr' = { sr with fallbackCursor := cursors })
      ∧ ∀ addr, result = .ok addr → ∃ e ∈ entries, e.address = addr
          ∧ MemoryRegistry.permits storeDestinationIP sr.memCache.firewall requestorIP
              e.address = true := by
  rw [selectFromStoreEntries] at h
  rcases hsel : selectFallback sr.memCache.firewall sr.fallbackCursor task entries requestorIP with
    ⟨cursors, result'⟩
  rw [hsel] at h
  obtain ⟨rfl, rfl⟩ := Prod.mk.inj h
  refine ⟨⟨cursors, rfl⟩, fun addr haddr ↦ ?_⟩
  rw [haddr] at hsel
  exact selectFallback_ok hsel

theorem shouldAdmitTaskOnMiss_fst (sr : StoreBackedRegistry) (task : String) :
    ∃ counts, (sr.shouldAdmitTaskOnMiss task).1 = { sr with cacheMissCounts := counts } :=
  ⟨_, rfl⟩

/-- Admission repeats the lookup on the hydrated cache. -/
theorem admitTask_cases {task : String} {entries : List ServiceEntry} {requestorIP : Option IP}
    {result : Except RegistryError String}
    (h : sr.admitTask task entries requestorIP = (sr', result)) :
    (populateAll sr.memCache (entries.map fun e ↦ (task, e))).getServiceForRequestor task
        requestorIP = (sr'.memCache, result)
      ∧ SameConfig sr sr' ∧ sr'.pendingStoreSync = sr.pendingStoreSync
      ∧ sr'.store = sr.store := by
  rw [admitTask] at h
  rcases hget : (populateAll sr.memCache (entries.map fun e ↦ (task, e))).getServiceForRequestor
    task requestorIP with ⟨cache, result'⟩
  have hfw := (MemoryRegistry.getServiceForRequestor_frame
    (populateAll sr.memCache (entries.map fun e ↦ (task, e))) task requestorIP).2
  rw [hget, populateAll_firewall] at hfw
  simp only [hget] at h
  obtain ⟨rfl, rfl⟩ := Prod.mk.inj h
  exact ⟨rfl, ⟨rfl, rfl, rfl, rfl, hfw⟩, rfl, rfl⟩

/-- Serving from the store keeps the cache, and counts exactly what it serves. -/
theorem serveFromStore_cases {task : String} {requestorIP : Option IP}
    {result : Except RegistryError String}
    (h : sr.serveFromStore task (sr.store.table.listTaskServices sr.store.collation task)
      requestorIP = (sr', result)) :
    SameConfig sr sr' ∧ sr'.pendingStoreSync = sr.pendingStoreSync ∧ sr'.memCache = sr.memCache ∧
      ((∃ err, result = .error err ∧ (sr'.store.table = sr.store.table ∨ ¬sr.store.Reliable))
        ∨ ∃ e ∈ sr.store.table.listTaskServices sr.store.collation task,
            MemoryRegistry.permits storeDestinationIP sr.memCache.firewall requestorIP e.address
              = true
            ∧ sr'.store.table = (sr.store.table.incrementQueryCount task e.address).1
            ∧ result = .ok e.address) := by
  rw [serveFromStore] at h
  rcases hsel : sr.selectFromStoreEntries task
    (sr.store.table.listTaskServices sr.store.collation task) requestorIP with ⟨sr₁, selected⟩
  obtain ⟨⟨cursors, rfl⟩, hmem⟩ := selectFromStoreEntries_cases hsel
  rw [hsel] at h
  rcases selected with err | addr
  · obtain ⟨rfl, rfl⟩ := Prod.mk.inj h
    exact ⟨⟨rfl, rfl, rfl, rfl, rfl⟩, rfl, rfl, Or.inl ⟨err, rfl, Or.inl rfl⟩⟩
  · obtain ⟨e, he, rfl, hpermit⟩ := hmem addr rfl
    have hact : sr.store.table.Active task e.address :=
      Table.mem_map_listTaskServices.mp (List.mem_map_of_mem he)
    simp only at h
    rcases hinc : sr.store.incrementQueryCount task e.address with ⟨store, counted⟩
    obtain ⟨hout, hcoll, hcase⟩ := PostgresStore.incrementQueryCount_cases hinc hact
    rw [hinc] at h
    rcases hcase with ⟨rfl, htable⟩ | ⟨err, rfl, hrel⟩
    · obtain ⟨rfl, rfl⟩ := Prod.mk.inj h
      exact ⟨⟨hout, hcoll, rfl, rfl, rfl⟩, rfl, rfl, Or.inr ⟨e, he, hpermit, htable, rfl⟩⟩
    · obtain ⟨rfl, rfl⟩ := Prod.mk.inj h
      exact ⟨⟨hout, hcoll, rfl, rfl, rfl⟩, rfl, rfl, Or.inl ⟨err, rfl, Or.inr hrel⟩⟩

/-- The rest of a lookup once the cache has failed it. -/
theorem missService_cases {task : String} {requestorIP : Option IP}
    {result : Except RegistryError String} (hmiss : sr.Missed task requestorIP)
    (h : sr.missService task requestorIP = (sr', result)) :
    SameConfig sr sr' ∧ sr'.pendingStoreSync = sr.pendingStoreSync
      ∧ LookupStep sr task requestorIP sr' result := by
  rw [missService] at h
  rcases hlist : sr.store.listTaskServices task with ⟨store, listed⟩
  obtain ⟨hout, hcoll, hread⟩ := PostgresStore.exec_cases hlist
  rcases hread with ⟨rfl, htable⟩ | ⟨e, rfl, hrel⟩
  swap
  · simp only [hlist] at h
    obtain ⟨rfl, rfl⟩ := Prod.mk.inj h
    exact ⟨⟨hout, hcoll, rfl, rfl, rfl⟩, rfl, .failed _ hrel rfl rfl⟩
  simp only [hlist] at h
  obtain ⟨counts, hcounts⟩ := shouldAdmitTaskOnMiss_fst { sr with store := store } task
  split_ifs at h with hnil hadmitted
  · obtain ⟨rfl, rfl⟩ := Prod.mk.inj h
    exact ⟨⟨hout, hcoll, rfl, rfl, rfl⟩, rfl, .refused _ hmiss rfl htable rfl⟩
  · rw [hcounts] at h
    obtain ⟨hagain, hcfg, hpend, hstore⟩ := admitTask_cases h
    refine ⟨⟨hcfg.outage.trans hout, hcfg.collation.trans hcoll, hcfg.cacheMaxSize,
      hcfg.admitAfterMiss, hcfg.firewall⟩, hpend, ?_⟩
    exact .admitted hmiss hagain (by rw [hstore]; exact htable)
  · -- the listing was read from the table that is still there
    have hentries : sr.store.table.listTaskServices sr.store.collation task
        = store.table.listTaskServices store.collation task := by
      rw [show store.table = sr.store.table from htable, hcoll]
    simp only [hcounts, hentries] at h
    obtain ⟨hcfg, hpend, hmem, hcase⟩ := serveFromStore_cases h
    refine ⟨⟨hcfg.outage.trans hout, hcfg.collation.trans hcoll, hcfg.cacheMaxSize,
      hcfg.admitAfterMiss, hcfg.firewall⟩, hpend, ?_⟩
    rcases hcase with ⟨err', rfl, hsame | hrel⟩ | ⟨e, he, hpermit, hinc, rfl⟩
    · exact .refused err' hmiss hmem (hsame.trans htable) rfl
    · refine .failed err' (fun hr ↦ hrel fun n ↦ ?_) hmem rfl
      exact (congrFun hout n).trans (hr n)
    · refine .counted e hmiss (hentries ▸ he) hpermit hmem (hinc.trans ?_) rfl
      exact congrArg (fun t ↦ (Table.incrementQueryCount t task e.address).1) htable

/-- **What a lookup can do.** -/
theorem getServiceForRequestor_cases {task : String} {requestorIP : Option IP}
    {result : Except RegistryError String} (ht : Go.trimSpace task ≠ "")
    (h : sr.getServiceForRequestor task requestorIP = (sr', result)) :
    SameConfig sr sr' ∧ sr'.pendingStoreSync = sr.pendingStoreSync
      ∧ LookupStep sr (Go.trimSpace task) requestorIP sr' result := by
  rw [getServiceForRequestor, if_neg ht] at h
  rcases hcache : sr.memCache.getServiceForRequestor (Go.trimSpace task) requestorIP with
    ⟨cache, err | addr⟩
  · obtain rfl := MemoryRegistry.getServiceForRequestor_error hcache
    rw [hcache] at h
    exact missService_cases ⟨err, hcache⟩ h
  · rw [hcache] at h
    obtain ⟨rfl, rfl⟩ := Prod.mk.inj h
    have hfw := (MemoryRegistry.getServiceForRequestor_ok hcache).2.2.1
    exact ⟨⟨rfl, rfl, rfl, rfl, hfw⟩, rfl, .hit addr hcache rfl rfl⟩

theorem getServiceForRequestor_config (sr : StoreBackedRegistry) (task : String)
    (requestorIP : Option IP) :
    SameConfig sr (sr.getServiceForRequestor task requestorIP).1 := by
  by_cases ht : Go.trimSpace task = ""
  · rw [getServiceForRequestor, if_pos ht]
    exact SameConfig.refl sr
  · rcases hget : sr.getServiceForRequestor task requestorIP with ⟨sr', result⟩
    exact (getServiceForRequestor_cases ht hget).1

/-- The cache of a lookup that missed: the active rows of the task are filled in. -/
def hydrated (sr : StoreBackedRegistry) (task : String) : MemoryRegistry :=
  populateAll sr.memCache
    ((sr.store.table.listTaskServices sr.store.collation task).map fun e ↦ (task, e))

theorem getServiceForRequestor_of_hit {task : String} {requestorIP : Option IP}
    (ht : Go.trimSpace task ≠ "") {cache : MemoryRegistry} {addr : String}
    (hcache : sr.memCache.getServiceForRequestor (Go.trimSpace task) requestorIP
      = (cache, .ok addr)) :
    sr.getServiceForRequestor task requestorIP = ({ sr with memCache := cache }, .ok addr) := by
  simp only [getServiceForRequestor, if_neg ht, hcache]

/-- A registry that admits a task on its first miss repeats the lookup on the hydrated cache. -/
theorem getServiceForRequestor_of_miss (hrel : sr.store.Reliable) (heager : sr.admitAfterMiss ≤ 1)
    {task : String} {requestorIP : Option IP} (ht : Go.trimSpace task ≠ "") {err : RegistryError}
    (hcache : sr.memCache.getServiceForRequestor (Go.trimSpace task) requestorIP
      = (sr.memCache, .error err)) :
    (sr.getServiceForRequestor task requestorIP).1.store.table = sr.store.table
      ∧ (sr.getServiceForRequestor task requestorIP).1.pendingStoreSync = sr.pendingStoreSync
      ∧ (((∀ addr, ¬sr.store.table.Active (Go.trimSpace task) addr)
          ∧ (sr.getServiceForRequestor task requestorIP).2 = .error .notFound
          ∧ (sr.getServiceForRequestor task requestorIP).1.memCache = sr.memCache)
        ∨ (sr.getServiceForRequestor task requestorIP).2
            = ((sr.hydrated (Go.trimSpace task)).getServiceForRequestor (Go.trimSpace task)
              requestorIP).2
          ∧ (sr.getServiceForRequestor task requestorIP).1.memCache
            = ((sr.hydrated (Go.trimSpace task)).getServiceForRequestor (Go.trimSpace task)
              requestorIP).1) := by
  have hlist := PostgresStore.exec_of_reliable hrel fun t ↦
    (t, t.listTaskServices sr.store.collation (Go.trimSpace task))
  simp only [getServiceForRequestor, if_neg ht, hcache, missService, PostgresStore.listTaskServices,
    hlist, shouldAdmitTaskOnMiss, countMiss, if_pos heager]
  by_cases hnil : sr.store.table.listTaskServices sr.store.collation (Go.trimSpace task) = []
  · rw [if_pos hnil]
    refine ⟨rfl, rfl, Or.inl ⟨fun addr hact ↦ ?_, rfl, rfl⟩⟩
    rw [← Table.mem_map_listTaskServices (c := sr.store.collation), hnil] at hact
    simp at hact
  · simp only [if_neg hnil, if_true, admitTask, hydrated]
    exact ⟨trivial, trivial, Or.inr ⟨trivial, trivial⟩⟩

/-! ## Registrations -/

theorem registerEntry_config (now₁ now₂ : Time) (task addr : String) (capacity : Int64) :
    SameConfig sr (sr.registerEntry now₁ now₂ task addr capacity) := by
  have hfw : (sr.memCache.registerWithCapacity now₁ task addr capacity).firewall
      = sr.memCache.firewall := MemoryRegistry.registerWithCapacity_firewall
  simp only [registerEntry, markPendingStoreSync, clearPendingStoreSync]
  generalize sr.memCache.registerWithCapacity now₁ task addr capacity = cache at hfw ⊢
  split <;> rename_i hreg <;> obtain ⟨hout, hcoll⟩ := PostgresStore.register_config hreg
  · exact ⟨hout, hcoll, rfl, rfl, hfw⟩
  · exact ⟨hout, hcoll, rfl, rfl, hfw⟩

theorem registerWithCapacity_config (now₁ now₂ : Time) (task addr : String) (capacity : Int64) :
    SameConfig sr (sr.registerWithCapacity now₁ now₂ task addr capacity) := by
  rw [registerWithCapacity]
  split_ifs with hblank
  · exact SameConfig.refl sr
  · exact registerEntry_config _ _ _ _ _

/-- The store fails no call and nothing is waiting to be retried. -/
structure Quiet (sr : StoreBackedRegistry) : Prop where
  reliable : sr.store.Reliable
  noPending : ∀ key, sr.pendingStoreSync key = none

theorem Quiet.hasPendingStoreSync (hq : Quiet sr) (task addr : String) :
    sr.hasPendingStoreSync task addr = false := by
  rw [StoreBackedRegistry.hasPendingStoreSync, hq.noPending, Option.isSome_none]

theorem registerEntry_of_quiet (hq : Quiet sr) (now₁ now₂ : Time) (task addr : String)
    (capacity : Int64) :
    Quiet (sr.registerEntry now₁ now₂ task addr capacity)
      ∧ (sr.registerEntry now₁ now₂ task addr capacity).store.table
          = sr.store.table.register task
              { address := addr, lastHeartbeat := now₂, capacity := capacity }
      ∧ (sr.registerEntry now₁ now₂ task addr capacity).memCache
          = sr.memCache.registerWithCapacity now₁ task addr capacity := by
  simp only [registerEntry, PostgresStore.register_of_reliable hq.reliable,
    clearPendingStoreSync]
  refine ⟨⟨hq.reliable, fun key ↦ ?_⟩, trivial, trivial⟩
  dsimp only
  by_cases hk : key = counterKey task addr
  · rw [hk, SyncMap.delete_self]
  · rw [SyncMap.delete_of_ne _ hk, hq.noPending]

/-- A call that registers either is void or writes a trimmed pair. -/
theorem registerWithCapacity_cases (sr : StoreBackedRegistry) (now₁ now₂ : Time)
    (task addr : String) (capacity : Int64) :
    ((Go.trimSpace task = "" ∨ Go.trimSpace addr = "")
        ∧ sr.registerWithCapacity now₁ now₂ task addr capacity = sr)
      ∨ (Go.Trimmed (Go.trimSpace task) ∧ Go.Trimmed (Go.trimSpace addr)
        ∧ sr.registerWithCapacity now₁ now₂ task addr capacity
            = sr.registerEntry now₁ now₂ (Go.trimSpace task) (Go.trimSpace addr)
                (normalizedCapacity capacity)) := by
  rw [registerWithCapacity]
  by_cases hblank : Go.trimSpace task = "" ∨ Go.trimSpace addr = ""
  · exact Or.inl ⟨hblank, if_pos hblank⟩
  · obtain ⟨ht, ha⟩ := not_or.mp hblank
    exact Or.inr ⟨Go.trimmed_trimSpace ht, Go.trimmed_trimSpace ha, if_neg hblank⟩

/-! ## Warming -/

/-- Writing back one entry touches only the store and the retry marks. -/
theorem syncQueryCount_config (p : String × ServiceEntry) :
    SameConfig sr (sr.syncQueryCount p) ∧ (sr.syncQueryCount p).memCache = sr.memCache := by
  simp only [syncQueryCount]
  split_ifs with hpos
  · split <;> rename_i hreg <;> obtain ⟨hout, hcoll⟩ := PostgresStore.register_config hreg
    · exact ⟨⟨hout, hcoll, rfl, rfl, rfl⟩, rfl⟩
    · split_ifs <;> exact ⟨⟨hout, hcoll, rfl, rfl, rfl⟩, rfl⟩
  · exact ⟨SameConfig.refl sr, rfl⟩

theorem syncPending_config (p : String × ServiceEntry) :
    SameConfig sr (sr.syncPending p) ∧ (sr.syncPending p).memCache = sr.memCache := by
  simp only [syncPending]
  split_ifs with hpend
  · split <;> rename_i hreg <;> obtain ⟨hout, hcoll⟩ := PostgresStore.register_config hreg <;>
      exact ⟨⟨hout, hcoll, rfl, rfl, rfl⟩, rfl⟩
  · exact ⟨SameConfig.refl sr, rfl⟩

private theorem foldl_config {f : StoreBackedRegistry → String × ServiceEntry → StoreBackedRegistry}
    (hf : ∀ sr p, SameConfig sr (f sr p) ∧ (f sr p).memCache = sr.memCache)
    (l : List (String × ServiceEntry)) (sr : StoreBackedRegistry) :
    SameConfig sr (l.foldl f sr) ∧ (l.foldl f sr).memCache = sr.memCache := by
  induction l generalizing sr with
  | nil => exact ⟨SameConfig.refl sr, rfl⟩
  | cons p l ih =>
    rw [List.foldl_cons]
    exact ⟨(hf sr p).1.trans (ih _).1, (ih _).2.trans (hf sr p).2⟩

theorem syncQueryCountsToDB_config (sr : StoreBackedRegistry) (ord : TaskOrder) :
    SameConfig sr (sr.syncQueryCountsToDB ord)
      ∧ (sr.syncQueryCountsToDB ord).memCache = sr.memCache :=
  foldl_config (fun _ p ↦ syncQueryCount_config p) _ sr

theorem syncPendingRegistrations_config (sr : StoreBackedRegistry) (ord : TaskOrder) :
    SameConfig sr (sr.syncPendingRegistrations ord)
      ∧ (sr.syncPendingRegistrations ord).memCache = sr.memCache :=
  foldl_config (fun _ p ↦ syncPending_config p) _ sr

/-- The pairs a warm loads when every read succeeds. -/
def loadedPairs (c : Collation) (cacheMaxSize : Int) (ord : TaskOrder) (t : Table) :
    List (String × ServiceEntry) :=
  if cacheMaxSize ≤ 0 then pairs ord (t.listServices c)
  else
    let topTasks := t.listTopTasksByQueryCount c cacheMaxSize.toNat
    topTasks.flatMap fun task ↦
      ((t.listServicesForTasks c topTasks).slice task).map fun e ↦ (task, e)

/-- The tasks a warm loads: all of them, or the most queried ones. -/
def Loaded (c : Collation) (cacheMaxSize : Int) (t : Table) (task : String) : Prop :=
  cacheMaxSize ≤ 0 ∨ task ∈ t.listTopTasksByQueryCount c cacheMaxSize.toNat

theorem mem_loadedPairs {c : Collation} {cacheMaxSize : Int} {ord : TaskOrder} {t : Table}
    {task : String} {e : ServiceEntry} :
    (task, e) ∈ loadedPairs c cacheMaxSize ord t
      ↔ Loaded c cacheMaxSize t task ∧ e ∈ t.listTaskServices c task := by
  rw [loadedPairs, Loaded]
  by_cases hmax : cacheMaxSize ≤ 0
  · rw [if_pos hmax, mem_pairs, Table.mem_slice_listServices]
    simp [hmax]
  · rw [if_neg hmax]
    simp only [List.mem_flatMap, List.mem_map, Prod.mk.injEq, hmax, false_or]
    constructor
    · rintro ⟨task', -, e', he', rfl, rfl⟩
      exact Table.mem_slice_listServicesForTasks.mp he'
    · rintro ⟨htask, he⟩
      exact ⟨task, htask, e, Table.mem_slice_listServicesForTasks.mpr ⟨htask, he⟩, rfl, rfl⟩

/-- Loading keeps everything but the number of calls, and either it returns the pairs of the table
or the store is one that fails calls. -/
theorem loadCache_cases {ord : TaskOrder} {newCache : MemoryRegistry}
    {result : Except RegistryError MemoryRegistry}
    (h : sr.loadCache ord newCache = (sr', result)) :
    (∃ ps : PostgresStore, sr' = { sr with store := ps } ∧ ps.outage = sr.store.outage
        ∧ ps.collation = sr.store.collation)
      ∧ ((result = .ok (populateAll newCache
            (loadedPairs sr.store.collation sr.cacheMaxSize ord sr.store.table))
          ∧ sr'.store.table = sr.store.table)
        ∨ ∃ err, result = .error err ∧ ¬sr.store.Reliable) := by
  rw [loadCache] at h
  by_cases hmax : sr.cacheMaxSize ≤ 0
  · rw [if_pos hmax] at h
    rcases hlist : sr.store.listServices with ⟨ps, listed⟩
    obtain ⟨hout, hcoll, ⟨rfl, htable⟩ | ⟨err, rfl, hrel⟩⟩ := PostgresStore.read_cases hlist
    · rw [hlist] at h
      obtain ⟨rfl, rfl⟩ := Prod.mk.inj h
      refine ⟨⟨ps, rfl, hout, hcoll⟩, Or.inl ⟨?_, htable⟩⟩
      rw [loadedPairs, if_pos hmax]
    · rw [hlist] at h
      obtain ⟨rfl, rfl⟩ := Prod.mk.inj h
      exact ⟨⟨ps, rfl, hout, hcoll⟩, Or.inr ⟨err, rfl, hrel⟩⟩
  · rw [if_neg hmax] at h
    rcases htop : sr.store.listTopTasksByQueryCount sr.cacheMaxSize with ⟨ps, listed⟩
    have hread := htop
    rw [PostgresStore.listTopTasksByQueryCount, if_neg hmax] at hread
    obtain ⟨hout, hcoll, ⟨rfl, htable⟩ | ⟨err, rfl, hrel⟩⟩ := PostgresStore.read_cases hread
    · rw [htop] at h
      set topTasks := sr.store.table.listTopTasksByQueryCount sr.store.collation
        sr.cacheMaxSize.toNat with htasks
      simp only at h
      rcases hfor : ps.listServicesForTasks topTasks with ⟨ps', listed⟩
      obtain ⟨hout', hcoll', ⟨services, rfl, htable', hslice⟩ | ⟨err, rfl, hrel⟩⟩ :=
        PostgresStore.listServicesForTasks_cases hfor
      · rw [hfor] at h
        obtain ⟨rfl, rfl⟩ := Prod.mk.inj h
        refine ⟨⟨ps', rfl, hout'.trans hout, hcoll'.trans hcoll⟩,
          Or.inl ⟨?_, htable'.trans htable⟩⟩
        rw [loadedPairs, if_neg hmax, ← htasks]
        congr 2
        refine List.flatMap_congr fun task htask ↦ ?_
        rw [hslice task htask, htable, hcoll]
      · rw [hfor] at h
        obtain ⟨rfl, rfl⟩ := Prod.mk.inj h
        refine ⟨⟨ps', rfl, hout'.trans hout, hcoll'.trans hcoll⟩, Or.inr ⟨err, rfl, ?_⟩⟩
        exact fun hr ↦ hrel fun n ↦ (congrFun hout n).trans (hr n)
    · rw [htop] at h
      obtain ⟨rfl, rfl⟩ := Prod.mk.inj h
      exact ⟨⟨ps, rfl, hout, hcoll⟩, Or.inr ⟨err, rfl, hrel⟩⟩

/-- No warm changes the configuration, whether it succeeds or not. -/
theorem warmCacheFromDB_config (now : Time) (ord : WarmOrders) :
    SameConfig sr (sr.warmCacheFromDB now ord).1 := by
  obtain ⟨hsync, hsyncCache⟩ := syncQueryCountsToDB_config sr ord.sync
  obtain ⟨hpend, hpendCache⟩ :=
    syncPendingRegistrations_config (sr.syncQueryCountsToDB ord.sync) ord.pending
  have hboth := hsync.trans hpend
  simp only [warmCacheFromDB]
  split <;> rename_i hload <;>
    obtain ⟨⟨ps, rfl, hout, hcoll⟩, hcase⟩ := loadCache_cases hload
  · exact hboth.trans ⟨hout, hcoll, rfl, rfl, rfl⟩
  · refine hboth.trans ⟨hout, hcoll, rfl, rfl, ?_⟩
    rcases hcase with ⟨hok, -⟩ | ⟨err, herr, -⟩
    · obtain rfl := Except.ok.inj hok
      simp only [copyRoundRobinState, preservePendingEntries, populateAll_firewall,
        MemoryRegistry.setFirewall, hpendCache]
    · exact absurd herr (by simp)

/-- The table after the counts of the listed entries have been written back. -/
def syncTable (t : Table) (l : List (String × ServiceEntry)) : Table :=
  l.foldl (fun t p ↦ if 0 < p.2.queryCount then t.register p.1 p.2 else t) t

/-- A row after the write-back: as it was when no listed entry with a count has its key, and else as
the last of these wrote it. -/
theorem lookup_syncTable (t : Table) (l : List (String × ServiceEntry)) (k : String × String) :
    (∀ p ∈ l, 0 < p.2.queryCount → (p.1, p.2.address) ≠ k)
        ∧ (syncTable t l).lookup k = t.lookup k
      ∨ ∃ p ∈ l, 0 < p.2.queryCount ∧ (p.1, p.2.address) = k ∧ (syncTable t l).lookup k
          = some ⟨p.2.lastHeartbeat, p.2.queryCount, normalizedCapacity p.2.capacity, true⟩ := by
  induction l generalizing t with
  | nil => exact Or.inl ⟨by simp, rfl⟩
  | cons p l ih =>
    rw [syncTable, List.foldl_cons, ← syncTable]
    rcases ih (if 0 < p.2.queryCount then t.register p.1 p.2 else t) with
      ⟨hnone, hlook⟩ | ⟨q, hq, hpos, hk, hlook⟩
    · by_cases hp : 0 < p.2.queryCount ∧ (p.1, p.2.address) = k
      · refine Or.inr ⟨p, List.mem_cons_self, hp.1, hp.2, ?_⟩
        rw [hlook, if_pos hp.1, Table.lookup_register, if_pos hp.2.symm]
        simp [Table.registeredRow, hp.1]
      · refine Or.inl ⟨fun q hq hpos hk ↦ ?_, hlook.trans ?_⟩
        · rcases List.mem_cons.mp hq with rfl | hq
          · exact hp ⟨hpos, hk⟩
          · exact hnone q hq hpos hk
        · split_ifs with hpos
          · rw [Table.lookup_register, if_neg fun hk ↦ hp ⟨hpos, hk.symm⟩]
          · rfl
    · exact Or.inr ⟨q, List.mem_cons_of_mem _ hq, hpos, hk, hlook⟩

private theorem foldl_syncQueryCount_of_quiet (l : List (String × ServiceEntry))
    {sr : StoreBackedRegistry} (hq : Quiet sr) :
    Quiet (l.foldl syncQueryCount sr)
      ∧ (l.foldl syncQueryCount sr).store.table = syncTable sr.store.table l := by
  induction l generalizing sr with
  | nil => exact ⟨hq, rfl⟩
  | cons p l ih =>
    rw [List.foldl_cons, syncTable, List.foldl_cons, ← syncTable]
    by_cases hpos : 0 < p.2.queryCount
    · have hstep : sr.syncQueryCount p = { sr with store := { sr.store with
          table := sr.store.table.register p.1 p.2, calls := sr.store.calls + 1 } } := by
        have hno := hq.hasPendingStoreSync p.1 p.2.address
        rw [hasPendingStoreSync] at hno
        simp [syncQueryCount, hpos, PostgresStore.register_of_reliable hq.reliable,
          hasPendingStoreSync, hno]
      rw [hstep, if_pos hpos]
      exact ih ⟨hq.reliable, hq.noPending⟩
    · have hstep : sr.syncQueryCount p = sr := by simp [syncQueryCount, hpos]
      rw [hstep, if_neg hpos]
      exact ih hq

private theorem foldl_syncPending_of_quiet (l : List (String × ServiceEntry)) (hq : Quiet sr) :
    l.foldl syncPending sr = sr := by
  induction l with
  | nil => rfl
  | cons p l ih =>
    have hstep : sr.syncPending p = sr := by
      simp [syncPending, hq.hasPendingStoreSync p.1 p.2.address]
    rw [List.foldl_cons, hstep, ih]

theorem preservePendingEntries_of_quiet (hq : Quiet sr) (ord : TaskOrder)
    (source target : MemoryRegistry) : sr.preservePendingEntries ord source target = target := by
  rw [preservePendingEntries, List.filter_eq_nil_iff.mpr, populateAll_nil]
  intro p _
  simp [hq.hasPendingStoreSync p.1 p.2.address]

/-- The table a quiet warm leaves. -/
def warmedTable (sr : StoreBackedRegistry) (ord : WarmOrders) : Table :=
  syncTable sr.store.table (pairs ord.sync sr.memCache.listServices)

/-- **A quiet warm.** It writes the counts back, and its new cache is what the table then lists. -/
theorem warmCacheFromDB_of_quiet (hq : Quiet sr) (now : Time) (ord : WarmOrders) :
    Quiet (sr.warmCacheFromDB now ord).1
      ∧ (sr.warmCacheFromDB now ord).1.store.table = sr.warmedTable ord
      ∧ (sr.warmCacheFromDB now ord).1.memCache
          = copyRoundRobinState sr.memCache
              (populateAll (MemoryRegistry.new.setFirewall sr.memCache.firewall)
                (loadedPairs sr.store.collation sr.cacheMaxSize ord.load
                  (sr.warmedTable ord))) := by
  obtain ⟨hsync, hsyncCache⟩ := syncQueryCountsToDB_config sr ord.sync
  obtain ⟨hq₁, htable⟩ := foldl_syncQueryCount_of_quiet
    (pairs ord.sync sr.memCache.listServices) hq
  rw [← syncQueryCountsToDB] at hq₁ htable
  set sr₁ := sr.syncQueryCountsToDB ord.sync with hsr₁
  have hpend : sr₁.syncPendingRegistrations ord.pending = sr₁ :=
    foldl_syncPending_of_quiet _ hq₁
  simp only [warmCacheFromDB, ← hsr₁, hpend]
  rcases hload : sr₁.loadCache ord.load
    (MemoryRegistry.new.setFirewall sr₁.memCache.firewall) with ⟨sr₂, result⟩
  obtain ⟨⟨ps, rfl, hout, hcoll⟩, ⟨rfl, htable₂⟩ | ⟨err, rfl, hrel⟩⟩ := loadCache_cases hload
  · have hq₂ : Quiet { sr₁ with store := ps } :=
      ⟨fun n ↦ (congrFun hout n).trans (hq₁.reliable n), hq₁.noPending⟩
    simp only [preservePendingEntries_of_quiet hq₂]
    refine ⟨⟨hq₂.reliable, hq₁.noPending⟩, htable₂.trans htable, ?_⟩
    rw [hsyncCache, hsync.collation, hsync.cacheMaxSize, htable, warmedTable]
  · exact absurd hq₁.reliable hrel

theorem holds_warmCacheFromDB (hq : Quiet sr) {now : Time} {ord : WarmOrders}
    {task addr : String} :
    (sr.warmCacheFromDB now ord).1.memCache.Holds task addr
      ↔ Loaded sr.store.collation sr.cacheMaxSize (sr.warmedTable ord) task
        ∧ (sr.warmedTable ord).Active task addr := by
  rw [(warmCacheFromDB_of_quiet hq now ord).2.2]
  -- copying cursors leaves the entries alone
  change (populateAll _ _).Holds task addr ↔ _
  have hnew : ¬(MemoryRegistry.new.setFirewall sr.memCache.firewall).Holds task addr :=
    MemoryRegistry.not_holds_new task addr
  rw [holds_populateAll, ← Table.mem_map_listTaskServices (c := sr.store.collation), List.mem_map]
  simp only [mem_loadedPairs, hnew, or_false]
  constructor
  · rintro ⟨e, ⟨hload, he⟩, haddr⟩
    exact ⟨hload, e, he, haddr⟩
  · rintro ⟨hload, e, he, haddr⟩
    exact ⟨e, ⟨hload, he⟩, haddr⟩

/-! ## Every operation -/

theorem cleanup_config (now₁ now₂ timeout : Time) :
    SameConfig sr (sr.cleanup now₁ now₂ timeout).1 := by
  have hfw := sr.memCache.cleanup_firewall now₁ timeout
  rw [cleanup]
  rcases hcl : sr.store.cleanup now₂ timeout with ⟨ps, result⟩
  obtain ⟨hout, hcoll, -⟩ := PostgresStore.exec_cases hcl
  rcases result with err | n <;> exact ⟨hout, hcoll, rfl, rfl, hfw⟩

/-- **No operation changes the configuration.** In particular the firewall survives every cache
swap. -/
theorem step_config (sr : StoreBackedRegistry) (op : Op) : SameConfig sr (sr.step op) := by
  cases op with
  | register now₁ now₂ task addr =>
    rw [step, register]
    exact registerWithCapacity_config now₁ now₂ task addr 1
  | registerWithCapacity now₁ now₂ task addr capacity =>
    rw [step]
    exact registerWithCapacity_config now₁ now₂ task addr capacity
  | getServiceForRequestor task requestorIP =>
    rw [step]
    exact getServiceForRequestor_config sr task requestorIP
  | warmCacheFromDB now ord => exact warmCacheFromDB_config now ord
  | listServices now₁ now₂ ord =>
    simp only [step, listServices]
    split_ifs
    · exact warmCacheFromDB_config now₂ ord
    · exact SameConfig.refl sr
  | cleanup now₁ now₂ timeout => exact cleanup_config now₁ now₂ timeout

theorem quiet_registerWithCapacity (hq : Quiet sr) (now₁ now₂ : Time) (task addr : String)
    (capacity : Int64) : Quiet (sr.registerWithCapacity now₁ now₂ task addr capacity) := by
  rcases registerWithCapacity_cases sr now₁ now₂ task addr capacity with ⟨-, heq⟩ | ⟨-, -, heq⟩
  · rwa [heq]
  · rw [heq]
    exact (registerEntry_of_quiet hq now₁ now₂ _ _ _).1

/-- **Over a store that does not fail, nothing ever waits to be retried.** -/
theorem quiet_step (hq : Quiet sr) (op : Op) : Quiet (sr.step op) := by
  cases op with
  | register now₁ now₂ task addr =>
    rw [step, register]
    exact quiet_registerWithCapacity hq now₁ now₂ task addr 1
  | registerWithCapacity now₁ now₂ task addr capacity =>
    rw [step]
    exact quiet_registerWithCapacity hq now₁ now₂ task addr capacity
  | getServiceForRequestor task requestorIP =>
    refine ⟨(step_config sr _).reliable hq.reliable, ?_⟩
    by_cases ht : Go.trimSpace task = ""
    · rw [step, getServiceForRequestor, if_pos ht]
      exact hq.noPending
    · rw [step]
      rcases hget : sr.getServiceForRequestor task requestorIP with ⟨after, result⟩
      rw [(getServiceForRequestor_cases ht hget).2.1]
      exact hq.noPending
  | warmCacheFromDB now ord =>
    rw [step]
    exact (warmCacheFromDB_of_quiet hq now ord).1
  | listServices now₁ now₂ ord =>
    simp only [step, listServices]
    split_ifs
    · exact (warmCacheFromDB_of_quiet hq now₂ ord).1
    · exact hq
  | cleanup now₁ now₂ timeout =>
    refine ⟨(step_config sr _).reliable hq.reliable, fun key ↦ ?_⟩
    simp only [step, cleanup]
    rcases sr.store.cleanup now₂ timeout with ⟨store, err | flagged⟩ <;> exact hq.noPending key

theorem quiet_start {store : PostgresStore} (hrel : store.Reliable) (cacheMaxSize : Int)
    (now : Time) (threshold : Int) (fw : Option Firewall) :
    Quiet (start store cacheMaxSize now threshold fw) :=
  ⟨hrel, fun _ ↦ rfl⟩

end StoreBackedRegistry

end TaskDiscovery
