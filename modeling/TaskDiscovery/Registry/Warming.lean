import TaskDiscovery.Registry.Refusal
import TaskDiscovery.Registry.Representation

/-!
# What a warm leaves in the cache

`WarmCacheFromDB` builds a new cache in stages. It writes the counts of the cached entries back to
the store, retries the registrations that the store has not taken yet, selects the tasks to load,
reads their active rows, puts the entries that are still waiting on top, and carries the cursors of
the old cache over. Each of the writes may fail, with or without taking effect, and the later stages
work with whatever is there then.

The result can be told without the stages. For each task and address the new cache has

* what the old cache has, if the pair is cached there and still marked as pending (`pending`);
* else what the store has, if the row is active and its task is loaded (`stored`);
* else nothing (`nothing`).

The tasks to load and the marks are those after the write-back and the retry, which is what
`written` stands for. If a read fails there is no new cache (`warm_warmed`).

## Cursors

A task of the new cache has the cursor that it had in the old one, or starts at zero. The cursor of
a task that is not loaded again is dropped with it: copying is meant for the tasks that exist in the
new cache, and such a task starts over when it comes back.
-/

namespace TaskDiscovery

/-! ## Filling in -/

namespace MemoryRegistry

variable {cache : MemoryRegistry} {task addr : String}

/-- The heartbeat and the capacity that a cache has for an address of a task. -/
def recorded (cache : MemoryRegistry) (task addr : String) : Option (Time × Int64) :=
  ((cache.services.slice task).find? fun e ↦ e.address = addr).map fun e ↦
    (e.lastHeartbeat, e.capacity)

theorem recorded_of_mem (h : cache.WellFormed) {e : ServiceEntry}
    (he : e ∈ cache.services.slice task) :
    cache.recorded task e.address = some (e.lastHeartbeat, e.capacity) := by
  rcases hfind : (cache.services.slice task).find? fun c ↦ c.address = e.address with _ | c
  · exact absurd (List.find?_eq_none.mp hfind e he) (by simp)
  · have haddr : c.address = e.address := by simpa using List.find?_some hfind
    rw [recorded, hfind, List.inj_on_of_nodup_map (h.nodup_slice task)
      (List.mem_of_find?_eq_some hfind) he haddr]
    rfl

theorem recorded_populateCacheEntry_self (cache : MemoryRegistry) (task : String)
    (e : ServiceEntry) :
    (populateCacheEntry cache task e).recorded task e.address
      = some (e.lastHeartbeat, normalizedCapacity e.capacity) := by
  rw [recorded, slice_populateCacheEntry, if_pos rfl,
    List.find?_upsert_self (by exact fun _ ↦ rfl) (by rfl)]
  rcases (cache.services.slice task).find? _ with _ | c
  · rfl
  · rfl

theorem recorded_populateCacheEntry_of_ne {task' : String} {e : ServiceEntry}
    (hne : ¬(task = task' ∧ addr = e.address)) :
    (populateCacheEntry cache task' e).recorded task addr = cache.recorded task addr := by
  rw [recorded, slice_populateCacheEntry]
  split_ifs with htask
  · have haddr : addr ≠ e.address := fun haddr ↦ hne ⟨htask, haddr⟩
    rw [List.find?_upsert_of_ne (by exact fun _ ↦ rfl) (by rfl) haddr, recorded, htask]
  · rfl

/-- What is filled in last for a pair stays, and a pair that is not filled in stays as it was. -/
theorem recorded_populateAll (l : List (String × ServiceEntry)) (cache : MemoryRegistry)
    (task addr : String) :
    (∃ e, (task, e) ∈ l ∧ e.address = addr ∧ (populateAll cache l).recorded task addr
        = some (e.lastHeartbeat, normalizedCapacity e.capacity))
      ∨ (∀ e, (task, e) ∈ l → e.address ≠ addr)
        ∧ (populateAll cache l).recorded task addr = cache.recorded task addr := by
  induction l generalizing cache with
  | nil => exact Or.inr ⟨fun e he ↦ absurd he List.not_mem_nil, rfl⟩
  | cons p l ih =>
    rw [populateAll_cons]
    rcases ih (populateCacheEntry cache p.1 p.2) with ⟨e, he, haddr, hrec⟩ | ⟨hnone, hrec⟩
    · exact Or.inl ⟨e, List.mem_cons_of_mem _ he, haddr, hrec⟩
    · rw [hrec]
      by_cases hp : task = p.1 ∧ addr = p.2.address
      · obtain ⟨rfl, rfl⟩ := hp
        exact Or.inl ⟨p.2, List.mem_cons_self, rfl,
          recorded_populateCacheEntry_self cache p.1 p.2⟩
      · refine Or.inr ⟨?_, recorded_populateCacheEntry_of_ne hp⟩
        intro e he haddr
        rcases List.mem_cons.mp he with rfl | he
        · exact hp ⟨rfl, haddr.symm⟩
        · exact hnone e he haddr

theorem cursor_populateAll (l : List (String × ServiceEntry)) {cache : MemoryRegistry}
    (h : ∀ task cursor, cache.roundRobinIndex task = some cursor → cursor = 0) (task : String)
    (cursor : Int64) (hcursor : (populateAll cache l).roundRobinIndex task = some cursor) :
    cursor = 0 := by
  induction l generalizing cache with
  | nil => exact h task cursor hcursor
  | cons p l ih =>
    refine ih ?_ hcursor
    intro task' cursor' hcursor'
    simp only [populateCacheEntry, putEntry] at hcursor'
    split_ifs at hcursor'
    · exact h task' cursor' hcursor'
    · by_cases htask : task' = p.1
      · rw [htask, SyncMap.loadOrStore, Function.update_self, Option.some.injEq] at hcursor'
        rcases hold : cache.roundRobinIndex p.1 with _ | c
        · rw [hold] at hcursor'
          exact hcursor'.symm
        · rw [hold] at hcursor'
          exact hcursor' ▸ h p.1 c hold
      · rw [SyncMap.loadOrStore, Function.update_of_ne htask] at hcursor'
        exact h task' cursor' hcursor'

theorem WellFormed.hasTask_iff (h : cache.WellFormed) :
    cache.HasTask task ↔ (cache.services.lookup task).isSome := by
  rw [HasTask, AList.slice]
  rcases hlookup : cache.services.lookup task with _ | entries
  · simp
  · simpa using (h.entriesOk hlookup).ne_nil

theorem withCount_eq (counters : SyncMap String Int) (task : String) (e : ServiceEntry) :
    ∃ n, withCount counters task e = { e with queryCount := n } := by
  rw [withCount]
  rcases counters (counterKey task e.address) with _ | n
  · exact ⟨e.queryCount, rfl⟩
  · exact ⟨n, rfl⟩

end MemoryRegistry

namespace StoreBackedRegistry

variable {sr : StoreBackedRegistry} {task addr : String}

/-! ## The specification -/

/-- The registry once the counts have been written back and the pending registrations retried. -/
def written (sr : StoreBackedRegistry) (ord : WarmOrders) : StoreBackedRegistry :=
  (sr.syncQueryCountsToDB ord.sync).syncPendingRegistrations ord.pending

/-- The pair is cached, and still marked as pending after the write-back and the retry. -/
def StillPending (sr : StoreBackedRegistry) (ord : WarmOrders) (task addr : String) : Prop :=
  sr.memCache.Holds task addr ∧ (sr.written ord).hasPendingStoreSync task addr = true

/-- The task is loaded: every task if the cache is unbounded, and else the most queried ones after
the write-back and the retry. -/
def Selected (sr : StoreBackedRegistry) (ord : WarmOrders) (task : String) : Prop :=
  Loaded (sr.written ord).store.collation sr.cacheMaxSize (sr.written ord).store.table task

/-- What a cache is that a successful warm of `sr` leaves. -/
structure Warmed (sr : StoreBackedRegistry) (ord : WarmOrders) (cache : MemoryRegistry) :
    Prop where
  /-- Every task has its addresses once, and no task is left without entries. -/
  wellFormed : cache.WellFormed
  pending : ∀ task addr, sr.StillPending ord task addr →
    (∃ e ∈ sr.memCache.services.slice task, e.address = addr
        ∧ cache.recorded task addr = some (e.lastHeartbeat, normalizedCapacity e.capacity))
      ∧ (sr.memCache.WellFormed → cache.recorded task addr = sr.memCache.recorded task addr)
  stored : ∀ task addr row, ¬sr.StillPending ord task addr → sr.Selected ord task →
    (sr.written ord).store.table.lookup (task, addr) = some row → row.isActive = true →
      cache.recorded task addr = some (row.lastHeartbeat, normalizedCapacity row.capacity)
  nothing : ∀ task addr, ¬sr.StillPending ord task addr →
    ¬(sr.Selected ord task ∧ (sr.written ord).store.table.Active task addr) →
      ¬cache.Holds task addr
  firewall : cache.firewall = sr.memCache.firewall
  cursor : ∀ task, cache.roundRobinIndex task
    = if cache.HasTask task then some ((sr.memCache.roundRobinIndex task).getD 0) else none

/-! ## The stages -/

theorem written_config (sr : StoreBackedRegistry) (ord : WarmOrders) :
    SameConfig sr (sr.written ord) ∧ (sr.written ord).memCache = sr.memCache := by
  obtain ⟨hsync, hsyncCache⟩ := syncQueryCountsToDB_config sr ord.sync
  obtain ⟨hpend, hpendCache⟩ :=
    syncPendingRegistrations_config (sr.syncQueryCountsToDB ord.sync) ord.pending
  exact ⟨hsync.trans hpend, hpendCache.trans hsyncCache⟩

def loaded (sr : StoreBackedRegistry) (ord : WarmOrders) : MemoryRegistry :=
  populateAll (MemoryRegistry.new.setFirewall sr.memCache.firewall)
    (loadedPairs (sr.written ord).store.collation sr.cacheMaxSize ord.load
      (sr.written ord).store.table)

/-- The entries of the old cache that are still pending. -/
def preserved (sr : StoreBackedRegistry) (ord : WarmOrders) : List (String × ServiceEntry) :=
  (pairs ord.preserve sr.memCache.listServices).filter fun p ↦
    (sr.written ord).hasPendingStoreSync p.1 p.2.address

/-- The new cache before the cursors are carried over: the pending entries on top of the loaded
ones. -/
def rebuilt (sr : StoreBackedRegistry) (ord : WarmOrders) : MemoryRegistry :=
  populateAll (sr.loaded ord) (sr.preserved ord)

/-- A warm fails and keeps the cache, or it succeeds and replaces it. -/
theorem warmCacheFromDB_outcome (sr : StoreBackedRegistry) (now : Time) (ord : WarmOrders) :
    (∃ err, (sr.warmCacheFromDB now ord).2 = .error err
        ∧ (sr.warmCacheFromDB now ord).1.memCache = sr.memCache)
      ∨ ((sr.warmCacheFromDB now ord).2 = .ok ()
        ∧ (sr.warmCacheFromDB now ord).1.memCache
          = copyRoundRobinState sr.memCache (sr.rebuilt ord)) := by
  obtain ⟨hconfig, hcache⟩ := sr.written_config ord
  have hold : (sr.syncQueryCountsToDB ord.sync).memCache = sr.memCache :=
    (syncQueryCountsToDB_config sr ord.sync).2
  rw [warmCacheFromDB]
  dsimp only
  rw [← written, hold]
  rcases hload : (sr.written ord).loadCache ord.load
    (MemoryRegistry.new.setFirewall sr.memCache.firewall) with ⟨sr', result⟩
  obtain ⟨⟨ps, rfl, -, -⟩, ⟨rfl, -⟩ | ⟨err, rfl, -⟩⟩ := loadCache_cases hload
  · right
    refine ⟨rfl, ?_⟩
    rw [rebuilt, loaded, ← hconfig.cacheMaxSize]
    rfl
  · exact Or.inl ⟨err, rfl, hcache⟩

theorem mem_preserved {ord : WarmOrders} {e' : ServiceEntry} :
    (task, e') ∈ sr.preserved ord
      ↔ (∃ e ∈ sr.memCache.services.slice task,
          MemoryRegistry.withCount sr.memCache.queryCounters task e = e')
        ∧ (sr.written ord).hasPendingStoreSync task e'.address = true := by
  rw [preserved, List.mem_filter, mem_pairs, MemoryRegistry.slice_listServices, List.mem_map]

theorem exists_preserved_iff {ord : WarmOrders} :
    (∃ e', (task, e') ∈ sr.preserved ord ∧ e'.address = addr)
      ↔ sr.StillPending ord task addr := by
  constructor
  · rintro ⟨e', he', rfl⟩
    obtain ⟨⟨e, he, rfl⟩, hpend⟩ := mem_preserved.mp he'
    rw [MemoryRegistry.withCount_address] at hpend ⊢
    exact ⟨List.mem_map_of_mem he, hpend⟩
  · rintro ⟨hheld, hpend⟩
    obtain ⟨e, he, rfl⟩ := List.mem_map.mp hheld
    refine ⟨MemoryRegistry.withCount sr.memCache.queryCounters task e, mem_preserved.mpr ?_,
      MemoryRegistry.withCount_address ..⟩
    exact ⟨⟨e, he, rfl⟩, by rwa [MemoryRegistry.withCount_address]⟩

theorem recorded_loaded {ord : WarmOrders} {row : Row} (hsel : sr.Selected ord task)
    (hrow : (sr.written ord).store.table.lookup (task, addr) = some row)
    (hact : row.isActive = true) :
    (sr.loaded ord).recorded task addr
      = some (row.lastHeartbeat, normalizedCapacity row.capacity) := by
  rw [loaded]
  rcases MemoryRegistry.recorded_populateAll (loadedPairs (sr.written ord).store.collation
    sr.cacheMaxSize ord.load (sr.written ord).store.table)
    (MemoryRegistry.new.setFirewall sr.memCache.firewall) task addr with
    ⟨e, he, rfl, hrec⟩ | ⟨hnone, -⟩
  · obtain ⟨row', hrow', -, heq⟩ := Table.mem_listTaskServices.mp (mem_loadedPairs.mp he).2
    obtain rfl := Option.some.inj (hrow.symm.trans hrow')
    rw [hrec, heq, Table.scan, normalizedCapacity_idem]
  · have he : (task, Table.scan addr row) ∈ loadedPairs (sr.written ord).store.collation
        sr.cacheMaxSize ord.load (sr.written ord).store.table :=
      mem_loadedPairs.mpr ⟨hsel, Table.mem_listTaskServices.mpr ⟨row, hrow, hact, rfl⟩⟩
    exact absurd rfl (hnone _ he)

theorem holds_loaded {ord : WarmOrders} :
    (sr.loaded ord).Holds task addr
      ↔ sr.Selected ord task ∧ (sr.written ord).store.table.Active task addr := by
  have hnew : ¬(MemoryRegistry.new.setFirewall sr.memCache.firewall).Holds task addr :=
    MemoryRegistry.not_holds_new task addr
  rw [loaded, holds_populateAll,
    ← Table.mem_map_listTaskServices (c := (sr.written ord).store.collation), List.mem_map]
  simp only [mem_loadedPairs, hnew, or_false, and_assoc, exists_and_left]
  rfl

theorem wellFormed_rebuilt (sr : StoreBackedRegistry) (ord : WarmOrders) :
    (sr.rebuilt ord).WellFormed :=
  cacheClosed_wellFormed.populateAll
    (cacheClosed_wellFormed.populateAll (MemoryRegistry.wellFormed_new _) _) _

theorem recorded_rebuilt_of_pending {ord : WarmOrders} (h : sr.StillPending ord task addr) :
    ∃ e ∈ sr.memCache.services.slice task, e.address = addr
      ∧ (sr.rebuilt ord).recorded task addr
        = some (e.lastHeartbeat, normalizedCapacity e.capacity) := by
  rcases MemoryRegistry.recorded_populateAll (sr.preserved ord) (sr.loaded ord) task addr with
    ⟨e', he', rfl, hrec⟩ | ⟨hnone, -⟩
  · obtain ⟨⟨e, he, rfl⟩, -⟩ := mem_preserved.mp he'
    obtain ⟨n, hcount⟩ := MemoryRegistry.withCount_eq sr.memCache.queryCounters task e
    rw [hcount] at hrec ⊢
    exact ⟨e, he, rfl, hrec⟩
  · obtain ⟨e', he', haddr⟩ := exists_preserved_iff.mpr h
    exact absurd haddr (hnone e' he')

theorem recorded_rebuilt_of_not_pending {ord : WarmOrders} (h : ¬sr.StillPending ord task addr) :
    (sr.rebuilt ord).recorded task addr = (sr.loaded ord).recorded task addr := by
  rcases MemoryRegistry.recorded_populateAll (sr.preserved ord) (sr.loaded ord) task addr with
    ⟨e', he', haddr, -⟩ | ⟨-, hrec⟩
  · exact absurd (exists_preserved_iff.mp ⟨e', he', haddr⟩) h
  · exact hrec

theorem holds_rebuilt {ord : WarmOrders} :
    (sr.rebuilt ord).Holds task addr
      ↔ sr.StillPending ord task addr
        ∨ (sr.Selected ord task ∧ (sr.written ord).store.table.Active task addr) := by
  rw [rebuilt, holds_populateAll, exists_preserved_iff, holds_loaded]

theorem cursor_rebuilt (sr : StoreBackedRegistry) (ord : WarmOrders) (task : String)
    (cursor : Int64) (h : (sr.rebuilt ord).roundRobinIndex task = some cursor) : cursor = 0 := by
  refine MemoryRegistry.cursor_populateAll _ (MemoryRegistry.cursor_populateAll _ ?_) task cursor h
  intro task' cursor' hcursor
  exact absurd hcursor (by simp [MemoryRegistry.new, MemoryRegistry.setFirewall])

theorem roundRobinIndex_copyRoundRobinState {source target : MemoryRegistry}
    (hwf : target.WellFormed)
    (hzero : ∀ task cursor, target.roundRobinIndex task = some cursor → cursor = 0)
    (task : String) :
    (copyRoundRobinState source target).roundRobinIndex task
      = if target.HasTask task then some ((source.roundRobinIndex task).getD 0) else none := by
  have htarget : target.roundRobinIndex task
      = if target.HasTask task then some 0 else none := by
    have hiff := hwf.cursor_iff task
    rw [← AList.lookup_isSome, ← hwf.hasTask_iff] at hiff
    rcases hcursor : target.roundRobinIndex task with _ | cursor
    · rw [hcursor] at hiff
      rw [if_neg (fun h ↦ by simpa using hiff.mpr h)]
    · rw [if_pos (hiff.mp (by rw [hcursor]; rfl)), hzero task cursor hcursor]
  simp only [copyRoundRobinState]
  rcases source.roundRobinIndex task with _ | cursor
  · exact htarget
  · simp only [← hwf.hasTask_iff, htarget]
    split_ifs
    · rfl
    · rfl

theorem warmed_rebuilt (sr : StoreBackedRegistry) (ord : WarmOrders) :
    sr.Warmed ord (copyRoundRobinState sr.memCache (sr.rebuilt ord)) where
  wellFormed := wellFormed_copyRoundRobinState (sr.wellFormed_rebuilt ord) sr.memCache
  pending task addr hpend := by
    obtain ⟨e, he, rfl, hrec⟩ := recorded_rebuilt_of_pending hpend
    refine ⟨⟨e, he, rfl, hrec⟩, fun hold ↦ ?_⟩
    have hpos : 0 < e.capacity :=
      Int64.lt_of_lt_of_le (by decide) (hold.one_le_of_mem_slice he)
    rw [normalizedCapacity_of_pos hpos] at hrec
    rw [MemoryRegistry.recorded_of_mem hold he]
    exact hrec
  stored task addr row hnot hsel hrow hact :=
    (recorded_rebuilt_of_not_pending hnot).trans (recorded_loaded hsel hrow hact)
  nothing task addr hnot hunstored hheld := by
    rcases holds_rebuilt.mp hheld with hpend | hstored
    · exact hnot hpend
    · exact hunstored hstored
  firewall := by
    change (sr.rebuilt ord).firewall = _
    rw [rebuilt, populateAll_firewall, loaded, populateAll_firewall]
    rfl
  cursor := roundRobinIndex_copyRoundRobinState (sr.wellFormed_rebuilt ord) (sr.cursor_rebuilt ord)

/-- **What a warm computes.** In every state, whatever the order of its loops and however the calls
to the store end: if it returns an error the cache is the old one, and otherwise the new cache has
the active rows of the selected tasks, overridden and extended by the pending entries of the old
cache, and nothing else, with the firewall of the old cache, and the old cursors of its tasks. -/
theorem warm_warmed (sr : StoreBackedRegistry) (now : Time) (ord : WarmOrders) :
    (∀ err, (sr.warmCacheFromDB now ord).2 = .error err →
        (sr.warmCacheFromDB now ord).1.memCache = sr.memCache)
      ∧ ((sr.warmCacheFromDB now ord).2 = .ok () →
        sr.Warmed ord (sr.warmCacheFromDB now ord).1.memCache) := by
  rcases sr.warmCacheFromDB_outcome now ord with ⟨err, hresult, hcache⟩ | ⟨hresult, hcache⟩
  · refine ⟨fun _ _ ↦ hcache, fun hok ↦ ?_⟩
    rw [hresult] at hok
    exact absurd hok (by simp)
  · refine ⟨fun err herr ↦ ?_, fun _ ↦ ?_⟩
    · rw [hresult] at herr
      exact absurd herr (by simp)
    · rw [hcache]
      exact sr.warmed_rebuilt ord

/-- Two tasks in a cache for one. -/
def twoCursors : StoreBackedRegistry :=
  Run.exec step (start .empty 1 0 1 none)
    [.registerWithCapacity 0 0 "scan" "10.0.0.1:80" 1,
      .registerWithCapacity 0 0 "print" "10.0.0.2:80" 1, .getServiceForRequestor "scan" none,
      .getServiceForRequestor "print" none, .getServiceForRequestor "print" none]

/-- The task that is not loaded again loses its cursor. -/
theorem evicted_cursor_dropped :
    (twoCursors.warmCacheFromDB 0 .asStored).2 = .ok ()
      ∧ twoCursors.memCache.roundRobinIndex "scan" = some 1
      ∧ (twoCursors.warmCacheFromDB 0 .asStored).1.memCache.roundRobinIndex "scan" = none := by
  decide +kernel

end StoreBackedRegistry

end TaskDiscovery
