import TaskDiscovery.Registry.Outcomes

/-!
# What a refusal leaves behind

The cache of a store-backed registry refuses a requestor whom the firewall lets reach none of the
cached instances. The registry takes this for a miss. It lists the task in the store, fills the
listed entries into the cache, and asks the cache again; only the second refusal is returned.

Filling in overwrites heartbeats, capacities and query counters of the cached entries by what the
store has, and the store lags behind: counts are written back when the cache is warmed, and the two
layers take their own clock readings. So a refused query can set a counter back
(`refused_forgets_count`). It leaves the cache alone exactly when all listed entries are in the
cache as they are in the store (`refused_unchanged_iff`).
-/

namespace TaskDiscovery

open Go (IP)

theorem counterKey_inj {task addr addr' : String} :
    counterKey task addr = counterKey task addr' ↔ addr = addr' := by
  rw [counterKey, counterKey]
  exact String.append_right_inj _

namespace MemoryRegistry

/-- Nothing that a cache keeps for a task differs: entries with their heartbeats and capacities,
query counters, cursors. -/
structure SameCache (cache cache' : MemoryRegistry) : Prop where
  entries : ∀ task, cache'.services.slice task = cache.services.slice task
  counts : ∀ task addr, cache'.count task addr = cache.count task addr
  cursors : ∀ task, cache'.roundRobinIndex task = cache.roundRobinIndex task

theorem SameCache.refl (cache : MemoryRegistry) : SameCache cache cache :=
  ⟨fun _ ↦ rfl, fun _ _ ↦ rfl, fun _ ↦ rfl⟩

theorem SameCache.trans {cache cache' cache'' : MemoryRegistry} (h : SameCache cache cache')
    (h' : SameCache cache' cache'') : SameCache cache cache'' :=
  ⟨fun task ↦ (h'.entries task).trans (h.entries task),
    fun task addr ↦ (h'.counts task addr).trans (h.counts task addr),
    fun task ↦ (h'.cursors task).trans (h.cursors task)⟩

/-- The cache has the entry for the task as it is given: with its heartbeat, capacity and query
count. -/
def Agrees (cache : MemoryRegistry) (task : String) (e : ServiceEntry) : Prop :=
  ∃ c, ((cache.services.slice task).find? fun c ↦ c.address = e.address) = some c
    ∧ c.lastHeartbeat = e.lastHeartbeat ∧ c.capacity = normalizedCapacity e.capacity
    ∧ cache.count task e.address = e.queryCount

theorem SameCache.agrees_iff {cache cache' : MemoryRegistry} (h : SameCache cache cache')
    {task : String} {e : ServiceEntry} : cache'.Agrees task e ↔ cache.Agrees task e := by
  rw [Agrees, Agrees, h.entries, h.counts]

variable {cache : MemoryRegistry} {task : String} {e : ServiceEntry}

/-! ## Filling in one entry -/

theorem slice_populateCacheEntry (cache : MemoryRegistry) (task : String) (e : ServiceEntry)
    (task' : String) :
    (populateCacheEntry cache task e).services.slice task'
      = if task' = task then (cache.services.slice task).upsert ServiceEntry.address e.address
          (fun old ↦ { old with lastHeartbeat := e.lastHeartbeat,
                                capacity := normalizedCapacity e.capacity })
          { address := e.address, lastHeartbeat := e.lastHeartbeat,
            capacity := normalizedCapacity e.capacity }
        else cache.services.slice task' :=
  slice_putEntry task'

theorem count_populateCacheEntry (cache : MemoryRegistry) (task : String) (e : ServiceEntry)
    (task' addr' : String) :
    (populateCacheEntry cache task e).count task' addr'
      = if counterKey task' addr' = counterKey task e.address then e.queryCount
        else cache.count task' addr' := by
  rw [count, populateCacheEntry_queryCounters]
  split_ifs with hkey
  · rw [hkey, SyncMap.store_self, Option.getD_some]
  · rw [SyncMap.store_of_ne _ hkey, count]

theorem Agrees.sameCache (h : cache.Agrees task e) :
    SameCache cache (populateCacheEntry cache task e) := by
  obtain ⟨c, hfind, hheartbeat, hcapacity, hcount⟩ := h
  refine ⟨fun task' ↦ ?_, fun task' addr' ↦ ?_, fun task' ↦ ?_⟩
  · rw [slice_populateCacheEntry]
    split_ifs with htask
    · rw [htask, List.upsert_eq_self hfind]
      rw [← hheartbeat, ← hcapacity]
    · rfl
  · rw [count_populateCacheEntry]
    split_ifs with hkey
    · rw [← hcount, count, count, hkey]
    · rfl
  · have hheld : e.address ∈ (cache.services.slice task).map ServiceEntry.address := by
      have haddr : c.address = e.address := by simpa using List.find?_some hfind
      exact haddr ▸ List.mem_map_of_mem (List.mem_of_find?_eq_some hfind)
    simp [populateCacheEntry, putEntry, hheld]

theorem agrees_populateCacheEntry_self (cache : MemoryRegistry) (task : String)
    (e : ServiceEntry) : (populateCacheEntry cache task e).Agrees task e := by
  rw [Agrees, slice_populateCacheEntry, if_pos rfl, count_populateCacheEntry, if_pos rfl,
    List.find?_upsert_self (by exact fun _ ↦ rfl) (by rfl)]
  refine ⟨_, rfl, ?_, ?_, rfl⟩
  · rcases (cache.services.slice task).find? _ with _ | c <;> rfl
  · rcases (cache.services.slice task).find? _ with _ | c <;> rfl

theorem agrees_populateCacheEntry_of_ne {e' : ServiceEntry} (hne : e'.address ≠ e.address) :
    (populateCacheEntry cache task e).Agrees task e' ↔ cache.Agrees task e' := by
  rw [Agrees, Agrees, slice_populateCacheEntry, if_pos rfl, count_populateCacheEntry,
    if_neg (by rwa [counterKey_inj]),
    List.find?_upsert_of_ne (by exact fun _ ↦ rfl) (by rfl) hne]

/-! ## Filling in a task -/

theorem agrees_populateAll {entries : List ServiceEntry}
    (hnodup : (entries.map ServiceEntry.address).Nodup) (cache : MemoryRegistry) (task : String) :
    ∀ e ∈ entries, (populateAll cache (entries.map fun e ↦ (task, e))).Agrees task e := by
  have hkeep : ∀ (entries : List ServiceEntry) (cache : MemoryRegistry) (e : ServiceEntry),
      e.address ∉ entries.map ServiceEntry.address →
        ((populateAll cache (entries.map fun e ↦ (task, e))).Agrees task e
          ↔ cache.Agrees task e) := by
    intro entries
    induction entries with
    | nil => exact fun _ _ _ ↦ Iff.rfl
    | cons e' entries ih =>
      intro cache e hnew
      rw [List.map_cons, List.mem_cons, not_or] at hnew
      rw [List.map_cons, populateAll_cons, ih _ e hnew.2,
        agrees_populateCacheEntry_of_ne hnew.1]
  induction entries generalizing cache with
  | nil => exact fun e he ↦ absurd he List.not_mem_nil
  | cons e' entries ih =>
    rw [List.map_cons, List.nodup_cons] at hnodup
    intro e he
    rw [List.map_cons, populateAll_cons]
    rcases List.mem_cons.mp he with rfl | he
    · rw [hkeep entries _ e hnodup.1]
      exact agrees_populateCacheEntry_self cache task e
    · exact ih hnodup.2 _ e he

/-- **Filling in.** It changes nothing if and only if the cache has every entry as it is given. -/
theorem sameCache_populateAll_iff {entries : List ServiceEntry}
    (hnodup : (entries.map ServiceEntry.address).Nodup) :
    SameCache cache (populateAll cache (entries.map fun e ↦ (task, e)))
      ↔ ∀ e ∈ entries, cache.Agrees task e := by
  constructor
  · intro hsame e he
    exact hsame.agrees_iff.mp (agrees_populateAll hnodup cache task e he)
  · intro hagrees
    clear hnodup
    induction entries generalizing cache with
    | nil => exact SameCache.refl cache
    | cons e entries ih =>
      have hfirst := (hagrees e List.mem_cons_self).sameCache
      rw [List.map_cons, populateAll_cons]
      refine hfirst.trans (ih fun e' he' ↦ ?_)
      exact hfirst.agrees_iff.mpr (hagrees e' (List.mem_cons_of_mem _ he'))

end MemoryRegistry

namespace StoreBackedRegistry

variable {sr : StoreBackedRegistry} {task : String} {requestorIP : Option IP}

/-- A refusal of a registry that admits on the first miss leaves the hydrated cache. -/
theorem memCache_of_refused (hlist : sr.store.outage sr.store.calls = none)
    (heager : sr.admitAfterMiss ≤ 1) (ht : Go.trimSpace task ≠ "")
    (hrefused : (sr.getServiceForRequestor task requestorIP).2 = .error .noAllowedService) :
    (sr.getServiceForRequestor task requestorIP).1.memCache = sr.hydrated (Go.trimSpace task) := by
  have htrim := Go.trimmed_trimSpace ht
  have hmiss : ¬0 < totalServiceWeight (sr.memCache.offered (Go.trimSpace task) requestorIP) := by
    intro hhit
    obtain ⟨cache, addr, hget⟩ := MemoryRegistry.getServiceForRequestor_of_pos htrim hhit
    rw [getServiceForRequestor_of_hit ht hget] at hrefused
    simp at hrefused
  have hadmitted : sr.admits (Go.trimSpace task) = true := by
    rw [admits, countMiss, if_pos heager]
  rw [getServiceForRequestor_of_not_pos ht hmiss, missService_of_listed hlist] at hrefused ⊢
  by_cases hnil : sr.storeEntries (Go.trimSpace task) = []
  · rw [if_pos hnil] at hrefused
    simp at hrefused
  · obtain ⟨hresult, hcache⟩ := sr.admitTask_missed (Go.trimSpace task) requestorIP
    rw [if_neg hnil, if_pos hadmitted] at hrefused ⊢
    rw [hresult] at hrefused
    rw [hcache]
    rcases hagain : (sr.hydrated (Go.trimSpace task)).getServiceForRequestor (Go.trimSpace task)
      requestorIP with ⟨cache, result⟩
    rw [hagain] at hrefused
    obtain rfl := hrefused
    exact MemoryRegistry.getServiceForRequestor_error hagain

/-- **When a refused query changes nothing.** In every state of a registry that admits on the first
miss and whose store answers the listing, a query that ends in `ErrNoAllowedService` leaves the
entries, counters and cursors of all tasks if and only if every active row of the task is in the
cache with the heartbeat, the capacity and the query count of the row. -/
theorem refused_unchanged_iff (hlist : sr.store.outage sr.store.calls = none)
    (heager : sr.admitAfterMiss ≤ 1) (ht : Go.trimSpace task ≠ "")
    (hrefused : (sr.getServiceForRequestor task requestorIP).2 = .error .noAllowedService) :
    sr.memCache.SameCache (sr.getServiceForRequestor task requestorIP).1.memCache
      ↔ ∀ e ∈ sr.storeEntries (Go.trimSpace task), sr.memCache.Agrees (Go.trimSpace task) e := by
  rw [memCache_of_refused hlist heager ht hrefused]
  exact MemoryRegistry.sameCache_populateAll_iff (Table.nodup_listTaskServices ..)

/-- A registry with one instance that the firewall lets one client reach, and that has served it
once. -/
def servedOnce : StoreBackedRegistry :=
  (start .empty 0 0 1
    (some ⟨[{ sourceIP := [10, 9, 0, 1], destIP := Go.v4InV6Prefix ++ [10, 0, 0, 1] }]⟩)
      |>.registerWithCapacity 0 0 "scan" "10.0.0.1:80" 1).getServiceForRequestor "scan"
        (some [10, 9, 0, 1]) |>.1

/-- Another client is refused, and the counter of the instance goes back from one to zero. -/
theorem refused_forgets_count :
    servedOnce.store.outage servedOnce.store.calls = none ∧ servedOnce.admitAfterMiss ≤ 1
      ∧ servedOnce.memCache.HasTask "scan"
      ∧ (servedOnce.getServiceForRequestor "scan" (some [10, 9, 0, 2])).2
        = .error .noAllowedService
      ∧ servedOnce.memCache.count "scan" "10.0.0.1:80" = 1
      ∧ (servedOnce.getServiceForRequestor "scan" (some [10, 9, 0, 2])).1.memCache.count "scan"
        "10.0.0.1:80" = 0 := by
  decide +kernel

/-- A registry that has just filled in what its store has. -/
def filledIn : StoreBackedRegistry :=
  ((restarted 1 "10.0.0.1:80").getServiceForRequestor "scan" (some [10, 9, 0, 2])).1

/-- There the cache is not behind, and a further refusal changes nothing. -/
theorem filledIn_unchanged :
    filledIn.memCache.SameCache
      (filledIn.getServiceForRequestor "scan" (some [10, 9, 0, 2])).1.memCache := by
  refine (refused_unchanged_iff (by decide +kernel) (by decide +kernel) (by decide +kernel)
    (by decide +kernel)).mpr ?_
  have hentries : filledIn.storeEntries (Go.trimSpace "scan")
      = [{ address := "10.0.0.1:80", lastHeartbeat := 0, capacity := 1 }] := by decide +kernel
  intro e he
  rw [hentries, List.mem_singleton] at he
  rw [he]
  exact ⟨{ address := "10.0.0.1:80", lastHeartbeat := 0, capacity := 1 }, by decide +kernel,
    by decide, by decide, by decide +kernel⟩

end StoreBackedRegistry

end TaskDiscovery
