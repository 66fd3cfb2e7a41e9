import TaskDiscovery.Registry.Memory
import TaskDiscovery.Store.Postgres

/-!
# The store-backed registry

`StoreBackedRegistry` answers from an in-memory cache and persists to the store. Registrations write
to both, a lookup that misses reads the store and may admit the task to the cache, and warming
replaces the cache by what the store lists.

The functions follow `store_backed.go`. A nested `range` loop over a map of slices visits a list of
task-entry pairs (`pairs`), in an order the language leaves open, and every loop below is a fold
over such a list. A warm ranges over four maps, so it takes four orders (`WarmOrders`).

Clock readings are arguments. A registration takes two: one inside the cache, one for the store.
-/

namespace TaskDiscovery

open Go (IP)

/-- An iteration order over a map from tasks to their entries. -/
abbrev TaskOrder := RangeOrder (Sigma fun _ : String ↦ List ServiceEntry)

/-- The pairs that a nested loop over a listing visits. -/
def pairs (ord : TaskOrder) (services : AList fun _ : String ↦ List ServiceEntry) :
    List (String × ServiceEntry) :=
  (ord.arrange services.entries).flatMap fun p ↦ p.2.map fun e ↦ (p.1, e)

@[simp] theorem mem_pairs {ord : TaskOrder} {services : AList fun _ : String ↦ List ServiceEntry}
    {task : String} {e : ServiceEntry} :
    (task, e) ∈ pairs ord services ↔ e ∈ services.slice task := by
  simp only [pairs, List.mem_flatMap, RangeOrder.mem_arrange, List.mem_map, Prod.mk.injEq]
  constructor
  · rintro ⟨⟨task', entries⟩, hmem, e', he', rfl, rfl⟩
    rwa [AList.slice_of_lookup (AList.mem_entries_iff.mp hmem)]
  · intro h
    rw [AList.slice] at h
    rcases hl : services.lookup task with _ | entries
    · simp [hl] at h
    · rw [hl, Option.getD_some] at h
      exact ⟨⟨task, entries⟩, AList.mem_entries_iff.mpr hl, e, h, rfl, rfl⟩

/-- The orders in which one warm visits the maps it ranges over. -/
structure WarmOrders where
  sync : TaskOrder
  pending : TaskOrder
  load : TaskOrder
  preserve : TaskOrder

/-- All four maps in the order of their association lists. -/
def WarmOrders.asStored : WarmOrders :=
  ⟨RangeOrder.asStored, RangeOrder.asStored, RangeOrder.asStored, RangeOrder.asStored⟩

/-- The state of a `StoreBackedRegistry`, with the store it owns. -/
structure StoreBackedRegistry where
  store : PostgresStore
  memCache : MemoryRegistry
  lastCacheSync : Time
  cacheSyncPeriod : Time
  cacheMaxSize : Int
  cacheMissCounts : SyncMap String Int
  fallbackCursor : SyncMap String Int64
  admitAfterMiss : Int
  pendingStoreSync : SyncMap String Unit

/-! ## Filling a cache -/

/-- `populateCacheEntry`: put an entry with the counter, heartbeat and capacity it has elsewhere. -/
def populateCacheEntry (cache : MemoryRegistry) (task : String) (e : ServiceEntry) :
    MemoryRegistry :=
  let capacity := normalizedCapacity e.capacity
  { cache.putEntry task e.address
      (fun old ↦ { old with lastHeartbeat := e.lastHeartbeat, capacity := capacity })
      { address := e.address, lastHeartbeat := e.lastHeartbeat, capacity := capacity } with
    queryCounters := cache.queryCounters.store (counterKey task e.address) e.queryCount }

def populateAll (cache : MemoryRegistry) (l : List (String × ServiceEntry)) : MemoryRegistry :=
  l.foldl (fun cache p ↦ populateCacheEntry cache p.1 p.2) cache

/-- `copyRoundRobinState`: cursors move to the tasks the new cache has. -/
def copyRoundRobinState (source target : MemoryRegistry) : MemoryRegistry :=
  { target with
    roundRobinIndex := fun task ↦
      match source.roundRobinIndex task with
      | some cursor =>
        if (target.services.lookup task).isSome then some cursor else target.roundRobinIndex task
      | none => target.roundRobinIndex task }

namespace StoreBackedRegistry

/-- `NewStoreBackedRegistry`. The sync period is thirty seconds, in microseconds. -/
def new (store : PostgresStore) (cacheMaxSize : Int) (now : Time) : StoreBackedRegistry where
  store := store
  memCache := MemoryRegistry.new
  lastCacheSync := now
  cacheSyncPeriod := 30000000
  cacheMaxSize := cacheMaxSize
  cacheMissCounts := fun _ ↦ none
  fallbackCursor := fun _ ↦ none
  admitAfterMiss := 1
  pendingStoreSync := fun _ ↦ none

variable (sr : StoreBackedRegistry)

def setCacheAdmissionMissThreshold (threshold : Int) : StoreBackedRegistry :=
  { sr with admitAfterMiss := if threshold ≤ 1 then 1 else threshold }

/-- `StoreBackedRegistry.SetFirewall`: the firewall lives in the current cache. -/
def setFirewall (fw : Option Firewall) : StoreBackedRegistry :=
  { sr with memCache := sr.memCache.setFirewall fw }

/-- A new registry with its threshold and firewall set. -/
def start (store : PostgresStore) (cacheMaxSize : Int) (now : Time) (threshold : Int)
    (fw : Option Firewall) : StoreBackedRegistry :=
  ((new store cacheMaxSize now).setCacheAdmissionMissThreshold threshold).setFirewall fw

/-! ## Retry marks -/

def markPendingStoreSync (task addr : String) : StoreBackedRegistry :=
  { sr with pendingStoreSync := sr.pendingStoreSync.store (counterKey task addr) () }

def clearPendingStoreSync (task addr : String) : StoreBackedRegistry :=
  { sr with pendingStoreSync := sr.pendingStoreSync.delete (counterKey task addr) }

def hasPendingStoreSync (task addr : String) : Bool :=
  (sr.pendingStoreSync (counterKey task addr)).isSome

/-! ## Registration -/

/-- Write a registration to the cache and then to the store, and remember whether the store still
has to be told. -/
def registerEntry (now₁ now₂ : Time) (task addr : String) (capacity : Int64) :
    StoreBackedRegistry :=
  let memCache := sr.memCache.registerWithCapacity now₁ task addr capacity
  let entry : ServiceEntry := { address := addr, lastHeartbeat := now₂, capacity := capacity }
  match sr.store.register task entry with
  | (store, .error _) =>
    { sr with store := store, memCache := memCache }.markPendingStoreSync task addr
  | (store, .ok ()) =>
    { sr with store := store, memCache := memCache }.clearPendingStoreSync task addr

def registerWithCapacity (now₁ now₂ : Time) (task addr : String) (capacity : Int64) :
    StoreBackedRegistry :=
  let task := Go.trimSpace task
  let addr := Go.trimSpace addr
  if task = "" ∨ addr = "" then sr
  else sr.registerEntry now₁ now₂ task addr (normalizedCapacity capacity)

def register (now₁ now₂ : Time) (task addr : String) : StoreBackedRegistry :=
  sr.registerWithCapacity now₁ now₂ task addr 1

/-! ## Lookup -/

/-- Count a miss of a task and decide whether the task is admitted. -/
def countMiss (threshold : Int) (counts : SyncMap String Int) (task : String) :
    SyncMap String Int × Bool :=
  if threshold ≤ 1 then (counts, true)
  else
    let missCount := (counts task).getD 0 + 1
    (counts.store task missCount, decide (threshold ≤ missCount))

def shouldAdmitTaskOnMiss (task : String) : StoreBackedRegistry × Bool :=
  let (counts, admitted) := countMiss sr.admitAfterMiss sr.cacheMissCounts task
  ({ sr with cacheMissCounts := counts }, admitted)

def storeCandidates (fw : Option Firewall) (requestorIP : Option IP)
    (entries : List ServiceEntry) : List ServiceEntry :=
  (entries.filter fun e ↦
    MemoryRegistry.permits storeDestinationIP fw requestorIP e.address).map
      fun e ↦ { address := e.address, lastHeartbeat := 0, capacity := e.capacity }

/-- The selection of `selectFromStoreEntries`, with the cursors it advances. -/
def selectFallback (fw : Option Firewall) (cursors : SyncMap String Int64) (task : String)
    (entries : List ServiceEntry) (requestorIP : Option IP) :
    SyncMap String Int64 × Except RegistryError String :=
  let allowed := storeCandidates fw requestorIP entries
  if allowed = [] then
    if fw.isSome ∧ requestorIP.isSome then (cursors, .error .noAllowedService)
    else (cursors, .error .notFound)
  else
    let totalWeight := totalServiceWeight allowed
    if totalWeight ≤ 0 then (cursors, .error .notFound)
    else
      let cursor := (cursors task).getD 0
      let cursors := cursors.store task (cursor + 1)
      match selectWeightedAddress allowed (cursor % totalWeight) with
      | none => (cursors, .error .notFound)
      | some addr => (cursors, .ok addr)

def selectFromStoreEntries (task : String) (entries : List ServiceEntry)
    (requestorIP : Option IP) : StoreBackedRegistry × Except RegistryError String :=
  let (cursors, result) :=
    selectFallback sr.memCache.firewall sr.fallbackCursor task entries requestorIP
  ({ sr with fallbackCursor := cursors }, result)

/-- The non-admitted miss: select among the store's entries and count the query there. -/
def serveFromStore (task : String) (entries : List ServiceEntry) (requestorIP : Option IP) :
    StoreBackedRegistry × Except RegistryError String :=
  match sr.selectFromStoreEntries task entries requestorIP with
  | (sr, .error err) => (sr, .error err)
  | (sr, .ok addr) =>
    match sr.store.incrementQueryCount task addr with
    | (store, .error err) => ({ sr with store := store }, .error err)
    | (store, .ok ()) => ({ sr with store := store }, .ok addr)

/-- The admitted miss: hydrate the whole task, then look it up again. -/
def admitTask (task : String) (entries : List ServiceEntry) (requestorIP : Option IP) :
    StoreBackedRegistry × Except RegistryError String :=
  let cache := populateAll sr.memCache (entries.map fun e ↦ (task, e))
  let (cache, result) := cache.getServiceForRequestor task requestorIP
  ({ sr with memCache := cache, cacheMissCounts := sr.cacheMissCounts.delete task }, result)

/-- What a lookup does after the cache has failed it. -/
def missService (task : String) (requestorIP : Option IP) :
    StoreBackedRegistry × Except RegistryError String :=
  match sr.store.listTaskServices task with
  | (store, .error err) => ({ sr with store := store }, .error err)
  | (store, .ok entries) =>
    let sr := { sr with store := store }
    if entries = [] then (sr, .error .notFound)
    else
      let (sr, admitted) := sr.shouldAdmitTaskOnMiss task
      if admitted then sr.admitTask task entries requestorIP
      else sr.serveFromStore task entries requestorIP

def getServiceForRequestor (task : String) (requestorIP : Option IP) :
    StoreBackedRegistry × Except RegistryError String :=
  let task := Go.trimSpace task
  if task = "" then (sr, .error .invalidTaskName)
  else
    match sr.memCache.getServiceForRequestor task requestorIP with
    | (cache, .ok addr) => ({ sr with memCache := cache }, .ok addr)
    | (cache, .error _) => { sr with memCache := cache }.missService task requestorIP

def getService (task : String) : StoreBackedRegistry × Except RegistryError String :=
  sr.getServiceForRequestor task none

/-! ## Warming -/

/-- One entry of the loop of `syncQueryCountsToDB`. -/
def syncQueryCount (p : String × ServiceEntry) : StoreBackedRegistry :=
  if 0 < p.2.queryCount then
    match sr.store.register p.1 p.2 with
    | (store, .error _) => { sr with store := store }
    | (store, .ok ()) =>
      let sr := { sr with store := store }
      if sr.hasPendingStoreSync p.1 p.2.address then sr.clearPendingStoreSync p.1 p.2.address
      else sr
  else sr

def syncQueryCountsToDB (ord : TaskOrder) : StoreBackedRegistry :=
  (pairs ord sr.memCache.listServices).foldl syncQueryCount sr

/-- One entry of the loop of `syncPendingRegistrations`. -/
def syncPending (p : String × ServiceEntry) : StoreBackedRegistry :=
  if sr.hasPendingStoreSync p.1 p.2.address then
    match sr.store.register p.1 p.2 with
    | (store, .error _) => { sr with store := store }
    | (store, .ok ()) => { sr with store := store }.clearPendingStoreSync p.1 p.2.address
  else sr

def syncPendingRegistrations (ord : TaskOrder) : StoreBackedRegistry :=
  (pairs ord sr.memCache.listServices).foldl syncPending sr

def preservePendingEntries (ord : TaskOrder) (source target : MemoryRegistry) : MemoryRegistry :=
  populateAll target
    ((pairs ord source.listServices).filter fun p ↦ sr.hasPendingStoreSync p.1 p.2.address)

/-- The part of `WarmCacheFromDB` that reads the store into a new cache. -/
def loadCache (ord : TaskOrder) (newCache : MemoryRegistry) :
    StoreBackedRegistry × Except RegistryError MemoryRegistry :=
  if sr.cacheMaxSize ≤ 0 then
    match sr.store.listServices with
    | (store, .error err) => ({ sr with store := store }, .error err)
    | (store, .ok services) =>
      ({ sr with store := store }, .ok (populateAll newCache (pairs ord services)))
  else
    match sr.store.listTopTasksByQueryCount sr.cacheMaxSize with
    | (store, .error err) => ({ sr with store := store }, .error err)
    | (store, .ok topTasks) =>
      match store.listServicesForTasks topTasks with
      | (store, .error err) => ({ sr with store := store }, .error err)
      | (store, .ok servicesByTask) =>
        ({ sr with store := store }, .ok (populateAll newCache
          (topTasks.flatMap fun task ↦ (servicesByTask.slice task).map fun e ↦ (task, e))))

/-- `WarmCacheFromDB`. The cache is replaced only when every read succeeded. -/
def warmCacheFromDB (now : Time) (ord : WarmOrders) :
    StoreBackedRegistry × Except RegistryError Unit :=
  let sr := sr.syncQueryCountsToDB ord.sync
  let oldCache := sr.memCache
  let sr := sr.syncPendingRegistrations ord.pending
  match sr.loadCache ord.load (MemoryRegistry.new.setFirewall oldCache.firewall) with
  | (sr, .error err) => (sr, .error err)
  | (sr, .ok newCache) =>
    let newCache := sr.preservePendingEntries ord.preserve oldCache newCache
    let newCache := copyRoundRobinState oldCache newCache
    ({ sr with memCache := newCache, lastCacheSync := now }, .ok ())

/-! ## Cleanup and listing -/

def cleanup (now₁ now₂ timeout : Time) : StoreBackedRegistry × ℕ :=
  let (cache, cacheRemoved) := sr.memCache.cleanup now₁ timeout
  match sr.store.cleanup now₂ timeout with
  | (store, .error _) => ({ sr with memCache := cache, store := store }, cacheRemoved)
  | (store, .ok dbFlagged) =>
    ({ sr with memCache := cache, store := store }, cacheRemoved + dbFlagged)

/-- `StoreBackedRegistry.ListServices`: warm first when the last sync is old. -/
def listServices (now₁ now₂ : Time) (ord : WarmOrders) :
    StoreBackedRegistry × AList fun _ : String ↦ List ServiceEntry :=
  let sr :=
    if sr.cacheSyncPeriod < now₁ - sr.lastCacheSync then (sr.warmCacheFromDB now₂ ord).1 else sr
  (sr, sr.memCache.listServices)

/-! ## Operations of a run -/

/-- One call on the registry, with the clock readings and iteration orders it meets. -/
inductive Op
  | register (now₁ now₂ : Time) (task addr : String)
  | registerWithCapacity (now₁ now₂ : Time) (task addr : String) (capacity : Int64)
  | getServiceForRequestor (task : String) (requestorIP : Option IP)
  | warmCacheFromDB (now : Time) (ord : WarmOrders)
  | listServices (now₁ now₂ : Time) (ord : WarmOrders)
  | cleanup (now₁ now₂ timeout : Time)

def Op.isCleanup : Op → Bool
  | .cleanup .. => true
  | _ => false

def step : Op → StoreBackedRegistry
  | .register now₁ now₂ task addr => sr.register now₁ now₂ task addr
  | .registerWithCapacity now₁ now₂ task addr capacity =>
    sr.registerWithCapacity now₁ now₂ task addr capacity
  | .getServiceForRequestor task requestorIP => (sr.getServiceForRequestor task requestorIP).1
  | .warmCacheFromDB now ord => (sr.warmCacheFromDB now ord).1
  | .listServices now₁ now₂ ord => (sr.listServices now₁ now₂ ord).1
  | .cleanup now₁ now₂ timeout => (sr.cleanup now₁ now₂ timeout).1

end StoreBackedRegistry

end TaskDiscovery
