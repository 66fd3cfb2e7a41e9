import TaskDiscovery.Registry.Effects

/-!
# Who may be served, from the cache and from the store

A lookup that misses the cache is answered in one of two ways. A task that is admitted is filled
into the cache and looked up there. A task that is not admitted is selected among the rows of the
store. Both ask the firewall about the destination an address denotes, but they read the address
with different code: only the cache understands URLs, and only the cache trims.

The fallback therefore passes over every instance whose address is not literally `ip`, `ip:port` or
`[ip]:port` (`PlainAddress`). The two ways offer the same addresses exactly when every instance the
firewall allows is written like that, and then a query is answered in the one way exactly when it is
answered in the other (`choices_agree_iff`).
-/

namespace TaskDiscovery

open Go (IP)

/-! ## Plain addresses -/

/-- An address as the fallback reads it: an IP with a port, bracketed or not, or else an IP
alone. -/
def PlainAddress (address : List Char) : Prop :=
  (∃ host port ip, Go.parseIP host = some ip ∧ (':' ∉ port ∧ '[' ∉ port ∧ ']' ∉ port)
      ∧ (':' ∉ host ∧ address = host ++ ':' :: port ∨ address = '[' :: host ++ ']' :: ':' :: port))
    ∨ Go.splitHostPort address = none ∧ ∃ ip, Go.parseIP address = some ip

private theorem splitHostPort_of_parseIP {address host port : List Char} {ip : IP}
    (hip : Go.parseIP host = some ip) (hport : ':' ∉ port ∧ '[' ∉ port ∧ ']' ∉ port)
    (hform : ':' ∉ host ∧ address = host ++ ':' :: port
      ∨ address = '[' :: host ++ ']' :: ':' :: port) :
    Go.splitHostPort address = some (host, port) := by
  have hbracket : '[' ∉ host ∧ ']' ∉ host :=
    ⟨fun hmem ↦ absurd (Go.parseIP_chars hip _ hmem) (by decide),
      fun hmem ↦ absurd (Go.parseIP_chars hip _ hmem) (by decide)⟩
  rcases hform with ⟨hcolon, rfl⟩ | rfl
  · exact Go.splitHostPort_plain hcolon hbracket hport
  · exact Go.splitHostPort_bracketed hbracket hport

/-- The fallback finds a destination in the plain addresses, and in no others. -/
theorem storeDestinationIP_ne_none_iff {address : String} :
    storeDestinationIP address ≠ none ↔ PlainAddress address.toList := by
  rw [storeDestinationIP, Option.ne_none_iff_exists', PlainAddress]
  constructor
  · rintro ⟨ip, hip⟩
    rcases hsplit : Go.splitHostPort address.toList with _ | ⟨host, port⟩
    · rw [hsplit] at hip
      exact Or.inr ⟨rfl, ip, hip⟩
    · rw [hsplit] at hip
      obtain ⟨-, hport, hform⟩ := Go.splitHostPort_eq_some hsplit
      exact Or.inl ⟨host, port, ip, hip, hport, hform⟩
  · rintro (⟨host, port, ip, hip, hport, hform⟩ | ⟨hsplit, ip, hip⟩)
    · exact ⟨ip, by rw [splitHostPort_of_parseIP hip hport hform]; exact hip⟩
    · exact ⟨ip, by rw [hsplit]; exact hip⟩

/-! ## The entries of a hydrated task -/

/-- A listed entry as the cache holds it. -/
def ServiceEntry.cached (e : ServiceEntry) : ServiceEntry :=
  { address := e.address, lastHeartbeat := e.lastHeartbeat,
    capacity := normalizedCapacity e.capacity }

theorem slice_populateAll_of_nodup {cache : MemoryRegistry} {task : String}
    {entries : List ServiceEntry} (hnodup : (entries.map ServiceEntry.address).Nodup)
    (hnew : ∀ e ∈ entries, ¬cache.Holds task e.address) :
    (populateAll cache (entries.map fun e ↦ (task, e))).services.slice task
      = cache.services.slice task ++ entries.map ServiceEntry.cached := by
  induction entries generalizing cache with
  | nil => simp
  | cons e entries ih =>
    rw [List.map_cons, List.nodup_cons] at hnodup
    have hslice : (populateCacheEntry cache task e).services.slice task
        = cache.services.slice task ++ [e.cached] := by
      change (cache.putEntry task e.address _ _).services.slice task = _
      rw [MemoryRegistry.slice_putEntry, if_pos rfl,
        List.upsert_of_notMem (hnew e List.mem_cons_self)]
      rfl
    rw [List.map_cons, populateAll_cons, ih hnodup.2, hslice, List.append_assoc, List.map_cons]
    · rfl
    · intro e' he' hheld
      rcases holds_populateCacheEntry.mp hheld with ⟨-, haddr⟩ | hold
      · exact hnodup.1 (haddr ▸ List.mem_map_of_mem he')
      · exact hnew e' (List.mem_cons_of_mem _ he') hold

/-! ## The two ways -/

theorem totalServiceWeight_congr {l l' : List ServiceEntry}
    (h : l.map serviceWeight = l'.map serviceWeight) :
    totalServiceWeight l = totalServiceWeight l' := by
  have hfold (l : List ServiceEntry) :
      totalServiceWeight l = (l.map serviceWeight).foldl (· + ·) 0 := by
    rw [totalServiceWeight, List.foldl_map]
  rw [hfold, hfold, h]

namespace StoreBackedRegistry

variable {sr : StoreBackedRegistry} {task : String} {requestorIP : Option IP} {src : IP}

def storeEntries (sr : StoreBackedRegistry) (task : String) : List ServiceEntry :=
  sr.store.table.listTaskServices sr.store.collation task

/-- A miss of the task would admit it. -/
def admits (sr : StoreBackedRegistry) (task : String) : Bool :=
  (countMiss sr.admitAfterMiss sr.cacheMissCounts task).2

/-- The registry once a miss has been counted. -/
def missed (sr : StoreBackedRegistry) (task : String) : StoreBackedRegistry :=
  { sr with
    store := { sr.store with calls := sr.store.calls + 1 }
    cacheMissCounts := (countMiss sr.admitAfterMiss sr.cacheMissCounts task).1 }

theorem getServiceForRequestor_of_cold (hrel : sr.store.Reliable) (ht : Go.Trimmed task)
    (hcold : ¬sr.memCache.HasTask task) (hne : sr.storeEntries task ≠ []) {task' : String}
    (htask : Go.trimSpace task' = task) (requestorIP : Option IP) :
    sr.getServiceForRequestor task' requestorIP
      = if sr.admits task then (sr.missed task).admitTask task (sr.storeEntries task) requestorIP
        else (sr.missed task).serveFromStore task (sr.storeEntries task) requestorIP := by
  have hslice : sr.memCache.services.slice task = [] := not_not.mp hcold
  have hcache : sr.memCache.getServiceForRequestor task requestorIP
      = (sr.memCache, .error .notFound) := by
    simp only [MemoryRegistry.getServiceForRequestor, ht.trimSpace_eq, if_neg ht.ne_empty,
      MemoryRegistry.candidates, hslice, if_true]
  have hlist := PostgresStore.exec_of_reliable hrel fun t ↦
    (t, t.listTaskServices sr.store.collation task)
  have hne' : sr.store.table.listTaskServices sr.store.collation task ≠ [] := hne
  simp only [getServiceForRequestor, htask, if_neg ht.ne_empty, hcache, missService,
    PostgresStore.listTaskServices, hlist, if_neg hne', shouldAdmitTaskOnMiss]
  rfl

/-- The addresses that `selectFromStoreEntries` chooses from. -/
def fallbackAddresses (sr : StoreBackedRegistry) (task : String) (src : IP) : List String :=
  (storeCandidates sr.memCache.firewall (some src) (sr.storeEntries task)).map ServiceEntry.address

/-- The addresses that the cache chooses from once the task has been filled in. -/
def hydratedAddresses (sr : StoreBackedRegistry) (task : String) (src : IP) : List String :=
  (MemoryRegistry.allowedEntries sr.memCache.firewall (some src)
    ((sr.hydrated task).services.slice task)).map ServiceEntry.address

theorem selectFallback_cases (fw : Option Firewall) (cursors : SyncMap String Int64) (task : String)
    (entries : List ServiceEntry) (requestorIP : Option IP) :
    (0 < totalServiceWeight (storeCandidates fw requestorIP entries)
        ∧ ∃ cursors' addr, selectFallback fw cursors task entries requestorIP
          = (cursors', .ok addr))
      ∨ ¬0 < totalServiceWeight (storeCandidates fw requestorIP entries)
        ∧ ∃ err, selectFallback fw cursors task entries requestorIP = (cursors, .error err) := by
  simp only [selectFallback]
  by_cases hnil : storeCandidates fw requestorIP entries = []
  · have hempty : ¬0 < totalServiceWeight [] := by decide
    right
    rw [if_pos hnil, hnil]
    split_ifs
    · exact ⟨hempty, _, rfl⟩
    · exact ⟨hempty, _, rfl⟩
  rw [if_neg hnil]
  by_cases hweight : totalServiceWeight (storeCandidates fw requestorIP entries) ≤ 0
  · exact Or.inr ⟨Int64.not_lt.mpr hweight, _, if_pos hweight⟩
  · have hpos := Int64.not_le.mp hweight
    obtain ⟨addr, hselect⟩ := Option.ne_none_iff_exists'.mp
      (selectWeightedAddress_ne_none hpos ((cursors task).getD 0))
    exact Or.inl ⟨hpos, _, addr, by rw [if_neg hweight, hselect]⟩

theorem serveFromStore_ok_iff (hrel : sr.store.Reliable) :
    (∃ addr, (sr.serveFromStore task (sr.storeEntries task) requestorIP).2 = .ok addr)
      ↔ 0 < totalServiceWeight
        (storeCandidates sr.memCache.firewall requestorIP (sr.storeEntries task)) := by
  rw [serveFromStore, selectFromStoreEntries]
  rcases selectFallback_cases sr.memCache.firewall sr.fallbackCursor task (sr.storeEntries task)
    requestorIP with ⟨hpos, cursors, addr, hselect⟩ | ⟨hpos, err, hselect⟩
  · obtain ⟨e, he, rfl, -⟩ := selectFallback_ok hselect
    have hact : sr.store.table.Active task e.address :=
      Table.mem_map_listTaskServices.mp (List.mem_map_of_mem he)
    simp only [hselect, hpos, iff_true]
    rcases hinc : sr.store.incrementQueryCount task e.address with ⟨store, counted⟩
    obtain ⟨-, -, ⟨rfl, -⟩ | ⟨err, -, hfail⟩⟩ := PostgresStore.incrementQueryCount_cases hinc hact
    · exact ⟨e.address, rfl⟩
    · exact absurd hrel hfail
  · simp only [hselect, hpos, iff_false]
    rintro ⟨addr, hok⟩
    exact absurd hok (by simp)

theorem admitTask_ok_iff (ht : Go.Trimmed task) :
    (∃ addr, (sr.admitTask task (sr.storeEntries task) requestorIP).2 = .ok addr)
      ↔ 0 < totalServiceWeight (MemoryRegistry.allowedEntries sr.memCache.firewall requestorIP
        ((sr.hydrated task).services.slice task)) := by
  have hfw : (sr.hydrated task).firewall = sr.memCache.firewall := populateAll_firewall _ _
  have hadmits : (sr.admitTask task (sr.storeEntries task) requestorIP).2
      = ((sr.hydrated task).getServiceForRequestor task requestorIP).2 := by
    simp only [admitTask, hydrated, storeEntries]
  rw [hadmits, ← hfw]
  constructor
  · rintro ⟨addr, hok⟩
    rcases hget : (sr.hydrated task).getServiceForRequestor task requestorIP with ⟨reg', result⟩
    rw [hget] at hok
    have hpos := MemoryRegistry.weight_pos_of_ok (hget.trans (Prod.ext rfl hok))
    rwa [ht.trimSpace_eq] at hpos
  · intro hpos
    obtain ⟨reg', addr, hok⟩ := MemoryRegistry.getServiceForRequestor_of_pos ht hpos
    exact ⟨addr, by rw [hok]⟩

theorem allowedEntries_hydrated (hcold : ¬sr.memCache.HasTask task) :
    MemoryRegistry.allowedEntries sr.memCache.firewall requestorIP
        ((sr.hydrated task).services.slice task)
      = ((sr.storeEntries task).filter fun e ↦
          MemoryRegistry.permits destinationIPFromAddress sr.memCache.firewall requestorIP
            e.address).map ServiceEntry.cached := by
  have hslice : sr.memCache.services.slice task = [] := not_not.mp hcold
  rw [hydrated, slice_populateAll_of_nodup (Table.nodup_listTaskServices _ _ _), hslice,
    List.nil_append, MemoryRegistry.allowedEntries, List.filter_map]
  · rfl
  · exact fun e _ hheld ↦ hcold hheld.hasTask

/-- **Whom a miss may serve.** The fallback and the hydrated cache choose from the same addresses,
and answer the same queries, exactly when every instance that the firewall allows the requestor has
a plain address. -/
theorem choices_agree_iff (hrel : sr.store.Reliable) (ht : Go.Trimmed task)
    (hcold : ¬sr.memCache.HasTask task) (src : IP) :
    ((∀ addr, addr ∈ sr.fallbackAddresses task src ↔ addr ∈ sr.hydratedAddresses task src)
        ∧ ((∃ addr, (sr.serveFromStore task (sr.storeEntries task) (some src)).2 = .ok addr)
          ↔ ∃ addr, (sr.admitTask task (sr.storeEntries task) (some src)).2 = .ok addr))
      ↔ ∀ e ∈ sr.storeEntries task, ∀ fw d, sr.memCache.firewall = some fw →
        destinationIPFromAddress e.address = some d → fw.isAllowed src d = true →
          PlainAddress e.address.toList := by
  -- the condition, in terms of what the two readings permit
  have hcond : (∀ e ∈ sr.storeEntries task, ∀ fw d, sr.memCache.firewall = some fw →
      destinationIPFromAddress e.address = some d → fw.isAllowed src d = true →
        PlainAddress e.address.toList)
      ↔ ∀ e ∈ sr.storeEntries task,
        MemoryRegistry.permits storeDestinationIP sr.memCache.firewall (some src) e.address
          = MemoryRegistry.permits destinationIPFromAddress sr.memCache.firewall (some src)
            e.address := by
    refine forall₂_congr fun e _ ↦ ?_
    rcases sr.memCache.firewall with _ | fw
    · simp [MemoryRegistry.permits]
    · simp only [MemoryRegistry.permits, ← storeDestinationIP_ne_none_iff]
      rcases hstore : storeDestinationIP e.address with _ | d
      · rcases destinationIPFromAddress e.address with _ | d
        · simp
        · simp
      · simp [destinationIPFromAddress_of_store hstore]
  rw [hcond, serveFromStore_ok_iff hrel, admitTask_ok_iff ht, hydratedAddresses,
    allowedEntries_hydrated hcold, fallbackAddresses, storeCandidates]
  constructor
  · rintro ⟨hsame, -⟩ e he
    refine Bool.eq_iff_iff.mpr ⟨fun h ↦ MemoryRegistry.permits_of_storePermits h, fun hpermit ↦ ?_⟩
    have hmem : e.address ∈ (((sr.storeEntries task).filter fun e ↦
        MemoryRegistry.permits destinationIPFromAddress sr.memCache.firewall (some src)
          e.address).map ServiceEntry.cached).map ServiceEntry.address :=
      List.mem_map.mpr ⟨e.cached, List.mem_map_of_mem (List.mem_filter.mpr ⟨he, hpermit⟩), rfl⟩
    obtain ⟨_, hmem', haddr⟩ := List.mem_map.mp ((hsame e.address).mpr hmem)
    obtain ⟨e', he', rfl⟩ := List.mem_map.mp hmem'
    rw [← haddr]
    exact (List.mem_filter.mp he').2
  · intro hsame
    rw [List.filter_congr hsame]
    generalize (sr.storeEntries task).filter _ = allowed
    have hweights : (allowed.map fun e ↦
        (⟨e.address, 0, 0, e.capacity⟩ : ServiceEntry)).map serviceWeight
        = (allowed.map ServiceEntry.cached).map serviceWeight := by
      simp [serviceWeight, ServiceEntry.cached]
    rw [totalServiceWeight_congr hweights]
    simp [ServiceEntry.cached]

/-- A registry that has just started, with one service in its store that the firewall lets one
client reach. -/
def restarted (threshold : Int) (address : String) : StoreBackedRegistry :=
  start ⟨Table.register ∅ "scan" { address := address, lastHeartbeat := 0, capacity := 1 },
      .codePoint, fun _ ↦ none, 0⟩ 0 0 threshold
    (some ⟨[{ sourceIP := [10, 9, 0, 1], destIP := Go.v4InV6Prefix ++ [10, 0, 0, 1] }]⟩)

/-- A service that is registered as `ip:port` is offered both ways. -/
theorem restarted_plain_agrees :
    (restarted 3 "10.0.0.1:80").store.Reliable ∧ Go.Trimmed "scan"
      ∧ ¬(restarted 3 "10.0.0.1:80").memCache.HasTask "scan"
      ∧ ∀ addr, addr ∈ (restarted 3 "10.0.0.1:80").fallbackAddresses "scan" [10, 9, 0, 1]
        ↔ addr ∈ (restarted 3 "10.0.0.1:80").hydratedAddresses "scan" [10, 9, 0, 1] := by
  have hrel : (restarted 3 "10.0.0.1:80").store.Reliable := fun _ ↦ rfl
  have ht : Go.Trimmed "scan" := ⟨by decide +kernel, by decide⟩
  have hcold : ¬(restarted 3 "10.0.0.1:80").memCache.HasTask "scan" := by decide +kernel
  have hentries : (restarted 3 "10.0.0.1:80").storeEntries "scan"
      = [{ address := "10.0.0.1:80", lastHeartbeat := 0, capacity := 1 }] := by decide +kernel
  have hplain : PlainAddress "10.0.0.1:80".toList :=
    storeDestinationIP_ne_none_iff.mp (by decide +kernel)
  refine ⟨hrel, ht, hcold, ((choices_agree_iff hrel ht hcold [10, 9, 0, 1]).mpr ?_).1⟩
  intro e he fw d _ _ _
  rw [hentries, List.mem_singleton] at he
  rw [he]
  exact hplain

/-- One that is registered as a URL is refused below the threshold and served at it. -/
theorem restarted_url_refused :
    ((restarted 3 "http://10.0.0.1:80").getServiceForRequestor "scan" (some [10, 9, 0, 1])).2
        = .error .noAllowedService
      ∧ ((restarted 1 "http://10.0.0.1:80").getServiceForRequestor "scan" (some [10, 9, 0, 1])).2
        = .ok "http://10.0.0.1:80" := by
  decide +kernel

end StoreBackedRegistry

end TaskDiscovery
