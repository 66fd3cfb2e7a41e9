import TaskDiscovery.Registry.Fallback

/-!
# How a lookup ends

A lookup of the store-backed registry should end in one of three ways. With the addresses that are
cached or active in the store for the task, it should return one that the requestor is allowed to
reach, or say that none is allowed, or say that there is none.

What it does is put together from a first attempt on the cache, the listing of the store, the
decision on admission, and one of two selections. Each path is given by an equation of its own, for
a store whose calls may fail (`missService_of_outage`, `missService_of_listed`,
`serveFromStore_missed`), and later results about lookups start from these. The paths differ in what
they have looked at when they give up:

* an empty listing is reported as "not found", also when the cache has entries and refused them all;
* a sum of capacities that has wrapped around is reported as "not found";
* the selection from the store's entries knows neither the entries that only the cache has nor how
  to read an address that is not plain.

`classified_iff` says that there is nothing else.
-/

namespace TaskDiscovery

open Go (IP)

namespace StoreBackedRegistry

variable {sr : StoreBackedRegistry} {task : String} {requestorIP : Option IP}

/-! ## The paths of a lookup -/

/-- The registry once the store has answered a listing. -/
def listed (sr : StoreBackedRegistry) : StoreBackedRegistry :=
  { sr with store := { sr.store with calls := sr.store.calls + 1 } }

/-- The cache cannot answer if it offers no weight, and then the store is asked. -/
theorem getServiceForRequestor_of_not_pos (ht : Go.trimSpace task ≠ "")
    (hmiss : ¬0 < totalServiceWeight (sr.memCache.offered (Go.trimSpace task) requestorIP)) :
    sr.getServiceForRequestor task requestorIP
      = sr.missService (Go.trimSpace task) requestorIP := by
  have ht' : Go.trimSpace (Go.trimSpace task) ≠ "" := by rwa [Go.trimSpace_idem]
  have houtcome := sr.memCache.getServiceForRequestor_outcome ht' requestorIP
  rw [Go.trimSpace_idem] at houtcome
  rw [getServiceForRequestor, if_neg ht]
  generalize sr.memCache.getServiceForRequestor (Go.trimSpace task) requestorIP = result
    at houtcome ⊢
  rcases houtcome with ⟨cache, addr, hpos, -⟩ | hnil | ⟨hne, hnil⟩ | ⟨hne, hweight⟩
  · exact absurd hpos hmiss
  · rfl
  · rfl
  · rfl

theorem missService_of_outage {o : Outage} (hout : sr.store.outage sr.store.calls = some o) :
    sr.missService task requestorIP
      = ({ sr with store := (sr.store.listTaskServices task).1 }, .error (.store o.text)) := by
  simp only [missService, PostgresStore.listTaskServices, PostgresStore.exec, hout]

/-- A listing that succeeds leads to the admission or to a selection from the listed entries. -/
theorem missService_of_listed (hout : sr.store.outage sr.store.calls = none) :
    sr.missService task requestorIP
      = if sr.storeEntries task = [] then (sr.listed, .error .notFound)
        else if sr.admits task then
          (sr.missed task).admitTask task (sr.storeEntries task) requestorIP
        else (sr.missed task).serveFromStore task (sr.storeEntries task) requestorIP := by
  simp only [missService, PostgresStore.listTaskServices, PostgresStore.exec, hout,
    shouldAdmitTaskOnMiss]
  rfl

theorem admitTask_missed (sr : StoreBackedRegistry) (task : String) (requestorIP : Option IP) :
    ((sr.missed task).admitTask task (sr.storeEntries task) requestorIP).2
        = ((sr.hydrated task).getServiceForRequestor task requestorIP).2
      ∧ ((sr.missed task).admitTask task (sr.storeEntries task) requestorIP).1.memCache
        = ((sr.hydrated task).getServiceForRequestor task requestorIP).1 := by
  simp only [admitTask, hydrated, storeEntries, missed, and_self]

theorem incrementQueryCount_of_active {ps : PostgresStore} {addr : String}
    (hact : ps.table.Active task addr) :
    (ps.incrementQueryCount task addr).2
      = match ps.outage ps.calls with
        | none => .ok ()
        | some o => .error (.store o.text) := by
  obtain ⟨row, hlook, hrow⟩ := hact
  have hone : (ps.table.incrementQueryCount task addr).2 = 1 := by
    simp [Table.incrementQueryCount, hlook, hrow]
  simp only [PostgresStore.incrementQueryCount, PostgresStore.exec]
  rcases ps.outage ps.calls with _ | o
  · simp only [hone]
  · rfl

/-- What is selected from the store's entries is returned if the query can be counted. -/
theorem serveFromStore_result (sr : StoreBackedRegistry) (task : String)
    (entries : List ServiceEntry) (requestorIP : Option IP) :
    (sr.serveFromStore task entries requestorIP).2
      = match (selectFallback sr.memCache.firewall sr.fallbackCursor task entries
            requestorIP).2 with
        | .error err => .error err
        | .ok addr =>
          match (sr.store.incrementQueryCount task addr).2 with
          | .error err => .error err
          | .ok () => .ok addr := by
  rw [serveFromStore, selectFromStoreEntries]
  rcases selectFallback sr.memCache.firewall sr.fallbackCursor task entries requestorIP with
    ⟨cursors, err | addr⟩
  · rfl
  · dsimp only
    rcases sr.store.incrementQueryCount task addr with ⟨store, err | ⟨⟩⟩
    · rfl
    · rfl

theorem serveFromStore_missed (sr : StoreBackedRegistry) (task : String)
    (requestorIP : Option IP) :
    ((sr.missed task).serveFromStore task (sr.storeEntries task) requestorIP).2
      = match (selectFallback sr.memCache.firewall sr.fallbackCursor task (sr.storeEntries task)
          requestorIP).2 with
        | .error err => .error err
        | .ok addr =>
          match sr.store.outage (sr.store.calls + 1) with
          | none => .ok addr
          | some o => .error (.store o.text) := by
  rw [serveFromStore_result]
  change (match (selectFallback sr.memCache.firewall sr.fallbackCursor task (sr.storeEntries task)
    requestorIP).2 with | .error err => _ | .ok addr => _) = _
  rcases hselect : selectFallback sr.memCache.firewall sr.fallbackCursor task
    (sr.storeEntries task) requestorIP with ⟨cursors, err | addr⟩
  · rfl
  · -- the row has just been listed, so only the call itself can fail
    obtain ⟨e, he, rfl, -⟩ := selectFallback_ok hselect
    have hact : (sr.missed task).store.table.Active task e.address :=
      Table.mem_map_listTaskServices.mp (List.mem_map_of_mem he)
    have hcount : ((sr.missed task).store.incrementQueryCount task e.address).2
        = match sr.store.outage (sr.store.calls + 1) with
          | none => .ok ()
          | some o => .error (.store o.text) := incrementQueryCount_of_active hact
    dsimp only
    rw [hcount]
    rcases sr.store.outage (sr.store.calls + 1) with _ | o
    · rfl
    · rfl

theorem serveFromStore_missed_of_none (hout : sr.store.outage (sr.store.calls + 1) = none) :
    ((sr.missed task).serveFromStore task (sr.storeEntries task) requestorIP).2
      = (selectFallback sr.memCache.firewall sr.fallbackCursor task (sr.storeEntries task)
          requestorIP).2 := by
  rw [serveFromStore_missed, hout]
  rcases (selectFallback sr.memCache.firewall sr.fallbackCursor task (sr.storeEntries task)
    requestorIP).2 with err | addr
  · rfl
  · rfl

/-- The ways in which the selection from the store's entries ends. -/
inductive FallbackOutcome (fw : Option Firewall) (entries : List ServiceEntry)
    (requestorIP : Option IP) : Except RegistryError String → Prop
  /-- An entry was selected. -/
  | answered (e : ServiceEntry) (he : e ∈ entries)
      (hpermit : MemoryRegistry.permits storeDestinationIP fw requestorIP e.address = true)
      (hpos : 0 < totalServiceWeight (storeCandidates fw requestorIP entries)) :
      FallbackOutcome fw entries requestorIP (.ok e.address)
  /-- The firewall refuses all entries. -/
  | refused (hnil : storeCandidates fw requestorIP entries = []) :
      FallbackOutcome fw entries requestorIP (.error .noAllowedService)
  /-- The weight of the entries has wrapped around. -/
  | weightless (hne : storeCandidates fw requestorIP entries ≠ [])
      (hweight : ¬0 < totalServiceWeight (storeCandidates fw requestorIP entries)) :
      FallbackOutcome fw entries requestorIP (.error .notFound)

theorem storeCandidates_ne_nil {fw : Option Firewall} {entries : List ServiceEntry}
    (hopen : ¬(fw.isSome ∧ requestorIP.isSome)) (hne : entries ≠ []) :
    storeCandidates fw requestorIP entries ≠ [] := by
  have hall : ∀ addr, MemoryRegistry.permits storeDestinationIP fw requestorIP addr = true := by
    intro addr
    rcases fw with _ | fw
    · rfl
    rcases requestorIP with _ | src
    · rfl
    · exact absurd ⟨rfl, rfl⟩ hopen
  simp [storeCandidates, hall, hne]

theorem selectFallback_outcome (fw : Option Firewall) (cursors : SyncMap String Int64)
    (task : String) {entries : List ServiceEntry} (requestorIP : Option IP) (hne : entries ≠ []) :
    FallbackOutcome fw entries requestorIP
      (selectFallback fw cursors task entries requestorIP).2 := by
  rcases selectFallback_cases fw cursors task entries requestorIP with
    ⟨hpos, cursors', addr, hselect⟩ | ⟨hweight, -⟩
  · obtain ⟨e, he, rfl, hpermit⟩ := selectFallback_ok hselect
    rw [hselect]
    exact .answered e he hpermit hpos
  · simp only [selectFallback]
    by_cases hnil : storeCandidates fw requestorIP entries = []
    · have hclosed : fw.isSome ∧ requestorIP.isSome := by
        by_contra hopen
        exact storeCandidates_ne_nil hopen hne hnil
      rw [if_pos hnil, if_pos hclosed]
      exact .refused hnil
    · rw [if_neg hnil, if_pos (Int64.not_lt.mp hweight)]
      exact .weightless hnil hweight

/-! ## Classification -/

/-- The address is cached for the task, or active in the store. -/
def Known (sr : StoreBackedRegistry) (task addr : String) : Prop :=
  sr.memCache.Holds task addr ∨ sr.store.table.Active task addr

/-- The firewall lets the requestor reach the address. -/
def Allows (sr : StoreBackedRegistry) (requestorIP : Option IP) (addr : String) : Prop :=
  MemoryRegistry.permits destinationIPFromAddress sr.memCache.firewall requestorIP addr = true

/-- The result says what there is: an allowed address, or that none is allowed, or that there is
none. -/
structure Classified (sr : StoreBackedRegistry) (task : String) (requestorIP : Option IP)
    (result : Except RegistryError String) : Prop where
  address_iff : (∃ addr, result = .ok addr)
    ↔ ∃ addr, sr.Known task addr ∧ sr.Allows requestorIP addr
  address_mem : ∀ addr, result = .ok addr → sr.Known task addr ∧ sr.Allows requestorIP addr
  refused_iff : result = .error .noAllowedService
    ↔ (∃ addr, sr.Known task addr) ∧ ∀ addr, sr.Known task addr → ¬sr.Allows requestorIP addr
  absent_iff : result = .error .notFound ↔ ∀ addr, ¬sr.Known task addr

theorem classified_ok {addr : String} (hknown : sr.Known task addr)
    (hallow : sr.Allows requestorIP addr) : sr.Classified task requestorIP (.ok addr) where
  address_iff := ⟨fun _ ↦ ⟨addr, hknown, hallow⟩, fun _ ↦ ⟨addr, rfl⟩⟩
  address_mem := by
    intro addr' heq
    rw [← Except.ok.inj heq]
    exact ⟨hknown, hallow⟩
  refused_iff := by
    simp only [reduceCtorEq, false_iff, not_and]
    exact fun _ hnone ↦ hnone addr hknown hallow
  absent_iff := by
    simp only [reduceCtorEq, false_iff]
    exact fun hnone ↦ hnone addr hknown

theorem classified_noAllowed_iff (hknown : ∃ addr, sr.Known task addr) :
    sr.Classified task requestorIP (.error .noAllowedService)
      ↔ ∀ addr, sr.Known task addr → ¬sr.Allows requestorIP addr := by
  refine ⟨fun h ↦ (h.refused_iff.mp rfl).2, fun hnone ↦ ⟨?_, ?_, ?_, ?_⟩⟩
  · simp only [reduceCtorEq, exists_false, false_iff, not_exists, not_and]
    exact hnone
  · intro addr heq
    simp at heq
  · exact ⟨fun _ ↦ ⟨hknown, hnone⟩, fun _ ↦ rfl⟩
  · simpa using hknown

theorem classified_notFound_iff :
    sr.Classified task requestorIP (.error .notFound) ↔ ∀ addr, ¬sr.Known task addr := by
  refine ⟨fun h ↦ h.absent_iff.mp rfl, fun hnone ↦ ⟨?_, ?_, ?_, ?_⟩⟩
  · simp [hnone]
  · intro addr heq
    simp at heq
  · simp [hnone]
  · simpa using hnone

theorem exists_known_iff :
    (∃ addr, sr.Known task addr)
      ↔ sr.memCache.services.slice task ≠ [] ∨ sr.storeEntries task ≠ [] := by
  have hactive : (∃ addr, sr.store.table.Active task addr) ↔ sr.storeEntries task ≠ [] := by
    rw [storeEntries]
    constructor
    · rintro ⟨addr, hact⟩
      obtain ⟨e, he, -⟩ := List.mem_map.mp
        (Table.mem_map_listTaskServices (c := sr.store.collation) |>.mpr hact)
      exact List.ne_nil_of_mem he
    · intro hne
      obtain ⟨e, he⟩ := List.exists_mem_of_ne_nil _ hne
      exact ⟨e.address, Table.mem_map_listTaskServices.mp (List.mem_map_of_mem he)⟩
  have hheld : (∃ addr, sr.memCache.Holds task addr) ↔ sr.memCache.services.slice task ≠ [] := by
    constructor
    · rintro ⟨addr, h⟩
      exact h.hasTask
    · exact MemoryRegistry.HasTask.exists_holds
  simp only [Known, exists_or]
  rw [hheld, hactive]

theorem mem_offered_iff {cache : MemoryRegistry} (hfw : cache.firewall = sr.memCache.firewall)
    {addr : String} :
    (∃ e ∈ cache.offered task requestorIP, e.address = addr)
      ↔ cache.Holds task addr ∧ sr.Allows requestorIP addr := by
  rw [MemoryRegistry.offered, MemoryRegistry.allowedEntries, hfw, Allows, MemoryRegistry.Holds]
  constructor
  · rintro ⟨e, he, rfl⟩
    obtain ⟨hmem, hpermit⟩ := List.mem_filter.mp he
    exact ⟨List.mem_map_of_mem hmem, hpermit⟩
  · rintro ⟨hheld, hpermit⟩
    obtain ⟨e, he, rfl⟩ := List.mem_map.mp hheld
    exact ⟨e, List.mem_filter.mpr ⟨he, hpermit⟩, rfl⟩

theorem holds_hydrated_iff {addr : String} :
    (sr.hydrated task).Holds task addr ↔ sr.Known task addr := by
  rw [hydrated, holds_hydrated, Known, or_comm]
  simp

/-- What a lookup has looked at is enough to classify its result: the cache offers a weight; or
nothing is known; or the task is admitted and the hydrated cache offers a weight or nothing; or it
is not admitted and the store's entries offer a weight, or nothing and nothing known is allowed. -/
def Conclusive (sr : StoreBackedRegistry) (task : String) (requestorIP : Option IP) : Prop :=
  0 < totalServiceWeight (sr.memCache.offered task requestorIP)
    ∨ (sr.storeEntries task = [] ∧ sr.memCache.services.slice task = [])
    ∨ (sr.storeEntries task ≠ [] ∧ sr.admits task = true
      ∧ (0 < totalServiceWeight ((sr.hydrated task).offered task requestorIP)
        ∨ (sr.hydrated task).offered task requestorIP = []))
    ∨ (sr.storeEntries task ≠ [] ∧ sr.admits task = false
      ∧ (0 < totalServiceWeight
          (storeCandidates sr.memCache.firewall requestorIP (sr.storeEntries task))
        ∨ (storeCandidates sr.memCache.firewall requestorIP (sr.storeEntries task) = []
          ∧ ∀ addr, sr.Known task addr → ¬sr.Allows requestorIP addr)))

section Paths

variable (hmiss : ¬0 < totalServiceWeight (sr.memCache.offered task requestorIP))
include hmiss

theorem classified_unlisted_iff (hnil : sr.storeEntries task = []) :
    sr.Classified task requestorIP (.error .notFound) ↔ sr.Conclusive task requestorIP := by
  have hknown : (∀ addr, ¬sr.Known task addr) ↔ sr.memCache.services.slice task = [] := by
    rw [← not_exists, exists_known_iff, hnil]
    simp
  rw [classified_notFound_iff, hknown, Conclusive]
  simp [hmiss, hnil]

theorem classified_admitted_iff (ht : Go.Trimmed task) (hne : sr.storeEntries task ≠ [])
    (hadmitted : sr.admits task = true) :
    sr.Classified task requestorIP ((sr.hydrated task).getServiceForRequestor task requestorIP).2
      ↔ sr.Conclusive task requestorIP := by
  have hknown := exists_known_iff.mpr (Or.inr hne)
  have hfw : (sr.hydrated task).firewall = sr.memCache.firewall := populateAll_firewall _ _
  have hcond : sr.Conclusive task requestorIP
      ↔ (0 < totalServiceWeight ((sr.hydrated task).offered task requestorIP)
        ∨ (sr.hydrated task).offered task requestorIP = []) := by
    simp [Conclusive, hmiss, hne, hadmitted]
  have houtcome := (sr.hydrated task).getServiceForRequestor_outcome
    (ht.trimSpace_eq.symm ▸ ht.ne_empty) requestorIP
  rw [ht.trimSpace_eq] at houtcome
  rw [hcond]
  generalize (sr.hydrated task).getServiceForRequestor task requestorIP = result at houtcome ⊢
  rcases houtcome with ⟨cache, addr, hpos, hmem⟩ | hnil | ⟨hne', hnil⟩ | ⟨hne', hweight⟩
  · obtain ⟨hheld, hallow⟩ := (mem_offered_iff hfw).mp hmem
    exact ⟨fun _ ↦ Or.inl hpos, fun _ ↦ classified_ok (holds_hydrated_iff.mp hheld) hallow⟩
  · -- the listed entries have been filled in
    obtain ⟨addr, hk⟩ := hknown
    exact absurd hnil (holds_hydrated_iff.mpr hk).hasTask
  · rw [classified_noAllowed_iff hknown]
    refine ⟨fun _ ↦ Or.inr hnil, fun _ addr hk hallow ↦ ?_⟩
    obtain ⟨e, he, -⟩ := (mem_offered_iff hfw).mpr ⟨holds_hydrated_iff.mpr hk, hallow⟩
    rw [hnil] at he
    exact absurd he List.not_mem_nil
  · rw [classified_notFound_iff, ← not_exists]
    simp [hknown, hweight, hne']

theorem classified_fallback_iff (hne : sr.storeEntries task ≠ [])
    (hadmitted : sr.admits task = false) :
    sr.Classified task requestorIP
        (selectFallback sr.memCache.firewall sr.fallbackCursor task (sr.storeEntries task)
          requestorIP).2
      ↔ sr.Conclusive task requestorIP := by
  have hknown := exists_known_iff.mpr (Or.inr hne)
  have hcond : sr.Conclusive task requestorIP
      ↔ (0 < totalServiceWeight
          (storeCandidates sr.memCache.firewall requestorIP (sr.storeEntries task))
        ∨ (storeCandidates sr.memCache.firewall requestorIP (sr.storeEntries task) = []
          ∧ ∀ addr, sr.Known task addr → ¬sr.Allows requestorIP addr)) := by
    simp [Conclusive, hmiss, hne, hadmitted]
  have houtcome := selectFallback_outcome sr.memCache.firewall sr.fallbackCursor task requestorIP
    hne
  rw [hcond]
  generalize (selectFallback sr.memCache.firewall sr.fallbackCursor task (sr.storeEntries task)
    requestorIP).2 = result at houtcome ⊢
  rcases houtcome with ⟨e, he, hpermit, hpos⟩ | hnil | ⟨hne', hweight⟩
  · have hk : sr.Known task e.address :=
      Or.inr (Table.mem_map_listTaskServices.mp (List.mem_map_of_mem he))
    exact ⟨fun _ ↦ Or.inl hpos,
      fun _ ↦ classified_ok hk (MemoryRegistry.permits_of_storePermits hpermit)⟩
  · have hweight : ¬0 < totalServiceWeight [] := by decide
    rw [classified_noAllowed_iff hknown, hnil]
    simp [hweight]
  · rw [classified_notFound_iff, ← not_exists]
    simp [hknown, hweight, hne']

end Paths

/-- **When a lookup is classified rightly.** In every state in which the two store calls that a
lookup can make succeed, an address is returned exactly when some known one is allowed,
`ErrNoAllowedService` exactly when some are known and none is allowed, and `ErrNotFound` exactly
when none is known, if and only if the lookup is conclusive. -/
theorem classified_iff (hlist : sr.store.outage sr.store.calls = none)
    (hcount : sr.store.outage (sr.store.calls + 1) = none) (ht : Go.trimSpace task ≠ "")
    (requestorIP : Option IP) :
    sr.Classified (Go.trimSpace task) requestorIP
        (sr.getServiceForRequestor task requestorIP).2
      ↔ sr.Conclusive (Go.trimSpace task) requestorIP := by
  have htrim := Go.trimmed_trimSpace ht
  by_cases hhit : 0 < totalServiceWeight (sr.memCache.offered (Go.trimSpace task) requestorIP)
  · obtain ⟨cache, addr, hget⟩ := MemoryRegistry.getServiceForRequestor_of_pos htrim hhit
    have hmem := (MemoryRegistry.getServiceForRequestor_ok hget).1
    rw [htrim.trimSpace_eq] at hmem
    obtain ⟨hheld, hallow⟩ := (mem_offered_iff rfl).mp hmem
    rw [getServiceForRequestor_of_hit ht hget]
    exact ⟨fun _ ↦ Or.inl hhit, fun _ ↦ classified_ok (Or.inl hheld) hallow⟩
  · rw [getServiceForRequestor_of_not_pos ht hhit, missService_of_listed hlist]
    by_cases hnil : sr.storeEntries (Go.trimSpace task) = []
    · rw [if_pos hnil]
      exact classified_unlisted_iff hhit hnil
    · rw [if_neg hnil]
      by_cases hadmitted : sr.admits (Go.trimSpace task) = true
      · rw [if_pos hadmitted, (sr.admitTask_missed _ requestorIP).1]
        exact classified_admitted_iff hhit htrim hnil hadmitted
      · rw [if_neg hadmitted, serveFromStore_missed_of_none hcount]
        exact classified_fallback_iff hhit hnil (by simpa using hadmitted)

/-- An instance in the store that the firewall lets the client reach. -/
theorem restarted_classified :
    (restarted 1 "10.0.0.1:80").Classified (Go.trimSpace "scan") (some [10, 9, 0, 1])
      ((restarted 1 "10.0.0.1:80").getServiceForRequestor "scan" (some [10, 9, 0, 1])).2 := by
  refine (classified_iff rfl rfl (by decide +kernel) _).mpr (Or.inr (Or.inr (Or.inl ⟨?_, ?_, ?_⟩)))
  · decide +kernel
  · decide +kernel
  · exact Or.inl (by decide +kernel)

/-- A registry whose store failed to take the only registration. The firewall lets the client reach
another address only. -/
def pendingOnly : StoreBackedRegistry :=
  (start ⟨∅, .codePoint, fun n ↦ if n = 0 then some ⟨"connection refused", false⟩ else none, 0⟩
    0 0 1 (some ⟨[{ sourceIP := [10, 9, 0, 1], destIP := Go.v4InV6Prefix ++ [10, 0, 0, 1] }]⟩))
      |>.registerWithCapacity 0 0 "scan" "10.0.0.2:80" 1

/-- The store works again, the instance is cached and refused, and it is reported as not there. -/
theorem pendingOnly_unclassified :
    pendingOnly.store.outage pendingOnly.store.calls = none
      ∧ pendingOnly.store.outage (pendingOnly.store.calls + 1) = none
      ∧ pendingOnly.Known "scan" "10.0.0.2:80"
      ∧ (pendingOnly.getServiceForRequestor "scan" (some [10, 9, 0, 1])).2 = .error .notFound
      ∧ ¬pendingOnly.Classified "scan" (some [10, 9, 0, 1])
        (pendingOnly.getServiceForRequestor "scan" (some [10, 9, 0, 1])).2 := by
  have hknown : pendingOnly.Known "scan" "10.0.0.2:80" := Or.inl (by decide +kernel)
  have hresult : (pendingOnly.getServiceForRequestor "scan" (some [10, 9, 0, 1])).2
      = .error .notFound := by decide +kernel
  refine ⟨by decide +kernel, by decide +kernel, hknown, hresult, fun h ↦ ?_⟩
  exact h.absent_iff.mp hresult _ hknown

end StoreBackedRegistry

end TaskDiscovery
