import TaskDiscovery.Lib.Run
import TaskDiscovery.Registry.Effects

/-!
# The two registries side by side

`MemoryRegistry` and `StoreBackedRegistry` implement the same interface. Here both are given the
same calls: a memory registry, and a store-backed one that caches everything and admits a task on
its first miss, over a store that is empty at first and never fails. The question is whether a
client can tell them apart by the replies, or by what `ListServices` shows.

Two calls tell them apart. A plain `Register` of a pair that is there already keeps its capacity in
memory, while the store-backed registry sets it to one. And a lookup that finds nobody to serve is a
miss, on which the store-backed registry fills its cache from the rows again; the rows know nothing
of the queries counted in the cache since, so the counters start again.

Everything else agrees. Without such calls the cache and the memory registry hold the same entries
in the same order, up to the instants of their heartbeats, with the same cursors and counts
(`InStep`), and that is exactly when they cannot be told apart (`twins_alike_iff`).
-/

namespace TaskDiscovery

open Go (IP)

/-! ## Entries without their heartbeat -/

/-- An entry without the instant of its heartbeat. -/
def ServiceEntry.undated (e : ServiceEntry) : ServiceEntry := { e with lastHeartbeat := 0 }

theorem ServiceEntry.undated_address (e : ServiceEntry) : e.undated.address = e.address := rfl

/-- What a listing shows of an entry, heartbeats apart. -/
def ServiceEntry.shown (e : ServiceEntry) : String × Int64 × Int :=
  (e.address, e.capacity, e.queryCount)

namespace MemoryRegistry

theorem totalServiceWeight_undated (l : List ServiceEntry) :
    totalServiceWeight (l.map ServiceEntry.undated) = totalServiceWeight l := by
  rw [totalServiceWeight, List.foldl_map]
  rfl

theorem selectWeightedFrom_undated (running : Int64) (l : List ServiceEntry) (slot : Int64) :
    selectWeightedFrom running (l.map ServiceEntry.undated) slot
      = selectWeightedFrom running l slot := by
  induction l generalizing running with
  | nil => rfl
  | cons e l ih =>
    rw [List.map_cons, selectWeightedFrom, selectWeightedFrom, ih]
    rfl

theorem allowedEntries_undated (fw : Option Firewall) (requestorIP : Option IP)
    (l : List ServiceEntry) :
    allowedEntries fw requestorIP (l.map ServiceEntry.undated)
      = (allowedEntries fw requestorIP l).map ServiceEntry.undated := by
  rw [allowedEntries, List.filter_map]
  rfl

/-- Two registries that a lookup cannot tell apart: the same entries in the same order, heartbeats
apart, under the same firewall, with the same cursors. -/
structure Twin (reg reg' : MemoryRegistry) : Prop where
  firewall : reg.firewall = reg'.firewall
  cursors : reg.roundRobinIndex = reg'.roundRobinIndex
  entries : ∀ task, (reg.services.slice task).map ServiceEntry.undated
    = (reg'.services.slice task).map ServiceEntry.undated

/-- The same counts, where a counter that is missing counts as zero. -/
def SameCounts (reg reg' : MemoryRegistry) : Prop :=
  ∀ key, (reg.queryCounters key).getD 0 = (reg'.queryCounters key).getD 0

namespace Twin

variable {reg reg' : MemoryRegistry} {task addr : String} {requestorIP : Option IP}

theorem addresses (h : Twin reg reg') (task : String) :
    (reg.services.slice task).map ServiceEntry.address
      = (reg'.services.slice task).map ServiceEntry.address := by
  have hmap := congrArg (List.map ServiceEntry.address) (h.entries task)
  simpa [Function.comp_def, ServiceEntry.undated] using hmap

theorem holds (h : Twin reg reg') : reg.Holds task addr ↔ reg'.Holds task addr := by
  rw [Holds, Holds, h.addresses]

theorem exists_mem (h : Twin reg reg') {e : ServiceEntry} (he : e ∈ reg.services.slice task) :
    ∃ e' ∈ reg'.services.slice task, e'.undated = e.undated := by
  have hmem : e.undated ∈ (reg'.services.slice task).map ServiceEntry.undated := by
    rw [← h.entries]
    exact List.mem_map_of_mem he
  exact List.mem_map.mp hmem

theorem candidates (h : Twin reg reg') (task : String) (requestorIP : Option IP) :
    (∃ err, reg.candidates task requestorIP = .error err
        ∧ reg'.candidates task requestorIP = .error err)
      ∨ ∃ allowed allowed', reg.candidates task requestorIP = .ok allowed
        ∧ reg'.candidates task requestorIP = .ok allowed'
        ∧ allowed.map ServiceEntry.undated = allowed'.map ServiceEntry.undated := by
  have hentries := h.entries task
  have hnil : reg.services.slice task = [] ↔ reg'.services.slice task = [] := by
    rw [← List.map_eq_nil_iff (f := ServiceEntry.undated), hentries, List.map_eq_nil_iff]
  have hallowed : (allowedEntries reg.firewall requestorIP (reg.services.slice task)).map
      ServiceEntry.undated
      = (allowedEntries reg'.firewall requestorIP (reg'.services.slice task)).map
        ServiceEntry.undated := by
    rw [← allowedEntries_undated, ← allowedEntries_undated, hentries, h.firewall]
  have hallowedNil : allowedEntries reg.firewall requestorIP (reg.services.slice task) = []
      ↔ allowedEntries reg'.firewall requestorIP (reg'.services.slice task) = [] := by
    rw [← List.map_eq_nil_iff (f := ServiceEntry.undated), hallowed, List.map_eq_nil_iff]
  have hweight : totalServiceWeight
      (allowedEntries reg.firewall requestorIP (reg.services.slice task))
      = totalServiceWeight
        (allowedEntries reg'.firewall requestorIP (reg'.services.slice task)) := by
    rw [← totalServiceWeight_undated, hallowed, totalServiceWeight_undated]
  simp only [MemoryRegistry.candidates, hnil, hallowedNil, hweight]
  split_ifs
  · exact Or.inl ⟨_, rfl, rfl⟩
  · exact Or.inl ⟨_, rfl, rfl⟩
  · exact Or.inl ⟨_, rfl, rfl⟩
  · exact Or.inr ⟨_, _, rfl, rfl, hallowed⟩

/-- **A lookup of twins.** They give the same reply and stay twins; the same pair is counted, or
none. -/
theorem lookup (h : Twin reg reg') (task : String) (requestorIP : Option IP) :
    (reg.getServiceForRequestor task requestorIP).2
        = (reg'.getServiceForRequestor task requestorIP).2
      ∧ Twin (reg.getServiceForRequestor task requestorIP).1
          (reg'.getServiceForRequestor task requestorIP).1
      ∧ (SameCounts reg reg' → SameCounts (reg.getServiceForRequestor task requestorIP).1
          (reg'.getServiceForRequestor task requestorIP).1) := by
  simp only [getServiceForRequestor]
  by_cases hblank : Go.trimSpace task = ""
  · rw [if_pos hblank, if_pos hblank]
    exact ⟨rfl, h, id⟩
  rw [if_neg hblank, if_neg hblank]
  rcases h.candidates (Go.trimSpace task) requestorIP with
    ⟨err, hcand, hcand'⟩ | ⟨allowed, allowed', hcand, hcand', hsame⟩
  · rw [hcand, hcand']
    exact ⟨rfl, h, id⟩
  · have hweight : totalServiceWeight allowed = totalServiceWeight allowed' := by
      rw [← totalServiceWeight_undated, hsame, totalServiceWeight_undated]
    have hselect (slot : Int64) :
        selectWeightedAddress allowed slot = selectWeightedAddress allowed' slot := by
      rw [selectWeightedAddress, ← selectWeightedFrom_undated, hsame, selectWeightedFrom_undated,
        selectWeightedAddress]
    rw [hcand, hcand']
    simp only [advanceCursor, hweight, hselect, h.cursors]
    have hmoved (cursors : SyncMap String Int64) :
        Twin { reg with roundRobinIndex := cursors } { reg' with roundRobinIndex := cursors } :=
      ⟨h.firewall, rfl, h.entries⟩
    generalize selectWeightedAddress allowed' _ = selected
    generalize reg'.roundRobinIndex.store _ _ = cursors
    rcases selected with _ | addr
    · exact ⟨rfl, hmoved cursors, id⟩
    · refine ⟨rfl, ⟨h.firewall, rfl, h.entries⟩, fun hcounts key ↦ ?_⟩
      simp only [countQuery]
      by_cases hkey : key = counterKey (Go.trimSpace task) addr
      · rw [hkey, SyncMap.store_self, SyncMap.store_self, hcounts]
      · rw [SyncMap.store_of_ne _ hkey, SyncMap.store_of_ne _ hkey, hcounts]

/-- Putting an entry keeps twins, when both updates do the same to what they hit. -/
theorem putEntry (h : Twin reg reg') {f f' g : ServiceEntry → ServiceEntry}
    {fresh fresh' : ServiceEntry}
    (hf : ∀ e ∈ reg.services.slice task, e.address = addr → (f e).undated = g e.undated)
    (hf' : ∀ e ∈ reg'.services.slice task, e.address = addr → (f' e).undated = g e.undated)
    (hfresh : fresh.undated = fresh'.undated) :
    Twin (reg.putEntry task addr f fresh) (reg'.putEntry task addr f' fresh') := by
  refine ⟨h.firewall, ?_, fun task' ↦ ?_⟩
  · simp only [MemoryRegistry.putEntry, h.addresses, h.cursors]
  · rw [slice_putEntry, slice_putEntry]
    split_ifs
    · rw [List.map_upsert_eq_upsert_map ServiceEntry.undated_address hf,
        List.map_upsert_eq_upsert_map ServiceEntry.undated_address hf', h.entries, hfresh]
    · exact h.entries task'

/-- Filling in an entry that is there already, with the capacity it has, is not noticed. -/
theorem populateCacheEntry (h : Twin reg reg') {e : ServiceEntry}
    (hheld : reg'.Holds task e.address)
    (hcap : ∀ e' ∈ reg'.services.slice task, e'.address = e.address →
      e'.capacity = normalizedCapacity e.capacity) :
    Twin (populateCacheEntry reg task e) reg' := by
  have hmem : e.address ∈ (reg.services.slice task).map ServiceEntry.address := h.holds.mpr hheld
  refine ⟨h.firewall, ?_, fun task' ↦ ?_⟩
  · simp only [TaskDiscovery.populateCacheEntry, MemoryRegistry.putEntry, if_pos hmem]
    exact h.cursors
  · have hslice : (TaskDiscovery.populateCacheEntry reg task e).services
        = (reg.putEntry task e.address (fun old ↦ { old with
            lastHeartbeat := e.lastHeartbeat, capacity := normalizedCapacity e.capacity })
          { address := e.address, lastHeartbeat := e.lastHeartbeat,
            capacity := normalizedCapacity e.capacity }).services := rfl
    rw [hslice, slice_putEntry]
    split_ifs with htask
    · subst htask
      rw [List.map_upsert_eq_map hmem, h.entries]
      intro e₁ he₁ haddr
      obtain ⟨e₂, he₂, hsame⟩ := h.exists_mem he₁
      simp only [ServiceEntry.undated, ServiceEntry.mk.injEq] at hsame
      have hcap₁ : e₁.capacity = normalizedCapacity e.capacity :=
        hsame.2.2.2 ▸ hcap e₂ he₂ (hsame.1.trans haddr)
      simp only [ServiceEntry.undated, hcap₁]
    · exact h.entries task'

theorem populateAll {l : List (String × ServiceEntry)} (h : Twin reg reg')
    (hl : ∀ p ∈ l, reg'.Holds p.1 p.2.address ∧ ∀ e ∈ reg'.services.slice p.1,
      e.address = p.2.address → e.capacity = normalizedCapacity p.2.capacity) :
    Twin (populateAll reg l) reg' := by
  induction l generalizing reg with
  | nil => exact h
  | cons p l ih =>
    obtain ⟨hheld, hcap⟩ := hl p List.mem_cons_self
    exact ih (h.populateCacheEntry hheld hcap) fun q hq ↦ hl q (List.mem_cons_of_mem _ hq)

end Twin

end MemoryRegistry

/-- Counters after filling a cache: a key that was written holds what was written, when all writes
to it agree. -/
theorem populateAll_queryCounters (cache : MemoryRegistry) {l : List (String × ServiceEntry)}
    {n : String → Int} (hl : ∀ p ∈ l, p.2.queryCount = n (counterKey p.1 p.2.address))
    (key : String) :
    (populateAll cache l).queryCounters key
      = if ∃ p ∈ l, counterKey p.1 p.2.address = key then some (n key)
        else cache.queryCounters key := by
  induction l generalizing cache with
  | nil => simp
  | cons p l ih =>
    rw [populateAll_cons, ih _ fun q hq ↦ hl q (List.mem_cons_of_mem _ hq),
      populateCacheEntry_queryCounters]
    by_cases hl' : ∃ q ∈ l, counterKey q.1 q.2.address = key
    · obtain ⟨q, hq, hkey⟩ := hl'
      rw [if_pos ⟨q, hq, hkey⟩, if_pos ⟨q, List.mem_cons_of_mem _ hq, hkey⟩]
    · rw [if_neg hl']
      by_cases hp : counterKey p.1 p.2.address = key
      · rw [if_pos ⟨p, List.mem_cons_self, hp⟩, ← hp, SyncMap.store_self, hl p List.mem_cons_self]
      · rw [SyncMap.store_of_ne _ (Ne.symm hp), if_neg]
        rintro ⟨q, hq, hkey⟩
        rcases List.mem_cons.mp hq with rfl | hq
        · exact hp hkey
        · exact hl' ⟨q, hq, hkey⟩

/-! ## The calls -/

/-- A call on both registries, with its clock readings: one in the cache and in the memory registry,
one for the store. -/
inductive Twins.Call
  | register (now₁ now₂ : Time) (task addr : String)
  | registerWithCapacity (now₁ now₂ : Time) (task addr : String) (capacity : Int64)
  | getService (task : String)
  | getServiceForRequestor (task : String) (requestorIP : Option IP)

/-- The two registries, and what they have replied to the lookups so far. -/
structure Twins where
  memory : MemoryRegistry
  stored : StoreBackedRegistry
  replies : List (Except RegistryError String × Except RegistryError String)

namespace Twins

/-- Two new registries under the same firewall. The store is empty and never fails; the cache is
unlimited and admits a task on its first miss. -/
def start (c : Collation) (now : Time) (fw : Option Firewall) : Twins where
  memory := MemoryRegistry.new.setFirewall fw
  stored := StoreBackedRegistry.start ⟨∅, c, fun _ ↦ none, 0⟩ 0 now 1 fw
  replies := []

def step (s : Twins) : Call → Twins
  | .register now₁ now₂ task addr =>
    { s with
      memory := s.memory.register now₁ task addr
      stored := s.stored.register now₁ now₂ task addr }
  | .registerWithCapacity now₁ now₂ task addr capacity =>
    { s with
      memory := s.memory.registerWithCapacity now₁ task addr capacity
      stored := s.stored.registerWithCapacity now₁ now₂ task addr capacity }
  | .getService task =>
    { memory := (s.memory.getService task).1
      stored := (s.stored.getService task).1
      replies := s.replies ++ [((s.memory.getService task).2, (s.stored.getService task).2)] }
  | .getServiceForRequestor task requestorIP =>
    { memory := (s.memory.getServiceForRequestor task requestorIP).1
      stored := (s.stored.getServiceForRequestor task requestorIP).1
      replies := s.replies ++ [((s.memory.getServiceForRequestor task requestorIP).2,
        (s.stored.getServiceForRequestor task requestorIP).2)] }

/-- The registries cannot be told apart: all replies were the same, and `ListServices` shows the
same addresses, capacities and query counts for every task, whenever it is called. -/
def Alike (s : Twins) : Prop :=
  (∀ reply ∈ s.replies, reply.1 = reply.2)
    ∧ ∀ (now₁ now₂ : Time) (ord : WarmOrders) (task : String),
      (((s.stored.listServices now₁ now₂ ord).2.slice task).map ServiceEntry.shown).Perm
        ((s.memory.listServices.slice task).map ServiceEntry.shown)

/-- A lookup that does not set counters back: the task has allowed entries, with a total weight that
has not wrapped around, or none of its entries has been counted. -/
def KeepsCounts (reg : MemoryRegistry) (task : String) (requestorIP : Option IP) : Prop :=
  Go.trimSpace task = ""
    ∨ 0 < totalServiceWeight (MemoryRegistry.allowedEntries reg.firewall requestorIP
        (reg.services.slice (Go.trimSpace task)))
    ∨ ∀ addr, reg.Holds (Go.trimSpace task) addr → reg.count (Go.trimSpace task) addr = 0

/-- The condition on a call, in terms of the memory registry before it. A plain registration has to
find its pair absent or with capacity one. -/
def Harmless (s : Twins) : Call → Prop
  | .register _ _ task addr =>
    Go.trimSpace task = "" ∨ Go.trimSpace addr = ""
      ∨ ∀ e ∈ s.memory.services.slice (Go.trimSpace task),
        e.address = Go.trimSpace addr → e.capacity = 1
  | .registerWithCapacity .. => True
  | .getService task => KeepsCounts s.memory task none
  | .getServiceForRequestor task requestorIP => KeepsCounts s.memory task requestorIP

end Twins

/-! ## What registrations and lookups keep -/

namespace MemoryRegistry

variable {reg : MemoryRegistry}

/-- A plain registration is one with capacity one, unless it meets another capacity. -/
theorem register_eq_registerWithCapacity {task addr : String}
    (h : ∀ e ∈ reg.services.slice (Go.trimSpace task), e.address = Go.trimSpace addr →
      e.capacity = 1) (now : Time) :
    reg.register now task addr = reg.registerWithCapacity now task addr 1 := by
  have hone : normalizedCapacity 1 = 1 := by decide
  simp only [register, registerWithCapacity, hone]
  split_ifs
  · rfl
  · have hsame : ∀ e ∈ reg.services.slice (Go.trimSpace task), e.address = Go.trimSpace addr →
        ({ e with lastHeartbeat := now } : ServiceEntry)
          = { e with lastHeartbeat := now, capacity := 1 } := by
      intro e he haddr
      rw [← h e he haddr]
    simp only [putEntry]
    rw [List.upsert_congr hsame]

/-- What registrations and lookups keep: every address once, counts in the counters only, positive
capacities, and counters that are not negative. -/
structure Tidy (reg : MemoryRegistry) : Prop where
  nodup : ∀ task, ((reg.services.slice task).map ServiceEntry.address).Nodup
  zero : ∀ {task e}, e ∈ reg.services.slice task → e.queryCount = 0
  positive : ∀ {task e}, e ∈ reg.services.slice task → 0 < e.capacity
  nonneg : ∀ {key n}, reg.queryCounters key = some n → 0 ≤ n

theorem Tidy.new (fw : Option Firewall) : Tidy (MemoryRegistry.new.setFirewall fw) := by
  have hslice (task : String) : (MemoryRegistry.new.setFirewall fw).services.slice task = [] := rfl
  refine ⟨fun task ↦ ?_, fun {task e} he ↦ ?_, fun {task e} he ↦ ?_, fun {key n} hn ↦ ?_⟩
  · rw [hslice]
    exact List.nodup_nil
  · simp [hslice] at he
  · simp [hslice] at he
  · simp [setFirewall, MemoryRegistry.new] at hn

theorem Tidy.putEntry (h : Tidy reg) {task addr : String} {now : Time} {capacity : Int64}
    (hpos : 0 < capacity) :
    Tidy (reg.putEntry task addr
      (fun e ↦ { e with lastHeartbeat := now, capacity := capacity })
      { address := addr, lastHeartbeat := now, capacity := capacity }) := by
  have hmem {task' : String} {e : ServiceEntry}
      (he : e ∈ (reg.putEntry task addr
        (fun e ↦ { e with lastHeartbeat := now, capacity := capacity })
        { address := addr, lastHeartbeat := now, capacity := capacity }).services.slice task') :
      e.queryCount = 0 ∧ 0 < e.capacity := by
    rw [slice_putEntry] at he
    split_ifs at he
    · rcases List.mem_upsert he with hold | rfl | ⟨e', he', -, rfl⟩
      · exact ⟨h.zero hold, h.positive hold⟩
      · exact ⟨rfl, hpos⟩
      · have hzero := h.zero he'
        exact ⟨hzero, hpos⟩
    · exact ⟨h.zero he, h.positive he⟩
  refine ⟨fun task' ↦ ?_, fun he ↦ (hmem he).1, fun he ↦ (hmem he).2, h.nonneg⟩
  rw [slice_putEntry]
  split_ifs
  · exact List.nodup_map_upsert (by exact fun _ ↦ rfl) (by rfl) (h.nodup task)
  · exact h.nodup task'

theorem Tidy.lookup (h : Tidy reg) (task : String) (requestorIP : Option IP) :
    Tidy (reg.getServiceForRequestor task requestorIP).1 := by
  rcases hget : reg.getServiceForRequestor task requestorIP with ⟨reg', err | addr⟩
  · rwa [getServiceForRequestor_error hget]
  · obtain ⟨-, hserv, -, hcount⟩ := getServiceForRequestor_ok hget
    refine ⟨fun task ↦ by rw [hserv]; exact h.nodup task, fun he ↦ ?_, fun he ↦ ?_,
      fun {key n} hn ↦ ?_⟩
    · rw [hserv] at he
      exact h.zero he
    · rw [hserv] at he
      exact h.positive he
    · rw [hcount] at hn
      by_cases hkey : key = counterKey (Go.trimSpace task) addr
      · rw [hkey, SyncMap.store_self] at hn
        rcases hold : reg.queryCounters (counterKey (Go.trimSpace task) addr) with _ | m
        · rw [hold] at hn
          obtain rfl := Option.some.inj hn
          decide
        · rw [hold] at hn
          obtain rfl := Option.some.inj hn
          have hm := h.nonneg hold
          rw [Option.getD_some]
          omega
      · rw [SyncMap.store_of_ne _ hkey] at hn
        exact h.nonneg hn

end MemoryRegistry

/-! ## In step -/

/-- The invariant: the cache and the memory registry are twins with the same counts, and the rows of
the table are the entries, none of them with a count. -/
structure Twins.InStep (s : Twins) : Prop where
  quiet : s.stored.Quiet
  unbounded : s.stored.cacheMaxSize ≤ 0
  eager : s.stored.admitAfterMiss ≤ 1
  replies : ∀ reply ∈ s.replies, reply.1 = reply.2
  twin : s.stored.memCache.Twin s.memory
  counts : s.stored.memCache.SameCounts s.memory
  tidy : s.memory.Tidy
  row : ∀ {task e}, e ∈ s.memory.services.slice task → ∃ heartbeat,
    s.stored.store.table.lookup (task, e.address) = some ⟨heartbeat, 0, e.capacity, true⟩
  held : ∀ {task addr row}, s.stored.store.table.lookup (task, addr) = some row →
    s.memory.Holds task addr

namespace Twins

theorem inStep_start (c : Collation) (now : Time) (fw : Option Firewall) :
    InStep (start c now fw) := by
  have hslice (task : String) : (start c now fw).memory.services.slice task = [] := rfl
  refine ⟨⟨fun _ ↦ rfl, fun _ ↦ rfl⟩, le_rfl, le_rfl, by simp [start], ⟨rfl, rfl, fun _ ↦ rfl⟩,
    fun _ ↦ rfl, MemoryRegistry.Tidy.new fw, fun {task e} he ↦ ?_, fun {task addr row} hrow ↦ ?_⟩
  · simp [hslice] at he
  · exact absurd hrow (by simp [start, StoreBackedRegistry.start, StoreBackedRegistry.setFirewall,
      StoreBackedRegistry.setCacheAdmissionMissThreshold, StoreBackedRegistry.new])

namespace InStep

variable {s : Twins}

theorem row_of_lookup (h : InStep s) {task addr : String} {row : Row}
    (hrow : s.stored.store.table.lookup (task, addr) = some row) :
    row.queryCount = 0 ∧ row.isActive = true
      ∧ ∃ e ∈ s.memory.services.slice task, e.address = addr ∧ e.capacity = row.capacity := by
  obtain ⟨e, he, rfl⟩ := List.mem_map.mp (h.held hrow)
  obtain ⟨heartbeat, hrow'⟩ := h.row he
  obtain rfl := Option.some.inj (hrow.symm.trans hrow')
  exact ⟨rfl, rfl, e, he, rfl, rfl⟩

theorem active_iff (h : InStep s) {task addr : String} :
    s.stored.store.table.Active task addr ↔ s.memory.Holds task addr := by
  constructor
  · rintro ⟨row, hrow, -⟩
    exact h.held hrow
  · intro hheld
    obtain ⟨e, he, rfl⟩ := List.mem_map.mp hheld
    obtain ⟨heartbeat, hrow⟩ := h.row he
    exact ⟨_, hrow, rfl⟩

/-! ### Registrations -/

theorem registeredRow_of_zero {entry : ServiceEntry} {old : Option Row}
    (hentry : entry.queryCount = 0) (hold : ∀ row, old = some row → row.queryCount = 0) :
    Table.registeredRow entry old
      = ⟨entry.lastHeartbeat, 0, normalizedCapacity entry.capacity, true⟩ := by
  simp only [Table.registeredRow, hentry]
  rcases old with _ | row
  · rfl
  · simp [hold row rfl]

theorem registerWithCapacity (h : InStep s) (now₁ now₂ : Time) (task addr : String)
    (capacity : Int64) : InStep (s.step (.registerWithCapacity now₁ now₂ task addr capacity)) := by
  rcases s.stored.registerWithCapacity_cases now₁ now₂ task addr capacity with
    ⟨hblank, hstored⟩ | ⟨ht, ha, hstored⟩
  · have hmemory : s.memory.registerWithCapacity now₁ task addr capacity = s.memory := by
      rw [MemoryRegistry.registerWithCapacity, if_pos hblank]
    simp only [step, hstored, hmemory]
    exact h
  have hmemory : s.memory.registerWithCapacity now₁ task addr capacity
      = s.memory.registerWithCapacity now₁ (Go.trimSpace task) (Go.trimSpace addr) capacity := by
    simp only [MemoryRegistry.registerWithCapacity, Go.trimSpace_idem]
  simp only [step, hstored, hmemory]
  generalize Go.trimSpace task = task at ht
  generalize Go.trimSpace addr = addr at ha
  set c := normalizedCapacity capacity with hc
  have hpos : 0 < c := normalizedCapacity_pos capacity
  obtain ⟨hquiet, htable, hcache⟩ := s.stored.registerEntry_of_quiet h.quiet now₁ now₂ task addr c
  have hconfig := s.stored.registerEntry_config now₁ now₂ task addr c
  rw [MemoryRegistry.registerWithCapacity_of_trimmed ht ha, ← hc]
  rw [MemoryRegistry.registerWithCapacity_of_trimmed ht ha,
    normalizedCapacity_of_pos hpos] at hcache
  refine ⟨hquiet, hconfig.cacheMaxSize.trans_le h.unbounded,
    hconfig.admitAfterMiss.trans_le h.eager, h.replies, ?twin, ?counts, h.tidy.putEntry hpos, ?row,
    ?held⟩
  case twin =>
    simp only [hcache]
    exact h.twin.putEntry (g := fun e ↦ { e with capacity := c }) (by exact fun _ _ _ ↦ rfl)
      (by exact fun _ _ _ ↦ rfl) rfl
  case counts =>
    simp only [hcache]
    exact h.counts
  case row =>
    intro task' e he
    simp only [htable, Table.lookup_register]
    rw [MemoryRegistry.slice_putEntry] at he
    by_cases hkey : task' = task ∧ e.address = addr
    · obtain ⟨rfl, haddr⟩ := hkey
      have hcap : e.capacity = c := by
        rw [if_pos rfl] at he
        rcases List.mem_upsert_of_key_eq (h.tidy.nodup task') he haddr with rfl | ⟨_, -, -, rfl⟩ <;>
          rfl
      refine ⟨now₂, ?_⟩
      rw [if_pos (by rw [haddr]), registeredRow_of_zero rfl fun row hrow ↦ (h.row_of_lookup hrow).1,
        normalizedCapacity_of_pos hpos, hcap]
    · have hne : (task', e.address) ≠ (task, addr) := fun heq ↦ hkey (Prod.mk.inj heq)
      rw [if_neg hne]
      split_ifs at he with htask
      · subst htask
        have haddr : e.address ≠ addr := fun heq ↦ hkey ⟨rfl, heq⟩
        rcases List.mem_upsert he with hold | rfl | ⟨e', -, haddr', rfl⟩
        · exact h.row hold
        · exact absurd rfl haddr
        · exact absurd haddr' haddr
      · exact h.row he
  case held =>
    intro task' addr' row hrow
    simp only [htable, Table.lookup_register] at hrow
    refine (MemoryRegistry.holds_putEntry (by exact fun _ ↦ rfl) (by rfl)).mpr ?_
    split_ifs at hrow with hkey
    · exact Or.inl (Prod.mk.inj hkey)
    · exact Or.inr (h.held hrow)

theorem register (h : InStep s) {now₁ now₂ : Time} {task addr : String}
    (hharmless : s.Harmless (.register now₁ now₂ task addr)) :
    InStep (s.step (.register now₁ now₂ task addr)) := by
  have hmemory : s.memory.register now₁ task addr
      = s.memory.registerWithCapacity now₁ task addr 1 := by
    rcases hharmless with hblank | hblank | hcap
    · simp only [MemoryRegistry.register, MemoryRegistry.registerWithCapacity, hblank, true_or,
        if_true]
    · simp only [MemoryRegistry.register, MemoryRegistry.registerWithCapacity, hblank, or_true,
        if_true]
    · exact MemoryRegistry.register_eq_registerWithCapacity hcap now₁
  simp only [step, hmemory]
  exact h.registerWithCapacity now₁ now₂ task addr 1

/-! ### Lookups -/

/-- Filling the cache from the rows of a task is not noticed, except by the counters. -/
theorem twin_hydrated (h : InStep s) (task : String) :
    (s.stored.hydrated task).Twin s.memory := by
  refine h.twin.populateAll fun p hp ↦ ?_
  obtain ⟨e, he, rfl⟩ := List.mem_map.mp hp
  obtain ⟨row, hrow, -, hscan⟩ := Table.mem_listTaskServices.mp he
  refine ⟨h.held hrow, fun e' he' haddr ↦ ?_⟩
  obtain ⟨heartbeat, hrow'⟩ := h.row he'
  simp only at haddr
  rw [haddr, hrow] at hrow'
  obtain rfl := Option.some.inj hrow'
  have hpos := h.tidy.positive he'
  rw [hscan]
  simp only [Table.scan, normalizedCapacity_of_pos hpos]

/-- The counters after filling in a task: those of its pairs start again, the others stay. -/
theorem hydrated_queryCounters (h : InStep s) (task key : String) :
    (∃ addr, s.memory.Holds task addr ∧ counterKey task addr = key)
        ∧ (s.stored.hydrated task).queryCounters key = some 0
      ∨ (¬∃ addr, s.memory.Holds task addr ∧ counterKey task addr = key)
        ∧ (s.stored.hydrated task).queryCounters key = s.stored.memCache.queryCounters key := by
  set rows := (s.stored.store.table.listTaskServices s.stored.store.collation task).map
    fun e ↦ (task, e) with hrows
  have hzero : ∀ p ∈ rows, p.2.queryCount = 0 := by
    intro p hp
    obtain ⟨e, he, rfl⟩ := List.mem_map.mp hp
    obtain ⟨row, hrow, -, hscan⟩ := Table.mem_listTaskServices.mp he
    rw [hscan]
    exact (h.row_of_lookup hrow).1
  have hiff : (∃ p ∈ rows, counterKey p.1 p.2.address = key)
      ↔ ∃ addr, s.memory.Holds task addr ∧ counterKey task addr = key := by
    simp only [← h.active_iff, ← Table.mem_map_listTaskServices (c := s.stored.store.collation),
      hrows, List.mem_map]
    constructor
    · rintro ⟨-, ⟨e, he, rfl⟩, hkey⟩
      exact ⟨e.address, ⟨e, he, rfl⟩, hkey⟩
    · rintro ⟨-, ⟨e, he, rfl⟩, hkey⟩
      exact ⟨(task, e), ⟨e, he, rfl⟩, hkey⟩
  have hcounters : (s.stored.hydrated task).queryCounters key
      = if ∃ p ∈ rows, counterKey p.1 p.2.address = key then some 0
        else s.stored.memCache.queryCounters key :=
    populateAll_queryCounters s.stored.memCache (n := fun _ ↦ 0) hzero key
  rw [hcounters, ← hiff]
  by_cases hkey : ∃ p ∈ rows, counterKey p.1 p.2.address = key
  · exact Or.inl ⟨hkey, if_pos hkey⟩
  · exact Or.inr ⟨hkey, if_neg hkey⟩

theorem sameCounts_hydrated (h : InStep s) {task : String}
    (hzero : ∀ addr, s.memory.Holds task addr → s.memory.count task addr = 0) :
    (s.stored.hydrated task).SameCounts s.memory := by
  intro key
  rcases h.hydrated_queryCounters task key with ⟨⟨addr, hheld, rfl⟩, hcount⟩ | ⟨-, hcount⟩
  · rw [hcount]
    exact (hzero addr hheld).symm
  · rw [hcount]
    exact h.counts key

private theorem of_lookup (h : InStep s) {task : String} {requestorIP : Option IP}
    {stored : StoreBackedRegistry} {reply : Except RegistryError String}
    (hconfig : s.stored.SameConfig stored)
    (hpending : stored.pendingStoreSync = s.stored.pendingStoreSync)
    (htable : stored.store.table = s.stored.store.table)
    (hreply : (s.memory.getServiceForRequestor task requestorIP).2 = reply)
    (htwin : stored.memCache.Twin (s.memory.getServiceForRequestor task requestorIP).1)
    (hcounts : stored.memCache.SameCounts (s.memory.getServiceForRequestor task requestorIP).1) :
    InStep ⟨(s.memory.getServiceForRequestor task requestorIP).1, stored,
      s.replies ++ [((s.memory.getServiceForRequestor task requestorIP).2, reply)]⟩ := by
  have hserv := (s.memory.getServiceForRequestor_frame task requestorIP).1
  refine ⟨⟨hconfig.reliable h.quiet.reliable, fun key ↦ by rw [hpending, h.quiet.noPending]⟩,
    hconfig.cacheMaxSize.trans_le h.unbounded, hconfig.admitAfterMiss.trans_le h.eager, ?_, htwin,
    hcounts, h.tidy.lookup task requestorIP, fun {task' e} he ↦ ?_, fun {task' addr row} hrow ↦ ?_⟩
  · intro p hp
    rcases List.mem_append.mp hp with hp | hp
    · exact h.replies p hp
    · rw [List.mem_singleton.mp hp]
      exact hreply
  · simp only [hserv] at he
    simp only [htable]
    exact h.row he
  · simp only [htable] at hrow
    rw [MemoryRegistry.Holds]
    simp only [hserv]
    exact h.held hrow

theorem getServiceForRequestor (h : InStep s) {task : String} {requestorIP : Option IP}
    (hkeeps : KeepsCounts s.memory task requestorIP) :
    InStep (s.step (.getServiceForRequestor task requestorIP)) := by
  have hconfig := s.stored.getServiceForRequestor_config task requestorIP
  simp only [step]
  by_cases hblank : Go.trimSpace task = ""
  · have hstored : s.stored.getServiceForRequestor task requestorIP
        = (s.stored, .error .invalidTaskName) := by
      rw [StoreBackedRegistry.getServiceForRequestor, if_pos hblank]
    have hmemory : s.memory.getServiceForRequestor task requestorIP
        = (s.memory, .error .invalidTaskName) := by
      rw [MemoryRegistry.getServiceForRequestor, if_pos hblank]
    rw [hstored] at hconfig ⊢
    refine h.of_lookup hconfig rfl rfl ?_ ?_ ?_
    · rw [hmemory]
    · rw [hmemory]
      exact h.twin
    · rw [hmemory]
      exact h.counts
  have htrim := s.memory.getServiceForRequestor_trimSpace task requestorIP
  obtain ⟨hreply, htwin, hcounts⟩ := h.twin.lookup (Go.trimSpace task) requestorIP
  rw [htrim] at hreply htwin hcounts
  rcases hcache : s.stored.memCache.getServiceForRequestor (Go.trimSpace task) requestorIP with
    ⟨cache, err | addr⟩
  · obtain rfl := MemoryRegistry.getServiceForRequestor_error hcache
    obtain ⟨htable, hpending, hcase⟩ :=
      StoreBackedRegistry.getServiceForRequestor_of_miss h.quiet.reliable h.eager hblank hcache
    rw [hcache] at hreply htwin hcounts
    rcases hcase with ⟨hnone, hreply', hcache'⟩ | ⟨hreply', hcache'⟩
    · -- nothing is registered for the task, here or there
      have hempty : s.memory.services.slice (Go.trimSpace task) = [] := by
        by_contra hne
        obtain ⟨addr, hheld⟩ := MemoryRegistry.HasTask.exists_holds hne
        exact hnone addr (h.active_iff.mpr hheld)
      have hnotFound : (s.memory.getServiceForRequestor task requestorIP).2 = .error .notFound := by
        simp only [MemoryRegistry.getServiceForRequestor, if_neg hblank, MemoryRegistry.candidates,
          hempty, if_true]
      refine h.of_lookup hconfig hpending htable (hnotFound.trans hreply'.symm) ?_ ?_
      · rw [hcache']
        exact htwin
      · rw [hcache']
        exact hcounts h.counts
    · obtain ⟨hagain, htwin', hcounts'⟩ :=
        (h.twin_hydrated (Go.trimSpace task)).lookup (Go.trimSpace task) requestorIP
      rw [htrim] at hagain htwin' hcounts'
      refine h.of_lookup hconfig hpending htable (hagain.symm.trans hreply'.symm) ?_ ?_
      · rw [hcache']
        exact htwin'
      · rw [hcache']
        refine hcounts' (h.sameCounts_hydrated ?_)
        rcases hkeeps with hblank' | hpos | hzero
        · exact absurd hblank' hblank
        · -- with allowed entries the lookup would have succeeded
          obtain ⟨reg', addr, hok⟩ := s.memory.getServiceForRequestor_of_pos
            (Go.trimmed_trimSpace hblank) hpos
          rw [← htrim, hok] at hreply
          exact absurd hreply (by simp)
        · exact hzero
  · have hstored := StoreBackedRegistry.getServiceForRequestor_of_hit hblank hcache
    rw [hcache] at hreply htwin hcounts
    rw [hstored] at hconfig ⊢
    exact h.of_lookup hconfig rfl rfl hreply.symm htwin (hcounts h.counts)

/-! ### Listings -/

theorem shown_withCount (counters : SyncMap String Int) (task : String) (e : ServiceEntry) :
    (MemoryRegistry.withCount counters task e).shown
      = (e.address, e.capacity, (counters (counterKey task e.address)).getD e.queryCount) := by
  rw [MemoryRegistry.withCount]
  rcases counters (counterKey task e.address) with _ | n <;> rfl

theorem map_shown_listServices {reg : MemoryRegistry} {task : String}
    (hzero : ∀ e ∈ reg.services.slice task, e.queryCount = 0) :
    (reg.listServices.slice task).map ServiceEntry.shown
      = (reg.services.slice task).map
        fun e ↦ (e.address, e.capacity, reg.count task e.address) := by
  rw [MemoryRegistry.slice_listServices, List.map_map]
  refine List.map_congr_left fun e he ↦ ?_
  rw [Function.comp_apply, shown_withCount, hzero e he, MemoryRegistry.count]

theorem queryCount_cached (h : InStep s) {task : String} {e : ServiceEntry}
    (he : e ∈ s.stored.memCache.services.slice task) : e.queryCount = 0 := by
  obtain ⟨e', he', hsame⟩ := h.twin.exists_mem he
  have hzero := h.tidy.zero he'
  simp only [ServiceEntry.undated, ServiceEntry.mk.injEq] at hsame
  rw [← hsame.2.2.1, hzero]

theorem listServices_cached (h : InStep s) (task : String) :
    (s.stored.memCache.listServices.slice task).map ServiceEntry.shown
      = (s.memory.listServices.slice task).map ServiceEntry.shown := by
  rw [map_shown_listServices fun e he ↦ h.queryCount_cached he,
    map_shown_listServices fun e he ↦ h.tidy.zero he]
  have hview (reg : MemoryRegistry) : (reg.services.slice task).map
      (fun e ↦ (e.address, e.capacity, reg.count task e.address))
      = ((reg.services.slice task).map ServiceEntry.undated).map
        fun e ↦ (e.address, e.capacity, reg.count task e.address) := by
    rw [List.map_map]
    rfl
  have hcount : s.stored.memCache.count = s.memory.count := by
    funext task addr
    exact h.counts _
  rw [hview, hview, h.twin.entries, hcount]

theorem exists_of_listed (h : InStep s) {ord : TaskOrder} {task : String} {e : ServiceEntry}
    (he : (task, e) ∈ pairs ord s.stored.memCache.listServices) :
    ∃ e₀ ∈ s.memory.services.slice task,
      e.shown = (e₀.address, e₀.capacity, s.memory.count task e₀.address) := by
  have hmem : e.shown ∈ (s.stored.memCache.listServices.slice task).map ServiceEntry.shown :=
    List.mem_map_of_mem (mem_pairs.mp he)
  rw [h.listServices_cached, map_shown_listServices fun e he ↦ h.tidy.zero he] at hmem
  obtain ⟨e₀, he₀, hshown⟩ := List.mem_map.mp hmem
  exact ⟨e₀, he₀, hshown.symm⟩

theorem exists_listed (h : InStep s) (ord : TaskOrder) {task : String} {e₀ : ServiceEntry}
    (he₀ : e₀ ∈ s.memory.services.slice task) :
    ∃ e, (task, e) ∈ pairs ord s.stored.memCache.listServices
      ∧ e.shown = (e₀.address, e₀.capacity, s.memory.count task e₀.address) := by
  have hmem : (e₀.address, e₀.capacity, s.memory.count task e₀.address)
      ∈ (s.stored.memCache.listServices.slice task).map ServiceEntry.shown := by
    rw [h.listServices_cached, map_shown_listServices fun e he ↦ h.tidy.zero he]
    exact List.mem_map_of_mem he₀
  obtain ⟨e, he, hshown⟩ := List.mem_map.mp hmem
  exact ⟨e, mem_pairs.mpr he, hshown⟩

/-- Writing the counts back brings the rows up to date. -/
theorem lookup_warmedTable (h : InStep s) (ord : WarmOrders) {task : String} {e : ServiceEntry}
    (he : e ∈ s.memory.services.slice task) : ∃ heartbeat,
    (s.stored.warmedTable ord).lookup (task, e.address)
      = some ⟨heartbeat, s.memory.count task e.address, e.capacity, true⟩ := by
  rcases StoreBackedRegistry.lookup_syncTable s.stored.store.table
    (pairs ord.sync s.stored.memCache.listServices) (task, e.address) with
    ⟨hnone, hlook⟩ | ⟨⟨task', e'⟩, hp, hpos, hkey, hlook⟩
  · -- no entry with a count was written, so there is none
    obtain ⟨heartbeat, hrow⟩ := h.row he
    obtain ⟨e', hlisted, hshown⟩ := h.exists_listed ord.sync he
    simp only [ServiceEntry.shown, Prod.mk.injEq] at hshown
    have hcount : s.memory.count task e.address = 0 := by
      have hnonneg : 0 ≤ s.memory.count task e.address := by
        rw [MemoryRegistry.count]
        rcases hcounter : s.memory.queryCounters (counterKey task e.address) with _ | n
        · exact le_rfl
        · exact h.tidy.nonneg hcounter
      by_contra hne
      refine hnone (task, e') hlisted ?_ (by rw [hshown.1])
      rw [hshown.2.2]
      omega
    exact ⟨heartbeat, by rw [StoreBackedRegistry.warmedTable, hlook, hrow, hcount]⟩
  · obtain ⟨rfl, haddr⟩ := Prod.mk.inj hkey
    obtain ⟨e₀, he₀, hshown⟩ := h.exists_of_listed hp
    simp only [ServiceEntry.shown, Prod.mk.injEq] at hshown
    obtain rfl : e₀ = e :=
      List.inj_on_of_nodup_map (h.tidy.nodup task') he₀ he (hshown.1.symm.trans haddr)
    refine ⟨e'.lastHeartbeat, ?_⟩
    rw [StoreBackedRegistry.warmedTable, hlook, hshown.2.1, hshown.2.2,
      normalizedCapacity_of_pos (h.tidy.positive he₀)]

theorem holds_of_warmedTable (h : InStep s) {ord : WarmOrders} {task addr : String} {row : Row}
    (hrow : (s.stored.warmedTable ord).lookup (task, addr) = some row) :
    s.memory.Holds task addr := by
  rcases StoreBackedRegistry.lookup_syncTable s.stored.store.table
    (pairs ord.sync s.stored.memCache.listServices) (task, addr) with
    ⟨-, hlook⟩ | ⟨⟨task', e'⟩, hp, -, hkey, -⟩
  · exact h.held (hlook.symm.trans hrow)
  · obtain ⟨rfl, rfl⟩ := Prod.mk.inj hkey
    obtain ⟨e₀, he₀, hshown⟩ := h.exists_of_listed hp
    simp only [ServiceEntry.shown, Prod.mk.injEq] at hshown
    rw [hshown.1]
    exact List.mem_map_of_mem he₀

theorem of_loaded (h : InStep s) {ord : WarmOrders} {task : String} {e : ServiceEntry}
    (he : e ∈ (s.stored.warmedTable ord).listTaskServices s.stored.store.collation task) :
    ∃ e₀ ∈ s.memory.services.slice task,
      e.shown = (e₀.address, e₀.capacity, s.memory.count task e₀.address) := by
  obtain ⟨row, hrow, -, hscan⟩ := Table.mem_listTaskServices.mp he
  obtain ⟨e₀, he₀, haddr⟩ := List.mem_map.mp (h.holds_of_warmedTable hrow)
  obtain ⟨heartbeat, hrow'⟩ := h.lookup_warmedTable ord he₀
  rw [haddr, hrow] at hrow'
  obtain rfl := Option.some.inj hrow'
  refine ⟨e₀, he₀, ?_⟩
  rw [hscan]
  simp only [ServiceEntry.shown, Table.scan, normalizedCapacity_of_pos (h.tidy.positive he₀), haddr]

/-- The entries of a cache are copies of those of a registry, each at most once. -/
def Copies (reg cache : MemoryRegistry) : Prop :=
  ∀ task, ((cache.services.slice task).map ServiceEntry.address).Nodup
    ∧ ∀ e ∈ cache.services.slice task, e.queryCount = 0
      ∧ ∀ e₀ ∈ reg.services.slice task, e₀.address = e.address → e₀.capacity = e.capacity

theorem Copies.populateAll {reg cache : MemoryRegistry} {l : List (String × ServiceEntry)}
    (h : Copies reg cache)
    (hl : ∀ p ∈ l, ∀ e₀ ∈ reg.services.slice p.1, e₀.address = p.2.address →
      e₀.capacity = normalizedCapacity p.2.capacity) : Copies reg (populateAll cache l) := by
  induction l generalizing cache with
  | nil => exact h
  | cons p l ih =>
    refine ih (fun task ↦ ?_) fun q hq ↦ hl q (List.mem_cons_of_mem _ hq)
    have hcap := hl p List.mem_cons_self
    have hslice : (populateCacheEntry cache p.1 p.2).services
        = (cache.putEntry p.1 p.2.address (fun old ↦ { old with
            lastHeartbeat := p.2.lastHeartbeat, capacity := normalizedCapacity p.2.capacity })
          { address := p.2.address, lastHeartbeat := p.2.lastHeartbeat,
            capacity := normalizedCapacity p.2.capacity }).services := rfl
    rw [hslice, MemoryRegistry.slice_putEntry]
    split_ifs with htask
    · subst htask
      refine ⟨List.nodup_map_upsert (by exact fun _ ↦ rfl) (by rfl) (h p.1).1, fun e he ↦ ?_⟩
      rcases List.mem_upsert he with hold | rfl | ⟨e', he', haddr, rfl⟩
      · exact (h p.1).2 e hold
      · exact ⟨rfl, hcap⟩
      · have hzero := ((h p.1).2 e' he').1
        exact ⟨hzero, fun e₀ he₀ heq ↦ hcap e₀ he₀ (heq.trans haddr)⟩
    · exact h task

theorem of_loadedPairs (h : InStep s) {ord : WarmOrders} {p : String × ServiceEntry}
    (hp : p ∈ StoreBackedRegistry.loadedPairs s.stored.store.collation s.stored.cacheMaxSize
      ord.load (s.stored.warmedTable ord)) :
    ∃ e₀ ∈ s.memory.services.slice p.1, e₀.address = p.2.address ∧ e₀.capacity = p.2.capacity
      ∧ s.memory.count p.1 e₀.address = p.2.queryCount := by
  obtain ⟨e₀, he₀, hshown⟩ := h.of_loaded (StoreBackedRegistry.mem_loadedPairs.mp hp).2
  simp only [ServiceEntry.shown, Prod.mk.injEq] at hshown
  exact ⟨e₀, he₀, hshown.1.symm, hshown.2.1.symm, hshown.2.2.symm⟩

theorem holds_warmed (h : InStep s) (now : Time) (ord : WarmOrders) {task addr : String} :
    (s.stored.warmCacheFromDB now ord).1.memCache.Holds task addr ↔ s.memory.Holds task addr := by
  rw [s.stored.holds_warmCacheFromDB h.quiet]
  constructor
  · rintro ⟨-, row, hrow, -⟩
    exact h.holds_of_warmedTable hrow
  · intro hheld
    obtain ⟨e₀, he₀, rfl⟩ := List.mem_map.mp hheld
    obtain ⟨heartbeat, hrow⟩ := h.lookup_warmedTable ord he₀
    exact ⟨Or.inl h.unbounded, _, hrow, rfl⟩

theorem copies_warmed (h : InStep s) (now : Time) (ord : WarmOrders) :
    Copies s.memory (s.stored.warmCacheFromDB now ord).1.memCache := by
  obtain ⟨-, -, hcache⟩ := s.stored.warmCacheFromDB_of_quiet h.quiet now ord
  rw [hcache]
  refine Copies.populateAll (fun task ↦ ⟨List.nodup_nil, by simp [MemoryRegistry.new,
    MemoryRegistry.setFirewall]⟩) fun p hp e₀ he₀ haddr ↦ ?_
  obtain ⟨e₁, he₁, haddr₁, hcapacity, -⟩ := h.of_loadedPairs hp
  obtain rfl : e₀ = e₁ :=
    List.inj_on_of_nodup_map (h.tidy.nodup p.1) he₀ he₁ (haddr.trans haddr₁.symm)
  rw [← hcapacity, normalizedCapacity_of_pos (h.tidy.positive he₀)]

theorem count_warmed (h : InStep s) (now : Time) (ord : WarmOrders) {task addr : String}
    (hheld : s.memory.Holds task addr) :
    (s.stored.warmCacheFromDB now ord).1.memCache.count task addr = s.memory.count task addr := by
  obtain ⟨-, -, hcache⟩ := s.stored.warmCacheFromDB_of_quiet h.quiet now ord
  obtain ⟨e₀, he₀, rfl⟩ := List.mem_map.mp hheld
  obtain ⟨heartbeat, hrow⟩ := h.lookup_warmedTable ord he₀
  have hlisted : (task, Table.scan e₀.address
      ⟨heartbeat, s.memory.count task e₀.address, e₀.capacity, true⟩)
      ∈ StoreBackedRegistry.loadedPairs s.stored.store.collation s.stored.cacheMaxSize ord.load
        (s.stored.warmedTable ord) :=
    StoreBackedRegistry.mem_loadedPairs.mpr ⟨Or.inl h.unbounded,
      Table.mem_listTaskServices.mpr ⟨_, hrow, rfl, rfl⟩⟩
  have hcounts : ∀ p ∈ StoreBackedRegistry.loadedPairs s.stored.store.collation
      s.stored.cacheMaxSize ord.load (s.stored.warmedTable ord),
      p.2.queryCount = (s.memory.queryCounters (counterKey p.1 p.2.address)).getD 0 := by
    intro p hp
    obtain ⟨e₁, -, haddr, -, hcount⟩ := h.of_loadedPairs hp
    rw [← hcount, ← haddr, MemoryRegistry.count]
  have hcounters := populateAll_queryCounters
    (MemoryRegistry.new.setFirewall s.stored.memCache.firewall)
    (n := fun key ↦ (s.memory.queryCounters key).getD 0) hcounts (counterKey task e₀.address)
  rw [if_pos ⟨_, hlisted, rfl⟩] at hcounters
  rw [MemoryRegistry.count, hcache]
  change ((populateAll _ _).queryCounters _).getD 0 = _
  rw [hcounters, Option.getD_some, MemoryRegistry.count]

private theorem nodup_map_shown {reg : MemoryRegistry} {task : String}
    (h : ((reg.services.slice task).map ServiceEntry.address).Nodup) :
    ((reg.services.slice task).map fun e ↦
      (e.address, e.capacity, reg.count task e.address)).Nodup := by
  refine List.Nodup.of_map Prod.fst ?_
  rw [List.map_map]
  exact h

/-- **A warm is not noticed.** The new cache lists what the memory registry lists, perhaps in
another order. -/
theorem listServices_warmed (h : InStep s) (now : Time) (ord : WarmOrders) (task : String) :
    (((s.stored.warmCacheFromDB now ord).1.memCache.listServices.slice task).map
      ServiceEntry.shown).Perm ((s.memory.listServices.slice task).map ServiceEntry.shown) := by
  have hcopies := h.copies_warmed now ord
  rw [map_shown_listServices fun e he ↦ ((hcopies task).2 e he).1,
    map_shown_listServices fun e he ↦ h.tidy.zero he]
  refine (List.perm_ext_iff_of_nodup (nodup_map_shown (hcopies task).1)
    (nodup_map_shown (h.tidy.nodup task))).mpr fun x ↦ ?_
  simp only [List.mem_map]
  constructor
  · rintro ⟨e, he, rfl⟩
    have hheld : s.memory.Holds task e.address :=
      (h.holds_warmed now ord).mp (List.mem_map_of_mem he)
    obtain ⟨e₀, he₀, haddr⟩ := List.mem_map.mp hheld
    refine ⟨e₀, he₀, ?_⟩
    rw [haddr, h.count_warmed now ord hheld, ((hcopies task).2 e he).2 e₀ he₀ haddr]
  · rintro ⟨e₀, he₀, rfl⟩
    have hheld : s.memory.Holds task e₀.address := List.mem_map_of_mem he₀
    obtain ⟨e, he, haddr⟩ := List.mem_map.mp ((h.holds_warmed now ord).mpr hheld)
    refine ⟨e, he, ?_⟩
    rw [haddr, h.count_warmed now ord hheld, ((hcopies task).2 e he).2 e₀ he₀ haddr.symm]

theorem alike (h : InStep s) : Alike s := by
  refine ⟨h.replies, fun now₁ now₂ ord task ↦ ?_⟩
  simp only [StoreBackedRegistry.listServices]
  split_ifs
  · exact h.listServices_warmed now₂ ord task
  · rw [h.listServices_cached]

end InStep

/-! ## Telling them apart -/

theorem listServices_fresh (sr : StoreBackedRegistry) (now : Time) (ord : WarmOrders) :
    (sr.listServices (sr.lastCacheSync + sr.cacheSyncPeriod) now ord).2
      = sr.memCache.listServices := by
  have hfresh (a b : Int) : ¬b < a + b - a := by omega
  simp only [StoreBackedRegistry.listServices,
    if_neg (hfresh sr.lastCacheSync sr.cacheSyncPeriod)]

theorem Alike.exists_cached {s : Twins} (h : Alike s) {task : String} {e : ServiceEntry}
    (he : e ∈ s.memory.services.slice task) :
    ∃ e' ∈ s.stored.memCache.services.slice task,
      (MemoryRegistry.withCount s.stored.memCache.queryCounters task e').shown
        = (MemoryRegistry.withCount s.memory.queryCounters task e).shown := by
  have hperm := h.2 (s.stored.lastCacheSync + s.stored.cacheSyncPeriod) 0 WarmOrders.asStored task
  rw [listServices_fresh, MemoryRegistry.slice_listServices, MemoryRegistry.slice_listServices]
    at hperm
  have hmem := hperm.mem_iff.mpr (List.mem_map_of_mem (List.mem_map_of_mem he))
  obtain ⟨_, hlisted, hshown⟩ := List.mem_map.mp hmem
  obtain ⟨e', he', rfl⟩ := List.mem_map.mp hlisted
  exact ⟨e', he', hshown⟩

namespace InStep

variable {s : Twins}

/-- A plain registration that meets another capacity can be noticed. -/
theorem harmless_register (h : InStep s) {now₁ now₂ : Time} {task addr : String}
    (halike : Alike (s.step (.register now₁ now₂ task addr))) :
    s.Harmless (.register now₁ now₂ task addr) := by
  by_contra hharm
  simp only [Harmless, not_or] at hharm
  obtain ⟨ht, ha, hcap⟩ := hharm
  push Not at hcap
  obtain ⟨e, he, haddr, hne⟩ := hcap
  -- the memory registry keeps the capacity of the entry
  have hkept : { e with lastHeartbeat := now₁ }
      ∈ (s.memory.register now₁ task addr).services.slice (Go.trimSpace task) := by
    rw [MemoryRegistry.register, if_neg (by simp [ht, ha]), MemoryRegistry.slice_putEntry,
      if_pos rfl]
    exact List.image_mem_upsert (h.tidy.nodup _) he haddr
  obtain ⟨e', he', hshown⟩ := halike.exists_cached hkept
  simp only [InStep.shown_withCount, Prod.mk.injEq] at hshown
  -- the cache has set it to one
  have hone : normalizedCapacity 1 = 1 := by decide
  have hcached : e'.capacity = 1 := by
    rcases s.stored.registerWithCapacity_cases now₁ now₂ task addr 1 with
      ⟨hblank, -⟩ | ⟨ht', ha', hstored⟩
    · exact absurd hblank (by simp [ht, ha])
    · simp only [step, StoreBackedRegistry.register, hstored, hone,
        (s.stored.registerEntry_of_quiet h.quiet now₁ now₂ _ _ 1).2.2,
        MemoryRegistry.registerWithCapacity_of_trimmed ht' ha', MemoryRegistry.slice_putEntry,
        if_true] at he'
      have hnodup := h.twin.addresses (Go.trimSpace task) ▸ h.tidy.nodup (Go.trimSpace task)
      rcases List.mem_upsert_of_key_eq hnodup he' (hshown.1.trans haddr) with
        rfl | ⟨_, -, -, rfl⟩ <;> rfl
  exact hne (hshown.2.1.symm.trans hcached)

/-- A lookup that sets counters back can be noticed. -/
theorem keepsCounts (h : InStep s) {task : String} {requestorIP : Option IP}
    (halike : Alike (s.step (.getServiceForRequestor task requestorIP))) :
    KeepsCounts s.memory task requestorIP := by
  by_contra hharm
  simp only [KeepsCounts, not_or] at hharm
  obtain ⟨ht, hweight, hcount⟩ := hharm
  push Not at hcount
  obtain ⟨addr, hheld, hne⟩ := hcount
  obtain ⟨e, he, rfl⟩ := List.mem_map.mp hheld
  have htrim := s.memory.getServiceForRequestor_trimSpace task requestorIP
  -- the memory registry refuses and stays as it is, and so does the cache
  obtain ⟨err, hmemory⟩ : ∃ err,
      s.memory.getServiceForRequestor task requestorIP = (s.memory, .error err) := by
    rcases hget : s.memory.getServiceForRequestor task requestorIP with ⟨reg, err | addr⟩
    · exact ⟨err, by rw [MemoryRegistry.getServiceForRequestor_error hget]⟩
    · exact absurd (MemoryRegistry.weight_pos_of_ok hget) hweight
  have hrefused {cache : MemoryRegistry} (htwin : cache.Twin s.memory) :
      cache.getServiceForRequestor (Go.trimSpace task) requestorIP = (cache, .error err) := by
    have hreply := (htwin.lookup (Go.trimSpace task) requestorIP).1
    rw [htrim, hmemory] at hreply
    rcases hget : cache.getServiceForRequestor (Go.trimSpace task) requestorIP with ⟨reg, reply⟩
    rw [hget] at hreply
    simp only at hreply
    subst hreply
    rw [MemoryRegistry.getServiceForRequestor_error hget]
  obtain ⟨-, -, ⟨hnone, -⟩ | ⟨-, hcache⟩⟩ :=
    StoreBackedRegistry.getServiceForRequestor_of_miss h.quiet.reliable h.eager ht (hrefused h.twin)
  · exact hnone e.address (h.active_iff.mpr hheld)
  rw [hrefused (h.twin_hydrated _)] at hcache
  have he₁ : e ∈ (s.step (.getServiceForRequestor task requestorIP)).memory.services.slice
      (Go.trimSpace task) := by
    simp only [step, hmemory]
    exact he
  obtain ⟨e', -, hshown⟩ := halike.exists_cached he₁
  simp only [InStep.shown_withCount, Prod.mk.injEq, step, hmemory, hcache] at hshown
  rcases h.hydrated_queryCounters (Go.trimSpace task)
    (counterKey (Go.trimSpace task) e.address) with ⟨-, hzero⟩ | ⟨hnot, -⟩
  · rw [hshown.1, hzero, h.tidy.zero he] at hshown
    exact hne hshown.2.2.symm
  · exact hnot ⟨e.address, hheld, rfl⟩

end InStep

/-- **When the two registries agree.** Given the same calls, the memory registry and the
store-backed one reply alike and list alike after every call exactly when every call is harmless in
the state it meets. -/
theorem twins_alike_iff (c : Collation) (now : Time) (fw : Option Firewall) (calls : List Call) :
    Run.Always step Alike (start c now fw) calls
      ↔ Run.Meets step Harmless (start c now fw) calls := by
  have halike : ∀ s, InStep s → Alike s := fun s h ↦ h.alike
  refine Run.always_iff_meets_of_invariant halike (fun s call h hc ↦ ?_)
    (fun s call h halike ↦ ?_) (inStep_start c now fw)
  · cases call with
    | register now₁ now₂ task addr => exact h.register hc
    | registerWithCapacity now₁ now₂ task addr capacity =>
      exact h.registerWithCapacity now₁ now₂ task addr capacity
    | getService task => exact h.getServiceForRequestor hc
    | getServiceForRequestor task requestorIP => exact h.getServiceForRequestor hc
  · cases call with
    | register now₁ now₂ task addr => exact h.harmless_register halike
    | registerWithCapacity now₁ now₂ task addr capacity => trivial
    | getService task => exact h.keepsCounts halike
    | getServiceForRequestor task requestorIP => exact h.keepsCounts halike

/-- A firewall that lets one client reach one service. -/
def oneClient : Firewall :=
  ⟨[{ sourceIP := [10, 9, 0, 1], destIP := Go.v4InV6Prefix ++ [10, 0, 0, 1] }]⟩

/-- A service registers with capacity five, is found, and refused to a stranger. The stranger's
query clears the count of the store-backed registry. A plain heartbeat then clears the capacity. -/
def strangerThenHeartbeat : List Call :=
  [.registerWithCapacity 1 1 "scan" "10.0.0.1:80" 5,
    .getServiceForRequestor "scan" (some [10, 9, 0, 1]),
    .getServiceForRequestor "scan" (some [10, 9, 0, 2]),
    .register 2 2 "scan" "10.0.0.1:80"]

theorem strangerThenHeartbeat_listed :
    ((Run.exec step (start .codePoint 0 (some oneClient))
        strangerThenHeartbeat).memory.listServices.slice "scan").map ServiceEntry.shown
        = [("10.0.0.1:80", 5, 1)]
      ∧ (((Run.exec step (start .codePoint 0 (some oneClient))
          strangerThenHeartbeat).stored.listServices 3 3 WarmOrders.asStored).2.slice "scan").map
            ServiceEntry.shown = [("10.0.0.1:80", 1, 0)] := by
  decide +kernel

end Twins

end TaskDiscovery
