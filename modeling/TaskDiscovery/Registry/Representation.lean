import TaskDiscovery.Lib.Run
import TaskDiscovery.Registry.Effects

/-!
# The representation of a registry

A `MemoryRegistry` keeps the entries of its tasks and their cursors in two maps, and nothing in the
types ties the two together. What selection, counting and cleanup rely on is `WellFormed`: a task
that is a key has an entry, no address stands twice under a task, every capacity is at least one,
and the tasks with a cursor are the tasks with entries.

Five functions write to the maps. Registrations and the fill of a cache go through `putEntry`, which
makes a cursor when it makes an entry (`WellFormed.putEntry`). A lookup moves a cursor only where
there are entries (`WellFormed.getServiceForRequestor`). A cleanup removes the cursor of a task
together with its last entry (`WellFormed.cleanupTask`). Copying the cursors of a cache to its
successor copies those of tasks that the successor has (`WellFormed.copyRoundRobinState`). So every
registry and every cache that calls can lead to is well formed (`exec_wellFormed`).
-/

namespace TaskDiscovery

open Go (IP)

theorem one_le_normalizedCapacity (c : Int64) : 1 ≤ normalizedCapacity c := by
  rw [normalizedCapacity]
  split_ifs with h
  · decide
  · rw [Int64.not_le, Int64.lt_iff_toInt_lt] at h
    rw [Int64.le_iff_toInt_le]
    exact h

namespace MemoryRegistry

/-- The entries of a task that is a key. -/
structure EntriesOk (entries : List ServiceEntry) : Prop where
  ne_nil : entries ≠ []
  nodup : (entries.map ServiceEntry.address).Nodup
  one_le : ∀ e ∈ entries, 1 ≤ e.capacity

/-- The representation invariant. -/
structure WellFormed (reg : MemoryRegistry) : Prop where
  entriesOk : ∀ {task entries}, reg.services.lookup task = some entries → EntriesOk entries
  cursor_iff : ∀ task, (reg.roundRobinIndex task).isSome ↔ task ∈ reg.services

variable {reg : MemoryRegistry}

theorem wellFormed_new (fw : Option Firewall) : WellFormed (new.setFirewall fw) where
  entriesOk h := absurd h (by simp [setFirewall, new])
  cursor_iff task := by simp [setFirewall, new]

namespace WellFormed

variable (h : WellFormed reg)
include h

theorem congr {reg' : MemoryRegistry} (hservices : reg'.services = reg.services)
    (hcursors : reg'.roundRobinIndex = reg.roundRobinIndex) : WellFormed reg' where
  entriesOk hlookup := h.entriesOk (hservices ▸ hlookup)
  cursor_iff task := by rw [hcursors, hservices, h.cursor_iff]

theorem nodup_slice (task : String) :
    ((reg.services.slice task).map ServiceEntry.address).Nodup := by
  rw [AList.slice]
  rcases hlookup : reg.services.lookup task with _ | entries
  · exact List.nodup_nil
  · exact (h.entriesOk hlookup).nodup

theorem one_le_of_mem_slice {task : String} {e : ServiceEntry} (he : e ∈ reg.services.slice task) :
    1 ≤ e.capacity := by
  rw [AList.slice] at he
  rcases hlookup : reg.services.lookup task with _ | entries
  · simp [hlookup] at he
  · rw [hlookup] at he
    exact (h.entriesOk hlookup).one_le e he

/-! ## Registrations -/

/-- The scan of a registration. When it appends an entry it makes sure of a cursor. -/
theorem putEntry {task addr : String} {f : ServiceEntry → ServiceEntry} {fresh : ServiceEntry}
    (hf : ∀ e, (f e).address = e.address) (hfresh : fresh.address = addr)
    (hcap : ∀ e, 1 ≤ e.capacity → 1 ≤ (f e).capacity) (hone : 1 ≤ fresh.capacity) :
    WellFormed (reg.putEntry task addr f fresh) := by
  refine ⟨fun {task' entries} hlookup ↦ ?_, fun task' ↦ ?_⟩
  · by_cases htask : task' = task
    · subst htask
      simp only [MemoryRegistry.putEntry, AList.lookup_insert, Option.some.injEq] at hlookup
      subst hlookup
      refine ⟨List.upsert_ne_nil _, List.nodup_map_upsert hf hfresh (h.nodup_slice task'), ?_⟩
      intro e he
      rcases List.mem_upsert he with hold | rfl | ⟨old, hold, -, rfl⟩
      · exact h.one_le_of_mem_slice hold
      · exact hone
      · exact hcap old (h.one_le_of_mem_slice hold)
    · rw [MemoryRegistry.putEntry, AList.lookup_insert_ne htask] at hlookup
      exact h.entriesOk hlookup
  · simp only [MemoryRegistry.putEntry, AList.mem_insert]
    split_ifs with hheld
    · -- an entry with the address is there, and the task is a key
      rw [h.cursor_iff, iff_or_self]
      rintro rfl
      by_contra hkey
      rw [AList.slice, AList.lookup_eq_none.mpr hkey] at hheld
      simp at hheld
    · by_cases htask : task' = task
      · simp [htask, SyncMap.loadOrStore]
      · simp [htask, SyncMap.loadOrStore, h.cursor_iff]

theorem register (now : Time) (task addr : String) : WellFormed (reg.register now task addr) := by
  rw [MemoryRegistry.register]
  split_ifs
  · exact h
  · exact h.putEntry (fun _ ↦ rfl) rfl (fun _ he ↦ he) (Int64.le_refl 1)

theorem registerWithCapacity (now : Time) (task addr : String) (capacity : Int64) :
    WellFormed (reg.registerWithCapacity now task addr capacity) := by
  rw [MemoryRegistry.registerWithCapacity]
  split_ifs
  · exact h
  · exact h.putEntry (fun _ ↦ rfl) rfl (fun _ _ ↦ one_le_normalizedCapacity capacity)
      (one_le_normalizedCapacity capacity)

/-! ## Lookups -/

theorem advanceCursor {task : String} {requestorIP : Option IP} {allowed : List ServiceEntry}
    (hcand : reg.candidates task requestorIP = .ok allowed) :
    WellFormed (reg.advanceCursor task allowed).1 := by
  refine ⟨h.entriesOk, fun task' ↦ ?_⟩
  simp only [MemoryRegistry.advanceCursor]
  by_cases htask : task' = task
  · subst htask
    -- the task has candidates, so it has entries
    have hkey : task' ∈ reg.services := by
      by_contra hkey
      simp [candidates, AList.slice, AList.lookup_eq_none.mpr hkey] at hcand
    simpa using hkey
  · rw [SyncMap.store_of_ne _ htask, h.cursor_iff]

theorem getServiceForRequestor (task : String) (requestorIP : Option IP) :
    WellFormed (reg.getServiceForRequestor task requestorIP).1 := by
  rw [MemoryRegistry.getServiceForRequestor]
  split_ifs
  · exact h
  · rcases hcand : reg.candidates (Go.trimSpace task) requestorIP with err | allowed
    · exact h
    · have hadvanced := h.advanceCursor hcand
      rcases hadv : reg.advanceCursor (Go.trimSpace task) allowed with ⟨reg', _ | addr⟩
      · simp only [hadv] at hadvanced ⊢
        exact hadvanced
      · simp only [hadv] at hadvanced ⊢
        exact hadvanced.congr rfl rfl

end WellFormed

/-! ## Cleanup -/

section Cleanup

variable {acc : MemoryRegistry × ℕ} {p : Sigma fun _ : String ↦ List ServiceEntry}
  {now timeout : Time}

/-- One task of a cleanup. The last entry of a task goes together with its cursor. -/
theorem WellFormed.cleanupTask (h : WellFormed acc.1)
    (hp : acc.1.services.lookup p.1 = some p.2) :
    WellFormed (MemoryRegistry.cleanupTask now timeout acc p).1 := by
  have hold := h.entriesOk hp
  have hkey : p.1 ∈ acc.1.services := AList.lookup_isSome.mp (by rw [hp]; rfl)
  refine ⟨fun {task entries} hlookup ↦ ?_, fun task ↦ ?_⟩
  · simp only [MemoryRegistry.cleanupTask] at hlookup
    by_cases htask : task = p.1
    · subst htask
      split_ifs at hlookup with hkept
      · rw [AList.lookup_erase] at hlookup
        simp at hlookup
      · rw [AList.lookup_insert, Option.some.injEq] at hlookup
        subst hlookup
        refine ⟨hkept, hold.nodup.sublist (List.filter_sublist.map _), fun e he ↦ ?_⟩
        exact hold.one_le e (List.mem_of_mem_filter he)
    · split_ifs at hlookup
      · rw [AList.lookup_erase_ne htask] at hlookup
        exact h.entriesOk hlookup
      · rw [AList.lookup_insert_ne htask] at hlookup
        exact h.entriesOk hlookup
  · simp only [MemoryRegistry.cleanupTask]
    split_ifs
    · by_cases htask : task = p.1
      · simp [htask]
      · rw [SyncMap.delete_of_ne _ htask, h.cursor_iff, AList.mem_erase]
        simp [htask]
    · rw [h.cursor_iff, AList.mem_insert, iff_or_self]
      rintro rfl
      exact hkey

theorem lookup_cleanupTask_of_ne {task : String} (h : task ≠ p.1) :
    (cleanupTask now timeout acc p).1.services.lookup task = acc.1.services.lookup task := by
  simp only [cleanupTask]
  split_ifs
  · exact AList.lookup_erase_ne h
  · exact AList.lookup_insert_ne h

theorem slice_cleanupTask_self :
    (cleanupTask now timeout acc p).1.services.slice p.1
      = p.2.filter fun e ↦ now < e.lastHeartbeat + timeout := by
  simp only [cleanupTask]
  split_ifs with hnil
  · rw [hnil, AList.slice, AList.lookup_erase, Option.getD_none]
  · rw [AList.slice_insert_self]

/-- **What a cleanup keeps.** Of each task the fresh entries, in their order. -/
theorem slice_cleanup (reg : MemoryRegistry) (now timeout : Time) (task : String) :
    (reg.cleanup now timeout).1.services.slice task
      = (reg.services.slice task).filter fun e ↦ now < e.lastHeartbeat + timeout := by
  let read (acc : MemoryRegistry × ℕ) (task : String) := acc.1.services.slice task
  have hother : ∀ acc p task, task ≠ p.1 →
      read (cleanupTask now timeout acc p) task = read acc task := by
    intro acc p task hne
    simp only [read, AList.slice, lookup_cleanupTask_of_ne hne]
  refine AList.slice_foldl_visit read hother
    (fun entries ↦ entries.filter fun e ↦ now < e.lastHeartbeat + timeout)
    (fun acc p ↦ slice_cleanupTask_self) reg.services (List.Perm.refl _) ?_ task
  intro task hlookup
  simp [read, AList.slice, hlookup]

theorem queryCounters_foldl_cleanupTask (l : List (Sigma fun _ : String ↦ List ServiceEntry))
    (acc : MemoryRegistry × ℕ) (key : String) :
    (l.foldl (cleanupTask now timeout) acc).1.queryCounters key
      = if ∃ p ∈ l, ∃ e ∈ p.2, e.lastHeartbeat + timeout ≤ now ∧ counterKey p.1 e.address = key
        then none else acc.1.queryCounters key := by
  induction l generalizing acc with
  | nil => simp
  | cons p l ih =>
    have hturn : (cleanupTask now timeout acc p).1.queryCounters key
        = if ∃ e ∈ p.2, e.lastHeartbeat + timeout ≤ now ∧ counterKey p.1 e.address = key
          then none else acc.1.queryCounters key := by
      simp only [cleanupTask, SyncMap.foldl_delete]
      simp [and_assoc]
    rw [List.foldl_cons, ih, hturn]
    simp only [List.mem_cons, exists_eq_or_imp]
    by_cases hlater : ∃ q ∈ l, ∃ e ∈ q.2, e.lastHeartbeat + timeout ≤ now
        ∧ counterKey q.1 e.address = key
    · rw [if_pos hlater, if_pos (Or.inr hlater)]
    · simp only [hlater, if_false, or_false]

/-- The counters that a cleanup forgets are those under the keys of the stale entries. -/
theorem queryCounters_cleanup (reg : MemoryRegistry) (now timeout : Time) (key : String) :
    ((∃ task, ∃ e ∈ reg.services.slice task, e.lastHeartbeat + timeout ≤ now
          ∧ counterKey task e.address = key)
        ∧ (reg.cleanup now timeout).1.queryCounters key = none)
      ∨ (¬∃ task, ∃ e ∈ reg.services.slice task, e.lastHeartbeat + timeout ≤ now
          ∧ counterKey task e.address = key)
        ∧ (reg.cleanup now timeout).1.queryCounters key = reg.queryCounters key := by
  have hiff : (∃ task, ∃ e ∈ reg.services.slice task, e.lastHeartbeat + timeout ≤ now
        ∧ counterKey task e.address = key)
      ↔ ∃ p ∈ reg.services.entries, ∃ e ∈ p.2, e.lastHeartbeat + timeout ≤ now
        ∧ counterKey p.1 e.address = key := by
    constructor
    · rintro ⟨task, e, he, hstale, hkey⟩
      obtain ⟨entries, hmem, hin⟩ := AList.mem_slice_iff.mp he
      exact ⟨⟨task, entries⟩, hmem, e, hin, hstale, hkey⟩
    · rintro ⟨⟨task, entries⟩, hmem, e, hin, hstale, hkey⟩
      exact ⟨task, e, AList.mem_slice_iff.mpr ⟨entries, hmem, hin⟩, hstale, hkey⟩
  rw [hiff, cleanup, queryCounters_foldl_cleanupTask]
  by_cases h : ∃ p ∈ reg.services.entries, ∃ e ∈ p.2, e.lastHeartbeat + timeout ≤ now
      ∧ counterKey p.1 e.address = key
  · exact Or.inl ⟨h, if_pos h⟩
  · exact Or.inr ⟨h, if_neg h⟩

/-- The loop of a cleanup. Its keys are different, so it finds each of them as it was listed. -/
theorem WellFormed.foldl_cleanupTask {l : List (Sigma fun _ : String ↦ List ServiceEntry)}
    (hkeys : l.NodupKeys) (h : WellFormed acc.1)
    (hl : ∀ p ∈ l, acc.1.services.lookup p.1 = some p.2) :
    WellFormed (l.foldl (MemoryRegistry.cleanupTask now timeout) acc).1 := by
  induction l generalizing acc with
  | nil => exact h
  | cons p l ih =>
    obtain ⟨hnew, hkeys⟩ := List.nodupKeys_cons.mp hkeys
    refine ih hkeys (h.cleanupTask (hl p List.mem_cons_self)) fun q hq ↦ ?_
    have hne : q.1 ≠ p.1 := fun heq ↦ hnew (heq ▸ List.mem_keys_of_mem hq)
    rw [lookup_cleanupTask_of_ne hne]
    exact hl q (List.mem_cons_of_mem _ hq)

theorem WellFormed.cleanup {reg : MemoryRegistry} (h : WellFormed reg) (now timeout : Time) :
    WellFormed (reg.cleanup now timeout).1 :=
  WellFormed.foldl_cleanupTask reg.services.nodupKeys h fun _ hp ↦ AList.mem_entries_iff.mp hp

end Cleanup

/-! ## Runs -/

/-- One call on the registry, with the clock reading it takes. -/
inductive Op
  | register (now : Time) (task addr : String)
  | registerWithCapacity (now : Time) (task addr : String) (capacity : Int64)
  | getServiceForRequestor (task : String) (requestorIP : Option IP)
  | cleanup (now timeout : Time)

def step (reg : MemoryRegistry) : Op → MemoryRegistry
  | .register now task addr => reg.register now task addr
  | .registerWithCapacity now task addr capacity =>
    reg.registerWithCapacity now task addr capacity
  | .getServiceForRequestor task requestorIP => (reg.getServiceForRequestor task requestorIP).1
  | .cleanup now timeout => (reg.cleanup now timeout).1

theorem WellFormed.step {reg : MemoryRegistry} (h : WellFormed reg) (op : Op) :
    WellFormed (reg.step op) := by
  cases op with
  | register now task addr => exact h.register now task addr
  | registerWithCapacity now task addr capacity =>
    exact h.registerWithCapacity now task addr capacity
  | getServiceForRequestor task requestorIP => exact h.getServiceForRequestor task requestorIP
  | cleanup now timeout => exact h.cleanup now timeout

end MemoryRegistry

/-! ## Caches -/

section Caches

open MemoryRegistry

theorem wellFormed_populateCacheEntry {cache : MemoryRegistry} (h : WellFormed cache)
    (task : String) (e : ServiceEntry) : WellFormed (populateCacheEntry cache task e) := by
  have hput : WellFormed (cache.putEntry task e.address
      (fun old ↦ { old with lastHeartbeat := e.lastHeartbeat,
                            capacity := normalizedCapacity e.capacity })
      { address := e.address, lastHeartbeat := e.lastHeartbeat,
        capacity := normalizedCapacity e.capacity }) :=
    h.putEntry (fun _ ↦ rfl) rfl (fun _ _ ↦ one_le_normalizedCapacity e.capacity)
      (one_le_normalizedCapacity e.capacity)
  exact hput.congr rfl rfl

theorem wellFormed_copyRoundRobinState {target : MemoryRegistry} (h : WellFormed target)
    (source : MemoryRegistry) : WellFormed (copyRoundRobinState source target) := by
  refine ⟨h.entriesOk, fun task ↦ ?_⟩
  simp only [copyRoundRobinState]
  rcases source.roundRobinIndex task with _ | cursor
  · exact h.cursor_iff task
  · by_cases hkey : task ∈ target.services
    · simp [AList.lookup_isSome.mpr hkey, hkey]
    · simp only [AList.lookup_isSome, if_neg hkey]
      exact h.cursor_iff task

end Caches

namespace StoreBackedRegistry

variable {sr : StoreBackedRegistry} {P : MemoryRegistry → Prop}

/-- A property of registries that whatever a store-backed registry does to its cache keeps. -/
structure CacheClosed (P : MemoryRegistry → Prop) : Prop where
  new : ∀ fw, P (MemoryRegistry.new.setFirewall fw)
  registerWithCapacity : ∀ {reg}, P reg → ∀ now task addr capacity,
    P (reg.registerWithCapacity now task addr capacity)
  getServiceForRequestor : ∀ {reg}, P reg → ∀ task requestorIP,
    P (reg.getServiceForRequestor task requestorIP).1
  cleanup : ∀ {reg}, P reg → ∀ now timeout, P (reg.cleanup now timeout).1
  populateCacheEntry : ∀ {reg}, P reg → ∀ task e, P (populateCacheEntry reg task e)
  copyRoundRobinState : ∀ {reg}, P reg → ∀ source, P (copyRoundRobinState source reg)

namespace CacheClosed

variable (hP : CacheClosed P)
include hP

theorem populateAll {reg : MemoryRegistry} (h : P reg) (l : List (String × ServiceEntry)) :
    P (populateAll reg l) := by
  induction l generalizing reg with
  | nil => exact h
  | cons p l ih => exact ih (hP.populateCacheEntry h p.1 p.2)

theorem register (h : P sr.memCache) (now₁ now₂ : Time) (task addr : String) (capacity : Int64) :
    P (sr.registerWithCapacity now₁ now₂ task addr capacity).memCache := by
  rw [StoreBackedRegistry.registerWithCapacity]
  split_ifs
  · exact h
  · have hafter : P (sr.memCache.registerWithCapacity now₁ (Go.trimSpace task) (Go.trimSpace addr)
        (normalizedCapacity capacity)) := hP.registerWithCapacity h ..
    rw [registerEntry]
    generalize sr.memCache.registerWithCapacity now₁ (Go.trimSpace task) (Go.trimSpace addr)
      (normalizedCapacity capacity) = cache at hafter ⊢
    rcases sr.store.register (Go.trimSpace task)
      { address := Go.trimSpace addr, lastHeartbeat := now₂,
        capacity := normalizedCapacity capacity } with ⟨store, err | ⟨⟩⟩
    · exact hafter
    · exact hafter

theorem lookup (h : P sr.memCache) (task : String) (requestorIP : Option IP) :
    P (sr.getServiceForRequestor task requestorIP).1.memCache := by
  by_cases ht : Go.trimSpace task = ""
  · rw [StoreBackedRegistry.getServiceForRequestor, if_pos ht]
    exact h
  rcases hget : sr.getServiceForRequestor task requestorIP with ⟨sr', result⟩
  rcases (getServiceForRequestor_cases ht hget).2.2 with
    ⟨addr, hcache⟩ | ⟨err, -, hcache⟩ | ⟨-, hcache⟩ | ⟨e, -, -, -, hcache⟩ | ⟨err, -, hcache⟩
  · have hafter := hP.getServiceForRequestor h (Go.trimSpace task) requestorIP
    rwa [hcache] at hafter
  · rwa [hcache]
  · have hafter := hP.getServiceForRequestor (hP.populateAll h ((sr.store.table.listTaskServices
      sr.store.collation (Go.trimSpace task)).map fun e ↦ (Go.trimSpace task, e)))
      (Go.trimSpace task) requestorIP
    rwa [hcache] at hafter
  · rwa [hcache]
  · rwa [hcache]

/-- The cache after a warm is the old one, or built up from nothing. -/
theorem warm (h : P sr.memCache) (now : Time) (ord : WarmOrders) :
    P (sr.warmCacheFromDB now ord).1.memCache := by
  have hsync := (syncQueryCountsToDB_config sr ord.sync).2
  have hpending :=
    (syncPendingRegistrations_config (sr.syncQueryCountsToDB ord.sync) ord.pending).2
  rw [warmCacheFromDB]
  rcases hload : ((sr.syncQueryCountsToDB ord.sync).syncPendingRegistrations
    ord.pending).loadCache ord.load (MemoryRegistry.new.setFirewall
      (sr.syncQueryCountsToDB ord.sync).memCache.firewall) with ⟨after, err | cache⟩
  · obtain ⟨⟨store, rfl, -⟩, -⟩ := loadCache_cases hload
    simp only [hpending, hsync]
    exact h
  · obtain ⟨-, ⟨hok, -⟩ | ⟨err, herr, -⟩⟩ := loadCache_cases hload
    · have hcache : P cache := by
        rw [Except.ok.inj hok]
        exact hP.populateAll (hP.new _) _
      simp only [preservePendingEntries]
      exact hP.copyRoundRobinState (hP.populateAll hcache _) _
    · simp at herr

/-- **The rule for caches.** What the operations on a cache keep, no call loses, however the store
behaves. -/
theorem step (h : P sr.memCache) (op : Op) : P (sr.step op).memCache := by
  cases op with
  | register now₁ now₂ task addr =>
    rw [StoreBackedRegistry.step, StoreBackedRegistry.register]
    exact hP.register h now₁ now₂ task addr 1
  | registerWithCapacity now₁ now₂ task addr capacity =>
    rw [StoreBackedRegistry.step]
    exact hP.register h now₁ now₂ task addr capacity
  | getServiceForRequestor task requestorIP =>
    rw [StoreBackedRegistry.step]
    exact hP.lookup h task requestorIP
  | warmCacheFromDB now ord => exact hP.warm h now ord
  | listServices now₁ now₂ ord =>
    simp only [StoreBackedRegistry.step, listServices]
    split_ifs
    · exact hP.warm h now₂ ord
    · exact h
  | cleanup now₁ now₂ timeout =>
    have hafter := hP.cleanup h now₁ timeout
    simp only [StoreBackedRegistry.step, StoreBackedRegistry.cleanup]
    rcases sr.store.cleanup now₂ timeout with ⟨store, err | flagged⟩
    · exact hafter
    · exact hafter

end CacheClosed

theorem cacheClosed_wellFormed : CacheClosed MemoryRegistry.WellFormed where
  new := MemoryRegistry.wellFormed_new
  registerWithCapacity h := h.registerWithCapacity
  getServiceForRequestor h := h.getServiceForRequestor
  cleanup h := h.cleanup
  populateCacheEntry h := wellFormed_populateCacheEntry h
  copyRoundRobinState h := wellFormed_copyRoundRobinState h

end StoreBackedRegistry

/-- **The representation invariant.** Every state of an in-memory registry, and every cache of a
store-backed one, is well formed, whatever calls have been made and however the store behaves. -/
theorem exec_wellFormed :
    (∀ (fw : Option Firewall) (ops : List MemoryRegistry.Op),
        (Run.exec MemoryRegistry.step (MemoryRegistry.new.setFirewall fw) ops).WellFormed)
      ∧ ∀ (store : PostgresStore) (cacheMaxSize : Int) (now : Time) (threshold : Int)
          (fw : Option Firewall) (ops : List StoreBackedRegistry.Op),
        (Run.exec StoreBackedRegistry.step (StoreBackedRegistry.start store cacheMaxSize now
          threshold fw) ops).memCache.WellFormed := by
  refine ⟨fun fw ops ↦ ?_, fun store cacheMaxSize now threshold fw ops ↦ ?_⟩
  · exact Run.invariant (fun _ op h ↦ h.step op) (MemoryRegistry.wellFormed_new fw) ops
  · exact Run.invariant (fun (sr : StoreBackedRegistry) op (h : sr.memCache.WellFormed) ↦
      StoreBackedRegistry.cacheClosed_wellFormed.step h op) (MemoryRegistry.wellFormed_new fw) ops

end TaskDiscovery
