import TaskDiscovery.Lib.RangeMap
import TaskDiscovery.Registry.Entry

/-!
# The in-memory registry

`MemoryRegistry` maps each task to its entries and keeps, beside that map, a cursor for every task,
a query counter for every `task:address` key, and the firewall. Each operation is a function from
the state and the clock reading it takes to the new state and its result.

Registering, registering with a capacity and the cache's own fill operation run the same scan: they
refresh the entry with the given address or append a new one. That scan is `putEntry`, and its
effect on the entries of every task is stated once, by `slice_putEntry` and `holds_putEntry`.

A lookup never changes which entries exist. What it can change, and what it can return, is collected
in `getServiceForRequestor_ok` and `getServiceForRequestor_error`.
-/

namespace TaskDiscovery

open Go (IP)

structure MemoryRegistry where
  services : AList fun _ : String ↦ List ServiceEntry
  roundRobinIndex : SyncMap String Int64
  queryCounters : SyncMap String Int
  totalQueries : Int
  firewall : Option Firewall

namespace MemoryRegistry

/-- `NewMemoryRegistry`. -/
def new : MemoryRegistry := ⟨∅, fun _ ↦ none, fun _ ↦ none, 0, none⟩

variable (reg : MemoryRegistry)

def setFirewall (fw : Option Firewall) : MemoryRegistry := { reg with firewall := fw }

/-! ## Operations -/

/-- Refresh the entry of `task` with address `addr` by `f`, or append `fresh`. A cursor is created
only when an entry is appended. -/
def putEntry (task addr : String) (f : ServiceEntry → ServiceEntry) (fresh : ServiceEntry) :
    MemoryRegistry :=
  let entries := reg.services.slice task
  { reg with
    services := reg.services.insert task (entries.upsert ServiceEntry.address addr f fresh)
    roundRobinIndex :=
      if addr ∈ entries.map ServiceEntry.address then reg.roundRobinIndex
      else reg.roundRobinIndex.loadOrStore task 0 }

/-- `MemoryRegistry.Register`: a heartbeat keeps the configured capacity. -/
def register (now : Time) (task addr : String) : MemoryRegistry :=
  let task := Go.trimSpace task
  let addr := Go.trimSpace addr
  if task = "" ∨ addr = "" then reg
  else
    reg.putEntry task addr (fun e ↦ { e with lastHeartbeat := now })
      { address := addr, lastHeartbeat := now, capacity := 1 }

def registerWithCapacity (now : Time) (task addr : String) (capacity : Int64) :
    MemoryRegistry :=
  let task := Go.trimSpace task
  let addr := Go.trimSpace addr
  if task = "" ∨ addr = "" then reg
  else
    let capacity := normalizedCapacity capacity
    reg.putEntry task addr (fun e ↦ { e with lastHeartbeat := now, capacity := capacity })
      { address := addr, lastHeartbeat := now, capacity := capacity }

/-- Whether the firewall lets the requestor reach an address, given a reading of addresses as
destinations. Without a firewall or a known requestor everything is reachable. -/
def permits (dest : String → Option IP) (fw : Option Firewall) (requestorIP : Option IP)
    (addr : String) : Bool :=
  match fw, requestorIP with
  | some fw, some src =>
    match dest addr with
    | some d => fw.isAllowed src d
    | none => false
  | _, _ => true

/-- The entries a requestor may be given. -/
def allowedEntries (fw : Option Firewall) (requestorIP : Option IP)
    (entries : List ServiceEntry) : List ServiceEntry :=
  entries.filter fun e ↦ permits destinationIPFromAddress fw requestorIP e.address

/-- The entries of a task that a requestor may be given. -/
def offered (task : String) (requestor : Option IP) : List ServiceEntry :=
  allowedEntries reg.firewall requestor (reg.services.slice task)

/-- The entries a lookup selects from: those of the task that the requestor may be given, when they
carry any weight. -/
def candidates (task : String) (requestorIP : Option IP) :
    Except RegistryError (List ServiceEntry) :=
  let entries := reg.services.slice task
  if entries = [] then .error .notFound
  else
    let allowed := allowedEntries reg.firewall requestorIP entries
    -- only a firewall can have emptied a nonempty list
    if allowed = [] then .error .noAllowedService
    else if totalServiceWeight allowed ≤ 0 then .error .notFound
    else .ok allowed

/-- Advance the cursor of the task and pick the entry it stood at. -/
def advanceCursor (task : String) (allowed : List ServiceEntry) : MemoryRegistry × Option String :=
  let cursor := (reg.roundRobinIndex task).getD 0
  ({ reg with roundRobinIndex := reg.roundRobinIndex.store task (cursor + 1) },
    selectWeightedAddress allowed (cursor % totalServiceWeight allowed))

def countQuery (task addr : String) : MemoryRegistry :=
  let key := counterKey task addr
  { reg with
    queryCounters := reg.queryCounters.store key ((reg.queryCounters key).getD 0 + 1)
    totalQueries := reg.totalQueries + 1 }

def getServiceForRequestor (task : String) (requestorIP : Option IP) :
    MemoryRegistry × Except RegistryError String :=
  let task := Go.trimSpace task
  if task = "" then (reg, .error .invalidTaskName)
  else
    match reg.candidates task requestorIP with
    | .error err => (reg, .error err)
    | .ok allowed =>
      match reg.advanceCursor task allowed with
      | (reg, none) => (reg, .error .notFound)
      | (reg, some addr) => (reg.countQuery task addr, .ok addr)

def getService (task : String) : MemoryRegistry × Except RegistryError String :=
  reg.getServiceForRequestor task none

/-- One task of the cleanup loop: keep what is fresh, forget the counters of the rest. -/
def cleanupTask (now timeout : Time) (acc : MemoryRegistry × ℕ)
    (p : Sigma fun _ : String ↦ List ServiceEntry) : MemoryRegistry × ℕ :=
  let fresh : ServiceEntry → Bool := fun e ↦ decide (now < e.lastHeartbeat + timeout)
  let kept := p.2.filter fresh
  let stale := p.2.filter fun e ↦ !fresh e
  ({ acc.1 with
      services := if kept = [] then acc.1.services.erase p.1 else acc.1.services.insert p.1 kept
      roundRobinIndex :=
        if kept = [] then acc.1.roundRobinIndex.delete p.1 else acc.1.roundRobinIndex
      queryCounters := stale.foldl (fun m e ↦ m.delete (counterKey p.1 e.address))
        acc.1.queryCounters },
    acc.2 + stale.length)

/-- `MemoryRegistry.Cleanup`. The tasks are independent of each other, so the order of the loop
cannot be observed. -/
def cleanup (now timeout : Time) : MemoryRegistry × ℕ :=
  reg.services.entries.foldl (cleanupTask now timeout) (reg, 0)

/-- The query counter of a pair, zero when there is none yet. -/
def count (task addr : String) : Int := (reg.queryCounters (counterKey task addr)).getD 0

/-- An entry with the current value of its counter filled in. -/
def withCount (counters : SyncMap String Int) (task : String) (e : ServiceEntry) : ServiceEntry :=
  match counters (counterKey task e.address) with
  | some n => { e with queryCount := n }
  | none => e

def listServices : AList fun _ : String ↦ List ServiceEntry :=
  reg.services.mapVal fun task entries ↦ entries.map (withCount reg.queryCounters task)

/-! ## Which entries exist -/

/-- An entry for `task` with address `addr` is registered. -/
def Holds (task addr : String) : Prop :=
  addr ∈ (reg.services.slice task).map ServiceEntry.address

instance (task addr : String) : Decidable (reg.Holds task addr) :=
  inferInstanceAs (Decidable (_ ∈ _))

def HasTask (task : String) : Prop := reg.services.slice task ≠ []

instance (task : String) : Decidable (reg.HasTask task) := inferInstanceAs (Decidable (_ ≠ _))

variable {reg}

theorem Holds.hasTask {task addr : String} (h : reg.Holds task addr) : reg.HasTask task := by
  rintro hnil
  rw [Holds, hnil] at h
  simp at h

theorem HasTask.exists_holds {task : String} (h : reg.HasTask task) :
    ∃ addr, reg.Holds task addr := by
  obtain ⟨e, l, hl⟩ := List.exists_cons_of_ne_nil h
  exact ⟨e.address, by simp [Holds, hl]⟩

@[simp] theorem not_holds_new (task addr : String) : ¬new.Holds task addr := by
  simp [Holds, new]

section PutEntry

variable {task addr : String} {f : ServiceEntry → ServiceEntry} {fresh : ServiceEntry}

theorem slice_putEntry (task' : String) :
    (reg.putEntry task addr f fresh).services.slice task'
      = if task' = task then (reg.services.slice task).upsert ServiceEntry.address addr f fresh
        else reg.services.slice task' := by
  by_cases h : task' = task
  · subst h
    rw [if_pos rfl, putEntry, AList.slice_insert_self]
  · rw [if_neg h, putEntry, AList.slice_insert_of_ne _ h]

theorem holds_putEntry (hf : ∀ e, (f e).address = e.address) (hfresh : fresh.address = addr)
    {task' addr' : String} :
    (reg.putEntry task addr f fresh).Holds task' addr'
      ↔ (task' = task ∧ addr' = addr) ∨ reg.Holds task' addr' := by
  rw [Holds, slice_putEntry]
  by_cases h : task' = task
  · subst h
    rw [if_pos rfl, List.mem_map_upsert hf hfresh, Holds]
    simp
  · rw [if_neg h, Holds]
    simp [h]

end PutEntry

theorem registerWithCapacity_of_trimmed {now : Time} {task addr : String} {capacity : Int64}
    (ht : Go.Trimmed task) (ha : Go.Trimmed addr) :
    reg.registerWithCapacity now task addr capacity
      = reg.putEntry task addr
          (fun e ↦ { e with lastHeartbeat := now, capacity := normalizedCapacity capacity })
          { address := addr, lastHeartbeat := now, capacity := normalizedCapacity capacity } := by
  rw [registerWithCapacity, ht.trimSpace_eq, ha.trimSpace_eq,
    if_neg (by simp [ht.ne_empty, ha.ne_empty])]

theorem holds_registerWithCapacity {now : Time} {task addr : String} {capacity : Int64}
    (ht : Go.Trimmed task) (ha : Go.Trimmed addr) {task' addr' : String} :
    (reg.registerWithCapacity now task addr capacity).Holds task' addr'
      ↔ (task' = task ∧ addr' = addr) ∨ reg.Holds task' addr' := by
  rw [registerWithCapacity_of_trimmed ht ha]
  exact holds_putEntry (by exact fun _ ↦ rfl) (by rfl)

theorem Holds.registerWithCapacity {task' addr' : String} (h : reg.Holds task' addr') (now : Time)
    (task addr : String) (capacity : Int64) :
    (reg.registerWithCapacity now task addr capacity).Holds task' addr' := by
  simp only [MemoryRegistry.registerWithCapacity]
  split_ifs
  · exact h
  · exact (holds_putEntry (by exact fun _ ↦ rfl) (by rfl)).mpr (Or.inr h)

@[simp] theorem register_firewall {now : Time} {task addr : String} :
    (reg.register now task addr).firewall = reg.firewall := by
  rw [register]
  split_ifs <;> rfl

@[simp] theorem registerWithCapacity_firewall {now : Time} {task addr : String}
    {capacity : Int64} :
    (reg.registerWithCapacity now task addr capacity).firewall = reg.firewall := by
  rw [registerWithCapacity]
  split_ifs <;> rfl

/-! ## What a lookup does -/

theorem candidates_ok {task : String} {requestorIP : Option IP} {allowed : List ServiceEntry}
    (h : reg.candidates task requestorIP = .ok allowed) :
    allowed = allowedEntries reg.firewall requestorIP (reg.services.slice task)
      ∧ 0 < totalServiceWeight allowed := by
  simp only [candidates] at h
  split_ifs at h with hnil hall hweight
  obtain rfl := Except.ok.inj h
  exact ⟨rfl, Int64.not_le.mp hweight⟩

theorem candidates_of_pos {task : String} {requestorIP : Option IP}
    (hpos : 0 < totalServiceWeight
      (allowedEntries reg.firewall requestorIP (reg.services.slice task))) :
    reg.candidates task requestorIP
      = .ok (allowedEntries reg.firewall requestorIP (reg.services.slice task)) := by
  have hallowed : allowedEntries reg.firewall requestorIP (reg.services.slice task) ≠ [] := by
    intro hnil
    rw [hnil] at hpos
    exact absurd hpos (by decide)
  have hentries : reg.services.slice task ≠ [] := by
    intro hnil
    rw [hnil] at hallowed
    exact hallowed rfl
  simp only [candidates, if_neg hentries, if_neg hallowed, if_neg (Int64.not_le.mpr hpos)]

/-- A cursor over candidates always finds one, and moving it leaves the rest alone. -/
theorem advanceCursor_of_candidates {task : String} {requestorIP : Option IP}
    {allowed : List ServiceEntry} (h : reg.candidates task requestorIP = .ok allowed) :
    ∃ cursors addr, reg.advanceCursor task allowed
        = ({ reg with roundRobinIndex := cursors }, some addr)
      ∧ ∃ e ∈ allowed, e.address = addr := by
  obtain ⟨addr, hsel⟩ := Option.ne_none_iff_exists'.mp
    (selectWeightedAddress_ne_none (candidates_ok h).2 ((reg.roundRobinIndex task).getD 0))
  refine ⟨reg.roundRobinIndex.store task ((reg.roundRobinIndex task).getD 0 + 1), addr, ?_,
    selectWeightedAddress_mem hsel⟩
  rw [advanceCursor, hsel]

/-- **A successful lookup.** The address belongs to an allowed entry of the task, its counter goes
up by one, and the entries and the firewall stay. -/
theorem getServiceForRequestor_ok {task addr : String} {requestorIP : Option IP}
    {reg' : MemoryRegistry}
    (h : reg.getServiceForRequestor task requestorIP = (reg', .ok addr)) :
    (∃ e ∈ allowedEntries reg.firewall requestorIP (reg.services.slice (Go.trimSpace task)),
        e.address = addr)
      ∧ reg'.services = reg.services ∧ reg'.firewall = reg.firewall
      ∧ reg'.queryCounters = reg.queryCounters.store (counterKey (Go.trimSpace task) addr)
          ((reg.queryCounters (counterKey (Go.trimSpace task) addr)).getD 0 + 1) := by
  simp only [getServiceForRequestor] at h
  split_ifs at h
  · simp at h
  · rcases hcand : reg.candidates (Go.trimSpace task) requestorIP with err | allowed
    · simp [hcand] at h
    · obtain ⟨cursors, addr', hadv, hmem⟩ := advanceCursor_of_candidates hcand
      rw [(candidates_ok hcand).1] at hmem
      simp only [hcand, hadv] at h
      obtain ⟨rfl, haddr⟩ := Prod.mk.inj h
      obtain rfl := Except.ok.inj haddr
      exact ⟨hmem, by simp [countQuery]⟩

/-- A failed lookup changes nothing: the cursor moves only over candidates, and over candidates it
finds an entry. -/
theorem getServiceForRequestor_error {task : String} {requestorIP : Option IP}
    {err : RegistryError} {reg' : MemoryRegistry}
    (h : reg.getServiceForRequestor task requestorIP = (reg', .error err)) : reg' = reg := by
  simp only [getServiceForRequestor] at h
  split_ifs at h
  · exact (Prod.mk.inj h).1.symm
  · rcases hcand : reg.candidates (Go.trimSpace task) requestorIP with err' | allowed
    · rw [hcand] at h
      exact (Prod.mk.inj h).1.symm
    · obtain ⟨cursors, addr', hadv, -⟩ := advanceCursor_of_candidates hcand
      simp [hcand, hadv] at h

theorem getServiceForRequestor_trimSpace (reg : MemoryRegistry) (task : String)
    (requestorIP : Option IP) :
    reg.getServiceForRequestor (Go.trimSpace task) requestorIP
      = reg.getServiceForRequestor task requestorIP := by
  rw [getServiceForRequestor, getServiceForRequestor, Go.trimSpace_idem]

theorem getServiceForRequestor_of_pos {task : String} {requestorIP : Option IP}
    (ht : Go.Trimmed task)
    (hpos : 0 < totalServiceWeight
      (allowedEntries reg.firewall requestorIP (reg.services.slice task))) :
    ∃ reg' addr, reg.getServiceForRequestor task requestorIP = (reg', .ok addr) := by
  have hcand := candidates_of_pos hpos
  obtain ⟨cursors, addr, hadv, -⟩ := advanceCursor_of_candidates hcand
  refine ⟨{ reg with roundRobinIndex := cursors }.countQuery task addr, addr, ?_⟩
  simp only [getServiceForRequestor, ht.trimSpace_eq, if_neg ht.ne_empty, hcand, hadv]

theorem weight_pos_of_ok {task addr : String} {requestorIP : Option IP} {reg' : MemoryRegistry}
    (h : reg.getServiceForRequestor task requestorIP = (reg', .ok addr)) :
    0 < totalServiceWeight (allowedEntries reg.firewall requestorIP
      (reg.services.slice (Go.trimSpace task))) := by
  simp only [getServiceForRequestor] at h
  split_ifs at h
  · simp at h
  · rcases hcand : reg.candidates (Go.trimSpace task) requestorIP with err | allowed
    · simp [hcand] at h
    · obtain ⟨rfl, hpos⟩ := candidates_ok hcand
      exact hpos

/-- The four ways in which a lookup of a task ends. -/
inductive LookupOutcome (reg : MemoryRegistry) (task : String) (requestorIP : Option IP) :
    MemoryRegistry × Except RegistryError String → Prop
  /-- An entry was selected. -/
  | answered (reg' : MemoryRegistry) (addr : String)
      (hpos : 0 < totalServiceWeight (reg.offered task requestorIP))
      (hmem : ∃ e ∈ reg.offered task requestorIP, e.address = addr) :
      LookupOutcome reg task requestorIP (reg', .ok addr)
  /-- The task has no entries. -/
  | absent (hnil : reg.services.slice task = []) :
      LookupOutcome reg task requestorIP (reg, .error .notFound)
  /-- The firewall refuses all entries. -/
  | refused (hne : reg.services.slice task ≠ []) (hnil : reg.offered task requestorIP = []) :
      LookupOutcome reg task requestorIP (reg, .error .noAllowedService)
  /-- The weight of the entries has wrapped around. -/
  | weightless (hne : reg.offered task requestorIP ≠ [])
      (hweight : ¬0 < totalServiceWeight (reg.offered task requestorIP)) :
      LookupOutcome reg task requestorIP (reg, .error .notFound)

theorem getServiceForRequestor_outcome (reg : MemoryRegistry) {task : String}
    (ht : Go.trimSpace task ≠ "") (requestorIP : Option IP) :
    LookupOutcome reg (Go.trimSpace task) requestorIP
      (reg.getServiceForRequestor task requestorIP) := by
  by_cases hpos : 0 < totalServiceWeight (reg.offered (Go.trimSpace task) requestorIP)
  · obtain ⟨reg', addr, hget⟩ := getServiceForRequestor_of_pos (Go.trimmed_trimSpace ht) hpos
    rw [getServiceForRequestor_trimSpace] at hget
    rw [hget]
    exact .answered reg' addr hpos (getServiceForRequestor_ok hget).1
  · have hfail : ∀ err, reg.candidates (Go.trimSpace task) requestorIP = .error err →
        reg.getServiceForRequestor task requestorIP = (reg, .error err) := by
      intro err hcand
      simp only [getServiceForRequestor, if_neg ht, hcand]
    have hcand : reg.candidates (Go.trimSpace task) requestorIP
        = if reg.services.slice (Go.trimSpace task) = [] then .error .notFound
          else if reg.offered (Go.trimSpace task) requestorIP = [] then .error .noAllowedService
          else if totalServiceWeight (reg.offered (Go.trimSpace task) requestorIP) ≤ 0
            then .error .notFound
          else .ok (reg.offered (Go.trimSpace task) requestorIP) := rfl
    by_cases hnil : reg.services.slice (Go.trimSpace task) = []
    · rw [hfail .notFound (by rw [hcand, if_pos hnil])]
      exact .absent hnil
    · by_cases hallowed : reg.offered (Go.trimSpace task) requestorIP = []
      · rw [hfail .noAllowedService (by rw [hcand, if_neg hnil, if_pos hallowed])]
        exact .refused hnil hallowed
      · rw [hfail .notFound (by rw [hcand, if_neg hnil, if_neg hallowed,
          if_pos (Int64.not_lt.mp hpos)])]
        exact .weightless hallowed hpos

theorem offered_of_slice_nil {task : String} (h : reg.services.slice task = [])
    (requestorIP : Option IP) : reg.offered task requestorIP = [] := by
  rw [offered, h]
  rfl

theorem not_pos_of_offered_nil {task : String} {requestorIP : Option IP}
    (h : reg.offered task requestorIP = []) :
    ¬0 < totalServiceWeight (reg.offered task requestorIP) := by
  rw [h]
  decide

theorem getServiceForRequestor_ok_iff (reg : MemoryRegistry) {task : String}
    (ht : Go.trimSpace task ≠ "") (requestorIP : Option IP) :
    (∃ addr, (reg.getServiceForRequestor task requestorIP).2 = .ok addr
        ∧ ∃ e ∈ reg.offered (Go.trimSpace task) requestorIP, e.address = addr)
      ↔ 0 < totalServiceWeight (reg.offered (Go.trimSpace task) requestorIP) := by
  have houtcome := reg.getServiceForRequestor_outcome ht requestorIP
  generalize reg.getServiceForRequestor task requestorIP = result at houtcome ⊢
  rcases houtcome with ⟨reg', addr, hpos, hmem⟩ | hnil | ⟨hne, hnil⟩ | ⟨hne, hweight⟩
  · exact ⟨fun _ ↦ hpos, fun _ ↦ ⟨addr, rfl, hmem⟩⟩
  · simp [not_pos_of_offered_nil (offered_of_slice_nil hnil requestorIP)]
  · simp [not_pos_of_offered_nil hnil]
  · simp [hweight]

theorem getServiceForRequestor_of_singleton {task : String} {requestorIP : Option IP}
    {e : ServiceEntry} (ht : Go.Trimmed task) (hoffered : reg.offered task requestorIP = [e])
    (hpos : 0 < totalServiceWeight [e]) :
    ∃ reg', reg.getServiceForRequestor task requestorIP = (reg', .ok e.address) := by
  rw [← hoffered] at hpos
  obtain ⟨reg', addr, hget⟩ := getServiceForRequestor_of_pos ht hpos
  obtain ⟨e', he', rfl⟩ := (getServiceForRequestor_ok hget).1
  rw [ht.trimSpace_eq, ← offered, hoffered, List.mem_singleton] at he'
  exact ⟨reg', by rw [hget, he']⟩

theorem getServiceForRequestor_frame (reg : MemoryRegistry) (task : String)
    (requestorIP : Option IP) :
    (reg.getServiceForRequestor task requestorIP).1.services = reg.services
      ∧ (reg.getServiceForRequestor task requestorIP).1.firewall = reg.firewall := by
  rcases h : reg.getServiceForRequestor task requestorIP with ⟨reg', err | addr⟩
  · rw [getServiceForRequestor_error h]
    exact ⟨rfl, rfl⟩
  · exact ⟨(getServiceForRequestor_ok h).2.1, (getServiceForRequestor_ok h).2.2.1⟩

theorem mem_allowedEntries {fw : Firewall} {src : IP} {entries : List ServiceEntry}
    {e : ServiceEntry} :
    e ∈ allowedEntries (some fw) (some src) entries
      ↔ e ∈ entries ∧ ∃ d, destinationIPFromAddress e.address = some d
          ∧ fw.isAllowed src d = true := by
  rw [allowedEntries, List.mem_filter, permits]
  rcases destinationIPFromAddress e.address with _ | d <;> simp

/-- What the fallback permits, the cache would have permitted. -/
theorem permits_of_storePermits {fw : Option Firewall} {requestorIP : Option IP} {addr : String}
    (h : permits storeDestinationIP fw requestorIP addr = true) :
    permits destinationIPFromAddress fw requestorIP addr = true := by
  rcases fw with _ | fw
  · rfl
  rcases requestorIP with _ | src
  · rfl
  rw [permits] at h ⊢
  rcases hdest : storeDestinationIP addr with _ | d
  · simp [hdest] at h
  · rw [hdest] at h
    rw [destinationIPFromAddress_of_store hdest]
    exact h

/-! ## Listing and cleaning up -/

@[simp] theorem withCount_address (counters : SyncMap String Int) (task : String)
    (e : ServiceEntry) : (withCount counters task e).address = e.address := by
  rw [withCount]
  split <;> rfl

theorem slice_listServices (task : String) :
    reg.listServices.slice task
      = (reg.services.slice task).map (withCount reg.queryCounters task) := by
  rw [listServices, AList.slice, AList.lookup_mapVal, AList.slice]
  cases reg.services.lookup task <;> rfl

theorem cleanup_firewall (reg : MemoryRegistry) (now timeout : Time) :
    (reg.cleanup now timeout).1.firewall = reg.firewall := by
  have key : ∀ (l : List (Sigma fun _ : String ↦ List ServiceEntry)) (acc : MemoryRegistry × ℕ),
      (l.foldl (cleanupTask now timeout) acc).1.firewall = acc.1.firewall := by
    intro l
    induction l with
    | nil => intro acc; rfl
    | cons p l ih => intro acc; rw [List.foldl_cons, ih]; rfl
  exact key _ _

end MemoryRegistry

end TaskDiscovery
