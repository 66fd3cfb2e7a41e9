import Mathlib.Data.List.Dedup
import TaskDiscovery.Lib.Rotation
import TaskDiscovery.Lib.Run
import TaskDiscovery.Registry.Fallback

/-!
# The rotation over the instances of a task

A cursor over a list of entries selects the one that holds the slot it points at, and an entry holds
as many slots as it weighs. As long as neither the weights nor the cursor overflow, successive
lookups go round the `slots` of the list (`selectWeightedAddress_eq_rotation`).

Three things decide what a lookup returns next: whether the cache holds the task, the order of the
entries, and one of two cursors. The cache keeps the order in which instances came, with a cursor of
its own. The fallback goes through the store's order, which is by address, with another cursor.
`upcoming` is the sequence of addresses that follows when nothing interferes. Admission and warming
put the order of the store under the cursor of the cache, so they go on with the same sequence only
when the two agree at that point. A heartbeat of a task that is not cached leaves a cache with a
single instance.

`Undisturbed` is the condition on a step that the sequence goes on. In a run of such steps every
full round returns each instance as often as it weighs (`window_fair`), whatever the history before
it. A warm between two lookups can return one instance twice (`outOfOrder_repeats`).
-/

namespace TaskDiscovery

open Go (IP)
open List (turn Reads)

/-! ## Slots -/

/-- What an entry contributes to the rotation: its address and its weight. -/
def ServiceEntry.share (e : ServiceEntry) : String × Int64 := (e.address, serviceWeight e)

/-- The addresses of the entries, each as often as its weight. -/
def slots (entries : List ServiceEntry) : List String :=
  (entries.map ServiceEntry.share).flatMap fun p ↦ List.replicate p.2.toNatClampNeg p.1

theorem slots_congr {l l' : List ServiceEntry}
    (h : l.map ServiceEntry.share = l'.map ServiceEntry.share) : slots l = slots l' := by
  rw [slots, slots, h]

theorem slots_perm {l l' : List ServiceEntry}
    (h : (l.map ServiceEntry.share).Perm (l'.map ServiceEntry.share)) :
    (slots l).Perm (slots l') :=
  h.flatMap_right _

theorem ne_nil_of_map_share_eq {l l' : List ServiceEntry}
    (h : l.map ServiceEntry.share = l'.map ServiceEntry.share) (hne : l' ≠ []) : l ≠ [] := by
  rintro rfl
  exact hne (List.map_eq_nil_iff.mp h.symm)

@[simp] theorem slots_nil : slots [] = [] := rfl

theorem slots_cons (e : ServiceEntry) (l : List ServiceEntry) :
    slots (e :: l) = List.replicate (serviceWeight e).toNatClampNeg e.address ++ slots l := rfl

theorem serviceWeight_pos (e : ServiceEntry) : 0 < (serviceWeight e).toInt := by
  have h := normalizedCapacity_pos e.capacity
  rwa [Int64.lt_iff_toInt_lt] at h

theorem toInt_serviceWeight (e : ServiceEntry) :
    (serviceWeight e).toInt = (serviceWeight e).toNatClampNeg := by
  rw [← Int64.toNat_toInt, Int.toNat_of_nonneg (serviceWeight_pos e).le]

theorem slots_ne_nil {l : List ServiceEntry} (h : l ≠ []) : slots l ≠ [] := by
  obtain ⟨e, l, rfl⟩ := List.exists_cons_of_ne_nil h
  have hpos := serviceWeight_pos e
  rw [toInt_serviceWeight] at hpos
  rw [slots_cons, Ne, List.append_eq_nil_iff, List.replicate_eq_nil_iff]
  omega

theorem mem_slots {l : List ServiceEntry} {addr : String} :
    addr ∈ slots l ↔ ∃ e ∈ l, e.address = addr := by
  simp only [slots, List.mem_flatMap, List.mem_map]
  constructor
  · rintro ⟨p, ⟨e, he, rfl⟩, hmem⟩
    exact ⟨e, he, (List.eq_of_mem_replicate hmem).symm⟩
  · rintro ⟨e, he, rfl⟩
    have hpos := serviceWeight_pos e
    rw [toInt_serviceWeight] at hpos
    have hne : (serviceWeight e).toNatClampNeg ≠ 0 := by omega
    exact ⟨e.share, ⟨e, he, rfl⟩, List.mem_replicate.mpr ⟨hne, rfl⟩⟩

theorem length_slots (l : List ServiceEntry) :
    (slots l).length = (l.map fun e ↦ (serviceWeight e).toNatClampNeg).sum := by
  induction l with
  | nil => rfl
  | cons e l ih => rw [slots_cons, List.length_append, List.length_replicate, ih, List.map_cons,
      List.sum_cons]

theorem count_slots {l : List ServiceEntry} (hnodup : (l.map ServiceEntry.address).Nodup)
    {e : ServiceEntry} (he : e ∈ l) :
    (slots l).count e.address = (serviceWeight e).toNatClampNeg := by
  induction l with
  | nil => simp at he
  | cons e' l ih =>
    rw [List.map_cons, List.nodup_cons] at hnodup
    rw [slots_cons, List.count_append, List.count_replicate]
    rcases List.mem_cons.mp he with rfl | he
    · have hno : (slots l).count e.address = 0 := by
        rw [List.count_eq_zero, mem_slots]
        rintro ⟨e', he', heq⟩
        exact hnodup.1 (heq ▸ List.mem_map_of_mem he')
      simp [hno]
    · have hne : e'.address ≠ e.address := fun heq ↦ hnodup.1 (heq ▸ List.mem_map_of_mem he)
      simp [hne, ih hnodup.2 he]

private theorem toInt_add_of_lt {a b : Int64} (ha : 0 ≤ a.toInt) (hb : 0 ≤ b.toInt)
    (hlt : a.toInt + b.toInt < 2 ^ 63) : (a + b).toInt = a.toInt + b.toInt := by
  rw [Int64.toInt_add]
  exact Int.bmod_eq_of_le (by omega) (by omega)

/-- The scan finds the address of a slot, as long as the running weight does not wrap around. -/
theorem selectWeightedFrom_eq_slot {running slot : Int64} {l : List ServiceEntry}
    (hrunning : 0 ≤ running.toInt) (hslot : running.toInt ≤ slot.toInt)
    (hbound : running.toInt + (slots l).length < 2 ^ 63) :
    selectWeightedFrom running l slot = (slots l)[(slot.toInt - running.toInt).toNat]? := by
  induction l generalizing running with
  | nil => rfl
  | cons e l ih =>
    have hweight := toInt_serviceWeight e
    rw [slots_cons, List.length_append, List.length_replicate] at hbound
    have hnext : (running + serviceWeight e).toInt
        = running.toInt + (serviceWeight e).toNatClampNeg := by
      rw [toInt_add_of_lt hrunning (by omega) (by omega), hweight]
    rw [selectWeightedFrom, slots_cons]
    by_cases hhere : slot < running + serviceWeight e
    · rw [if_pos hhere]
      rw [Int64.lt_iff_toInt_lt, hnext] at hhere
      rw [List.getElem?_append_left (by rw [List.length_replicate]; omega),
        List.getElem?_replicate_of_lt (by omega)]
    · rw [if_neg hhere]
      rw [Int64.lt_iff_toInt_lt, hnext] at hhere
      rw [ih (by omega) (by omega) (by omega), List.getElem?_append_right
        (by rw [List.length_replicate]; omega), List.length_replicate, hnext]
      congr 1
      omega

theorem toInt_totalServiceWeight {l : List ServiceEntry} (hbound : (slots l).length < 2 ^ 63) :
    (totalServiceWeight l).toInt = (slots l).length := by
  have key : ∀ (l : List ServiceEntry) (running : Int64), 0 ≤ running.toInt →
      running.toInt + (slots l).length < 2 ^ 63 →
      (l.foldl (fun total e ↦ total + serviceWeight e) running).toInt
        = running.toInt + (slots l).length := by
    intro l
    induction l with
    | nil => intro running _ _; simp
    | cons e l ih =>
      intro running hrunning hb
      have hweight := toInt_serviceWeight e
      rw [slots_cons, List.length_append, List.length_replicate] at hb ⊢
      have hnext := toInt_add_of_lt hrunning (serviceWeight_pos e).le (by omega)
      rw [List.foldl_cons, ih _ (by omega) (by omega), hnext, hweight]
      omega
  rw [totalServiceWeight, key l 0 (by decide) (by rw [Int64.toInt_zero]; omega), Int64.toInt_zero,
    Int.zero_add]

/-- The addresses that a cursor over the entries selects from now on. -/
def rotation (entries : List ServiceEntry) (cursor : Int64) : ℕ → Option String :=
  turn (slots entries) cursor.toNatClampNeg

/-- The cursor can be advanced without wrapping around. -/
def InRange (cursor : Int64) : Prop := 0 ≤ cursor.toInt ∧ cursor.toInt + 1 < 2 ^ 63

instance (cursor : Int64) : Decidable (InRange cursor) := inferInstanceAs (Decidable (_ ∧ _))

theorem InRange.toInt_succ {cursor : Int64} (h : InRange cursor) :
    (cursor + 1).toInt = cursor.toInt + 1 := by
  have hone : (1 : Int64).toInt = 1 := by decide
  have hadd := toInt_add_of_lt h.1 (by decide : 0 ≤ (1 : Int64).toInt) (by rw [hone]; exact h.2)
  rw [hadd, hone]

theorem rotation_succ {cursor : Int64} (h : InRange cursor) (entries : List ServiceEntry) :
    rotation entries (cursor + 1) = fun i ↦ rotation entries cursor (i + 1) := by
  have hnext : (cursor + 1).toNatClampNeg = cursor.toNatClampNeg + 1 := by
    rw [← Int64.toNat_toInt, ← Int64.toNat_toInt, h.toInt_succ]
    exact Int.toNat_add_nat h.1 1
  rw [rotation, hnext, List.turn_succ]
  rfl

theorem rotation_zero {cursor : Int64} {c : ℕ} (h : cursor.toInt = c)
    (entries : List ServiceEntry) :
    rotation entries cursor 0 = (slots entries)[c % (slots entries).length]? := by
  rw [rotation, turn, ← Int64.toNat_toInt, h, Int.toNat_natCast, Nat.add_zero]

/-- **What a cursor selects.** A cursor that has not wrapped around goes round the slots. -/
theorem selectWeightedAddress_eq_rotation {l : List ServiceEntry}
    (hbound : (slots l).length < 2 ^ 63) {cursor : Int64} (hcursor : 0 ≤ cursor.toInt) :
    selectWeightedAddress l (cursor % totalServiceWeight l)
      = rotation l cursor 0 := by
  have hmod : (cursor % totalServiceWeight l).toInt
      = (cursor.toNatClampNeg % (slots l).length : ℕ) := by
    rw [Int64.toInt_mod, toInt_totalServiceWeight hbound, Int.tmod_eq_emod_of_nonneg hcursor,
      ← Int64.toNat_toInt, Int.natCast_emod, Int.toNat_of_nonneg hcursor]
  rw [selectWeightedAddress, selectWeightedFrom_eq_slot (by decide)
    (by rw [hmod]; exact Int.natCast_nonneg _) (by rw [Int64.toInt_zero]; omega), hmod,
    Int64.toInt_zero, Int.sub_zero, Int.toNat_natCast]
  rfl

theorem totalServiceWeight_pos {l : List ServiceEntry} (hbound : (slots l).length < 2 ^ 63)
    (hne : l ≠ []) : 0 < totalServiceWeight l := by
  have hlen := List.length_pos_iff.mpr (slots_ne_nil hne)
  rw [Int64.lt_iff_toInt_lt, toInt_totalServiceWeight hbound, Int64.toInt_zero]
  omega

/-! ## What the store offers -/

namespace Table

variable {t t' : Table} {c : Collation} {task addr : String}

/-- The pair has an active row, with the given weight. -/
def Offers (t : Table) (task addr : String) (weight : Int64) : Prop :=
  ∃ row, t.lookup (task, addr) = some row ∧ row.isActive = true
    ∧ normalizedCapacity row.capacity = weight

theorem mem_map_share_listTaskServices {p : String × Int64} :
    p ∈ (t.listTaskServices c task).map ServiceEntry.share ↔ t.Offers task p.1 p.2 := by
  rw [List.mem_map]
  constructor
  · rintro ⟨e, he, rfl⟩
    obtain ⟨row, hlook, hact, hscan⟩ := mem_listTaskServices.mp he
    refine ⟨row, hlook, hact, ?_⟩
    rw [ServiceEntry.share, serviceWeight, hscan]
    exact (normalizedCapacity_idem row.capacity).symm
  · rintro ⟨row, hlook, hact, hweight⟩
    refine ⟨scan p.1 row, mem_listTaskServices.mpr ⟨row, hlook, hact, rfl⟩, Prod.ext rfl ?_⟩
    rw [← hweight]
    exact normalizedCapacity_idem row.capacity

theorem Offers.unique {weight weight' : Int64} (h : t.Offers task addr weight)
    (h' : t.Offers task addr weight') : weight = weight' := by
  obtain ⟨row, hlook, -, rfl⟩ := h
  obtain ⟨row', hlook', -, rfl⟩ := h'
  rw [hlook] at hlook'
  rw [Option.some.inj hlook']

/-- What is offered decides the rotation over the store's entries, their order included. -/
theorem map_share_listTaskServices_congr
    (h : ∀ addr weight, t.Offers task addr weight ↔ t'.Offers task addr weight) :
    (t.listTaskServices c task).map ServiceEntry.share
      = (t'.listTaskServices c task).map ServiceEntry.share := by
  refine (ordered_listTaskServices t c task).map_eq (ordered_listTaskServices t' c task) _ Prod.fst
    (fun _ ↦ rfl) fun p ↦ ?_
  rw [mem_map_share_listTaskServices, mem_map_share_listTaskServices, h]

theorem offers_incrementQueryCount {task' addr' : String} {weight : Int64} :
    (t.incrementQueryCount task' addr').1.Offers task addr weight ↔ t.Offers task addr weight := by
  rw [Offers, Offers, lookup_incrementQueryCount]
  by_cases h : (task, addr) = (task', addr')
  · rw [if_pos h, h]
    rcases t.lookup (task', addr') with _ | row
    · simp
    · by_cases hact : row.isActive = true <;> simp [hact]
  · rw [if_neg h]

theorem offers_register {task' : String} {e : ServiceEntry}
    (he : task' = task → t.Offers task e.address (serviceWeight e)) {weight : Int64} :
    (t.register task' e).Offers task addr weight ↔ t.Offers task addr weight := by
  rw [Offers, lookup_register]
  by_cases h : (task, addr) = (task', e.address)
  · obtain ⟨rfl, rfl⟩ := Prod.mk.inj h
    obtain ⟨row, hlook, hact, hweight⟩ := he rfl
    rw [if_pos rfl]
    simp only [Offers, hlook, Option.some.injEq, exists_eq_left', hact, hweight, registeredRow,
      true_and, normalizedCapacity_idem]
    rfl
  · rw [if_neg h]
    rfl

theorem offers_syncTable {l : List (String × ServiceEntry)}
    (hl : ∀ e, (task, e) ∈ l → t.Offers task e.address (serviceWeight e)) {weight : Int64} :
    (StoreBackedRegistry.syncTable t l).Offers task addr weight ↔ t.Offers task addr weight := by
  induction l generalizing t with
  | nil => rfl
  | cons p l ih =>
    rw [StoreBackedRegistry.syncTable, List.foldl_cons, ← StoreBackedRegistry.syncTable]
    by_cases hpos : 0 < p.2.queryCount
    · have hp : p.1 = task → t.Offers task p.2.address (serviceWeight p.2) := fun htask ↦
        hl p.2 (htask ▸ List.mem_cons_self)
      rw [if_pos hpos, ih fun e he ↦ (offers_register hp).mpr (hl e (List.mem_cons_of_mem _ he)),
        offers_register hp]
    · rw [if_neg hpos, ih fun e he ↦ hl e (List.mem_cons_of_mem _ he)]

theorem nodup_listTopTasksByQueryCount (t : Table) (c : Collation) (limit : ℕ) :
    (t.listTopTasksByQueryCount c limit).Nodup := by
  rw [listTopTasksByQueryCount]
  exact ((List.perm_insertionSort _ _).nodup_iff.mpr (List.nodup_dedup _)).sublist
    (List.take_sublist _ _)

end Table

/-! ## Filling the cache of a task -/

theorem slice_populateAll_filter {task : String} (l : List (String × ServiceEntry))
    {cache cache' : MemoryRegistry}
    (h : cache.services.slice task = cache'.services.slice task) :
    (populateAll cache l).services.slice task
      = (populateAll cache' (l.filter fun p ↦ p.1 = task)).services.slice task := by
  induction l generalizing cache cache' with
  | nil => exact h
  | cons p l ih =>
    by_cases hp : p.1 = task
    · rw [List.filter_cons_of_pos (by simpa using hp), populateAll_cons, populateAll_cons]
      refine ih ?_
      change (cache.putEntry p.1 _ _ _).services.slice task
        = (cache'.putEntry p.1 _ _ _).services.slice task
      rw [MemoryRegistry.slice_putEntry, MemoryRegistry.slice_putEntry, if_pos hp.symm,
        if_pos hp.symm, hp, h]
    · rw [List.filter_cons_of_neg (by simpa using hp), populateAll_cons]
      refine ih ?_
      change (cache.putEntry p.1 _ _ _).services.slice task = _
      rw [MemoryRegistry.slice_putEntry, if_neg (Ne.symm hp), h]

/-- The cursor of a task. It stands at the first slot when there is none yet. -/
def MemoryRegistry.cursor (reg : MemoryRegistry) (task : String) : Int64 :=
  (reg.roundRobinIndex task).getD 0

theorem MemoryRegistry.cursor_putEntry {reg : MemoryRegistry} {task addr : String}
    {f : ServiceEntry → ServiceEntry} {fresh : ServiceEntry} (task' : String) :
    (reg.putEntry task addr f fresh).cursor task' = reg.cursor task' := by
  simp only [cursor, putEntry]
  split_ifs
  · rfl
  · by_cases h : task' = task
    · subst h
      simp [SyncMap.loadOrStore]
    · simp [SyncMap.loadOrStore, Function.update_of_ne h]

theorem cursor_populateAll (cache : MemoryRegistry) (l : List (String × ServiceEntry))
    (task : String) : (populateAll cache l).cursor task = cache.cursor task := by
  induction l generalizing cache with
  | nil => rfl
  | cons p l ih =>
    have hput : (populateCacheEntry cache p.1 p.2).roundRobinIndex
        = (cache.putEntry p.1 p.2.address id p.2).roundRobinIndex := rfl
    rw [populateAll_cons, ih, MemoryRegistry.cursor, hput]
    exact MemoryRegistry.cursor_putEntry task

@[simp] theorem ServiceEntry.share_cached (e : ServiceEntry) : e.cached.share = e.share := by
  simp [share, cached, serviceWeight]

/-- A task that is filled in from nothing has the entries of the store, in their order. -/
theorem map_share_populateAll {cache : MemoryRegistry} {task : String} {entries : List ServiceEntry}
    (hnodup : (entries.map ServiceEntry.address).Nodup) (hcold : ¬cache.HasTask task)
    {l : List (String × ServiceEntry)}
    (hl : (l.filter fun p ↦ p.1 = task) = entries.map fun e ↦ (task, e)) :
    ((populateAll cache l).services.slice task).map ServiceEntry.share
      = entries.map ServiceEntry.share := by
  have hslice : cache.services.slice task = [] := not_not.mp hcold
  rw [slice_populateAll_filter l rfl, hl, slice_populateAll_of_nodup hnodup
    fun e _ hheld ↦ hcold hheld.hasTask, hslice, List.nil_append, List.map_map]
  exact List.map_congr_left fun e _ ↦ e.share_cached

theorem pairs_filter (ord : TaskOrder) (services : AList fun _ : String ↦ List ServiceEntry)
    (task : String) :
    (pairs ord services).filter (fun p ↦ p.1 = task)
      = (services.slice task).map fun e ↦ (task, e) := by
  have hperm := (ord.perm services.entries).map Sigma.fst
  have hpairs : pairs ord services = ((ord.arrange services.entries).map Sigma.fst).flatMap
      fun task ↦ (services.slice task).map fun e ↦ (task, e) := by
    rw [pairs, List.flatMap_map]
    refine List.flatMap_congr fun p hp ↦ ?_
    rw [AList.slice_of_lookup (AList.mem_entries_iff.mp ((ord.mem_arrange).mp hp))]
  rw [hpairs, List.filter_flatMap_tagged (hperm.nodup_iff.mpr services.nodupKeys)]
  split_ifs with hmem
  · rfl
  · have hlook : services.lookup task = none := by
      rw [AList.lookup_eq_none]
      exact fun hkey ↦ hmem (hperm.mem_iff.mpr hkey)
    rw [AList.slice, hlook]
    rfl

namespace StoreBackedRegistry

variable {sr : StoreBackedRegistry} {task : String}

/-- A warm visits the active rows of a task it loads in the order of the store. -/
theorem loadedPairs_filter {c : Collation} {cacheMaxSize : Int} {ord : TaskOrder} {t : Table}
    (h : Loaded c cacheMaxSize t task) :
    (loadedPairs c cacheMaxSize ord t).filter (fun p ↦ p.1 = task)
      = (t.listTaskServices c task).map fun e ↦ (task, e) := by
  rw [loadedPairs]
  by_cases hmax : cacheMaxSize ≤ 0
  · rw [if_pos hmax, pairs_filter, Table.slice_listServices]
  · have htop := h.resolve_left hmax
    rw [if_neg hmax, List.filter_flatMap_tagged (t.nodup_listTopTasksByQueryCount _ _), if_pos htop,
      Table.slice_listServicesForTasks _ _ htop]

/-! ## The rotation a client sees -/

def storeCursor (sr : StoreBackedRegistry) (task : String) : Int64 :=
  (sr.fallbackCursor task).getD 0

/-- What the next lookups return as long as nothing interferes: the rotation over the cached
entries, or else over the entries of the store. -/
def upcoming (sr : StoreBackedRegistry) (task : String) : ℕ → Option String :=
  if sr.memCache.HasTask task then
    rotation (sr.memCache.services.slice task) (sr.memCache.cursor task)
  else rotation (sr.storeEntries task) (sr.storeCursor task)

theorem upcoming_of_hasTask (h : sr.memCache.HasTask task) :
    sr.upcoming task = rotation (sr.memCache.services.slice task) (sr.memCache.cursor task) :=
  if_pos h

theorem upcoming_of_not_hasTask (h : ¬sr.memCache.HasTask task) :
    sr.upcoming task = rotation (sr.storeEntries task) (sr.storeCursor task) :=
  if_neg h

/-- The task is served without a firewall from a store that does not fail, its weights do not
overflow, and the cache holds all its active entries or none. -/
structure Serving (sr : StoreBackedRegistry) (task : String) : Prop where
  quiet : Quiet sr
  trimmed : Go.Trimmed task
  unguarded : sr.memCache.firewall = none
  nonempty : sr.storeEntries task ≠ []
  bounded : (slots (sr.storeEntries task)).length < 2 ^ 63
  mirrored : sr.memCache.HasTask task →
    ((sr.memCache.services.slice task).map ServiceEntry.share).Perm
      ((sr.storeEntries task).map ServiceEntry.share)

variable {requestorIP : Option IP}

theorem Serving.bounded_cached (h : Serving sr task) (hcached : sr.memCache.HasTask task) :
    (slots (sr.memCache.services.slice task)).length < 2 ^ 63 := by
  rw [(slots_perm (h.mirrored hcached)).length_eq]
  exact h.bounded

/-- What stays as it is keeps serving: the configuration, what the store offers, and the agreement
of the cache with it. -/
theorem Serving.of_offers {sr' : StoreBackedRegistry} (h : Serving sr task) (hquiet : Quiet sr')
    (hconfig : SameConfig sr sr')
    (hoffers : (sr'.storeEntries task).map ServiceEntry.share
      = (sr.storeEntries task).map ServiceEntry.share)
    (hmirrored : sr'.memCache.HasTask task →
      ((sr'.memCache.services.slice task).map ServiceEntry.share).Perm
        ((sr.storeEntries task).map ServiceEntry.share)) : Serving sr' task where
  quiet := hquiet
  trimmed := h.trimmed
  unguarded := hconfig.firewall.trans h.unguarded
  nonempty := ne_nil_of_map_share_eq hoffers h.nonempty
  bounded := by
    rw [slots_congr hoffers]
    exact h.bounded
  mirrored := fun hcached ↦ by
    rw [hoffers]
    exact hmirrored hcached

/-! ### Lookups -/

end StoreBackedRegistry

theorem MemoryRegistry.allowedEntries_none (requestorIP : Option IP) (entries : List ServiceEntry) :
    allowedEntries none requestorIP entries = entries :=
  List.filter_eq_self.mpr fun _ _ ↦ rfl

/-- A lookup that finds a positive weight returns what the cursor points at and moves it on. -/
theorem MemoryRegistry.getServiceForRequestor_advances {reg : MemoryRegistry} {task : String}
    (ht : Go.Trimmed task) {requestorIP : Option IP}
    (hpos : 0 < totalServiceWeight
      (allowedEntries reg.firewall requestorIP (reg.services.slice task))) :
    ∃ reg' addr, reg.getServiceForRequestor task requestorIP = (reg', .ok addr)
      ∧ selectWeightedAddress (allowedEntries reg.firewall requestorIP (reg.services.slice task))
          (reg.cursor task % totalServiceWeight
            (allowedEntries reg.firewall requestorIP (reg.services.slice task))) = some addr
      ∧ reg'.services = reg.services ∧ reg'.firewall = reg.firewall
      ∧ reg'.cursor task = reg.cursor task + 1 := by
  have hcand := candidates_of_pos hpos
  obtain ⟨cursors, addr, hadv, -⟩ := advanceCursor_of_candidates hcand
  rw [advanceCursor] at hadv
  obtain ⟨hreg, haddr⟩ := Prod.mk.inj hadv
  refine ⟨{ reg with roundRobinIndex := cursors }.countQuery task addr, addr, ?_, haddr, rfl, rfl,
    ?_⟩
  · simp only [getServiceForRequestor, ht.trimSpace_eq, if_neg ht.ne_empty, hcand, advanceCursor,
      hreg, haddr]
  · have hcursors := congrArg MemoryRegistry.roundRobinIndex hreg
    simp only [cursor, countQuery, ← hcursors, SyncMap.store_self, Option.getD_some]

theorem MemoryRegistry.getServiceForRequestor_rotates {reg : MemoryRegistry} {task : String}
    (ht : Go.Trimmed task) (hfw : reg.firewall = none) (hhas : reg.HasTask task)
    (hbound : (slots (reg.services.slice task)).length < 2 ^ 63)
    (hcursor : InRange (reg.cursor task)) (requestorIP : Option IP) :
    ∃ reg' addr, reg.getServiceForRequestor task requestorIP = (reg', .ok addr)
      ∧ some addr = rotation (reg.services.slice task) (reg.cursor task) 0
      ∧ reg'.services = reg.services ∧ reg'.firewall = none
      ∧ reg'.cursor task = reg.cursor task + 1 := by
  have hallowed : allowedEntries reg.firewall requestorIP (reg.services.slice task)
      = reg.services.slice task := by
    rw [hfw, allowedEntries_none]
  have hpos := totalServiceWeight_pos hbound hhas
  rw [← hallowed] at hpos
  obtain ⟨reg', addr, hget, hselect, hservices, hfw', hnext⟩ :=
    getServiceForRequestor_advances ht hpos
  rw [hallowed, selectWeightedAddress_eq_rotation hbound hcursor.1] at hselect
  exact ⟨reg', addr, hget, hselect.symm, hservices, hfw'.trans hfw, hnext⟩

namespace StoreBackedRegistry

variable {sr : StoreBackedRegistry} {task : String} {requestorIP : Option IP}

theorem selectFallback_rotates {cursors : SyncMap String Int64} {entries : List ServiceEntry}
    (hne : entries ≠ []) (hbound : (slots entries).length < 2 ^ 63)
    (hcursor : InRange ((cursors task).getD 0)) (requestorIP : Option IP) :
    ∃ addr, selectFallback none cursors task entries requestorIP
        = (cursors.store task ((cursors task).getD 0 + 1), .ok addr)
      ∧ some addr = rotation entries ((cursors task).getD 0) 0 := by
  have hshare : (storeCandidates none requestorIP entries).map ServiceEntry.share
      = entries.map ServiceEntry.share := by
    have hall : (entries.filter fun e ↦
        MemoryRegistry.permits storeDestinationIP none requestorIP e.address) = entries :=
      List.filter_eq_self.mpr fun _ _ ↦ rfl
    rw [storeCandidates, hall, List.map_map]
    rfl
  have hslots := slots_congr hshare
  have hcand : storeCandidates none requestorIP entries ≠ [] := ne_nil_of_map_share_eq hshare hne
  have hbound' : (slots (storeCandidates none requestorIP entries)).length < 2 ^ 63 := by
    rw [hslots]
    exact hbound
  have hpos := totalServiceWeight_pos hbound' hcand
  obtain ⟨addr, haddr⟩ := Option.ne_none_iff_exists'.mp
    (selectWeightedAddress_ne_none hpos ((cursors task).getD 0))
  refine ⟨addr, ?_, ?_⟩
  · simp only [selectFallback, if_neg hcand, if_neg (Int64.not_le.mpr hpos), haddr]
  · rw [← haddr, selectWeightedAddress_eq_rotation hbound' hcursor.1, rotation, hslots]
    rfl

/-- A lookup returned the next address of the rotation, and the rotation goes on. -/
structure Advances (sr : StoreBackedRegistry) (task addr : String) (sr' : StoreBackedRegistry) :
    Prop where
  next : some addr = sr.upcoming task 0
  rest : sr'.upcoming task = fun i ↦ sr.upcoming task (i + 1)
  serving : Serving sr' task

theorem Serving.lookup_cached (h : Serving sr task) (hcached : sr.memCache.HasTask task)
    (hcursor : InRange (sr.memCache.cursor task)) {task' : String}
    (htask : Go.trimSpace task' = task) (requestorIP : Option IP) :
    ∃ sr' addr, sr.getServiceForRequestor task' requestorIP = (sr', .ok addr)
      ∧ Advances sr task addr sr' := by
  obtain ⟨cache, addr, hget, hnext, hservices, hfw, hcur⟩ :=
    MemoryRegistry.getServiceForRequestor_rotates h.trimmed h.unguarded hcached
      (h.bounded_cached hcached) hcursor requestorIP
  have hne : Go.trimSpace task' ≠ "" := htask ▸ h.trimmed.ne_empty
  have hhas : cache.HasTask task := by
    rw [MemoryRegistry.HasTask, hservices]
    exact hcached
  refine ⟨{ sr with memCache := cache }, addr,
    getServiceForRequestor_of_hit hne (by rw [htask]; exact hget), ?_, ?_, ?_⟩
  · rw [upcoming_of_hasTask hcached]
    exact hnext
  · rw [upcoming_of_hasTask hcached, upcoming_of_hasTask hhas, ← rotation_succ hcursor]
    simp only [hservices, hcur]
  · refine h.of_offers ⟨h.quiet.reliable, h.quiet.noPending⟩
      ⟨rfl, rfl, rfl, rfl, hfw.trans h.unguarded.symm⟩ rfl fun _ ↦ ?_
    simp only [hservices]
    exact h.mirrored hcached

theorem Serving.lookup_stored (h : Serving sr task) (hcold : ¬sr.memCache.HasTask task)
    (hadmits : sr.admits task = false) (hcursor : InRange (sr.storeCursor task)) {task' : String}
    (htask : Go.trimSpace task' = task) (requestorIP : Option IP) :
    ∃ sr' addr, sr.getServiceForRequestor task' requestorIP = (sr', .ok addr)
      ∧ Advances sr task addr sr' := by
  obtain ⟨addr, hselect, hnext⟩ :=
    selectFallback_rotates h.nonempty h.bounded hcursor requestorIP
  obtain ⟨e, he, rfl, -⟩ := selectFallback_ok hselect
  have hact : sr.store.table.Active task e.address :=
    Table.mem_map_listTaskServices.mp (List.mem_map_of_mem he)
  rcases hinc : (sr.missed task).store.incrementQueryCount task e.address with ⟨store, counted⟩
  obtain ⟨hout, hcoll, ⟨rfl, htable⟩ | ⟨err, -, hfail⟩⟩ :=
    PostgresStore.incrementQueryCount_cases hinc hact
  swap
  · exact absurd h.quiet.reliable hfail
  have hoffers : (store.table.listTaskServices store.collation task).map ServiceEntry.share
      = (sr.storeEntries task).map ServiceEntry.share := by
    rw [htable, hcoll]
    exact Table.map_share_listTaskServices_congr fun _ _ ↦ Table.offers_incrementQueryCount
  set sr' : StoreBackedRegistry := { sr.missed task with
    fallbackCursor := sr.fallbackCursor.store task (sr.storeCursor task + 1),
    store := store } with hsr'
  have hcursor' : sr'.storeCursor task = sr.storeCursor task + 1 := by
    simp only [hsr', storeCursor, SyncMap.store_self, Option.getD_some]
  have hquiet : Quiet sr' :=
    ⟨fun n ↦ (congrFun hout n).trans (h.quiet.reliable n), h.quiet.noPending⟩
  refine ⟨sr', e.address, ?_, ?_, ?_, ?_⟩
  · rw [getServiceForRequestor_of_cold h.quiet.reliable h.trimmed hcold h.nonempty htask, hadmits,
      if_neg (by simp)]
    have hfw : (sr.missed task).memCache.firewall = none := h.unguarded
    have hsame : (sr.missed task).fallbackCursor = sr.fallbackCursor := rfl
    simp only [serveFromStore, selectFromStoreEntries, hfw, hsame, hselect, hinc]
    rfl
  · rw [upcoming_of_not_hasTask hcold]
    exact hnext
  · have hcold' : ¬sr'.memCache.HasTask task := hcold
    rw [upcoming_of_not_hasTask hcold, upcoming_of_not_hasTask hcold', ← rotation_succ hcursor,
      hcursor', rotation, rotation, storeEntries, slots_congr hoffers]
  · exact h.of_offers hquiet ⟨hout, hcoll, rfl, rfl, rfl⟩ hoffers fun hhas ↦ absurd hhas hcold

theorem Serving.lookup_admitted (h : Serving sr task) (hcold : ¬sr.memCache.HasTask task)
    (hadmits : sr.admits task = true) (hcursor : InRange (sr.memCache.cursor task))
    (haligned : rotation (sr.storeEntries task) (sr.memCache.cursor task)
      = rotation (sr.storeEntries task) (sr.storeCursor task)) {task' : String}
    (htask : Go.trimSpace task' = task) (requestorIP : Option IP) :
    ∃ sr' addr, sr.getServiceForRequestor task' requestorIP = (sr', .ok addr)
      ∧ Advances sr task addr sr' := by
  have hshares : ((sr.hydrated task).services.slice task).map ServiceEntry.share
      = (sr.storeEntries task).map ServiceEntry.share := by
    rw [hydrated]
    refine map_share_populateAll (Table.nodup_listTaskServices _ _ _) hcold
      (List.filter_eq_self.mpr fun p hp ↦ ?_)
    obtain ⟨e, -, rfl⟩ := List.mem_map.mp hp
    simp
  have hhas : (sr.hydrated task).HasTask task := ne_nil_of_map_share_eq hshares h.nonempty
  have hcur : (sr.hydrated task).cursor task = sr.memCache.cursor task := cursor_populateAll _ _ _
  have hbound : (slots ((sr.hydrated task).services.slice task)).length < 2 ^ 63 := by
    rw [slots_congr hshares]
    exact h.bounded
  have hunguarded : (sr.hydrated task).firewall = none :=
    (populateAll_firewall _ _).trans h.unguarded
  obtain ⟨cache, addr, hget, hnext, hservices, hfw, hcur'⟩ :=
    MemoryRegistry.getServiceForRequestor_rotates h.trimmed hunguarded hhas hbound (hcur ▸ hcursor)
      requestorIP
  have hrotation : rotation ((sr.hydrated task).services.slice task) (sr.memCache.cursor task)
      = sr.upcoming task := by
    rw [upcoming_of_not_hasTask hcold, ← haligned, rotation, rotation, slots_congr hshares]
  have hhas' : cache.HasTask task := by
    rw [MemoryRegistry.HasTask, hservices]
    exact hhas
  set sr' : StoreBackedRegistry := { sr.missed task with
    memCache := cache, cacheMissCounts := (sr.missed task).cacheMissCounts.delete task } with hsr'
  refine ⟨sr', addr, ?_, ?_, ?_, ?_⟩
  · rw [getServiceForRequestor_of_cold h.quiet.reliable h.trimmed hcold h.nonempty htask, hadmits,
      if_pos rfl]
    have hfill : populateAll (sr.missed task).memCache
        ((sr.storeEntries task).map fun e ↦ (task, e)) = sr.hydrated task := rfl
    simp only [admitTask, hfill, hget, hsr']
  · rw [hnext, hcur, hrotation]
  · have hcached : sr'.memCache.HasTask task := hhas'
    rw [upcoming_of_hasTask hcached, ← hrotation, ← rotation_succ hcursor, ← hcur, ← hcur',
      ← hservices]
  · refine h.of_offers ⟨h.quiet.reliable, h.quiet.noPending⟩
      ⟨rfl, rfl, rfl, rfl, hfw.trans h.unguarded.symm⟩ rfl fun _ ↦ ?_
    rw [← hshares, ← hservices]

/-! ### Warming -/

theorem syncQueryCount_fallbackCursor (sr : StoreBackedRegistry) (p : String × ServiceEntry) :
    (sr.syncQueryCount p).fallbackCursor = sr.fallbackCursor := by
  simp only [syncQueryCount]
  split_ifs
  · rcases sr.store.register p.1 p.2 with ⟨store, err | _⟩
    · rfl
    · simp only
      split_ifs <;> rfl
  · rfl

theorem syncPending_fallbackCursor (sr : StoreBackedRegistry) (p : String × ServiceEntry) :
    (sr.syncPending p).fallbackCursor = sr.fallbackCursor := by
  simp only [syncPending]
  split_ifs
  · rcases sr.store.register p.1 p.2 with ⟨store, err | _⟩ <;> rfl
  · rfl

theorem warmCacheFromDB_fallbackCursor (sr : StoreBackedRegistry) (now : Time) (ord : WarmOrders) :
    (sr.warmCacheFromDB now ord).1.fallbackCursor = sr.fallbackCursor := by
  have hfold {f : StoreBackedRegistry → String × ServiceEntry → StoreBackedRegistry}
      (hf : ∀ sr p, (f sr p).fallbackCursor = sr.fallbackCursor) (l : List (String × ServiceEntry))
      (sr : StoreBackedRegistry) : (l.foldl f sr).fallbackCursor = sr.fallbackCursor := by
    induction l generalizing sr with
    | nil => rfl
    | cons p l ih => rw [List.foldl_cons, ih, hf]
  have hsync : (sr.syncQueryCountsToDB ord.sync).fallbackCursor = sr.fallbackCursor :=
    hfold syncQueryCount_fallbackCursor _ sr
  have hpending : ((sr.syncQueryCountsToDB ord.sync).syncPendingRegistrations
      ord.pending).fallbackCursor = (sr.syncQueryCountsToDB ord.sync).fallbackCursor :=
    hfold syncPending_fallbackCursor _ _
  simp only [warmCacheFromDB]
  rcases hload : ((sr.syncQueryCountsToDB ord.sync).syncPendingRegistrations ord.pending).loadCache
    ord.load (MemoryRegistry.new.setFirewall (sr.syncQueryCountsToDB ord.sync).memCache.firewall)
    with ⟨sr', err | cache⟩ <;> obtain ⟨⟨store, rfl, -, -⟩, -⟩ := loadCache_cases hload
  · exact hpending.trans hsync
  · exact hpending.trans hsync

theorem share_withCount (counters : SyncMap String Int) (task : String) (e : ServiceEntry) :
    (MemoryRegistry.withCount counters task e).share = e.share := by
  rw [MemoryRegistry.withCount]
  split <;> rfl

theorem cursor_copyRoundRobinState {source target : MemoryRegistry} (hhas : target.HasTask task)
    (hzero : target.cursor task = 0) :
    (copyRoundRobinState source target).cursor task = source.cursor task := by
  have hlook : (target.services.lookup task).isSome = true := by
    rw [Option.isSome_iff_ne_none]
    intro hnone
    rw [MemoryRegistry.HasTask, AList.slice, hnone] at hhas
    exact hhas rfl
  rw [MemoryRegistry.cursor] at hzero
  simp only [MemoryRegistry.cursor, copyRoundRobinState]
  rcases source.roundRobinIndex task with _ | cursor
  · exact hzero
  · simp only [hlook, if_true]

theorem Serving.offers_warmedTable (h : Serving sr task) (ord : WarmOrders) {addr : String}
    {weight : Int64} :
    (sr.warmedTable ord).Offers task addr weight ↔ sr.store.table.Offers task addr weight := by
  refine Table.offers_syncTable fun e he ↦ ?_
  rw [mem_pairs, MemoryRegistry.slice_listServices] at he
  obtain ⟨e', he', rfl⟩ := List.mem_map.mp he
  have hcached : sr.memCache.HasTask task := List.ne_nil_of_mem he'
  have hshare := share_withCount sr.memCache.queryCounters task e'
  have hmem : e'.share ∈ (sr.storeEntries task).map ServiceEntry.share :=
    (h.mirrored hcached).mem_iff.mp (List.mem_map_of_mem he')
  rw [← hshare] at hmem
  exact Table.mem_map_share_listTaskServices.mp hmem

/-- **Rotating through a warm.** A warm that loads the task starts the order of the store at the
cursor of the cache, and one that drops the task falls back to the cursor of the fallback. -/
theorem Serving.warm (h : Serving sr task) {now : Time} {ord : WarmOrders}
    (hload : Loaded sr.store.collation sr.cacheMaxSize (sr.warmedTable ord) task →
      rotation (sr.storeEntries task) (sr.memCache.cursor task) = sr.upcoming task)
    (hdrop : ¬Loaded sr.store.collation sr.cacheMaxSize (sr.warmedTable ord) task →
      rotation (sr.storeEntries task) (sr.storeCursor task) = sr.upcoming task) :
    (sr.warmCacheFromDB now ord).1.upcoming task = sr.upcoming task
      ∧ Serving (sr.warmCacheFromDB now ord).1 task := by
  obtain ⟨hquiet, htable, hcache⟩ := warmCacheFromDB_of_quiet h.quiet now ord
  have hconfig : SameConfig sr (sr.warmCacheFromDB now ord).1 := warmCacheFromDB_config now ord
  have hfall := warmCacheFromDB_fallbackCursor sr now ord
  have hholds : ∀ addr, (sr.warmCacheFromDB now ord).1.memCache.Holds task addr →
      Loaded sr.store.collation sr.cacheMaxSize (sr.warmedTable ord) task := fun addr hheld ↦
    ((holds_warmCacheFromDB h.quiet).mp hheld).1
  have hwarmed : ((sr.warmedTable ord).listTaskServices sr.store.collation task).map
      ServiceEntry.share = (sr.storeEntries task).map ServiceEntry.share :=
    Table.map_share_listTaskServices_congr fun _ _ ↦ h.offers_warmedTable ord
  have hoffers : ((sr.warmCacheFromDB now ord).1.storeEntries task).map ServiceEntry.share
      = (sr.storeEntries task).map ServiceEntry.share := by
    rw [storeEntries, htable, hconfig.collation, hwarmed]
  generalize (sr.warmCacheFromDB now ord).1 = sr' at *
  by_cases hloaded : Loaded sr.store.collation sr.cacheMaxSize (sr.warmedTable ord) task
  · set filled := populateAll (MemoryRegistry.new.setFirewall sr.memCache.firewall)
      (loadedPairs sr.store.collation sr.cacheMaxSize ord.load (sr.warmedTable ord)) with hfilled
    have hnew : ¬(MemoryRegistry.new.setFirewall sr.memCache.firewall).HasTask task := fun hhas ↦ by
      obtain ⟨addr, hheld⟩ := hhas.exists_holds
      exact MemoryRegistry.not_holds_new task addr hheld
    have hshares : (filled.services.slice task).map ServiceEntry.share
        = (sr.storeEntries task).map ServiceEntry.share := by
      rw [← hwarmed]
      exact map_share_populateAll (Table.nodup_listTaskServices _ _ _) hnew
        (loadedPairs_filter hloaded)
    have hhas : filled.HasTask task := ne_nil_of_map_share_eq hshares h.nonempty
    have hslice : sr'.memCache.services.slice task = filled.services.slice task := by
      rw [hcache]
      rfl
    have hhas' : sr'.memCache.HasTask task := by
      rw [MemoryRegistry.HasTask, hslice]
      exact hhas
    have hcursor : sr'.memCache.cursor task = sr.memCache.cursor task := by
      rw [hcache]
      exact cursor_copyRoundRobinState hhas (cursor_populateAll _ _ _)
    refine ⟨?_, h.of_offers hquiet hconfig hoffers fun _ ↦ ?_⟩
    · rw [upcoming_of_hasTask hhas', hslice, hcursor, ← hload hloaded, rotation, rotation,
        slots_congr hshares]
    · rw [hslice, hshares]
  · have hcold : ¬sr'.memCache.HasTask task := fun hhas ↦ by
      obtain ⟨addr, hheld⟩ := hhas.exists_holds
      exact hloaded (hholds addr hheld)
    refine ⟨?_, h.of_offers hquiet hconfig hoffers fun hhas ↦ absurd hhas hcold⟩
    rw [upcoming_of_not_hasTask hcold, ← hdrop hloaded, rotation, rotation, slots_congr hoffers,
      storeCursor, hfall, ← storeCursor]

/-! ### Heartbeats -/

theorem registerEntry_fallbackCursor (now₁ now₂ : Time) (task addr : String) (capacity : Int64) :
    (sr.registerEntry now₁ now₂ task addr capacity).fallbackCursor = sr.fallbackCursor := by
  simp only [registerEntry]
  rcases sr.store.register task { address := addr, lastHeartbeat := now₂, capacity := capacity }
    with ⟨store, err | _⟩ <;> rfl

theorem Serving.offers_of_mem_cached (h : Serving sr task) {e : ServiceEntry}
    (he : e ∈ sr.memCache.services.slice task) :
    sr.store.table.Offers task e.address (serviceWeight e) := by
  have hmem := (h.mirrored (List.ne_nil_of_mem he)).mem_iff.mp (List.mem_map_of_mem he)
  exact Table.mem_map_share_listTaskServices.mp hmem

theorem rotation_eq_of_single {l l' : List ServiceEntry} {p : String × Int64}
    (hpos : 0 < p.2.toNatClampNeg) (hl : l.map ServiceEntry.share = [p])
    (hl' : l'.map ServiceEntry.share = [p])
    (cursor cursor' : Int64) : rotation l cursor = rotation l' cursor' := by
  have hslots {l : List ServiceEntry} (h : l.map ServiceEntry.share = [p]) :
      slots l = List.replicate p.2.toNatClampNeg p.1 := by
    rw [slots, h, List.flatMap_singleton]
  rw [rotation, rotation, hslots hl, hslots hl', List.turn_replicate hpos,
    List.turn_replicate hpos]

/-- The rotation stays as it is when neither the cached nor the stored entries change their shares
and no cursor moves. -/
theorem Serving.of_shares {sr' : StoreBackedRegistry} (h : Serving sr task) (hquiet : Quiet sr')
    (hconfig : SameConfig sr sr')
    (hoffers : (sr'.storeEntries task).map ServiceEntry.share
      = (sr.storeEntries task).map ServiceEntry.share)
    (hshares : (sr'.memCache.services.slice task).map ServiceEntry.share
      = (sr.memCache.services.slice task).map ServiceEntry.share)
    (hcursor : sr'.memCache.cursor task = sr.memCache.cursor task)
    (hstore : sr'.storeCursor task = sr.storeCursor task) :
    sr'.upcoming task = sr.upcoming task ∧ Serving sr' task := by
  have hhas : sr'.memCache.HasTask task ↔ sr.memCache.HasTask task := by
    rw [MemoryRegistry.HasTask, MemoryRegistry.HasTask, Ne, Ne,
      ← List.map_eq_nil_iff (f := ServiceEntry.share), hshares, List.map_eq_nil_iff]
  refine ⟨?_, h.of_offers hquiet hconfig hoffers fun hcached ↦ ?_⟩
  · by_cases hcached : sr.memCache.HasTask task
    · rw [upcoming_of_hasTask hcached, upcoming_of_hasTask (hhas.mpr hcached), hcursor, rotation,
        slots_congr hshares, rotation]
    · rw [upcoming_of_not_hasTask hcached, upcoming_of_not_hasTask (mt hhas.mp hcached), hstore,
        rotation, slots_congr hoffers, rotation]
  · rw [hshares]
    exact h.mirrored (hhas.mp hcached)

/-- So it does when the only instance of the store comes into the cache, where every cursor points
at it. -/
theorem Serving.of_single {sr' : StoreBackedRegistry} (h : Serving sr task) (hquiet : Quiet sr')
    (hconfig : SameConfig sr sr')
    (hoffers : (sr'.storeEntries task).map ServiceEntry.share
      = (sr.storeEntries task).map ServiceEntry.share)
    (hcold : ¬sr.memCache.HasTask task) {addr : String} {weight : Int64}
    (hweight : 0 < weight.toInt)
    (hstored : (sr.storeEntries task).map ServiceEntry.share = [(addr, weight)])
    (hcached : (sr'.memCache.services.slice task).map ServiceEntry.share = [(addr, weight)]) :
    sr'.upcoming task = sr.upcoming task ∧ Serving sr' task := by
  have hhas : sr'.memCache.HasTask task := fun hnil ↦ by
    rw [hnil] at hcached
    exact absurd hcached (by simp)
  refine ⟨?_, h.of_offers hquiet hconfig hoffers fun _ ↦ by rw [hcached, hstored]⟩
  rw [upcoming_of_hasTask hhas, upcoming_of_not_hasTask hcold]
  refine rotation_eq_of_single ?_ hcached hstored _ _
  change 0 < weight.toNatClampNeg
  rw [← Int64.toNat_toInt]
  omega

theorem Serving.map_share_heartbeat (h : Serving sr task) {now : Time} {addr : String}
    {capacity : Int64} (ha : Go.Trimmed addr)
    (hoffer : sr.store.table.Offers task addr (normalizedCapacity capacity))
    (hcached : sr.memCache.HasTask task) :
    ((sr.memCache.registerWithCapacity now task addr capacity).services.slice task).map
        ServiceEntry.share = (sr.memCache.services.slice task).map ServiceEntry.share := by
  rw [MemoryRegistry.registerWithCapacity_of_trimmed h.trimmed ha, MemoryRegistry.slice_putEntry,
    if_pos rfl]
  refine List.map_upsert_eq_map ?_ fun e he haddr ↦ ?_
  · have hmem : (addr, normalizedCapacity capacity)
        ∈ (sr.storeEntries task).map ServiceEntry.share :=
      Table.mem_map_share_listTaskServices.mpr hoffer
    obtain ⟨e, he, hshare⟩ := List.mem_map.mp ((h.mirrored hcached).mem_iff.mpr hmem)
    exact List.mem_map.mpr ⟨e, he, (Prod.mk.inj hshare).1⟩
  · have hweight := (h.offers_of_mem_cached he).unique (haddr ▸ hoffer)
    rw [ServiceEntry.share, ServiceEntry.share, hweight, serviceWeight, normalizedCapacity_idem]

theorem Serving.registerWithCapacity (h : Serving sr task) {now₁ now₂ : Time}
    {task' addr : String} {capacity : Int64}
    (hbeat : Go.trimSpace task' = task →
      sr.store.table.Offers task (Go.trimSpace addr) (normalizedCapacity capacity))
    (hkeep : Go.trimSpace task' = task →
      sr.memCache.HasTask task ∨ (sr.storeEntries task).length = 1) :
    (sr.registerWithCapacity now₁ now₂ task' addr capacity).upcoming task = sr.upcoming task
      ∧ Serving (sr.registerWithCapacity now₁ now₂ task' addr capacity) task := by
  have hconfig : SameConfig sr (sr.registerWithCapacity now₁ now₂ task' addr capacity) :=
    registerWithCapacity_config _ _ _ _ _
  rcases sr.registerWithCapacity_cases now₁ now₂ task' addr capacity with
    ⟨-, hvoid⟩ | ⟨ht, ha, hentry⟩
  · rw [hvoid]
    exact ⟨rfl, h⟩
  rw [hentry] at hconfig ⊢
  obtain ⟨hquiet, htable, hcache⟩ := registerEntry_of_quiet h.quiet now₁ now₂ (Go.trimSpace task')
    (Go.trimSpace addr) (normalizedCapacity capacity)
  have hfall := sr.registerEntry_fallbackCursor now₁ now₂ (Go.trimSpace task')
    (Go.trimSpace addr) (normalizedCapacity capacity)
  generalize sr.registerEntry now₁ now₂ (Go.trimSpace task') (Go.trimSpace addr)
    (normalizedCapacity capacity) = sr' at *
  have hoffers : (sr'.storeEntries task).map ServiceEntry.share
      = (sr.storeEntries task).map ServiceEntry.share := by
    rw [storeEntries, htable, hconfig.collation]
    refine Table.map_share_listTaskServices_congr fun _ _ ↦ Table.offers_register fun htask ↦ ?_
    rw [serviceWeight, normalizedCapacity_idem]
    exact hbeat htask
  have hcursor : sr'.memCache.cursor task = sr.memCache.cursor task := by
    rw [hcache, MemoryRegistry.registerWithCapacity_of_trimmed ht ha]
    exact MemoryRegistry.cursor_putEntry task
  have hstore : sr'.storeCursor task = sr.storeCursor task := by
    rw [storeCursor, hfall, storeCursor]
  by_cases htask : Go.trimSpace task' = task
  · rw [htask] at hcache
    by_cases hcached : sr.memCache.HasTask task
    · refine h.of_shares hquiet hconfig hoffers ?_ hcursor hstore
      rw [hcache]
      refine h.map_share_heartbeat ha ?_ hcached
      rw [normalizedCapacity_idem]
      exact hbeat htask
    · -- the instance that comes in is the only one
      have hstored : (sr.storeEntries task).map ServiceEntry.share
          = [(Go.trimSpace addr, normalizedCapacity capacity)] := by
        obtain ⟨e, hsingle⟩ := List.length_eq_one_iff.mp ((hkeep htask).resolve_left hcached)
        have hmem : (Go.trimSpace addr, normalizedCapacity capacity)
            ∈ (sr.storeEntries task).map ServiceEntry.share :=
          Table.mem_map_share_listTaskServices.mpr (hbeat htask)
        rw [hsingle, List.map_singleton, List.mem_singleton] at hmem
        rw [hsingle, List.map_singleton, hmem]
      have hpos := normalizedCapacity_pos capacity
      rw [Int64.lt_iff_toInt_lt, Int64.toInt_zero] at hpos
      refine h.of_single hquiet hconfig hoffers hcached hpos hstored ?_
      have hslice : sr.memCache.services.slice task = [] := not_not.mp hcached
      rw [hcache, MemoryRegistry.registerWithCapacity_of_trimmed h.trimmed ha,
        MemoryRegistry.slice_putEntry, if_pos rfl, hslice, List.upsert_nil, List.map_singleton]
      simp [ServiceEntry.share, serviceWeight]
  · refine h.of_shares hquiet hconfig hoffers ?_ hcursor hstore
    rw [hcache, MemoryRegistry.registerWithCapacity_of_trimmed ht ha, MemoryRegistry.slice_putEntry,
      if_neg (Ne.symm htask)]

/-! ### Runs -/

/-- Whatever its history, a registry over a store that does not fail has nothing to retry. -/
theorem quiet_exec (hq : Quiet sr) (ops : List Op) : Quiet (Run.exec step sr ops) := by
  have hstep : ∀ sr op, Quiet sr → Quiet (step sr op) := fun _ op h ↦ quiet_step h op
  exact Run.invariant hstep hq ops

/-- What may happen between two lookups of the task: a warm, a registration of another task, or a
heartbeat of one of its instances with the capacity it has. -/
def Between (task : String) (sr : StoreBackedRegistry) : Op → Prop
  | .getServiceForRequestor task' _ => Go.trimSpace task' = task
  | .warmCacheFromDB _ _ => True
  | .register _ _ task' addr => Go.trimSpace task' = task →
    sr.store.table.Offers task (Go.trimSpace addr) (normalizedCapacity 1)
  | .registerWithCapacity _ _ task' addr capacity => Go.trimSpace task' = task →
    sr.store.table.Offers task (Go.trimSpace addr) (normalizedCapacity capacity)
  | .listServices _ _ _ | .cleanup _ _ _ => False

/-- The step leaves the rotation of the task as it is.

* A lookup has room to advance its cursor. One that admits the task finds the cursor of the cache at
  the same point of the store's order as the cursor of the fallback.
* A warm that loads the task goes on in the order of the store as the registry would have gone on,
  and one that does not load it leaves the fallback there.
* A heartbeat finds the task in the cache, unless its instance is the only one. -/
def Undisturbed (task : String) (sr : StoreBackedRegistry) : Op → Prop
  | .getServiceForRequestor _ _ =>
    if sr.memCache.HasTask task then InRange (sr.memCache.cursor task)
    else if sr.admits task then
      InRange (sr.memCache.cursor task)
        ∧ rotation (sr.storeEntries task) (sr.memCache.cursor task)
          = rotation (sr.storeEntries task) (sr.storeCursor task)
    else InRange (sr.storeCursor task)
  | .warmCacheFromDB _ ord =>
    (Loaded sr.store.collation sr.cacheMaxSize (sr.warmedTable ord) task →
        rotation (sr.storeEntries task) (sr.memCache.cursor task) = sr.upcoming task)
      ∧ (¬Loaded sr.store.collation sr.cacheMaxSize (sr.warmedTable ord) task →
        rotation (sr.storeEntries task) (sr.storeCursor task) = sr.upcoming task)
  | .register _ _ task' _ | .registerWithCapacity _ _ task' _ _ => Go.trimSpace task' = task →
    sr.memCache.HasTask task ∨ (sr.storeEntries task).length = 1
  | .listServices _ _ _ | .cleanup _ _ _ => True

def answer (sr : StoreBackedRegistry) : Op → Option String
  | .getServiceForRequestor task requestorIP =>
    match (sr.getServiceForRequestor task requestorIP).2 with
    | .ok addr => some addr
    | .error _ => none
  | _ => none

/-- The addresses that the successful lookups of a run return. -/
def answers (sr : StoreBackedRegistry) : List Op → List String
  | [] => []
  | op :: ops => (sr.answer op).toList ++ answers (sr.step op) ops

theorem Serving.lookup (h : Serving sr task) {task' : String} (htask : Go.trimSpace task' = task)
    (hstep : Undisturbed task sr (.getServiceForRequestor task' requestorIP)) :
    ∃ sr' addr, sr.getServiceForRequestor task' requestorIP = (sr', .ok addr)
      ∧ Advances sr task addr sr' := by
  rw [Undisturbed] at hstep
  split_ifs at hstep with hcached hadmits
  · exact h.lookup_cached hcached hstep htask requestorIP
  · exact h.lookup_admitted hcached hadmits hstep.1 hstep.2 htask requestorIP
  · exact h.lookup_stored hcached (by simpa using hadmits) hstep htask requestorIP

/-- **The rotation of a run.** As long as no step disturbs it, the lookups return one address of the
rotation after the other. -/
theorem Serving.reads_answers {ops : List Op} (h : Serving sr task)
    (hrun : Run.Meets step (fun sr op ↦ Between task sr op ∧ Undisturbed task sr op) sr ops) :
    Reads (sr.answers ops) (sr.upcoming task) := by
  induction ops generalizing sr with
  | nil => exact List.reads_nil _
  | cons op ops ih =>
    obtain ⟨⟨hbetween, hstep⟩, hrest⟩ := hrun
    -- a step that returns nothing has to keep the rotation
    have hquiet (hanswer : sr.answer op = none)
        (hkeep : (sr.step op).upcoming task = sr.upcoming task ∧ Serving (sr.step op) task) :
        Reads (sr.answers (op :: ops)) (sr.upcoming task) := by
      rw [answers, hanswer, Option.toList_none, List.nil_append, ← hkeep.1]
      exact ih hkeep.2 hrest
    cases op with
    | getServiceForRequestor task' requestorIP =>
      obtain ⟨sr', addr, hget, hadvance⟩ := h.lookup hbetween hstep
      have hanswer : sr.answer (.getServiceForRequestor task' requestorIP) = some addr := by
        simp only [answer, hget]
      have hnext : sr.step (.getServiceForRequestor task' requestorIP) = sr' := by
        simp only [step, hget]
      rw [hnext] at hrest
      rw [answers, hanswer, hnext, Option.toList_some, List.singleton_append, List.reads_cons,
        ← hadvance.rest]
      exact ⟨hadvance.next, ih hadvance.serving hrest⟩
    | warmCacheFromDB now ord =>
      refine hquiet rfl ?_
      rw [step]
      exact h.warm hstep.1 hstep.2
    | register now₁ now₂ task' addr =>
      refine hquiet rfl ?_
      rw [step, register]
      exact h.registerWithCapacity hbetween hstep
    | registerWithCapacity now₁ now₂ task' addr capacity =>
      refine hquiet rfl ?_
      rw [step]
      exact h.registerWithCapacity hbetween hstep
    | listServices now₁ now₂ ord => exact hbetween.elim
    | cleanup now₁ now₂ timeout => exact hbetween.elim

/-- **Fairness.** In a run that does not disturb the rotation, as many consecutive lookups as the
instances of the task weigh together return every instance as often as it weighs. -/
theorem window_fair {ops : List Op} (h : Serving sr task)
    (hrun : Run.Meets step (fun sr op ↦ Between task sr op ∧ Undisturbed task sr op) sr ops)
    {window : List String} (hwindow : window <:+: sr.answers ops)
    (hlen : window.length
      = ((sr.storeEntries task).map fun e ↦ (serviceWeight e).toNatClampNeg).sum) :
    ∀ e ∈ sr.storeEntries task, window.count e.address = (serviceWeight e).toNatClampNeg := by
  intro e he
  obtain ⟨l, cursor, hshares, hup⟩ : ∃ l cursor, (l.map ServiceEntry.share).Perm
      ((sr.storeEntries task).map ServiceEntry.share) ∧ sr.upcoming task = rotation l cursor := by
    by_cases hcached : sr.memCache.HasTask task
    · exact ⟨_, _, h.mirrored hcached, upcoming_of_hasTask hcached⟩
    · exact ⟨_, _, List.Perm.refl _, upcoming_of_not_hasTask hcached⟩
  have hreads := h.reads_answers hrun
  rw [hup, rotation] at hreads
  have hperm := hreads.perm_of_infix hwindow (by
    rw [hlen, (slots_perm hshares).length_eq, length_slots])
  rw [(hperm.trans (slots_perm hshares)).count_eq]
  exact count_slots (Table.nodup_listTaskServices _ _ _) he

/-- Two instances, the first with twice the weight of the second, registered in the order of their
addresses. -/
def inOrder : StoreBackedRegistry :=
  Run.exec step (start PostgresStore.empty 0 0 1 none)
    [.registerWithCapacity 1 1 "scan" "10.0.0.1:80" 2, .register 1 1 "scan" "10.0.0.2:80"]

/-- Three lookups with a heartbeat and a warm between them. -/
def interrupted : List Op :=
  [.getServiceForRequestor "scan" none, .registerWithCapacity 2 2 "scan" "10.0.0.1:80" 2,
    .getServiceForRequestor "scan" none, .warmCacheFromDB 3 WarmOrders.asStored,
    .getServiceForRequestor "scan" none]

theorem interrupted_fair :
    Serving inOrder "scan"
      ∧ Run.Meets step (fun sr op ↦ Between "scan" sr op ∧ Undisturbed "scan" sr op) inOrder
        interrupted
      ∧ ∀ e ∈ inOrder.storeEntries "scan",
        (inOrder.answers interrupted).count e.address = (serviceWeight e).toNatClampNeg := by
  have hserving : Serving inOrder "scan" := {
    quiet := quiet_exec (quiet_start PostgresStore.empty_reliable 0 0 1 none) _
    trimmed := ⟨by decide +kernel, by decide⟩
    unguarded := by decide +kernel
    nonempty := by decide +kernel
    bounded := by decide +kernel
    mirrored := fun _ ↦ List.Perm.of_eq (by decide +kernel) }
  have hmeets : Run.Meets step (fun sr op ↦ Between "scan" sr op ∧ Undisturbed "scan" sr op) inOrder
      interrupted := by
    have hscan : Go.trimSpace "scan" = "scan" := by decide +kernel
    have hlookup {sr : StoreBackedRegistry} (hcached : sr.memCache.HasTask "scan")
        (hcursor : InRange (sr.memCache.cursor "scan")) :
        Between "scan" sr (.getServiceForRequestor "scan" none)
          ∧ Undisturbed "scan" sr (.getServiceForRequestor "scan" none) :=
      ⟨hscan, by rw [Undisturbed, if_pos hcached]; exact hcursor⟩
    refine ⟨hlookup (by decide +kernel) (by decide +kernel), ⟨fun _ ↦ ?_, fun _ ↦ ?_⟩,
      hlookup (by decide +kernel) (by decide +kernel), ⟨trivial, fun _ ↦ ?_, fun hdrop ↦ ?_⟩,
      hlookup (by decide +kernel) (by decide +kernel), trivial⟩
    · have haddr : Go.trimSpace "10.0.0.1:80" = "10.0.0.1:80" := by decide +kernel
      have htwo : normalizedCapacity 2 = 2 := by decide
      rw [haddr, htwo]
      refine (Table.mem_map_share_listTaskServices (c := .codePoint)
        (p := ("10.0.0.1:80", 2))).mp ?_
      decide +kernel
    · exact Or.inl (by decide +kernel)
    · rw [upcoming_of_hasTask (by decide +kernel)]
      refine congrArg (fun l ↦ turn l _) (slots_congr ?_)
      decide +kernel
    · exact absurd (Or.inl (by decide +kernel)) hdrop
  exact ⟨hserving, hmeets, window_fair hserving hmeets List.infix_rfl (by decide +kernel)⟩

/-- The same two instances with one slot each, registered the other way round, and a warm between
two lookups. The warm puts the entries into the order of the store under a cursor that has moved. -/
def outOfOrder : List Op :=
  [.register 1 1 "scan" "10.0.0.2:80", .register 1 1 "scan" "10.0.0.1:80",
    .getServiceForRequestor "scan" none, .warmCacheFromDB 2 WarmOrders.asStored,
    .getServiceForRequestor "scan" none]

/-- Two lookups return the same instance, and the other one not at all. -/
theorem outOfOrder_repeats :
    ((Run.exec step (start PostgresStore.empty 0 0 1 none) outOfOrder).storeEntries "scan").map
        ServiceEntry.share = [("10.0.0.1:80", 1), ("10.0.0.2:80", 1)]
      ∧ (start PostgresStore.empty 0 0 1 none).answers outOfOrder
        = ["10.0.0.2:80", "10.0.0.2:80"] := by
  decide +kernel

end StoreBackedRegistry

end TaskDiscovery
