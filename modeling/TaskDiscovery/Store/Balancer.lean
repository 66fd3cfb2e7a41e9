import TaskDiscovery.Store.Postgres

/-!
# The balancer of the store

`PostgresStore.GetService` selects an entry by itself, with cursors of its own. The registries never
call it, so the cursors stand beside the store (`BalancedStore`) and nothing else sees them. A task
without a cursor reads as zero, as it does in a Go map. Unlike the cursors of the registries, one of
these never leaves the range of the slots: it is stored modulo the total weight.

The scan is the one of the registries, except that it yields an index
(`selectWeightedEntryIndex_address`).
-/

namespace TaskDiscovery

/-! ## Selecting an index -/

def storeServiceWeight (entry : ServiceEntry) : Int64 := normalizedCapacity entry.capacity

def totalStoreWeight (entries : List ServiceEntry) : Int64 :=
  entries.foldl (fun total entry ↦ total + storeServiceWeight entry) 0

/-- The scan of `selectWeightedEntryIndex` with the weight passed so far. -/
def selectWeightedIndexFrom (running : Int64) : List ServiceEntry → Int64 → Option ℕ
  | [], _ => none
  | entry :: entries, slot =>
    if slot < running + storeServiceWeight entry then some 0
    else (selectWeightedIndexFrom (running + storeServiceWeight entry) entries slot).map (· + 1)

def selectWeightedEntryIndex (entries : List ServiceEntry) (slot : Int64) : Option ℕ :=
  selectWeightedIndexFrom 0 entries slot

theorem selectWeightedIndexFrom_address (running : Int64) (entries : List ServiceEntry)
    (slot : Int64) :
    ((selectWeightedIndexFrom running entries slot).bind (entries[·]?)).map ServiceEntry.address
      = selectWeightedFrom running entries slot := by
  induction entries generalizing running with
  | nil => rfl
  | cons entry entries ih =>
    rw [selectWeightedIndexFrom, selectWeightedFrom, ← ih]
    by_cases hslot : slot < running + storeServiceWeight entry
    · have hslot' : slot < running + serviceWeight entry := hslot
      rw [if_pos hslot, if_pos hslot', Option.bind_some, List.getElem?_cons_zero, Option.map_some]
    · have hslot' : ¬slot < running + serviceWeight entry := hslot
      rw [if_neg hslot, if_neg hslot', Option.bind_map]
      rfl

/-- The entry at the index that is selected has the address that the registries would select. -/
theorem selectWeightedEntryIndex_address (entries : List ServiceEntry) (slot : Int64) :
    ((selectWeightedEntryIndex entries slot).bind (entries[·]?)).map ServiceEntry.address
      = selectWeightedAddress entries slot :=
  selectWeightedIndexFrom_address 0 entries slot

/-! ## The call -/

/-- The update of `GetService`. It does not ask whether the row is active. -/
def Table.countQuery (t : Table) (task addr : String) : Table :=
  match t.lookup (task, addr) with
  | none => t
  | some row => t.insert (task, addr) { row with queryCount := row.queryCount + 1 }

/-- The store with the cursors of its balancer. -/
structure BalancedStore extends PostgresStore where
  roundRobinIndex : String → Int64

namespace BalancedStore

variable (bs : BalancedStore)

def getService (task : String) : BalancedStore × Except RegistryError ServiceEntry :=
  match bs.listTaskServices task with
  | (ps, .error err) => ({ bs with toPostgresStore := ps }, .error err)
  | (ps, .ok entries) =>
    let bs := { bs with toPostgresStore := ps }
    if entries = [] then (bs, .error (.store "service not found"))
    else
      let totalWeight := totalStoreWeight entries
      if totalWeight ≤ 0 then (bs, .error (.store "service not found"))
      else
        let slot := bs.roundRobinIndex task % totalWeight
        let cursors := Function.update bs.roundRobinIndex task ((slot + 1) % totalWeight)
        match (selectWeightedEntryIndex entries slot).bind (entries[·]?) with
        | none => ({ bs with roundRobinIndex := cursors }, .error (.store "service not found"))
        | some selected =>
          match bs.exec fun t ↦ (t.countQuery task selected.address, ()) with
          | (ps, .error err) =>
            ({ toPostgresStore := ps, roundRobinIndex := cursors }, .error err)
          | (ps, .ok ()) =>
            ({ toPostgresStore := ps, roundRobinIndex := cursors },
              .ok { selected with queryCount := selected.queryCount + 1 })

variable {bs}

theorem getService_of_reliable (h : bs.Reliable) {task : String} {entries : List ServiceEntry}
    (hentries : bs.table.listTaskServices bs.collation task = entries) (hne : entries ≠ [])
    (hpos : 0 < totalStoreWeight entries) {selected : ServiceEntry}
    (hselected : (selectWeightedEntryIndex entries
      (bs.roundRobinIndex task % totalStoreWeight entries)).bind (entries[·]?) = some selected) :
    bs.getService task
      = ({ table := bs.table.countQuery task selected.address, collation := bs.collation,
           outage := bs.outage, calls := bs.calls + 1 + 1,
           roundRobinIndex := Function.update bs.roundRobinIndex task
            ((bs.roundRobinIndex task % totalStoreWeight entries + 1)
              % totalStoreWeight entries) },
          .ok { selected with queryCount := selected.queryCount + 1 }) := by
  have hlist : bs.listTaskServices task
      = ({ bs.toPostgresStore with calls := bs.calls + 1 }, .ok entries) := by
    rw [PostgresStore.listTaskServices, PostgresStore.exec_of_reliable h, hentries]
  have hagain : PostgresStore.Reliable { bs.toPostgresStore with calls := bs.calls + 1 } := h
  simp only [getService, hlist, if_neg hne, if_neg (Int64.not_le.mpr hpos), hselected,
    PostgresStore.exec_of_reliable hagain]

end BalancedStore

end TaskDiscovery
