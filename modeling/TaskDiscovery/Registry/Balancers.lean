import TaskDiscovery.Registry.Rotation
import TaskDiscovery.Store.Balancer

/-!
# Three balancers and one pool

What a balancer is for can be said without cursors and cumulative weights: write every entry down as
often as it weighs, and go round that list. `pool` is this list, and `FollowsPool` says of a list of
replies that it goes round the pool from the beginning.

The in-memory registry, the fallback of the store-backed registry and `PostgresStore.GetService`
each scan cumulative weights instead. The cursors of the first two grow without end, and the third
keeps its cursor below the total weight. All three follow the pool (`balancers_follow_pool`). Each
proof is the rule for a cursor, `List.reads_outputs`, with the place of the cursor as it is stored
there.
-/

namespace TaskDiscovery

open Go (IP)
open List (turn Reads)

/-! ## The pool -/

/-- Every entry as often as its weight, which is its capacity and at least one. -/
def pool (entries : List ServiceEntry) : List ServiceEntry :=
  entries.flatMap fun e ↦ List.replicate (max e.capacity.toInt 1).toNat e

theorem toNatClampNeg_serviceWeight (e : ServiceEntry) :
    (serviceWeight e).toNatClampNeg = (max e.capacity.toInt 1).toNat := by
  have hone : (1 : Int64).toInt = 1 := by decide
  rw [← Int64.toNat_toInt, serviceWeight, normalizedCapacity]
  congr 1
  split_ifs with h
  · rw [Int64.le_iff_toInt_le, Int64.toInt_zero] at h
    rw [hone, max_eq_right (by omega)]
  · rw [Int64.le_iff_toInt_le, Int64.toInt_zero] at h
    rw [max_eq_left (by omega)]

theorem map_address_pool (entries : List ServiceEntry) :
    (pool entries).map ServiceEntry.address = slots entries := by
  rw [pool, slots, List.map_flatMap, List.flatMap_map]
  simp only [List.map_replicate, ServiceEntry.share, toNatClampNeg_serviceWeight]

theorem length_pool (entries : List ServiceEntry) :
    (pool entries).length = (slots entries).length := by
  rw [← map_address_pool, List.length_map]

/-- The replies go round the pool: the `n`-th is its element `n` modulo its length, and as many
replies in a row as the pool is long are the pool, rearranged. -/
structure FollowsPool (entries : List ServiceEntry) (replies : List (Except RegistryError String)) :
    Prop where
  nth : ∀ n < replies.length, replies[n]?
    = (pool entries)[n % (pool entries).length]?.map fun e ↦ .ok e.address
  window : ∀ window, window <:+: replies → window.length = (pool entries).length →
    window.Perm ((pool entries).map fun e ↦ .ok e.address)

variable {entries : List ServiceEntry} {task : String}

theorem map_ok_pool (entries : List ServiceEntry) :
    (pool entries).map (fun e ↦ (.ok e.address : Except RegistryError String))
      = (slots entries).map .ok := by
  rw [← map_address_pool, List.map_map]
  rfl

theorem followsPool_of_reads {replies : List (Except RegistryError String)}
    (h : Reads replies (turn ((slots entries).map .ok) 0)) : FollowsPool entries replies := by
  rw [← map_ok_pool] at h
  refine ⟨fun n hn ↦ ?_, fun window hwindow hlength ↦ ?_⟩
  · rw [h n hn, turn, List.length_map, Nat.zero_add, List.getElem?_map]
  · exact h.perm_of_infix hwindow (by rwa [List.length_map])

/-- **The rule for a balancer.** Replies follow the pool if each call finds the place of the next
element in the state, returns its address and moves on by one. -/
theorem followsPool_outputs {σ α : Type} {call : σ → α → σ × Except RegistryError String}
    {acts : List α} (At : ℕ → σ → Prop)
    (hstep : ∀ c s a, c < acts.length → At c s → ∃ s' addr, call s a = (s', .ok addr)
      ∧ some addr = (slots entries)[c % (slots entries).length]? ∧ At (c + 1) s')
    {s : σ} (hs : At 0 s) : FollowsPool entries (Run.outputs call s acts) := by
  have hplaces : 0 + acts.length ≤ acts.length := by omega
  refine followsPool_of_reads (List.reads_outputs (fun c s a hc hs ↦ ?_) hs hplaces)
  obtain ⟨s', addr, hcall, haddr, hs'⟩ := hstep c s a hc hs
  rw [hcall, List.length_map, List.getElem?_map, ← haddr]
  exact ⟨rfl, hs'⟩

/-! ## The registries -/

/-- Without a firewall the lookups of a task go round its entries. -/
theorem MemoryRegistry.followsPool {reg : MemoryRegistry} (ht : Go.trimSpace task ≠ "")
    (hfw : reg.firewall = none) (hslice : reg.services.slice (Go.trimSpace task) = entries)
    (hne : entries ≠ []) (hbound : (slots entries).length < 2 ^ 63)
    (hfresh : reg.cursor (Go.trimSpace task) = 0) {requestors : List (Option IP)}
    (hcalls : requestors.length < 2 ^ 63) :
    FollowsPool entries
      (Run.outputs (fun reg ip ↦ reg.getServiceForRequestor task ip) reg requestors) := by
  have htrim := Go.trimmed_trimSpace ht
  refine followsPool_outputs (fun (c : ℕ) (reg : MemoryRegistry) ↦
    reg.services.slice (Go.trimSpace task) = entries ∧ reg.firewall = none
      ∧ (reg.cursor (Go.trimSpace task)).toInt = c) ?_
    ⟨hslice, hfw, by rw [hfresh]; rfl⟩
  rintro c reg ip hc ⟨hslice, hfw, hcursor⟩
  have hrange : InRange (reg.cursor (Go.trimSpace task)) := ⟨by omega, by omega⟩
  obtain ⟨reg', addr, hget, haddr, hservices, hfw', hnext⟩ :=
    getServiceForRequestor_rotates htrim hfw (by rw [HasTask, hslice]; exact hne)
      (by rw [hslice]; exact hbound) hrange ip
  rw [hslice, rotation_zero hcursor] at haddr
  refine ⟨reg', addr, by rw [← getServiceForRequestor_trimSpace, hget], haddr,
    by rw [hservices, hslice], hfw', ?_⟩
  rw [hnext, hrange.toInt_succ, hcursor]
  rfl

theorem StoreBackedRegistry.followsPool {sr : StoreBackedRegistry}
    (hfw : sr.memCache.firewall = none) (hne : entries ≠ [])
    (hbound : (slots entries).length < 2 ^ 63) (hfresh : (sr.fallbackCursor task).getD 0 = 0)
    {requestors : List (Option IP)} (hcalls : requestors.length < 2 ^ 63) :
    FollowsPool entries
      (Run.outputs (fun sr ip ↦ sr.selectFromStoreEntries task entries ip) sr requestors) := by
  refine followsPool_outputs (fun (c : ℕ) (sr : StoreBackedRegistry) ↦
    sr.memCache.firewall = none ∧ ((sr.fallbackCursor task).getD 0).toInt = c) ?_
    ⟨hfw, by rw [hfresh]; rfl⟩
  rintro c sr ip hc ⟨hfw, hcursor⟩
  have hrange : InRange ((sr.fallbackCursor task).getD 0) := ⟨by omega, by omega⟩
  obtain ⟨addr, hselect, haddr⟩ := selectFallback_rotates hne hbound hrange ip
  rw [rotation_zero hcursor] at haddr
  refine ⟨{ sr with fallbackCursor :=
      sr.fallbackCursor.store task ((sr.fallbackCursor task).getD 0 + 1) },
    addr, ?_, haddr, hfw, ?_⟩
  · simp only [selectFromStoreEntries, hfw, hselect]
  · simp only [SyncMap.store_self, Option.getD_some, hrange.toInt_succ, hcursor]
    rfl

/-! ## The store -/

theorem Table.offers_countQuery {t : Table} {task' addr' addr : String} {weight : Int64} :
    (t.countQuery task' addr').Offers task addr weight ↔ t.Offers task addr weight := by
  rw [countQuery]
  rcases hlook : t.lookup (task', addr') with _ | row
  · rfl
  · rw [Offers, Offers]
    by_cases hkey : (task, addr) = (task', addr')
    · obtain ⟨rfl, rfl⟩ := Prod.mk.inj hkey
      simp only [AList.lookup_insert, hlook, Option.some.injEq, exists_eq_left']
    · simp only [AList.lookup_insert_ne hkey]

namespace BalancedStore

variable {bs : BalancedStore}

/-- `GetService`, seen through the address of the entry it returns. -/
def getServiceAddress (bs : BalancedStore) (task : String) :
    BalancedStore × Except RegistryError String :=
  ((bs.getService task).1, (bs.getService task).2.map ServiceEntry.address)

/-- The place of a cursor that is stored modulo the total weight. -/
structure At (task : String) (entries : List ServiceEntry) (c : ℕ) (bs : BalancedStore) : Prop where
  reliable : bs.Reliable
  offers : (bs.table.listTaskServices bs.collation task).map ServiceEntry.share
    = entries.map ServiceEntry.share
  cursor : (bs.roundRobinIndex task).toInt = (c % (slots entries).length : ℕ)

section

variable {c : ℕ} (h : At task entries c bs) (hne : entries ≠ [])
  (hbound : (slots entries).length < 2 ^ 63)
include h hbound

theorem At.toInt_totalStoreWeight :
    (totalStoreWeight (bs.table.listTaskServices bs.collation task)).toInt
      = (slots entries).length := by
  rw [← slots_congr h.offers] at hbound ⊢
  exact toInt_totalServiceWeight hbound

include hne

/-- The cursor is below the weight, so it is its own slot. -/
theorem At.toInt_slot :
    (bs.roundRobinIndex task
        % totalStoreWeight (bs.table.listTaskServices bs.collation task)).toInt
      = (c % (slots entries).length : ℕ) := by
  have hplace := Nat.mod_lt c (List.length_pos_iff.mpr (slots_ne_nil hne))
  rw [Int64.toInt_mod, h.toInt_totalStoreWeight hbound, h.cursor,
    Int.tmod_eq_emod_of_nonneg (by omega)]
  exact Int.emod_eq_of_lt (by omega) (by omega)

theorem At.exists_selected :
    ∃ selected, (selectWeightedEntryIndex (bs.table.listTaskServices bs.collation task)
        (bs.roundRobinIndex task
          % totalStoreWeight (bs.table.listTaskServices bs.collation task))).bind
            ((bs.table.listTaskServices bs.collation task)[·]?) = some selected
      ∧ some selected.address = (slots entries)[c % (slots entries).length]? := by
  have hplace := Nat.mod_lt c (List.length_pos_iff.mpr (slots_ne_nil hne))
  have hslots := slots_congr h.offers
  have haddr := selectWeightedEntryIndex_address (bs.table.listTaskServices bs.collation task)
    (bs.roundRobinIndex task % totalStoreWeight (bs.table.listTaskServices bs.collation task))
  have hselect : selectWeightedAddress (bs.table.listTaskServices bs.collation task)
      (bs.roundRobinIndex task % totalStoreWeight (bs.table.listTaskServices bs.collation task))
        = (slots entries)[c % (slots entries).length]? := by
    refine (selectWeightedAddress_eq_rotation (by rwa [hslots]) (by rw [h.cursor]; omega)).trans ?_
    rw [rotation_zero h.cursor, hslots, Nat.mod_mod]
  rw [hselect, List.getElem?_eq_getElem hplace, Option.map_eq_some_iff] at haddr
  obtain ⟨selected, hselected, haddr⟩ := haddr
  exact ⟨selected, hselected, by rw [haddr, List.getElem?_eq_getElem hplace]⟩

theorem At.getServiceAddress :
    ∃ bs' addr, bs.getServiceAddress task = (bs', .ok addr)
      ∧ some addr = (slots entries)[c % (slots entries).length]? ∧ At task entries (c + 1) bs' := by
  have hplace := Nat.mod_lt c (List.length_pos_iff.mpr (slots_ne_nil hne))
  have hweight := h.toInt_totalStoreWeight hbound
  have hslot := h.toInt_slot hne hbound
  have hlisted := ne_nil_of_map_share_eq h.offers hne
  have hpos := totalServiceWeight_pos (by rwa [slots_congr h.offers]) hlisted
  obtain ⟨selected, hselected, haddr⟩ := h.exists_selected hne hbound
  have hcall := getService_of_reliable h.reliable rfl hlisted hpos hselected
  have hnext : (bs.roundRobinIndex task
        % totalStoreWeight (bs.table.listTaskServices bs.collation task) + 1).toInt
      = (c % (slots entries).length + 1 : ℕ) := by
    have hrange : InRange (bs.roundRobinIndex task
        % totalStoreWeight (bs.table.listTaskServices bs.collation task)) := ⟨by omega, by omega⟩
    rw [hrange.toInt_succ, hslot]
    rfl
  refine ⟨(bs.getService task).1, selected.address, ?_, haddr, ?_⟩
  · rw [BalancedStore.getServiceAddress, hcall]
    rfl
  · rw [hcall]
    refine ⟨h.reliable, ?_, ?_⟩
    · refine (Table.map_share_listTaskServices_congr fun _ _ ↦ ?_).trans h.offers
      exact Table.offers_countQuery
    · simp only [Function.update_self]
      rw [Int64.toInt_mod, hnext, hweight, Int.tmod_eq_emod_of_nonneg (by omega),
        ← Int.natCast_emod, Nat.mod_add_mod]

end

/-- The store's own balancer goes round the entries it lists. -/
theorem followsPool (hrel : bs.Reliable)
    (hlisted : bs.table.listTaskServices bs.collation task = entries) (hne : entries ≠ [])
    (hbound : (slots entries).length < 2 ^ 63) (hfresh : bs.roundRobinIndex task = 0)
    (calls : List Unit) :
    FollowsPool entries
      (Run.outputs (fun bs _ ↦ bs.getServiceAddress task) bs calls) := by
  refine followsPool_outputs (At task entries) (fun c bs _ _ h ↦ ?_) ⟨hrel, by rw [hlisted], ?_⟩
  · exact h.getServiceAddress hne hbound
  · rw [hfresh, Nat.zero_mod]
    rfl

end BalancedStore

/-! ## All three -/

/-- **Three balancers, one pool.** On a list of entries whose weights sum to less than `2 ^ 63`,
with a fresh cursor, the lookups of the in-memory registry without a firewall, the selections of the
fallback without a firewall and the calls of `PostgresStore.GetService` go round the pool of the
entries. -/
theorem balancers_follow_pool (task : String) (entries : List ServiceEntry) (hne : entries ≠ [])
    (hweight : (pool entries).length < 2 ^ 63) :
    (∀ (reg : MemoryRegistry) (requestors : List (Option IP)), Go.trimSpace task ≠ "" →
        reg.firewall = none → reg.services.slice (Go.trimSpace task) = entries →
        reg.cursor (Go.trimSpace task) = 0 → requestors.length < 2 ^ 63 →
        FollowsPool entries
          (Run.outputs (fun reg ip ↦ reg.getServiceForRequestor task ip) reg requestors))
      ∧ (∀ (sr : StoreBackedRegistry) (requestors : List (Option IP)),
        sr.memCache.firewall = none → (sr.fallbackCursor task).getD 0 = 0 →
        requestors.length < 2 ^ 63 →
        FollowsPool entries
          (Run.outputs (fun sr ip ↦ sr.selectFromStoreEntries task entries ip) sr requestors))
      ∧ ∀ (bs : BalancedStore) (calls : List Unit), bs.Reliable →
        bs.table.listTaskServices bs.collation task = entries → bs.roundRobinIndex task = 0 →
        FollowsPool entries
          (Run.outputs (fun bs _ ↦ bs.getServiceAddress task) bs calls) := by
  rw [length_pool] at hweight
  refine ⟨fun reg requestors ht hfw hslice hfresh hcalls ↦ ?_,
    fun sr requestors hfw hfresh hcalls ↦ ?_, fun bs calls hrel hlisted hfresh ↦ ?_⟩
  · exact MemoryRegistry.followsPool ht hfw hslice hne hweight hfresh hcalls
  · exact StoreBackedRegistry.followsPool hfw hne hweight hfresh hcalls
  · exact BalancedStore.followsPool hrel hlisted hne hweight hfresh calls

/-- Two instances, one of them with twice the capacity. -/
def weightedPair : List ServiceEntry :=
  [{ address := "10.0.0.1:80", lastHeartbeat := 0, capacity := 2 },
    { address := "10.0.0.2:80", lastHeartbeat := 0, capacity := 1 }]

def twoRegistered : MemoryRegistry :=
  (MemoryRegistry.new.registerWithCapacity 0 "scan" "10.0.0.1:80" 2).registerWithCapacity 0 "scan"
    "10.0.0.2:80" 1

def twoStored : BalancedStore :=
  { PostgresStore.empty with
    table := weightedPair.foldl (fun t e ↦ t.register "scan" e) ∅
    roundRobinIndex := fun _ ↦ 0 }

theorem weightedPair_followed :
    (pool weightedPair).length = 3
      ∧ FollowsPool weightedPair (Run.outputs
        (fun reg ip ↦ reg.getServiceForRequestor "scan" ip) twoRegistered [none, none, none, none])
      ∧ FollowsPool weightedPair (Run.outputs
        (fun sr ip ↦ sr.selectFromStoreEntries "scan" weightedPair ip)
        (StoreBackedRegistry.new .empty 0 0) [none, none, none, none])
      ∧ FollowsPool weightedPair (Run.outputs (fun bs _ ↦ bs.getServiceAddress "scan") twoStored
        [(), (), (), ()]) := by
  obtain ⟨hmemory, hfallback, hstore⟩ :=
    balancers_follow_pool "scan" weightedPair (by decide) (by decide +kernel)
  exact ⟨by decide +kernel,
    hmemory _ _ (by decide +kernel) rfl (by decide +kernel) (by decide +kernel) (by decide),
    hfallback _ _ rfl rfl (by decide),
    hstore _ _ (fun _ ↦ rfl) (by decide +kernel) rfl⟩

end TaskDiscovery
