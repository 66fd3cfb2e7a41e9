import TaskDiscovery.Lib.Run
import TaskDiscovery.Registry.Outcomes
import TaskDiscovery.Registry.Representation

/-!
# Expiry in two layers

`Cleanup` of a store-backed registry lets both layers forget the instances that have not been heard
of for a while. The cache drops an entry unless its heartbeat plus the timeout lies after the
present. The store deactivates a row whose heartbeat lies before the present minus the timeout. An
instance that one of them forgets should be forgotten by the other as well: a row that stays active
is filled into the cache by the next miss, and the instance is back.

Two things keep the layers apart. An instance exactly as old as the timeout is stale in the cache
and fresh in the store. And a registration reads the clock once for each layer, the store's reading
being the later one, so the store forgets later. The layers agree exactly when their two tests do on
every instance that they both have (`expireAlike_iff`).

## Forgotten for good

What neither layer has does not come back by itself: no operation other than a registration of the
pair makes a pair known (`known_step`), and a lookup returns known addresses only (`known_of_ok`).
Here the store has to be reliable, because a failed statement may have taken effect.
-/

namespace TaskDiscovery

open Go (IP)

theorem Table.active_cleanup {t : Table} {cutoff : Time} {task addr : String} :
    (t.cleanup cutoff).1.Active task addr
      ↔ ∃ row, t.lookup (task, addr) = some row ∧ row.isActive = true
        ∧ cutoff ≤ row.lastHeartbeat := by
  simp only [Table.Active, Table.cleanup, AList.lookup_mapVal, Option.map_eq_some_iff]
  constructor
  · rintro ⟨row', ⟨row, hrow, rfl⟩, hact⟩
    refine ⟨row, hrow, ?_⟩
    split_ifs at hact with hstale
    have hstale' : ¬(row.lastHeartbeat < cutoff ∧ row.isActive = true) := by simpa using hstale
    exact ⟨hact, not_lt.mp fun hlt ↦ hstale' ⟨hlt, hact⟩⟩
  · rintro ⟨row, hrow, hact, hle⟩
    refine ⟨row, ⟨row, hrow, if_neg ?_⟩, hact⟩
    simp [not_lt.mpr hle]

namespace StoreBackedRegistry

variable {sr sr' : StoreBackedRegistry} {task addr : String} {requestorIP : Option IP}

/-! ## What a cleanup leaves -/

theorem holds_cleanup {now₁ now₂ timeout : Time} :
    (sr.cleanup now₁ now₂ timeout).1.memCache.Holds task addr
      ↔ ∃ e ∈ sr.memCache.services.slice task, now₁ < e.lastHeartbeat + timeout
        ∧ e.address = addr := by
  have hcache : (sr.cleanup now₁ now₂ timeout).1.memCache
      = (sr.memCache.cleanup now₁ timeout).1 := by
    rw [cleanup]
    rcases sr.store.cleanup now₂ timeout with ⟨store, err | flagged⟩
    · rfl
    · rfl
  rw [hcache, MemoryRegistry.Holds, MemoryRegistry.slice_cleanup]
  simp only [List.mem_map, List.mem_filter, decide_eq_true_eq, and_assoc]

theorem active_cleanup (hrel : sr.store.Reliable) {now₁ now₂ timeout : Time} :
    (sr.cleanup now₁ now₂ timeout).1.store.table.Active task addr
      ↔ ∃ row, sr.store.table.lookup (task, addr) = some row ∧ row.isActive = true
        ∧ now₂ - timeout ≤ row.lastHeartbeat := by
  have htable : (sr.cleanup now₁ now₂ timeout).1.store.table
      = (sr.store.table.cleanup (now₂ - timeout)).1 := by
    rw [cleanup, PostgresStore.cleanup, PostgresStore.exec_of_reliable hrel]
  rw [htable, Table.active_cleanup]

/-! ## Forgotten for good -/

def Op.Registers (task addr : String) : Op → Prop
  | .register _ _ task' addr' => Go.trimSpace task' = task ∧ Go.trimSpace addr' = addr
  | .registerWithCapacity _ _ task' addr' _ =>
    Go.trimSpace task' = task ∧ Go.trimSpace addr' = addr
  | _ => False

theorem known_registerWithCapacity (hq : Quiet sr) {now₁ now₂ : Time} {task' addr' : String}
    {capacity : Int64}
    (h : (sr.registerWithCapacity now₁ now₂ task' addr' capacity).Known task addr) :
    sr.Known task addr ∨ (Go.trimSpace task' = task ∧ Go.trimSpace addr' = addr) := by
  rcases registerWithCapacity_cases sr now₁ now₂ task' addr' capacity with
    ⟨-, heq⟩ | ⟨ht, ha, heq⟩
  · rw [heq] at h
    exact Or.inl h
  · obtain ⟨-, htable, hcache⟩ := registerEntry_of_quiet hq now₁ now₂ (Go.trimSpace task')
      (Go.trimSpace addr') (normalizedCapacity capacity)
    rw [heq, Known, htable, hcache, MemoryRegistry.holds_registerWithCapacity ht ha,
      Table.active_register] at h
    rcases h with (⟨rfl, rfl⟩ | hheld) | (⟨rfl, rfl⟩ | hact)
    · exact Or.inr ⟨rfl, rfl⟩
    · exact Or.inl (Or.inl hheld)
    · exact Or.inr ⟨rfl, rfl⟩
    · exact Or.inl (Or.inr hact)

/-- Whichever way a lookup ends, it finds out nothing that was not known, and it returns a known
address. -/
theorem LookupStep.known {result : Except RegistryError String} (ht : Go.Trimmed task)
    (h : LookupStep sr task requestorIP sr' result) :
    (sr.store.Reliable → ∀ task' addr', sr'.Known task' addr' → sr.Known task' addr')
      ∧ ∀ addr, result = .ok addr → sr.Known task addr := by
  rcases h with ⟨addr₀, hcache, htable, rfl⟩ | ⟨err, -, hcache, htable, rfl⟩
    | ⟨-, hcache, htable⟩ | ⟨e, -, he, -, hcache, htable, rfl⟩ | ⟨err, hfail, -, rfl⟩
  · obtain ⟨⟨e, he, rfl⟩, hservices, -⟩ := MemoryRegistry.getServiceForRequestor_ok hcache
    rw [ht.trimSpace_eq] at he
    refine ⟨fun _ task' addr' hknown ↦ ?_, fun addr hok ↦ ?_⟩
    · rwa [Known, htable, MemoryRegistry.Holds, hservices] at hknown
    · rw [← Except.ok.inj hok]
      exact Or.inl (List.mem_map_of_mem (List.mem_of_mem_filter he))
  · refine ⟨fun _ task' addr' hknown ↦ ?_, fun addr hok ↦ by simp at hok⟩
    rwa [Known, htable, hcache] at hknown
  · have hheld : ∀ task' addr', (sr.hydrated task).Holds task' addr' → sr.Known task' addr' := by
      intro task' addr' hheld
      rcases holds_hydrated.mp hheld with ⟨rfl, hact⟩ | hheld
      · exact Or.inr hact
      · exact Or.inl hheld
    refine ⟨fun _ task' addr' hknown ↦ ?_, fun addr hok ↦ ?_⟩
    · have hframe := (MemoryRegistry.getServiceForRequestor_frame (sr.hydrated task) task
        requestorIP).1
      rw [hydrated, hcache] at hframe
      rw [Known, htable, MemoryRegistry.Holds, hframe] at hknown
      rcases hknown with hknown | hact
      · exact hheld task' addr' hknown
      · exact Or.inr hact
    · rw [hok] at hcache
      obtain ⟨e, he, rfl⟩ := (MemoryRegistry.getServiceForRequestor_ok hcache).1
      rw [ht.trimSpace_eq] at he
      exact hheld task _ (List.mem_map_of_mem (List.mem_of_mem_filter he))
  · refine ⟨fun _ task' addr' hknown ↦ ?_, fun addr hok ↦ ?_⟩
    · rwa [Known, htable, hcache, Table.active_incrementQueryCount] at hknown
    · rw [← Except.ok.inj hok]
      exact Or.inr (Table.mem_map_listTaskServices.mp (List.mem_map_of_mem he))
  · exact ⟨fun hrel ↦ absurd hrel hfail, fun addr hok ↦ by simp at hok⟩

theorem known_of_ok (h : (sr.getServiceForRequestor task requestorIP).2 = .ok addr) :
    sr.Known (Go.trimSpace task) addr := by
  by_cases ht : Go.trimSpace task = ""
  · rw [getServiceForRequestor, if_pos ht] at h
    simp at h
  · rcases hget : sr.getServiceForRequestor task requestorIP with ⟨sr', result⟩
    rw [hget] at h
    exact ((getServiceForRequestor_cases ht hget).2.2.known (Go.trimmed_trimSpace ht)).2 addr h

theorem known_getServiceForRequestor (hq : Quiet sr) {task' : String}
    (h : (sr.getServiceForRequestor task' requestorIP).1.Known task addr) :
    sr.Known task addr := by
  by_cases ht : Go.trimSpace task' = ""
  · rwa [getServiceForRequestor, if_pos ht] at h
  · rcases hget : sr.getServiceForRequestor task' requestorIP with ⟨sr', result⟩
    rw [hget] at h
    exact ((getServiceForRequestor_cases ht hget).2.2.known (Go.trimmed_trimSpace ht)).1
      hq.reliable task addr h

/-- A warm writes back entries of the cache and loads rows of the table. -/
theorem known_warmCacheFromDB (hq : Quiet sr) {now : Time} {ord : WarmOrders}
    (h : (sr.warmCacheFromDB now ord).1.Known task addr) : sr.Known task addr := by
  have hwarmed : (sr.warmedTable ord).Active task addr → sr.Known task addr := by
    rintro ⟨row, hrow, hact⟩
    rcases lookup_syncTable sr.store.table (pairs ord.sync sr.memCache.listServices) (task, addr)
      with ⟨-, hlook⟩ | ⟨⟨task', e⟩, hp, -, hkey, -⟩
    · exact Or.inr ⟨row, hlook.symm.trans hrow, hact⟩
    · obtain ⟨rfl, rfl⟩ := Prod.mk.inj hkey
      rw [mem_pairs, MemoryRegistry.slice_listServices] at hp
      obtain ⟨e₀, he₀, rfl⟩ := List.mem_map.mp hp
      rw [MemoryRegistry.withCount_address]
      exact Or.inl (List.mem_map_of_mem he₀)
  rcases h with hheld | hact
  · exact hwarmed ((holds_warmCacheFromDB hq).mp hheld).2
  · rw [(warmCacheFromDB_of_quiet hq now ord).2.1] at hact
    exact hwarmed hact

/-- **Only a registration of a pair makes it known.** -/
theorem known_step (hq : Quiet sr) {op : Op} (h : (sr.step op).Known task addr) :
    sr.Known task addr ∨ op.Registers task addr := by
  rcases op with ⟨now₁, now₂, task', addr'⟩ | ⟨now₁, now₂, task', addr', capacity⟩
    | ⟨task', requestorIP⟩ | ⟨now, ord⟩ | ⟨now₁, now₂, ord⟩ | ⟨now₁, now₂, timeout⟩
  · rw [step, register] at h
    exact known_registerWithCapacity hq h
  · rw [step] at h
    exact known_registerWithCapacity hq h
  · rw [step] at h
    exact Or.inl (known_getServiceForRequestor hq h)
  · rw [step] at h
    exact Or.inl (known_warmCacheFromDB hq h)
  · left
    simp only [step, listServices] at h
    split_ifs at h
    · exact known_warmCacheFromDB hq h
    · exact h
  · left
    rcases h with hheld | hact
    · obtain ⟨e, he, -, rfl⟩ := holds_cleanup.mp hheld
      exact Or.inl (List.mem_map_of_mem he)
    · obtain ⟨row, hrow, hact, -⟩ := (active_cleanup hq.reliable).mp hact
      exact Or.inr ⟨row, hrow, hact⟩

theorem not_known_exec {ops : List Op} (hq : Quiet sr) (h : ¬sr.Known task addr)
    (hops : ∀ op ∈ ops, ¬op.Registers task addr) :
    ¬(Run.exec step sr ops).Known task addr := by
  induction ops generalizing sr with
  | nil => exact h
  | cons op ops ih =>
    refine ih (quiet_step hq op) ?_ fun op' hop' ↦ hops op' (List.mem_cons_of_mem _ hop')
    intro hknown
    rcases known_step hq hknown with hbefore | hreg
    · exact h hbefore
    · exact hops op List.mem_cons_self hreg

/-! ## Agreement -/

/-- A cleanup at `now` leaves no pair in one layer that it takes from the other. A pair that the
cache drops is not active, and no lookup returns it until it is registered again. A pair that the
store deactivates is not cached. -/
structure ExpireAlike (sr : StoreBackedRegistry) (now timeout : Time) : Prop where
  dropped : ∀ task addr, sr.memCache.Holds task addr →
    ¬(sr.cleanup now now timeout).1.memCache.Holds task addr →
      ¬(sr.cleanup now now timeout).1.store.table.Active task addr
  gone : ∀ task addr, sr.memCache.Holds task addr →
    ¬(sr.cleanup now now timeout).1.memCache.Holds task addr →
      ∀ ops, (∀ op ∈ ops, ¬op.Registers task addr) → ∀ task', Go.trimSpace task' = task →
        ∀ requestorIP, ((Run.exec step (sr.cleanup now now timeout).1 ops).getServiceForRequestor
          task' requestorIP).2 ≠ .ok addr
  deactivated : ∀ task addr, sr.store.table.Active task addr →
    ¬(sr.cleanup now now timeout).1.store.table.Active task addr →
      ¬(sr.cleanup now now timeout).1.memCache.Holds task addr

/-- The two tests for staleness agree on every instance that both layers have. -/
def SameVerdict (sr : StoreBackedRegistry) (now timeout : Time) : Prop :=
  ∀ task, ∀ e ∈ sr.memCache.services.slice task, ∀ row,
    sr.store.table.lookup (task, e.address) = some row → row.isActive = true →
      (e.lastHeartbeat + timeout ≤ now ↔ row.lastHeartbeat < now - timeout)

theorem holds_cleanup_iff_of_mem (hwf : sr.memCache.WellFormed) {e : ServiceEntry}
    (he : e ∈ sr.memCache.services.slice task) {now₁ now₂ timeout : Time} :
    (sr.cleanup now₁ now₂ timeout).1.memCache.Holds task e.address
      ↔ now₁ < e.lastHeartbeat + timeout := by
  rw [holds_cleanup]
  constructor
  · rintro ⟨e', he', hfresh, haddr⟩
    rwa [← List.inj_on_of_nodup_map (hwf.nodup_slice task) he' he haddr]
  · intro hfresh
    exact ⟨e, he, hfresh, rfl⟩

theorem active_cleanup_iff_of_lookup (hrel : sr.store.Reliable) {row : Row}
    (hrow : sr.store.table.lookup (task, addr) = some row) (hact : row.isActive = true)
    {now₁ now₂ timeout : Time} :
    (sr.cleanup now₁ now₂ timeout).1.store.table.Active task addr
      ↔ now₂ - timeout ≤ row.lastHeartbeat := by
  rw [active_cleanup hrel]
  constructor
  · rintro ⟨row', hrow', -, hle⟩
    rwa [Option.some.inj (hrow.symm.trans hrow')]
  · intro hle
    exact ⟨row, hrow, hact, hle⟩

theorem expireAlike_of_sameVerdict (hq : Quiet sr) (hwf : sr.memCache.WellFormed)
    {now timeout : Time} (h : sr.SameVerdict now timeout) : sr.ExpireAlike now timeout := by
  have hdropped : ∀ task addr, sr.memCache.Holds task addr →
      ¬(sr.cleanup now now timeout).1.memCache.Holds task addr →
        ¬(sr.cleanup now now timeout).1.store.table.Active task addr := by
    intro task addr hheld hgone hactive
    obtain ⟨row, hrow, hact, hle⟩ := (active_cleanup hq.reliable).mp hactive
    obtain ⟨e, he, rfl⟩ := List.mem_map.mp hheld
    rw [holds_cleanup_iff_of_mem hwf he, not_lt] at hgone
    exact absurd ((h task e he row hrow hact).mp hgone) (not_lt.mpr hle)
  refine ⟨hdropped, ?_, ?_⟩
  · intro task addr hheld hgone ops hops task' htask requestorIP hok
    have hunknown : ¬(sr.cleanup now now timeout).1.Known task addr := by
      rintro (hheld' | hactive)
      · exact hgone hheld'
      · exact hdropped task addr hheld hgone hactive
    have hknown := known_of_ok hok
    rw [htask] at hknown
    exact not_known_exec (quiet_step hq (.cleanup now now timeout)) hunknown hops hknown
  · rintro task addr ⟨row, hrow, hact⟩ hinactive hheld
    rw [active_cleanup_iff_of_lookup hq.reliable hrow hact, not_le] at hinactive
    obtain ⟨e, he, hfresh, rfl⟩ := holds_cleanup.mp hheld
    exact absurd ((h task e he row hrow hact).mpr hinactive) (not_le.mpr hfresh)

theorem sameVerdict_of_expireAlike (hq : Quiet sr) (hwf : sr.memCache.WellFormed)
    {now timeout : Time} (h : sr.ExpireAlike now timeout) : sr.SameVerdict now timeout := by
  intro task e he row hrow hact
  have hheld : sr.memCache.Holds task e.address := List.mem_map_of_mem he
  constructor
  · intro hstale
    have hgone := h.dropped task e.address hheld (by
      rw [holds_cleanup_iff_of_mem hwf he]
      exact not_lt.mpr hstale)
    rwa [active_cleanup_iff_of_lookup hq.reliable hrow hact, not_le] at hgone
  · intro hstale
    have hgone := h.deactivated task e.address ⟨row, hrow, hact⟩ (by
      rw [active_cleanup_iff_of_lookup hq.reliable hrow hact]
      exact not_le.mpr hstale)
    rwa [holds_cleanup_iff_of_mem hwf he, not_lt] at hgone

/-- **When both layers expire the same instances.** In every state that a registry over a store that
never fails can reach, and for every timeout and instant, a cleanup of both layers at this instant
forgets the same instances in both if and only if the tests of the layers agree on every instance
that both have. -/
theorem expireAlike_iff {store : PostgresStore} (hrel : store.Reliable) (cacheMaxSize : Int)
    (now₀ : Time) (threshold : Int) (fw : Option Firewall) (ops : List Op) (now timeout : Time) :
    (Run.exec step (start store cacheMaxSize now₀ threshold fw) ops).ExpireAlike now timeout
      ↔ (Run.exec step (start store cacheMaxSize now₀ threshold fw) ops).SameVerdict now
        timeout := by
  have hq : Quiet (Run.exec step (start store cacheMaxSize now₀ threshold fw) ops) :=
    Run.invariant (fun (sr : StoreBackedRegistry) op (hq : Quiet sr) ↦ quiet_step hq op)
      (quiet_start hrel cacheMaxSize now₀ threshold fw) ops
  have hwf := exec_wellFormed.2 store cacheMaxSize now₀ threshold fw ops
  exact ⟨sameVerdict_of_expireAlike hq hwf, expireAlike_of_sameVerdict hq hwf⟩

/-- One registration, with the clock readings of the two layers. -/
def onceRegistered (now₁ now₂ : Time) : List Op :=
  [.registerWithCapacity now₁ now₂ "scan" "10.0.0.1:80" 1]

/-- An instance that is older than the timeout in both layers. -/
theorem onceRegistered_expireAlike :
    (Run.exec step (start .empty 0 0 1 none) (onceRegistered 0 5)).ExpireAlike 66 60 := by
  refine (expireAlike_iff PostgresStore.empty_reliable 0 0 1 none (onceRegistered 0 5) 66 60).mpr ?_
  intro task e he row hrow hact
  have hentries : (Run.exec step (start .empty 0 0 1 none)
      (onceRegistered 0 5)).memCache.services.entries
        = [⟨"scan", [{ address := "10.0.0.1:80", lastHeartbeat := 0, capacity := 1 }]⟩] := by
    decide +kernel
  obtain ⟨entries, hmem, hin⟩ := AList.mem_slice_iff.mp he
  rw [hentries, List.mem_singleton] at hmem
  obtain ⟨rfl, hlist⟩ := Sigma.mk.inj hmem
  rw [eq_of_heq hlist, List.mem_singleton] at hin
  subst hin
  have hlook : (Run.exec step (start .empty 0 0 1 none)
      (onceRegistered 0 5)).store.table.lookup ("scan", "10.0.0.1:80")
        = some ⟨5, 0, 1, true⟩ := by
    decide +kernel
  rw [← Option.some.inj (hlook.symm.trans hrow)]
  decide

/-- The registry after a cleanup with timeout 60 at `now`. -/
def onceCleaned (now₂ now : Time) : StoreBackedRegistry :=
  ((Run.exec step (start .empty 0 0 1 none) (onceRegistered 0 now₂)).cleanup now now 60).1

/-- An instance exactly as old as the timeout, and one whose row is younger than its cached entry:
the cache drops them, the store keeps them active, and the next query returns them. -/
theorem expired_returns :
    (¬(onceCleaned 0 60).memCache.Holds "scan" "10.0.0.1:80"
        ∧ (onceCleaned 0 60).store.table.Active "scan" "10.0.0.1:80"
        ∧ ((onceCleaned 0 60).getServiceForRequestor "scan" none).2 = .ok "10.0.0.1:80")
      ∧ ¬(onceCleaned 5 63).memCache.Holds "scan" "10.0.0.1:80"
      ∧ (onceCleaned 5 63).store.table.Active "scan" "10.0.0.1:80"
      ∧ ((onceCleaned 5 63).getServiceForRequestor "scan" none).2 = .ok "10.0.0.1:80" := by
  decide +kernel

end StoreBackedRegistry

end TaskDiscovery
