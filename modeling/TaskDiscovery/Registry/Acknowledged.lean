import Mathlib.Data.Fintype.Basic
import TaskDiscovery.Registry.Interleaving

/-!
# Acknowledged registrations

A registration whose store call failed is kept in the cache and marked for retry. Whether that is
enough depends on the warms that run beside it: a warm replaces the cache, and takes over only the
entries that are marked when it looks.

* `Kept` says that every acknowledged pair is an active row, or an entry of the current cache that
  is marked. It is asked for when no warm is in progress.
* `MarksSafely` is the condition under which a run has it. A mark must be set while the entry is in
  the current cache and in what a running warm is about to install; and a mark, which is keyed by
  `task:address`, may be cleared only when no other acknowledged pair needs it.

The invariant is `Intact`. Besides the fate of the acknowledged pairs it says that a thread about to
clear a mark has seen the row persisted, and that a warm works on the current cache.
-/

namespace TaskDiscovery

namespace Thread

def isCleanup : Thread → Bool
  | .cleanup _ => true
  | _ => false

/-- The new cache of a warm that has listed the entries to preserve, with the rest of that list. -/
def installing : Thread → Option (MemoryRegistry × List (String × ServiceEntry))
  | .warm (.keepLoad _ newCache todo) => some (newCache, todo)
  | .warm (.copyCursors _ newCache) => some (newCache, [])
  | .warm (.swap newCache) => some (newCache, [])
  | _ => none

/-- If the thread is about to install a new cache, the pair will be in it. -/
def Carries (task addr : String) (th : Thread) : Prop :=
  ∀ x ∈ th.installing, x.1.Holds task addr ∨ (task, addr) ∈ x.2.map fun p ↦ (p.1, p.2.address)

instance (task addr : String) (th : Thread) : Decidable (th.Carries task addr) :=
  inferInstanceAs (Decidable (∀ x ∈ th.installing, _))

section Carries

variable {task addr : String} {old : ℕ} {newCache : MemoryRegistry}

theorem carries_keepLoad {todo : List (String × ServiceEntry)} :
    (Thread.warm (.keepLoad old newCache todo)).Carries task addr
      ↔ newCache.Holds task addr ∨ (task, addr) ∈ todo.map fun p ↦ (p.1, p.2.address) := by
  simp [Carries, installing]

theorem carries_copyCursors :
    (Thread.warm (.copyCursors old newCache)).Carries task addr ↔ newCache.Holds task addr := by
  simp [Carries, installing]

theorem carries_swap :
    (Thread.warm (.swap newCache)).Carries task addr ↔ newCache.Holds task addr := by
  simp [Carries, installing]

end Carries

/-- The pair for which the next step sets the retry mark. -/
def marks : Thread → Option (String × String)
  | .register (.setMark task addr false) => some (task, addr)
  | _ => none

/-- The pair for which the next step clears the retry mark. -/
def clears : Thread → Option (String × String)
  | .register (.setMark task addr true) => some (task, addr)
  | .warm (.syncClear task addr _) => some (task, addr)
  | .warm (.pendingClear _ task addr _) => some (task, addr)
  | _ => none

/-- The pair that the thread has just seen persisted. -/
def persisted : Thread → Option (String × String)
  | .warm (.syncLoad task addr _) => some (task, addr)
  | th => th.clears

theorem persisted_of_clears {th : Thread} {p : String × String} (h : p ∈ th.clears) :
    p ∈ th.persisted := by
  unfold persisted
  split
  · simp [clears] at h
  · exact h

theorem not_marks_of_warm {th : Thread} (h : th.isWarm = true) {p : String × String} :
    p ∉ th.marks := by
  cases th <;> simp_all [isWarm, marks]

/-- The cache a warm works on, until it has listed the entries to preserve. -/
def base : Thread → Option ℕ
  | .warm (.pendingRead old) => some old
  | .warm (.pendingSnapshot old _) => some old
  | .warm (.pendingLoad old _) => some old
  | .warm (.pendingWrite old _ _) => some old
  | .warm (.pendingClear old _ _ _) => some old
  | .warm (.list old) => some old
  | .warm (.listTasks old _) => some old
  | .warm (.keepSnapshot old _) => some old
  | _ => none

theorem base_of_not_warm {th : Thread} (h : th.isWarm = false) : th.base = none := by
  cases th <;> simp_all [isWarm, base]

theorem carries_of_not_warm {th : Thread} (h : th.isWarm = false) (task addr : String) :
    th.Carries task addr := by
  have hinst : th.installing = none := by cases th <;> simp_all [isWarm, installing]
  simp [Carries, hinst]

end Thread

variable {ι κ : Type}

namespace World

/-- Where no warm is in progress, every acknowledged pair is an active row, or an entry of the
current cache that is marked for retry. -/
def Kept (w : World ι κ) : Prop :=
  ∀ i, (∀ k, (w.threads i k).isWarm = false) → ∀ p ∈ (w.shared i).acknowledged,
    w.table.Active p.1 p.2
      ∨ (w.shared i).memCache.Holds p.1 p.2 ∧ (w.shared i).hasPendingStoreSync p.1 p.2 = true

/-- The calls of a run: no cleanup, and on each server one warm after another. -/
def Successive (w : World ι κ) : Action ι κ → Prop
  | .start i _ .warmCacheFromDB => ∀ k, (w.threads i k).isWarm = false
  | .start _ _ (.cleanup _) => False
  | _ => True

/-- A mark is set for a pair that the current cache has and a running warm will install, unless the
row is there; and a mark is cleared when it serves no other acknowledged pair. -/
def MarksSafely (w : World ι κ) : Action ι κ → Prop
  | .start _ _ _ => True
  | .step i k _ =>
    (∀ p ∈ (w.threads i k).marks, w.table.Active p.1 p.2
        ∨ (w.shared i).memCache.Holds p.1 p.2 ∧ ∀ l, (w.threads i l).Carries p.1 p.2)
      ∧ ∀ p ∈ (w.threads i k).clears, ∀ q ∈ (w.shared i).acknowledged,
          counterKey q.1 q.2 = counterKey p.1 p.2 → q = p ∨ w.table.Active q.1 q.2

theorem Successive.begin_isCleanup {w : World ι κ} {i : ι} {k : κ} {call : Call}
    (h : w.Successive (.start i k call)) : call.begin.isCleanup = false := by
  cases call with
  | cleanup timeout => exact h.elim
  | registerWithCapacity | getServiceForRequestor =>
    simp only [Call.begin]
    split_ifs <;> rfl
  | warmCacheFromDB => rfl

theorem Successive.begin_isWarm {w : World ι κ} {i : ι} {k : κ} {call : Call}
    (h : w.Successive (.start i k call)) (hwarm : call.begin.isWarm = true) (l : κ) :
    (w.threads i l).isWarm = false := by
  cases call with
  | cleanup timeout => exact h.elim
  | registerWithCapacity | getServiceForRequestor =>
    simp only [Call.begin] at hwarm
    split_ifs at hwarm <;> simp [Thread.isWarm] at hwarm
  | warmCacheFromDB => exact h l

end World

/-! ## What a step keeps -/

/-- What every step of a thread but a cleanup's and a swap leaves of the shared fields: no entry of
the current cache goes, a mark goes only when the thread clears it, and a pair is acknowledged when
it has been persisted or is marked. -/
structure Shared.Grows (sh : Shared) (th : Thread) (sh' : Shared) : Prop where
  current : sh'.current = sh.current
  holds : ∀ task addr, sh.memCache.Holds task addr → sh'.memCache.Holds task addr
  pending : ∀ task addr, sh.hasPendingStoreSync task addr = true →
    (∀ p ∈ th.clears, counterKey task addr ≠ counterKey p.1 p.2) →
      sh'.hasPendingStoreSync task addr = true
  acknowledged : ∀ p ∈ sh'.acknowledged, p ∈ sh.acknowledged ∨ p ∈ th.persisted
    ∨ p ∈ th.marks ∧ sh'.hasPendingStoreSync p.1 p.2 = true

namespace Shared.Grows

variable {sh : Shared} {th : Thread}

theorem refl : sh.Grows th sh := ⟨rfl, fun _ _ h ↦ h, fun _ _ h _ ↦ h, fun _ h ↦ Or.inl h⟩

/-- Miss counters and fallback cursors do not matter. -/
theorem of_eq {sh' : Shared} (hcaches : sh'.caches = sh.caches)
    (hcurrent : sh'.current = sh.current)
    (hpending : sh'.pendingStoreSync = sh.pendingStoreSync)
    (hacknowledged : sh'.acknowledged = sh.acknowledged) : sh.Grows th sh' where
  current := hcurrent
  holds _ _ h := by rwa [Shared.memCache, hcaches, hcurrent]
  pending _ _ h _ := by rwa [Shared.hasPendingStoreSync, hpending]
  acknowledged _ h := Or.inl (hacknowledged ▸ h)

theorem updateCache {m : ℕ} {f : MemoryRegistry → MemoryRegistry}
    (hf : ∀ task addr, (sh.caches m).Holds task addr → (f (sh.caches m)).Holds task addr) :
    sh.Grows th (sh.updateCache m f) where
  current := rfl
  holds task addr h := by
    by_cases hm : sh.current = m
    · subst hm
      simpa [Shared.memCache, Shared.updateCache] using hf task addr h
    · simpa [Shared.memCache, Shared.updateCache, hm] using h
  pending _ _ h _ := h
  acknowledged _ h := Or.inl h

theorem clearPendingStoreSync {task addr : String} (h : th.clears = some (task, addr)) :
    sh.Grows th (sh.clearPendingStoreSync task addr) where
  current := rfl
  holds _ _ h := h
  pending task' addr' hpend hne := by
    have hkey : counterKey task' addr' ≠ counterKey task addr := hne (task, addr) h
    simpa [Shared.hasPendingStoreSync, Shared.clearPendingStoreSync, SyncMap.delete_of_ne _ hkey]
      using hpend
  acknowledged _ h := Or.inl h

end Shared.Grows

theorem Shared.hasPendingStoreSync_mark_self (sh : Shared) (task addr : String) :
    (sh.markPendingStoreSync task addr).hasPendingStoreSync task addr = true := by
  simp [Shared.hasPendingStoreSync, Shared.markPendingStoreSync]

theorem Shared.hasPendingStoreSync_mark {sh : Shared} {task' addr' : String}
    (h : sh.hasPendingStoreSync task' addr' = true) (task addr : String) :
    (sh.markPendingStoreSync task addr).hasPendingStoreSync task' addr' = true := by
  by_cases hkey : counterKey task' addr' = counterKey task addr
  · simp [Shared.hasPendingStoreSync, Shared.markPendingStoreSync, hkey]
  · simpa [Shared.hasPendingStoreSync, Shared.markPendingStoreSync, SyncMap.store_of_ne _ hkey]
      using h

variable {c : Collation} {t : Table} {sh : Shared} {inp : Input}

theorem RegisterPc.grows (pc : RegisterPc) :
    sh.Grows (.register pc) (pc.step t sh inp).2.1 := by
  cases pc with
  | readCache | writeStore => exact .refl
  | writeCache m task addr capacity =>
    simp only [RegisterPc.step]
    refine .updateCache fun _ _ h ↦ ?_
    exact h.registerWithCapacity inp.now task addr capacity
  | setMark task addr persisted =>
    cases persisted with
    | true =>
      have h : sh.Grows (.register (.setMark task addr true))
          (sh.clearPendingStoreSync task addr) :=
        .clearPendingStoreSync rfl
      refine ⟨h.current, h.holds, h.pending, fun p hp ↦ ?_⟩
      rcases List.mem_cons.mp hp with rfl | hp
      · exact Or.inr (Or.inl rfl)
      · exact Or.inl hp
    | false =>
      refine ⟨rfl, fun _ _ h ↦ h, fun _ _ h _ ↦ sh.hasPendingStoreSync_mark h task addr,
        fun p hp ↦ ?_⟩
      rcases List.mem_cons.mp hp with rfl | hp
      · exact Or.inr (Or.inr ⟨rfl, sh.hasPendingStoreSync_mark_self task addr⟩)
      · exact Or.inl hp

theorem LookupPc.grows (pc : LookupPc) : sh.Grows (.lookup pc) (pc.step c t sh inp).2.1 := by
  cases pc with
  | readCache => exact .refl
  | copyEntries m task requestorIP again =>
    simp only [LookupPc.step]
    split <;> exact .refl
  | advanceCursor m task requestorIP again allowed =>
    have h : sh.Grows (.lookup (.advanceCursor m task requestorIP again allowed))
        (sh.updateCache m fun _ ↦ ((sh.caches m).advanceCursor task allowed).1) := by
      exact .updateCache fun _ _ h ↦ h
    simp only [LookupPc.step]
    split <;> exact h
  | countQuery m task addr =>
    simp only [LookupPc.step]
    exact .updateCache fun _ _ h ↦ h
  | listTask m task requestorIP =>
    simp only [LookupPc.step]
    split
    · exact .refl
    · split_ifs <;> exact .refl
  | countMiss m task requestorIP entries =>
    simp only [LookupPc.step]
    split_ifs <;> exact .of_eq rfl rfl rfl rfl
  | hydrate m task requestorIP todo =>
    cases todo with
    | nil => exact .of_eq rfl rfl rfl rfl
    | cons e todo =>
      simp only [LookupPc.step]
      exact .updateCache fun _ _ h ↦ holds_populateCacheEntry.mpr (Or.inr h)
  | selectFromStore task requestorIP entries =>
    simp only [LookupPc.step]
    split <;> exact .of_eq rfl rfl rfl rfl
  | incrementRow task addr =>
    simp only [LookupPc.step]
    split
    · exact .refl
    · split_ifs <;> exact .refl

theorem WarmPc.grows (pc : WarmPc) (hswap : ∀ newCache, pc ≠ .swap newCache) :
    sh.Grows (.warm pc) (pc.step c t sh inp).2.1 := by
  cases pc with
  | syncRead | syncSnapshot | readOld | pendingRead | pendingSnapshot | keepSnapshot
  | copyCursors => exact .refl
  | syncClear | pendingClear => exact .clearPendingStoreSync rfl
  | syncWrite todo =>
    cases todo with
    | nil => exact .refl
    | cons p todo =>
      simp only [WarmPc.step]
      split_ifs <;> exact .refl
  | syncLoad | pendingWrite =>
    simp only [WarmPc.step]
    split_ifs <;> exact .refl
  | pendingLoad old todo | keepLoad old newCache todo =>
    cases todo with
    | nil => exact .refl
    | cons p todo =>
      simp only [WarmPc.step]
      split_ifs <;> exact .refl
  | list old =>
    simp only [WarmPc.step]
    split
    · exact .refl
    · split_ifs <;> exact .refl
  | listTasks old topTasks =>
    simp only [WarmPc.step]
    split_ifs
    · exact .refl
    · split <;> exact .refl
  | swap newCache => exact absurd rfl (hswap newCache)

/-- What every step of a thread but a cleanup's leaves of the thread. A warm that lists the entries
to preserve finds what the current cache has, and takes over what is marked. -/
structure Thread.Advances (t' : Table) (sh : Shared) (th th' : Thread) : Prop where
  carries : ∀ task addr, sh.hasPendingStoreSync task addr = true → sh.memCache.Holds task addr →
    (∀ old ∈ th.base, old = sh.current) → th.Carries task addr → th'.Carries task addr
  persisted : ∀ p ∈ th'.persisted, p ∈ th.persisted ∨ t'.Active p.1 p.2
  base : ∀ old ∈ th'.base, old ∈ th.base ∨ old = sh.current
  warm : th'.isWarm = true → th.isWarm = true
  cleanup : th'.isCleanup = true → th.isCleanup = true

namespace Thread.Advances

variable {t' : Table} {th th' : Thread}

/-- A thread that is neither in a warm nor in a cleanup, and has seen nothing persisted. -/
theorem of_idle (hwarm : th'.isWarm = false) (hcleanup : th'.isCleanup = false)
    (hpersisted : th'.persisted = none) : Thread.Advances t' sh th th' := by
  refine ⟨fun _ _ _ _ _ _ ↦ carries_of_not_warm hwarm _ _, ?_, ?_, ?_, ?_⟩
  · simp [hpersisted]
  · simp [base_of_not_warm hwarm]
  · simp [hwarm]
  · simp [hcleanup]

/-- A warm that is not about to install a cache yet. -/
theorem of_warm {pc pc' : WarmPc} (hinst : (Thread.warm pc').installing = none)
    (hpersisted : ∀ p ∈ (Thread.warm pc').persisted,
      p ∈ (Thread.warm pc).persisted ∨ t'.Active p.1 p.2)
    (hbase : ∀ old ∈ (Thread.warm pc').base, old ∈ (Thread.warm pc).base ∨ old = sh.current) :
    Thread.Advances t' sh (.warm pc) (.warm pc') where
  carries _ _ _ _ _ _ := by simp [Carries, hinst]
  persisted := hpersisted
  base := hbase
  warm := fun _ ↦ rfl
  cleanup := by simp [isCleanup]

/-- A warm that has not written anything in this step. -/
theorem of_reading {pc pc' : WarmPc} (hinst : (Thread.warm pc').installing = none)
    (hpersisted : (Thread.warm pc').persisted = none)
    (hbase : ∀ old ∈ (Thread.warm pc').base, old ∈ (Thread.warm pc).base ∨ old = sh.current) :
    Thread.Advances t' sh (.warm pc) (.warm pc') :=
  of_warm hinst (by simp [hpersisted]) hbase

theorem of_writing {pc pc' : WarmPc} {task addr : String}
    (hinst : (Thread.warm pc').installing = none)
    (hpersisted : (Thread.warm pc').persisted = some (task, addr)) (hactive : t'.Active task addr)
    (hbase : ∀ old ∈ (Thread.warm pc').base, old ∈ (Thread.warm pc).base ∨ old = sh.current) :
    Thread.Advances t' sh (.warm pc) (.warm pc') := by
  refine of_warm hinst (fun p hp ↦ Or.inr ?_) hbase
  rw [hpersisted] at hp
  obtain rfl := Option.some.inj hp
  exact hactive

/-- A warm whose new cache keeps what it was going to install. -/
theorem of_installing {pc pc' : WarmPc} (hpersisted : (Thread.warm pc').persisted = none)
    (hbase : (Thread.warm pc').base = none)
    (hcarries : ∀ task addr, sh.hasPendingStoreSync task addr = true →
      sh.memCache.Holds task addr → (∀ old ∈ (Thread.warm pc).base, old = sh.current) →
        (Thread.warm pc).Carries task addr → (Thread.warm pc').Carries task addr) :
    Thread.Advances t' sh (.warm pc) (.warm pc') where
  carries := hcarries
  persisted := by simp [hpersisted]
  base := by simp [hbase]
  warm := fun _ ↦ rfl
  cleanup := by simp [isCleanup]

end Thread.Advances

/-- A store call that reports success has activated the row. -/
theorem active_storeWrite {task : String} {e : ServiceEntry}
    (h : (inp.storeWrite t (t.register task e)).2 = true) :
    (inp.storeWrite t (t.register task e)).1.Active task e.address := by
  have happ : inp.applies = true := by
    rw [Input.applies, Option.isNone_iff_eq_none.mp h]
  rw [Input.storeWrite, if_pos happ]
  exact Table.active_register.mpr (Or.inl ⟨rfl, rfl⟩)

theorem RegisterPc.advances (pc : RegisterPc) :
    Thread.Advances (pc.step t sh inp).1 sh (.register pc) (pc.step t sh inp).2.2 := by
  cases pc with
  | readCache | writeCache | setMark => exact .of_idle rfl rfl rfl
  | writeStore task addr capacity =>
    simp only [RegisterPc.step]
    rcases h : (inp.storeWrite t (t.register task ⟨addr, inp.now, 0, capacity⟩)).2 with _ | _
    · exact .of_idle rfl rfl rfl
    · refine ⟨?_, fun p hp ↦ Or.inr ?_, ?_, ?_, ?_⟩
      · simp [Thread.Carries, Thread.installing]
      · obtain rfl := Option.some.inj hp
        exact active_storeWrite h
      · simp [Thread.base]
      · simp [Thread.isWarm]
      · simp [Thread.isCleanup]

theorem LookupPc.advances (pc : LookupPc) (t' : Table) :
    Thread.Advances t' sh (.lookup pc) (pc.step c t sh inp).2.2 := by
  have hmissed : ∀ (m : ℕ) (task : String) (requestorIP : Option Go.IP) (again : Bool)
      (err : RegistryError),
      Thread.Advances t' sh (.lookup pc) (missed m task requestorIP again err) := by
    intro m task requestorIP again err
    cases again <;> exact .of_idle rfl rfl rfl
  cases pc with
  | readCache | countQuery => exact .of_idle rfl rfl rfl
  | copyEntries m task requestorIP again | advanceCursor m task requestorIP again allowed =>
    simp only [LookupPc.step]
    split
    · exact hmissed ..
    · exact .of_idle rfl rfl rfl
  | listTask | incrementRow =>
    simp only [LookupPc.step]
    split
    · exact .of_idle rfl rfl rfl
    · split_ifs <;> exact .of_idle rfl rfl rfl
  | countMiss =>
    simp only [LookupPc.step]
    split_ifs <;> exact .of_idle rfl rfl rfl
  | hydrate m task requestorIP todo => cases todo <;> exact .of_idle rfl rfl rfl
  | selectFromStore =>
    simp only [LookupPc.step]
    split <;> exact .of_idle rfl rfl rfl

theorem mem_map_pairs_listServices {ord : TaskOrder} {cache : MemoryRegistry} {task addr : String}
    (h : cache.Holds task addr) :
    (task, addr) ∈ (pairs ord cache.listServices).map fun p ↦ (p.1, p.2.address) := by
  obtain ⟨e, he, rfl⟩ := List.mem_map.mp h
  refine List.mem_map.mpr ⟨(task, MemoryRegistry.withCount cache.queryCounters task e), ?_, by simp⟩
  rw [mem_pairs, MemoryRegistry.slice_listServices]
  exact List.mem_map_of_mem he

/-- `syncQueryCountsToDB` writes the entries of the cache one by one. -/
theorem WarmPc.advances_syncWrite (todo : List (String × ServiceEntry)) :
    Thread.Advances ((WarmPc.syncWrite todo).step c t sh inp).1 sh (.warm (.syncWrite todo))
      ((WarmPc.syncWrite todo).step c t sh inp).2.2 := by
  cases todo with
  | nil => exact .of_reading rfl rfl (by simp [Thread.base])
  | cons p todo =>
    simp only [WarmPc.step]
    split_ifs with _ hok
    · exact .of_writing rfl rfl (active_storeWrite hok) (by simp [Thread.base])
    · exact .of_reading rfl rfl (by simp [Thread.base])
    · exact .of_reading rfl rfl (by simp [Thread.base])

theorem WarmPc.advances_pendingWrite (old : ℕ) (p : String × ServiceEntry)
    (todo : List (String × ServiceEntry)) :
    let pc := WarmPc.pendingWrite old p todo
    Thread.Advances (pc.step c t sh inp).1 sh (.warm pc) (pc.step c t sh inp).2.2 := by
  simp only [WarmPc.step]
  split_ifs with hok
  · exact .of_writing rfl rfl (active_storeWrite hok) (by simp [Thread.base])
  · exact .of_reading rfl rfl (by simp [Thread.base])

/-- A marked pair at the head of the list goes into the new cache. -/
theorem WarmPc.advances_keepLoad (t' : Table) (old : ℕ) (newCache : MemoryRegistry)
    (todo : List (String × ServiceEntry)) :
    Thread.Advances t' sh (.warm (.keepLoad old newCache todo))
      ((WarmPc.keepLoad old newCache todo).step c t sh inp).2.2 := by
  cases todo with
  | nil =>
    refine .of_installing rfl rfl fun _ _ _ _ _ h ↦ Thread.carries_copyCursors.mpr ?_
    simpa using Thread.carries_keepLoad.mp h
  | cons p todo =>
    simp only [WarmPc.step]
    split_ifs with hp
    all_goals
      refine .of_installing rfl rfl fun task addr hpend _ _ h ↦ ?_
      rw [Thread.carries_keepLoad, List.map_cons, List.mem_cons, Prod.mk.injEq] at h
      rw [Thread.carries_keepLoad]
    · rw [holds_populateCacheEntry]
      tauto
    · have hne : ¬(task = p.1 ∧ addr = p.2.address) := by
        rintro ⟨rfl, rfl⟩
        exact hp hpend
      tauto

theorem WarmPc.advances (pc : WarmPc) :
    Thread.Advances (pc.step c t sh inp).1 sh (.warm pc) (pc.step c t sh inp).2.2 := by
  cases pc with
  | syncRead | syncSnapshot | readOld | pendingRead | pendingSnapshot | pendingClear | syncClear =>
    exact .of_reading rfl rfl (by simp [Thread.base])
  | syncWrite todo => exact advances_syncWrite todo
  | syncLoad task addr todo =>
    simp only [WarmPc.step]
    split_ifs
    · exact .of_warm rfl (fun q hq ↦ Or.inl hq) (by simp [Thread.base])
    · exact .of_reading rfl rfl (by simp [Thread.base])
  | pendingLoad old todo =>
    cases todo with
    | nil => exact .of_reading rfl rfl (by simp [Thread.base])
    | cons p todo =>
      simp only [WarmPc.step]
      split_ifs <;> exact .of_reading rfl rfl (by simp [Thread.base])
  | pendingWrite old p todo => exact advances_pendingWrite old p todo
  | list old =>
    simp only [WarmPc.step]
    split
    · exact .of_idle rfl rfl rfl
    · split_ifs <;> exact .of_reading rfl rfl (by simp [Thread.base])
  | listTasks old topTasks =>
    simp only [WarmPc.step]
    split_ifs
    · exact .of_reading rfl rfl (by simp [Thread.base])
    · split
      · exact .of_idle rfl rfl rfl
      · exact .of_reading rfl rfl (by simp [Thread.base])
  | keepSnapshot old newCache =>
    refine .of_installing rfl rfl fun task addr _ hholds hbase _ ↦ ?_
    obtain rfl : old = sh.current := hbase old rfl
    exact Thread.carries_keepLoad.mpr (Or.inr (mem_map_pairs_listServices hholds))
  | keepLoad old newCache todo => exact advances_keepLoad _ old newCache todo
  | copyCursors old newCache =>
    refine .of_installing rfl rfl fun task addr _ _ _ h ↦ Thread.carries_swap.mpr ?_
    have hholds : newCache.Holds task addr := Thread.carries_copyCursors.mp h
    exact hholds
  | swap newCache => exact .of_idle rfl rfl rfl

/-- A step of a thread that runs no cleanup deactivates no row. -/
theorem TableStep.active {t' : Table} {th : Thread} (h : TableStep t inp th t')
    (hcleanup : th.isCleanup = false) {task addr : String} (hact : t.Active task addr) :
    t'.Active task addr := by
  cases h with
  | same => exact hact
  | upsert p hup => exact Table.active_register.mpr (Or.inr hact)
  | increment task' addr' hth => exact Table.active_incrementQueryCount.mpr hact
  | cleanup timeout removed hth happ => simp [hth, Thread.isCleanup] at hcleanup

theorem Thread.grows {th : Thread} (hcleanup : th.isCleanup = false)
    (hswap : ∀ newCache, th ≠ .warm (.swap newCache)) :
    sh.Grows th (th.step c t sh inp).2.1 := by
  cases th with
  | returned reply => exact .refl
  | register pc => exact pc.grows
  | lookup pc => exact pc.grows
  | cleanup pc => simp [isCleanup] at hcleanup
  | warm pc => exact pc.grows fun newCache h ↦ hswap newCache (by rw [h])

theorem Thread.advances {th : Thread} (hcleanup : th.isCleanup = false) :
    Thread.Advances (th.step c t sh inp).1 sh th (th.step c t sh inp).2.2 := by
  cases th with
  | returned reply => exact .of_idle rfl rfl rfl
  | register pc => exact pc.advances
  | lookup pc => exact pc.advances _
  | cleanup pc => simp [isCleanup] at hcleanup
  | warm pc => exact pc.advances

theorem Call.begin_idle (call : Call) :
    call.begin.installing = none ∧ call.begin.persisted = none ∧ call.begin.base = none := by
  cases call with
  | registerWithCapacity task addr capacity | getServiceForRequestor task requestorIP =>
    simp only [Call.begin]
    split_ifs <;> exact ⟨rfl, rfl, rfl⟩
  | cleanup timeout => exact ⟨rfl, rfl, rfl⟩
  | warmCacheFromDB => exact ⟨rfl, rfl, rfl⟩

/-! ## The invariant -/

/-- The pair is an active row, or it is marked and every cache that is or will be current has it. -/
def Safe (t : Table) (sh : Shared) (ths : κ → Thread) (task addr : String) : Prop :=
  t.Active task addr
    ∨ sh.hasPendingStoreSync task addr = true ∧ sh.memCache.Holds task addr
      ∧ ∀ k, (ths k).Carries task addr

/-- The invariant of one server. -/
structure Intact (t : Table) (sh : Shared) (ths : κ → Thread) : Prop where
  acknowledged : ∀ p ∈ sh.acknowledged, Safe t sh ths p.1 p.2
  persisted : ∀ k, ∀ p ∈ (ths k).persisted, t.Active p.1 p.2
  base : ∀ k, ∀ old ∈ (ths k).base, old = sh.current
  single : ∀ k l, (ths k).isWarm = true → (ths l).isWarm = true → k = l
  noCleanup : ∀ k, (ths k).isCleanup = false

namespace Intact

variable {t' : Table} {sh' : Shared} {ths : κ → Thread} {k : κ} {th' : Thread}

/-- What other servers do to the table does no harm. -/
theorem of_active (h : Intact t sh ths)
    (hact : ∀ task addr, t.Active task addr → t'.Active task addr) : Intact t' sh ths where
  acknowledged p hp := (h.acknowledged p hp).imp_left (hact p.1 p.2)
  persisted l p hp := hact p.1 p.2 (h.persisted l p hp)
  base := h.base
  single := h.single
  noCleanup := h.noCleanup

variable [DecidableEq κ]

/-- Replacing a thread by one that is in a warm only if the old one was keeps warms single. -/
theorem single_update (h : Intact t sh ths) (hwarm : th'.isWarm = true → (ths k).isWarm = true)
    (l l' : κ) (hl : (Function.update ths k th' l).isWarm = true)
    (hl' : (Function.update ths k th' l').isWarm = true) : l = l' := by
  have hold : ∀ l, (Function.update ths k th' l).isWarm = true → (ths l).isWarm = true := by
    intro l hl
    by_cases hlk : l = k
    · subst hlk
      exact hwarm (by simpa using hl)
    · simpa [hlk] using hl
  exact h.single l l' (hold l hl) (hold l' hl')

/-- **One step.** A step that is neither a swap nor a cleanup keeps the invariant, if the mark it
sets or clears is safe. -/
theorem advance (h : Intact t sh ths)
    (hact : ∀ task addr, t.Active task addr → t'.Active task addr)
    (hgrow : sh.Grows (ths k) sh') (hadv : Thread.Advances t' sh (ths k) th')
    (hmark : ∀ p ∈ (ths k).marks, t.Active p.1 p.2
      ∨ sh.memCache.Holds p.1 p.2 ∧ ∀ l, (ths l).Carries p.1 p.2)
    (hclear : ∀ p ∈ (ths k).clears, ∀ q ∈ sh.acknowledged,
      counterKey q.1 q.2 = counterKey p.1 p.2 → q = p ∨ t.Active q.1 q.2) :
    Intact t' sh' (Function.update ths k th') := by
  refine ⟨fun p hp ↦ ?_, fun l p hp ↦ ?_, fun l old hold ↦ ?_, h.single_update hadv.warm,
    fun l ↦ ?_⟩
  · rcases hgrow.acknowledged p hp with hack | hpers | ⟨hmarked, hpend'⟩
    · rcases h.acknowledged p hack with hrow | ⟨hpend, hholds, hcarries⟩
      · exact Or.inl (hact _ _ hrow)
      · by_cases hcleared : ∃ q ∈ (ths k).clears, counterKey p.1 p.2 = counterKey q.1 q.2
        · obtain ⟨q, hq, hkey⟩ := hcleared
          rcases hclear q hq p hack hkey with rfl | hrow
          · exact Or.inl (hact _ _ (h.persisted k p (Thread.persisted_of_clears hq)))
          · exact Or.inl (hact _ _ hrow)
        · refine Or.inr ⟨hgrow.pending _ _ hpend fun q hq hkey ↦ hcleared ⟨q, hq, hkey⟩,
            hgrow.holds _ _ hholds, fun l ↦ ?_⟩
          by_cases hl : l = k
          · subst hl
            simpa using hadv.carries _ _ hpend hholds (h.base l) (hcarries l)
          · simpa [hl] using hcarries l
    · exact Or.inl (hact _ _ (h.persisted k p hpers))
    · rcases hmark p hmarked with hrow | ⟨hholds, hcarries⟩
      · exact Or.inl (hact _ _ hrow)
      · refine Or.inr ⟨hpend', hgrow.holds _ _ hholds, fun l ↦ ?_⟩
        by_cases hl : l = k
        · subst hl
          have hidle : th'.isWarm = false := by
            rw [← Bool.not_eq_true]
            exact fun hw ↦ Thread.not_marks_of_warm (hadv.warm hw) hmarked
          simpa using Thread.carries_of_not_warm hidle _ _
        · simpa [hl] using hcarries l
  · by_cases hl : l = k
    · subst hl
      rw [Function.update_self] at hp
      exact (hadv.persisted p hp).elim (fun hp ↦ hact _ _ (h.persisted l p hp)) fun hrow ↦ hrow
    · rw [Function.update_of_ne hl] at hp
      exact hact _ _ (h.persisted l p hp)
  · rw [hgrow.current]
    by_cases hl : l = k
    · subst hl
      rw [Function.update_self] at hold
      exact (hadv.base old hold).elim (h.base l old) fun heq ↦ heq
    · rw [Function.update_of_ne hl] at hold
      exact h.base l old hold
  · by_cases hl : l = k
    · subst hl
      rw [Function.update_self, ← Bool.not_eq_true]
      exact fun hc ↦ absurd (hadv.cleanup hc) (by simp [h.noCleanup l])
    · rw [Function.update_of_ne hl]
      exact h.noCleanup l

/-- **The swap.** What the warm carries is what the current cache has afterwards. -/
theorem swap (h : Intact t sh ths) {newCache : MemoryRegistry}
    (hth : ths k = .warm (.swap newCache)) (now : Time) (reply : Reply) :
    Intact t (sh.swapCache newCache now) (Function.update ths k (.returned reply)) := by
  -- no other thread of the server is in a warm
  have hidle : ∀ l, (Function.update ths k (.returned reply) l).isWarm = false := by
    intro l
    by_cases hl : l = k
    · subst hl
      simp [Thread.isWarm]
    · rw [Function.update_of_ne hl, ← Bool.not_eq_true]
      exact fun hw ↦ hl (h.single l k hw (by rw [hth]; rfl))
  refine ⟨fun p hp ↦ ?_, fun l p hp ↦ ?_, fun l old hold ↦ ?_, fun l _ hl ↦ ?_, fun l ↦ ?_⟩
  · rcases h.acknowledged p hp with hrow | ⟨hpend, -, hcarries⟩
    · exact Or.inl hrow
    · have hnew : newCache.Holds p.1 p.2 := Thread.carries_swap.mp (hth ▸ hcarries k)
      refine Or.inr ⟨hpend, ?_, fun l ↦ Thread.carries_of_not_warm (hidle l) _ _⟩
      simpa [Shared.memCache, Shared.swapCache] using hnew
  · by_cases hl : l = k
    · subst hl
      simp [Thread.persisted, Thread.clears] at hp
    · rw [Function.update_of_ne hl] at hp
      exact h.persisted l p hp
  · rw [Thread.base_of_not_warm (hidle l)] at hold
    simp at hold
  · rw [hidle l] at hl
    simp at hl
  · by_cases hl : l = k
    · subst hl
      simp [Thread.isCleanup]
    · rw [Function.update_of_ne hl]
      exact h.noCleanup l

theorem begin (h : Intact t sh ths) {call : Call} (hcleanup : call.begin.isCleanup = false)
    (hwarm : call.begin.isWarm = true → ∀ l, (ths l).isWarm = false) :
    Intact t sh (Function.update ths k call.begin) := by
  obtain ⟨hinst, hpers, hbase⟩ := call.begin_idle
  refine ⟨fun p hp ↦ (h.acknowledged p hp).imp_right ?_, fun l p hp ↦ ?_, fun l old hold ↦ ?_,
    fun l l' hl hl' ↦ ?_, fun l ↦ ?_⟩
  · rintro ⟨hpend, hholds, hcarries⟩
    refine ⟨hpend, hholds, fun l ↦ ?_⟩
    by_cases hl : l = k
    · subst hl
      simp [Thread.Carries, hinst]
    · simpa [hl] using hcarries l
  · by_cases hl : l = k
    · subst hl
      simp [hpers] at hp
    · rw [Function.update_of_ne hl] at hp
      exact h.persisted l p hp
  · by_cases hl : l = k
    · subst hl
      simp [hbase] at hold
    · rw [Function.update_of_ne hl] at hold
      exact h.base l old hold
  · by_cases hw : call.begin.isWarm = true
    · have honly : ∀ l, (Function.update ths k call.begin l).isWarm = true → l = k := by
        intro l hl
        by_contra hlk
        rw [Function.update_of_ne hlk, hwarm hw l] at hl
        simp at hl
      rw [honly l hl, honly l' hl']
    · exact h.single_update (fun hw' ↦ absurd hw' hw) l l' hl hl'
  · by_cases hl : l = k
    · subst hl
      simpa using hcleanup
    · rw [Function.update_of_ne hl]
      exact h.noCleanup l

end Intact

namespace World

variable [DecidableEq ι] [DecidableEq κ] {w : World ι κ}

/-- **The step lemma.** Every server stays intact under a step that the run allows and that treats
its mark safely. -/
theorem intact_act (hw : ∀ i, Intact w.table (w.shared i) (w.threads i)) {a : Action ι κ}
    (hsucc : w.Successive a) (hsafe : w.MarksSafely a) (i : ι) :
    Intact (w.act c a).table ((w.act c a).shared i) ((w.act c a).threads i) := by
  cases a with
  | start j k call =>
    by_cases hret : ∃ reply, w.threads j k = .returned reply
    · obtain ⟨reply, hret⟩ := hret
      rw [act_start_of_returned call hret, setThread_table, setThread_shared]
      by_cases hi : i = j
      · subst hi
        rw [setThread_threads_self]
        exact (hw i).begin (hsucc.begin_isCleanup) (hsucc.begin_isWarm)
      · rw [setThread_threads_of_ne hi]
        exact hw i
    · rw [act_start_of_busy call (fun reply h ↦ hret ⟨reply, h⟩)]
      exact hw i
  | step j k inp =>
    have hcleanup : (w.threads j k).isCleanup = false := (hw j).noCleanup k
    have hact : ∀ task addr, w.table.Active task addr →
        (w.outcome c j k inp).1.Active task addr :=
      fun _ _ ↦ (w.threads j k).tableStep.active hcleanup
    rw [act_step_table]
    by_cases hi : i = j
    · subst hi
      rw [act_step_shared_self, act_step_threads_self]
      by_cases hswap : ∃ newCache, w.threads i k = .warm (.swap newCache)
      · obtain ⟨newCache, hth⟩ := hswap
        simp only [outcome, hth, Thread.step, WarmPc.step]
        exact (hw i).swap hth inp.now (.warmed (.ok ()))
      · have hne : ∀ newCache, w.threads i k ≠ .warm (.swap newCache) := not_exists.mp hswap
        exact (hw i).advance hact (Thread.grows hcleanup hne) (Thread.advances hcleanup) hsafe.1
          hsafe.2
    · rw [act_step_shared_of_ne hi, act_step_threads_of_ne hi]
      exact (hw i).of_active hact

omit [DecidableEq κ] in
theorem intact_ofRegistry (table : Table) (sr : StoreBackedRegistry) :
    Intact table (Shared.ofRegistry sr) fun _ : κ ↦ .returned .registered where
  acknowledged := by simp [Shared.ofRegistry]
  persisted := by simp [Thread.persisted, Thread.clears]
  base := by simp [Thread.base]
  single := by simp [Thread.isWarm]
  noCleanup := by simp [Thread.isCleanup]

omit [DecidableEq ι] [DecidableEq κ] in
theorem kept_of_intact (hw : ∀ i, Intact w.table (w.shared i) (w.threads i)) : w.Kept := by
  intro i _ p hp
  rcases (hw i).acknowledged p hp with hrow | ⟨hpend, hholds, -⟩
  · exact Or.inl hrow
  · exact Or.inr ⟨hholds, hpend⟩

/-- **Acknowledged registrations are kept.** Any number of servers share the table; each runs any
number of registrations and lookups beside successive warms, and store calls fail in any pattern. If
every mark is set and cleared safely, every acknowledged pair is an active row or a marked entry of
the current cache in every state in which its server runs no warm. -/
theorem acknowledged_kept (c : Collation) (table : Table) (registries : ι → StoreBackedRegistry)
    {acts : List (Action ι κ)}
    (hsucc : Run.Meets (act c) Successive (start table registries) acts)
    (hsafe : Run.Meets (act c) MarksSafely (start table registries) acts) :
    Run.Always (act c) Kept (start table registries) acts :=
  (hsucc.and hsafe).always (fun _ _ hw h ↦ intact_act hw h.1 h.2) (fun _ ↦ kept_of_intact)
    fun i ↦ intact_ofRegistry table (registries i)

instance [Fintype κ] (w : World ι κ) (a : Action ι κ) : Decidable (w.Successive a) :=
  match a with
  | .start _ _ .warmCacheFromDB => inferInstanceAs (Decidable (∀ _, _))
  | .start _ _ (.cleanup _) => isFalse fun h ↦ h
  | .start _ _ (.registerWithCapacity ..) => isTrue trivial
  | .start _ _ (.getServiceForRequestor ..) => isTrue trivial
  | .step _ _ _ => isTrue trivial

instance [Fintype κ] (w : World ι κ) (a : Action ι κ) : Decidable (w.MarksSafely a) :=
  match a with
  | .start _ _ _ => isTrue trivial
  | .step _ _ _ => inferInstanceAs (Decidable (_ ∧ _))

/-- One server with an empty cache over an empty table, and two threads. -/
def oneServer : World Unit (Fin 2) := start ∅ fun _ ↦ .start .empty 0 0 1 none

/-- A step of a thread of the server, with a store that answers or with one that is down. -/
def next (k : Fin 2) (up : Bool) : Action Unit (Fin 2) :=
  .step () k ⟨1, if up then none else some ⟨"connection refused", false⟩, .asStored⟩

/-- A registration of `svc` at `10.0.0.1:80` while the store is down. -/
def failedRegistration : List (Action Unit (Fin 2)) :=
  .start () 0 (.registerWithCapacity "svc" "10.0.0.1:80" 1) :: List.replicate 4 (next 0 false)

/-- The registration comes first, and a warm follows whose own attempt to persist it fails. -/
def markedBeforeWarm : List (Action Unit (Fin 2)) :=
  failedRegistration ++ .start () 1 .warmCacheFromDB
    :: List.replicate 9 (next 1 false) ++ List.replicate 7 (next 1 true)

theorem markedBeforeWarm_kept :
    Run.Always (act .codePoint) Kept oneServer markedBeforeWarm
      ∧ ((Run.exec (act .codePoint) oneServer markedBeforeWarm).shared ()).acknowledged
        = [("svc", "10.0.0.1:80")]
      ∧ ¬(Run.exec (act .codePoint) oneServer markedBeforeWarm).table.Active "svc" "10.0.0.1:80" :=
  ⟨acknowledged_kept .codePoint ∅ (fun _ ↦ .start .empty 0 0 1 none) (by decide +kernel)
    (by decide +kernel), by decide +kernel, by decide +kernel⟩

/-- The warm has listed the entries to preserve when the registration arrives. -/
def markedDuringWarm : List (Action Unit (Fin 2)) :=
  .start () 1 .warmCacheFromDB :: List.replicate 9 (next 1 true) ++ failedRegistration
    ++ List.replicate 3 (next 1 true)

theorem markedDuringWarm_not_kept :
    Run.Meets (act .codePoint) Successive oneServer markedDuringWarm
      ∧ ¬Run.Always (act .codePoint) Kept oneServer markedDuringWarm := by
  refine ⟨by decide +kernel, fun h ↦ ?_⟩
  have hkept := h markedDuringWarm List.prefix_rfl () (by decide +kernel) ("svc", "10.0.0.1:80")
    (by decide +kernel)
  exact absurd hkept (by decide +kernel)

end World

end TaskDiscovery
