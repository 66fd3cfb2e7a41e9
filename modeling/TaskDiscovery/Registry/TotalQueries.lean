import TaskDiscovery.Lib.Run
import TaskDiscovery.Registry.Effects

/-!
# The total number of queries

`GetStats` reports the counter of the current cache. Two things make it differ from the number of
lookups that were answered: a warm puts a new cache in place of the old one, with a counter that
starts at zero, and a lookup that is answered from the store without admitting the task is counted
in the row only.

`Tally` counts the answers beside the registry. Each step keeps the two numbers equal exactly when
it is not one of these two (`Counted`), so `always_faithful_iff` is exact.
-/

namespace TaskDiscovery

open Go (IP)

/-! ## The counter of a cache -/

namespace MemoryRegistry

variable {reg : MemoryRegistry}

/-- `GetStats().TotalQueries` goes up with every answer, and with nothing else. -/
theorem totalQueries_getServiceForRequestor {task : String} {requestorIP : Option IP}
    {reg' : MemoryRegistry} {result : Except RegistryError String}
    (h : reg.getServiceForRequestor task requestorIP = (reg', result)) :
    reg'.totalQueries = reg.totalQueries + if result.toOption.isSome then 1 else 0 := by
  rcases result with err | addr
  · rw [getServiceForRequestor_error h]
    simp [Except.toOption]
  · simp only [getServiceForRequestor] at h
    split_ifs at h
    · simp at h
    · rcases hcand : reg.candidates (Go.trimSpace task) requestorIP with err | allowed
      · simp [hcand] at h
      · obtain ⟨cursors, addr', hadv, -⟩ := advanceCursor_of_candidates hcand
        simp only [hcand, hadv] at h
        obtain ⟨rfl, -⟩ := Prod.mk.inj h
        rfl

theorem totalQueries_registerWithCapacity (now : Time) (task addr : String) (capacity : Int64) :
    (reg.registerWithCapacity now task addr capacity).totalQueries = reg.totalQueries := by
  simp only [registerWithCapacity]
  split_ifs <;> rfl

theorem totalQueries_cleanup (now timeout : Time) :
    (reg.cleanup now timeout).1.totalQueries = reg.totalQueries := by
  have hloop : ∀ (l : List (Sigma fun _ : String ↦ List ServiceEntry)) (acc : MemoryRegistry × ℕ),
      (l.foldl (cleanupTask now timeout) acc).1.totalQueries = acc.1.totalQueries := by
    intro l
    induction l with
    | nil => exact fun _ ↦ rfl
    | cons p l ih =>
      intro acc
      rw [List.foldl_cons, ih]
      rfl
  exact hloop _ _

end MemoryRegistry

theorem totalQueries_populateAll (cache : MemoryRegistry) (l : List (String × ServiceEntry)) :
    (populateAll cache l).totalQueries = cache.totalQueries := by
  induction l generalizing cache with
  | nil => rfl
  | cons p l ih =>
    rw [populateAll_cons, ih]
    rfl

namespace StoreBackedRegistry

variable (sr : StoreBackedRegistry)

def totalQueries : Int := sr.memCache.totalQueries

/-! ## Which steps are counted -/

/-- A lookup of a trimmed task misses the cache, does not admit the task, and is answered from the
store: the listing and the count succeed, and an entry is allowed. -/
structure AnswersFromStore (task : String) (requestorIP : Option IP) : Prop where
  ne_empty : task ≠ ""
  missed : sr.Missed task requestorIP
  not_admitted : (countMiss sr.admitAfterMiss sr.cacheMissCounts task).2 = false
  served : ∃ store entries addr, sr.store.listTaskServices task = (store, .ok entries)
    ∧ (selectFallback sr.memCache.firewall sr.fallbackCursor task entries requestorIP).2 = .ok addr
    ∧ (store.incrementQueryCount task addr).2 = .ok ()

/-- The store answers the reads of a warm. -/
def Loads (ord : WarmOrders) : Prop :=
  ∃ sr' cache, ((sr.syncQueryCountsToDB ord.sync).syncPendingRegistrations ord.pending).loadCache
    ord.load (MemoryRegistry.new.setFirewall sr.memCache.firewall) = (sr', .ok cache)

/-- The step leaves the counter and the number of answers equal, if they are. -/
def Counted : Op → Prop
  | .getServiceForRequestor task requestorIP =>
    ¬sr.AnswersFromStore (Go.trimSpace task) requestorIP
  | .warmCacheFromDB _ ord => sr.Loads ord → sr.totalQueries = 0
  | .listServices now₁ _ ord =>
    sr.cacheSyncPeriod < now₁ - sr.lastCacheSync → sr.Loads ord → sr.totalQueries = 0
  | .register .. | .registerWithCapacity .. | .cleanup .. => True

variable {sr}

theorem serveFromStore_spec (sr : StoreBackedRegistry) (task : String) (entries : List ServiceEntry)
    (requestorIP : Option IP) :
    (sr.serveFromStore task entries requestorIP).1.memCache = sr.memCache
      ∧ ((sr.serveFromStore task entries requestorIP).2.toOption.isSome = true
        ↔ ∃ addr, (selectFallback sr.memCache.firewall sr.fallbackCursor task entries
            requestorIP).2 = .ok addr ∧ (sr.store.incrementQueryCount task addr).2 = .ok ()) := by
  rw [serveFromStore, selectFromStoreEntries]
  rcases selectFallback sr.memCache.firewall sr.fallbackCursor task entries requestorIP with
    ⟨cursors, err | addr⟩
  · simp [Except.toOption]
  · simp only
    rcases hcount : sr.store.incrementQueryCount task addr with ⟨store, err | ⟨⟩⟩
    · simp [Except.toOption, hcount]
    · simp [Except.toOption, hcount]

/-- What is left to ask once the cache has missed and the store has listed the task. -/
theorem answersFromStore_iff {task : String} {requestorIP : Option IP} (hne : task ≠ "")
    (hmiss : sr.Missed task requestorIP) {store : PostgresStore} {entries : List ServiceEntry}
    (hlist : sr.store.listTaskServices task = (store, .ok entries)) :
    sr.AnswersFromStore task requestorIP
      ↔ (countMiss sr.admitAfterMiss sr.cacheMissCounts task).2 = false
        ∧ ∃ addr, (selectFallback sr.memCache.firewall sr.fallbackCursor task entries
          requestorIP).2 = .ok addr ∧ (store.incrementQueryCount task addr).2 = .ok () := by
  constructor
  · rintro ⟨-, -, hadmits, store', entries', addr, hlist', hselect, hcount⟩
    rw [hlist, Prod.mk.injEq, Except.ok.injEq] at hlist'
    obtain ⟨rfl, rfl⟩ := hlist'
    exact ⟨hadmits, addr, hselect, hcount⟩
  · rintro ⟨hadmits, addr, hselect, hcount⟩
    exact ⟨hne, hmiss, hadmits, store, entries, addr, hlist, hselect, hcount⟩

theorem selectFallback_nil_ne_ok (fw : Option Firewall) (cursors : SyncMap String Int64)
    (task : String) (requestorIP : Option IP) (addr : String) :
    (selectFallback fw cursors task [] requestorIP).2 ≠ .ok addr := by
  simp only [selectFallback, storeCandidates, List.filter_nil, List.map_nil, if_true]
  split_ifs <;> simp

theorem totalQueries_missService_iff {task : String} {requestorIP : Option IP} (hne : task ≠ "")
    (hmiss : sr.Missed task requestorIP) :
    ((sr.missService task requestorIP).1.totalQueries = sr.totalQueries
        + if (sr.missService task requestorIP).2.toOption.isSome then 1 else 0)
      ↔ ¬sr.AnswersFromStore task requestorIP := by
  rw [missService]
  rcases hlist : sr.store.listTaskServices task with ⟨store, err | entries⟩
  · -- the store could not list the task
    have hnot : ¬sr.AnswersFromStore task requestorIP := by
      rintro ⟨-, -, -, store', entries, addr, hlist', -⟩
      simp [hlist] at hlist'
    simp [hnot, totalQueries, Except.toOption]
  · simp only [answersFromStore_iff hne hmiss hlist]
    by_cases hnil : entries = []
    · subst hnil
      simp [selectFallback_nil_ne_ok, totalQueries, Except.toOption]
    · rw [if_neg hnil, shouldAdmitTaskOnMiss]
      rcases countMiss sr.admitAfterMiss sr.cacheMissCounts task with ⟨counts, _ | _⟩
      · -- an answer from the store leaves the cache alone
        obtain ⟨hcache, hserved⟩ := serveFromStore_spec
          { sr with store := store, cacheMissCounts := counts } task entries requestorIP
        simp only [Bool.false_eq_true, if_false, true_and]
        rw [← hserved, totalQueries, hcache]
        split_ifs with hok
        · simp only [hok, totalQueries, not_true_eq_false, iff_false]
          omega
        · simp [hok, totalQueries]
      · -- the hydrated cache answers, or nobody does
        simp only [if_true, admitTask, Bool.true_eq_false, false_and, not_false_eq_true, iff_true]
        rcases hget :
          (populateAll sr.memCache (entries.map fun e ↦ (task, e))).getServiceForRequestor task
            requestorIP with ⟨cache, result⟩
        have htotal := MemoryRegistry.totalQueries_getServiceForRequestor hget
        rw [totalQueries_populateAll] at htotal
        exact htotal

theorem totalQueries_getServiceForRequestor_iff {task : String} {requestorIP : Option IP}
    {sr' : StoreBackedRegistry} {result : Except RegistryError String}
    (h : sr.getServiceForRequestor task requestorIP = (sr', result)) :
    (sr'.totalQueries = sr.totalQueries + if result.toOption.isSome then 1 else 0)
      ↔ ¬sr.AnswersFromStore (Go.trimSpace task) requestorIP := by
  rw [getServiceForRequestor] at h
  by_cases hne : Go.trimSpace task = ""
  · rw [if_pos hne] at h
    obtain ⟨rfl, rfl⟩ := Prod.mk.inj h
    have hnot : ¬sr.AnswersFromStore (Go.trimSpace task) requestorIP := fun hans ↦ hans.ne_empty hne
    simp [hnot, Except.toOption]
  · rw [if_neg hne] at h
    rcases hcache : sr.memCache.getServiceForRequestor (Go.trimSpace task) requestorIP with
      ⟨cache, err | addr⟩
    · obtain rfl := MemoryRegistry.getServiceForRequestor_error hcache
      simp only [hcache] at h
      have hmiss := totalQueries_missService_iff hne ⟨err, hcache⟩
      rwa [h] at hmiss
    · simp only [hcache] at h
      obtain ⟨rfl, rfl⟩ := Prod.mk.inj h
      have hnot : ¬sr.AnswersFromStore (Go.trimSpace task) requestorIP := by
        rintro ⟨-, ⟨err, hmiss⟩, -, -⟩
        simp [hcache] at hmiss
      have htotal := MemoryRegistry.totalQueries_getServiceForRequestor hcache
      exact ⟨fun _ ↦ hnot, fun _ ↦ htotal⟩

/-- A warm that can read the store starts the counter again. -/
theorem totalQueries_warmCacheFromDB (sr : StoreBackedRegistry) (now : Time) (ord : WarmOrders) :
    (sr.Loads ord → (sr.warmCacheFromDB now ord).1.totalQueries = 0)
      ∧ (¬sr.Loads ord → (sr.warmCacheFromDB now ord).1.totalQueries = sr.totalQueries) := by
  have hsync := (syncQueryCountsToDB_config sr ord.sync).2
  have hpending :=
    (syncPendingRegistrations_config (sr.syncQueryCountsToDB ord.sync) ord.pending).2
  have hcache := hpending.trans hsync
  rw [Loads, warmCacheFromDB]
  simp only [hsync]
  rcases hload : ((sr.syncQueryCountsToDB ord.sync).syncPendingRegistrations ord.pending).loadCache
    ord.load (MemoryRegistry.new.setFirewall sr.memCache.firewall) with ⟨sr', err | newCache⟩
  · obtain ⟨⟨ps, rfl, -, -⟩, -⟩ := loadCache_cases hload
    refine ⟨?_, fun _ ↦ ?_⟩
    · rintro ⟨sr'', cache, hok⟩
      simp at hok
    · exact congrArg MemoryRegistry.totalQueries hcache
  · obtain ⟨-, ⟨hok, -⟩ | ⟨err, herr, -⟩⟩ := loadCache_cases hload
    · obtain rfl := Except.ok.inj hok
      refine ⟨fun _ ↦ ?_, fun hnot ↦ absurd ⟨_, _, rfl⟩ hnot⟩
      simp only [totalQueries, copyRoundRobinState, preservePendingEntries,
        totalQueries_populateAll]
      rfl
    · simp at herr

theorem totalQueries_registerWithCapacity (sr : StoreBackedRegistry) (now₁ now₂ : Time)
    (task addr : String) (capacity : Int64) :
    (sr.registerWithCapacity now₁ now₂ task addr capacity).totalQueries = sr.totalQueries := by
  simp only [registerWithCapacity]
  split_ifs
  · rfl
  · have htotal : (sr.memCache.registerWithCapacity now₁ (Go.trimSpace task) (Go.trimSpace addr)
        (normalizedCapacity capacity)).totalQueries = sr.memCache.totalQueries :=
      MemoryRegistry.totalQueries_registerWithCapacity ..
    rw [registerEntry]
    generalize sr.memCache.registerWithCapacity now₁ (Go.trimSpace task) (Go.trimSpace addr)
      (normalizedCapacity capacity) = cache at htotal ⊢
    rcases sr.store.register (Go.trimSpace task)
      { address := Go.trimSpace addr, lastHeartbeat := now₂,
        capacity := normalizedCapacity capacity } with ⟨store, err | ⟨⟩⟩
    · exact htotal
    · exact htotal

theorem totalQueries_cleanup (sr : StoreBackedRegistry) (now₁ now₂ timeout : Time) :
    (sr.cleanup now₁ now₂ timeout).1.totalQueries = sr.totalQueries := by
  have htotal : (sr.memCache.cleanup now₁ timeout).1.totalQueries = sr.memCache.totalQueries :=
    MemoryRegistry.totalQueries_cleanup now₁ timeout
  rcases hcache : sr.memCache.cleanup now₁ timeout with ⟨cache, removed⟩
  rw [hcache] at htotal
  rw [cleanup, hcache]
  rcases sr.store.cleanup now₂ timeout with ⟨store, err | flagged⟩
  · exact htotal
  · exact htotal

/-! ## Runs -/

/-- A registry, and the number of lookups it has answered. -/
structure Tally where
  registry : StoreBackedRegistry
  answered : ℕ

namespace Tally

def start (sr : StoreBackedRegistry) : Tally := ⟨sr, 0⟩

def step (t : Tally) (op : Op) : Tally where
  registry := t.registry.step op
  answered :=
    match op with
    | .getServiceForRequestor task requestorIP =>
      if (t.registry.getServiceForRequestor task requestorIP).2.toOption.isSome then t.answered + 1
      else t.answered
    | _ => t.answered

/-- `GetStats` reports the number of lookups that were answered. -/
def Faithful (t : Tally) : Prop := t.registry.totalQueries = t.answered

instance (t : Tally) : Decidable t.Faithful := inferInstanceAs (Decidable (_ = _))

/-- **One step.** -/
theorem faithful_step_iff {t : Tally} (h : t.Faithful) (op : Op) :
    (t.step op).Faithful ↔ t.registry.Counted op := by
  rw [Faithful] at h
  have hwarm : ∀ (now : Time) (ord : WarmOrders),
      (t.registry.warmCacheFromDB now ord).1.totalQueries = t.answered
        ↔ (t.registry.Loads ord → t.registry.totalQueries = 0) := by
    intro now ord
    obtain ⟨hloads, hfails⟩ := totalQueries_warmCacheFromDB t.registry now ord
    by_cases hload : t.registry.Loads ord
    · rw [hloads hload, ← h]
      simp [hload, eq_comm]
    · rw [hfails hload]
      simp [hload, h]
  cases op with
  | register now₁ now₂ task addr =>
    simp only [Faithful, step, StoreBackedRegistry.step, register, Counted, iff_true]
    rw [totalQueries_registerWithCapacity, h]
  | registerWithCapacity now₁ now₂ task addr capacity =>
    simp only [Faithful, step, StoreBackedRegistry.step, Counted, iff_true]
    rw [totalQueries_registerWithCapacity, h]
  | cleanup now₁ now₂ timeout =>
    simp only [Faithful, step, StoreBackedRegistry.step, Counted, iff_true]
    rw [totalQueries_cleanup, h]
  | getServiceForRequestor task requestorIP =>
    rcases hget : t.registry.getServiceForRequestor task requestorIP with ⟨sr', result⟩
    rw [Counted, ← totalQueries_getServiceForRequestor_iff hget, Faithful]
    simp only [step, StoreBackedRegistry.step, hget, h]
    split_ifs <;> simp
  | warmCacheFromDB now ord => exact hwarm now ord
  | listServices now₁ now₂ ord =>
    simp only [Faithful, step, StoreBackedRegistry.step, listServices, Counted]
    split_ifs with hold
    · rw [hwarm now₂ ord]
      simp [hold]
    · simp [hold, h]

/-- **When the total is faithful.** Along a run from a new registry, over any store and with any
configuration, `GetStats().TotalQueries` is always the number of lookups that were answered, exactly
when every step is counted: no warm reads the store while the counter is positive, and no lookup is
answered from the store without admitting its task. -/
theorem always_faithful_iff (store : PostgresStore) (cacheMaxSize : Int) (now : Time)
    (threshold : Int) (fw : Option Firewall) (ops : List Op) :
    Run.Always step Faithful
        (start (StoreBackedRegistry.start store cacheMaxSize now threshold fw)) ops
      ↔ Run.Meets step (fun t op ↦ t.registry.Counted op)
        (start (StoreBackedRegistry.start store cacheMaxSize now threshold fw)) ops := by
  have hstep (t : Tally) (op : Op) (_ : True) (_ : True) (h : t.Faithful) :
      (t.step op).Faithful ↔ t.registry.Counted op := faithful_step_iff h op
  exact Run.always_iff_meets (fun _ _ _ _ ↦ trivial) hstep (fun _ _ ↦ trivial) trivial rfl

/-- A store with one task. -/
def oneRow : PostgresStore where
  table := Table.register ∅ "scan" { address := "10.0.0.1:80", lastHeartbeat := 0, capacity := 1 }
  collation := .codePoint
  outage := fun _ ↦ none
  calls := 0

/-- An answer, and a warm after it. -/
def warmedAfterAnswer : Tally :=
  Run.exec step (start (StoreBackedRegistry.start oneRow 0 0 1 none))
    [.getServiceForRequestor "scan" none, .warmCacheFromDB 1 .asStored]

/-- An answer below the admission threshold. -/
def answeredFromStore : Tally :=
  Run.exec step (start (StoreBackedRegistry.start oneRow 0 0 2 none))
    [.getServiceForRequestor "scan" none]

theorem totalQueries_forgotten_and_missed :
    (warmedAfterAnswer.registry.totalQueries = 0 ∧ warmedAfterAnswer.answered = 1)
      ∧ answeredFromStore.registry.totalQueries = 0 ∧ answeredFromStore.answered = 1 := by
  decide +kernel

end Tally

end StoreBackedRegistry

end TaskDiscovery
