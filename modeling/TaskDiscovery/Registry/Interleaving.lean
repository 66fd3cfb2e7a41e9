import TaskDiscovery.Lib.Run
import TaskDiscovery.Registry.Effects

/-!
# Store-backed registries step by step

Several `StoreBackedRegistry` servers share one table, and on each server any number of calls run at
the same time. Here a call is a thread with a program counter, and one step of a thread is one
atomic action of the code: a mutex section of a cache, a `sync.Map` access, a statement of the
store, or the swap of the cache pointer. Work on data that no other thread can see is done together
with the atomic action before it.

The cache pointer is read before the cache is used, so a thread may work on a cache that has been
replaced in the meantime. Caches therefore live in a heap, `Shared.caches`, and threads carry
indices into it. The new cache of a warm is private until the swap and is carried as a value.

What a step meets in the world is its `Input`: the clock, the fate of a store call, and the order of
a `range` loop. A run is a list of actions, and statements about all lists are statements about all
interleavings.
-/

namespace TaskDiscovery

open Go (IP)

/-- What one step may read from its environment. -/
structure Input where
  now : Time
  outage : Option Outage
  ord : TaskOrder

/-- What a call returned. -/
inductive Reply
  | registered
  | answer (result : Except RegistryError String)
  | cleaned (count : ℕ)
  | warmed (result : Except RegistryError Unit)

/-- Program counters of `RegisterWithCapacity`, each named after the action that comes next. -/
inductive RegisterPc
  | readCache (task addr : String) (capacity : Int64)
  | writeCache (m : ℕ) (task addr : String) (capacity : Int64)
  | writeStore (task addr : String) (capacity : Int64)
  | setMark (task addr : String) (persisted : Bool)

/-- Program counters of `GetServiceForRequestor`. The flag `again` tells the lookup after hydration
from the first one. -/
inductive LookupPc
  | readCache (task : String) (requestorIP : Option IP)
  | copyEntries (m : ℕ) (task : String) (requestorIP : Option IP) (again : Bool)
  | advanceCursor (m : ℕ) (task : String) (requestorIP : Option IP) (again : Bool)
      (allowed : List ServiceEntry)
  | countQuery (m : ℕ) (task addr : String)
  | listTask (m : ℕ) (task : String) (requestorIP : Option IP)
  | countMiss (m : ℕ) (task : String) (requestorIP : Option IP) (entries : List ServiceEntry)
  | hydrate (m : ℕ) (task : String) (requestorIP : Option IP) (todo : List ServiceEntry)
  | selectFromStore (task : String) (requestorIP : Option IP) (entries : List ServiceEntry)
  | incrementRow (task addr : String)

inductive CleanupPc
  | readCache (timeout : Time)
  | cleanCache (m : ℕ) (timeout : Time)
  | cleanStore (timeout : Time) (removed : ℕ)

/-- Program counters of `WarmCacheFromDB`, in the order of the code: the write-back of counts, the
retry of pending registrations, the reads, the preservation of pending entries, and the swap. The
index `old` is the cache the warm started from. -/
inductive WarmPc
  | syncRead
  | syncSnapshot (m : ℕ)
  | syncWrite (todo : List (String × ServiceEntry))
  | syncLoad (task addr : String) (todo : List (String × ServiceEntry))
  | syncClear (task addr : String) (todo : List (String × ServiceEntry))
  | readOld
  | pendingRead (old : ℕ)
  | pendingSnapshot (old m : ℕ)
  | pendingLoad (old : ℕ) (todo : List (String × ServiceEntry))
  | pendingWrite (old : ℕ) (p : String × ServiceEntry) (todo : List (String × ServiceEntry))
  | pendingClear (old : ℕ) (task addr : String) (todo : List (String × ServiceEntry))
  | list (old : ℕ)
  | listTasks (old : ℕ) (topTasks : List String)
  | keepSnapshot (old : ℕ) (newCache : MemoryRegistry)
  | keepLoad (old : ℕ) (newCache : MemoryRegistry) (todo : List (String × ServiceEntry))
  | copyCursors (old : ℕ) (newCache : MemoryRegistry)
  | swap (newCache : MemoryRegistry)

/-- A thread: a call in progress, or the reply of the last one. -/
inductive Thread
  | returned (reply : Reply)
  | register (pc : RegisterPc)
  | lookup (pc : LookupPc)
  | cleanup (pc : CleanupPc)
  | warm (pc : WarmPc)

/-- The fields of a server that its threads share. -/
structure Shared where
  /-- Every cache there has been. -/
  caches : ℕ → MemoryRegistry
  /-- The index of the cache that `memCache` points to. -/
  current : ℕ
  /-- The first index not in use. -/
  allocated : ℕ
  lastCacheSync : Time
  cacheMaxSize : Int
  cacheMissCounts : SyncMap String Int
  fallbackCursor : SyncMap String Int64
  admitAfterMiss : Int
  pendingStoreSync : SyncMap String Unit
  /-- The pairs whose registration has returned. Nothing reads this. -/
  acknowledged : List (String × String)

namespace Shared

variable (sh : Shared)

/-- The cache that `memCache` points to. -/
def memCache : MemoryRegistry := sh.caches sh.current

/-- Run a mutex section of the cache at an index. -/
def updateCache (m : ℕ) (f : MemoryRegistry → MemoryRegistry) : Shared :=
  { sh with caches := Function.update sh.caches m (f (sh.caches m)) }

def hasPendingStoreSync (task addr : String) : Bool :=
  (sh.pendingStoreSync (counterKey task addr)).isSome

def markPendingStoreSync (task addr : String) : Shared :=
  { sh with pendingStoreSync := sh.pendingStoreSync.store (counterKey task addr) () }

def clearPendingStoreSync (task addr : String) : Shared :=
  { sh with pendingStoreSync := sh.pendingStoreSync.delete (counterKey task addr) }

/-- A registry that no call has touched since, seen as the shared fields of a server. -/
def ofRegistry (sr : StoreBackedRegistry) : Shared where
  caches := fun _ ↦ sr.memCache
  current := 0
  allocated := 1
  lastCacheSync := sr.lastCacheSync
  cacheMaxSize := sr.cacheMaxSize
  cacheMissCounts := sr.cacheMissCounts
  fallbackCursor := sr.fallbackCursor
  admitAfterMiss := sr.admitAfterMiss
  pendingStoreSync := sr.pendingStoreSync
  acknowledged := []

def swapCache (newCache : MemoryRegistry) (now : Time) : Shared :=
  { sh with
    caches := Function.update sh.caches sh.allocated newCache
    current := sh.allocated
    allocated := sh.allocated + 1
    lastCacheSync := now }

end Shared

/-- A store call made with this input executes its statement, whatever it reports. -/
def Input.applies (inp : Input) : Bool :=
  match inp.outage with
  | none => true
  | some o => o.applied

/-- A statement of the store: the table after it, and whether the caller was told it succeeded. -/
def Input.storeWrite (inp : Input) (t t' : Table) : Table × Bool :=
  (if inp.applies then t' else t, inp.outage.isNone)

/-! ## Steps -/

section Steps

variable (c : Collation) (t : Table) (sh : Shared) (inp : Input)

def RegisterPc.step : RegisterPc → Table × Shared × Thread
  | readCache task addr capacity =>
    (t, sh, .register (.writeCache sh.current task addr capacity))
  | writeCache m task addr capacity =>
    (t, sh.updateCache m fun cache ↦ cache.registerWithCapacity inp.now task addr capacity,
      .register (.writeStore task addr capacity))
  | writeStore task addr capacity =>
    let entry : ServiceEntry := { address := addr, lastHeartbeat := inp.now, capacity := capacity }
    let (t', persisted) := inp.storeWrite t (t.register task entry)
    (t', sh, .register (.setMark task addr persisted))
  | setMark task addr persisted =>
    let sh :=
      if persisted then sh.clearPendingStoreSync task addr else sh.markPendingStoreSync task addr
    (t, { sh with acknowledged := (task, addr) :: sh.acknowledged }, .returned .registered)

/-- Where a lookup goes when a cache cannot answer it. -/
def missed (m : ℕ) (task : String) (requestorIP : Option IP) (again : Bool)
    (err : RegistryError) : Thread :=
  if again then .returned (.answer (.error err)) else .lookup (.listTask m task requestorIP)

def LookupPc.step : LookupPc → Table × Shared × Thread
  | readCache task requestorIP =>
    (t, sh, .lookup (.copyEntries sh.current task requestorIP false))
  | copyEntries m task requestorIP again =>
    match (sh.caches m).candidates task requestorIP with
    | .error err => (t, sh, missed m task requestorIP again err)
    | .ok allowed => (t, sh, .lookup (.advanceCursor m task requestorIP again allowed))
  | advanceCursor m task requestorIP again allowed =>
    let (cache, selected) := (sh.caches m).advanceCursor task allowed
    let sh := sh.updateCache m fun _ ↦ cache
    match selected with
    | none => (t, sh, missed m task requestorIP again .notFound)
    | some addr => (t, sh, .lookup (.countQuery m task addr))
  | countQuery m task addr =>
    (t, sh.updateCache m fun cache ↦ cache.countQuery task addr, .returned (.answer (.ok addr)))
  | listTask m task requestorIP =>
    match inp.outage with
    | some o => (t, sh, .returned (.answer (.error (.store o.text))))
    | none =>
      let entries := t.listTaskServices c task
      if entries = [] then (t, sh, .returned (.answer (.error .notFound)))
      else (t, sh, .lookup (.countMiss m task requestorIP entries))
  | countMiss m task requestorIP entries =>
    let (counts, admitted) :=
      StoreBackedRegistry.countMiss sh.admitAfterMiss sh.cacheMissCounts task
    let sh := { sh with cacheMissCounts := counts }
    if admitted then (t, sh, .lookup (.hydrate m task requestorIP entries))
    else (t, sh, .lookup (.selectFromStore task requestorIP entries))
  | hydrate m task requestorIP [] =>
    (t, { sh with cacheMissCounts := sh.cacheMissCounts.delete task },
      .lookup (.copyEntries m task requestorIP true))
  | hydrate m task requestorIP (e :: todo) =>
    (t, sh.updateCache m fun cache ↦ populateCacheEntry cache task e,
      .lookup (.hydrate m task requestorIP todo))
  | selectFromStore task requestorIP entries =>
    let (cursors, result) := StoreBackedRegistry.selectFallback sh.memCache.firewall
      sh.fallbackCursor task entries requestorIP
    let sh := { sh with fallbackCursor := cursors }
    match result with
    | .error err => (t, sh, .returned (.answer (.error err)))
    | .ok addr => (t, sh, .lookup (.incrementRow task addr))
  | incrementRow task addr =>
    let t' := (inp.storeWrite t (t.incrementQueryCount task addr).1).1
    match inp.outage with
    | some o => (t', sh, .returned (.answer (.error (.store o.text))))
    | none =>
      if (t.incrementQueryCount task addr).2 = 0 then
        (t', sh, .returned (.answer (.error (.store "service not found"))))
      else (t', sh, .returned (.answer (.ok addr)))

def CleanupPc.step : CleanupPc → Table × Shared × Thread
  | readCache timeout => (t, sh, .cleanup (.cleanCache sh.current timeout))
  | cleanCache m timeout =>
    (t, sh.updateCache m fun cache ↦ (cache.cleanup inp.now timeout).1,
      .cleanup (.cleanStore timeout ((sh.caches m).cleanup inp.now timeout).2))
  | cleanStore timeout removed =>
    let (t', flagged) := t.cleanup (inp.now - timeout)
    let (t', executed) := inp.storeWrite t t'
    (t', sh, .returned (.cleaned (if executed then removed + flagged else removed)))

def WarmPc.step : WarmPc → Table × Shared × Thread
  | syncRead => (t, sh, .warm (.syncSnapshot sh.current))
  | syncSnapshot m =>
    (t, sh, .warm (.syncWrite (pairs inp.ord (sh.caches m).listServices)))
  | syncWrite [] => (t, sh, .warm .readOld)
  | syncWrite (p :: todo) =>
    if 0 < p.2.queryCount then
      let (t', persisted) := inp.storeWrite t (t.register p.1 p.2)
      if persisted then (t', sh, .warm (.syncLoad p.1 p.2.address todo))
      else (t', sh, .warm (.syncWrite todo))
    else (t, sh, .warm (.syncWrite todo))
  | syncLoad task addr todo =>
    if sh.hasPendingStoreSync task addr then (t, sh, .warm (.syncClear task addr todo))
    else (t, sh, .warm (.syncWrite todo))
  | syncClear task addr todo =>
    (t, sh.clearPendingStoreSync task addr, .warm (.syncWrite todo))
  | readOld => (t, sh, .warm (.pendingRead sh.current))
  | pendingRead old => (t, sh, .warm (.pendingSnapshot old sh.current))
  | pendingSnapshot old m =>
    (t, sh, .warm (.pendingLoad old (pairs inp.ord (sh.caches m).listServices)))
  | pendingLoad old [] => (t, sh, .warm (.list old))
  | pendingLoad old (p :: todo) =>
    if sh.hasPendingStoreSync p.1 p.2.address then (t, sh, .warm (.pendingWrite old p todo))
    else (t, sh, .warm (.pendingLoad old todo))
  | pendingWrite old p todo =>
    let (t', persisted) := inp.storeWrite t (t.register p.1 p.2)
    if persisted then (t', sh, .warm (.pendingClear old p.1 p.2.address todo))
    else (t', sh, .warm (.pendingLoad old todo))
  | pendingClear old task addr todo =>
    (t, sh.clearPendingStoreSync task addr, .warm (.pendingLoad old todo))
  | list old =>
    match inp.outage with
    | some o => (t, sh, .returned (.warmed (.error (.store o.text))))
    | none =>
      if sh.cacheMaxSize ≤ 0 then
        let newCache := populateAll (MemoryRegistry.new.setFirewall (sh.caches old).firewall)
          (pairs inp.ord (t.listServices c))
        (t, sh, .warm (.keepSnapshot old newCache))
      else
        (t, sh, .warm (.listTasks old (t.listTopTasksByQueryCount c sh.cacheMaxSize.toNat)))
  | listTasks old topTasks =>
    let empty := MemoryRegistry.new.setFirewall (sh.caches old).firewall
    if topTasks = [] then (t, sh, .warm (.keepSnapshot old empty))
    else
      match inp.outage with
      | some o => (t, sh, .returned (.warmed (.error (.store o.text))))
      | none =>
        let services := t.listServicesForTasks c topTasks
        (t, sh, .warm (.keepSnapshot old (populateAll empty
          (topTasks.flatMap fun task ↦ (services.slice task).map fun e ↦ (task, e)))))
  | keepSnapshot old newCache =>
    (t, sh, .warm (.keepLoad old newCache (pairs inp.ord (sh.caches old).listServices)))
  | keepLoad old newCache [] => (t, sh, .warm (.copyCursors old newCache))
  | keepLoad old newCache (p :: todo) =>
    if sh.hasPendingStoreSync p.1 p.2.address then
      (t, sh, .warm (.keepLoad old (populateCacheEntry newCache p.1 p.2) todo))
    else (t, sh, .warm (.keepLoad old newCache todo))
  | copyCursors old newCache =>
    (t, sh, .warm (.swap (copyRoundRobinState (sh.caches old) newCache)))
  | swap newCache => (t, sh.swapCache newCache inp.now, .returned (.warmed (.ok ())))

/-- One step of a thread. A thread that has returned does nothing. -/
def Thread.step : Thread → Table × Shared × Thread
  | .returned reply => (t, sh, .returned reply)
  | .register pc => pc.step t sh inp
  | .lookup pc => pc.step c t sh inp
  | .cleanup pc => pc.step t sh inp
  | .warm pc => pc.step c t sh inp

end Steps

/-! ## Which calls are warms -/

def Thread.isWarm : Thread → Bool
  | .warm _ => true
  | _ => false

section IsWarm

variable {c : Collation} {t : Table} {sh : Shared} {inp : Input}

theorem RegisterPc.step_isWarm (pc : RegisterPc) : (pc.step t sh inp).2.2.isWarm = false := by
  cases pc <;> rfl

theorem missed_isWarm (m : ℕ) (task : String) (requestorIP : Option IP) (again : Bool)
    (err : RegistryError) : (missed m task requestorIP again err).isWarm = false := by
  cases again <;> rfl

theorem LookupPc.step_isWarm (pc : LookupPc) : (pc.step c t sh inp).2.2.isWarm = false := by
  cases pc with
  | readCache | countQuery => rfl
  | hydrate m task requestorIP todo => cases todo <;> rfl
  | copyEntries m task requestorIP again | advanceCursor m task requestorIP again allowed =>
    simp only [LookupPc.step]
    split
    · exact missed_isWarm ..
    · rfl
  | listTask | countMiss | selectFromStore | incrementRow =>
    simp only [LookupPc.step]
    repeat' split
    all_goals rfl

theorem CleanupPc.step_isWarm (pc : CleanupPc) : (pc.step t sh inp).2.2.isWarm = false := by
  cases pc <;> rfl

end IsWarm

/-! ## What a step does to the table -/

/-- The upsert that a step of a thread executes. -/
def Thread.upsert (inp : Input) : Thread → Option (String × ServiceEntry)
  | .register (.writeStore task addr capacity) =>
    if inp.applies then some (task, ⟨addr, inp.now, 0, capacity⟩) else none
  | .warm (.syncWrite (p :: _)) => if 0 < p.2.queryCount ∧ inp.applies then some p else none
  | .warm (.pendingWrite _ p _) => if inp.applies then some p else none
  | _ => none

/-- The four things a step of a thread can do to the table. -/
inductive TableStep (t : Table) (inp : Input) (th : Thread) : Table → Prop
  | same : TableStep t inp th t
  | upsert (p : String × ServiceEntry) (hup : th.upsert inp = some p) :
      TableStep t inp th (t.register p.1 p.2)
  | increment (task addr : String) (hth : th = .lookup (.incrementRow task addr)) :
      TableStep t inp th (t.incrementQueryCount task addr).1
  | cleanup (timeout : Time) (removed : ℕ) (hth : th = .cleanup (.cleanStore timeout removed))
      (happ : inp.applies = true) : TableStep t inp th (t.cleanup (inp.now - timeout)).1

section TableStep

variable {c : Collation} {t t' : Table} {sh : Shared} {inp : Input} {th : Thread}

theorem TableStep.storeWrite (h : inp.applies = true → TableStep t inp th t') :
    TableStep t inp th (inp.storeWrite t t').1 := by
  rw [Input.storeWrite]
  by_cases happ : inp.applies = true
  · rw [if_pos happ]
    exact h happ
  · rw [if_neg happ]
    exact .same

theorem Thread.tableStep (th : Thread) : TableStep t inp th (th.step c t sh inp).1 := by
  cases th with
  | returned reply => exact .same
  | register pc =>
    cases pc with
    | writeStore task addr capacity =>
      exact .storeWrite fun happ ↦ .upsert (task, _) (by simp [Thread.upsert, happ])
    | _ => exact .same
  | lookup pc =>
    cases pc with
    | incrementRow task addr =>
      have h : TableStep t inp (.lookup (.incrementRow task addr))
          (inp.storeWrite t (t.incrementQueryCount task addr).1).1 :=
        .storeWrite fun _ ↦ .increment task addr rfl
      simp only [Thread.step, LookupPc.step]
      split
      · exact h
      · split_ifs <;> exact h
    | hydrate m task requestorIP todo => cases todo <;> exact .same
    | copyEntries | advanceCursor | listTask | countMiss | selectFromStore =>
      simp only [Thread.step, LookupPc.step]
      split
      all_goals try split_ifs
      all_goals exact .same
    | _ => exact .same
  | cleanup pc =>
    cases pc with
    | cleanStore timeout removed => exact .storeWrite fun happ ↦ .cleanup timeout removed rfl happ
    | _ => exact .same
  | warm pc =>
    cases pc with
    | syncWrite todo =>
      cases todo with
      | nil => exact .same
      | cons p todo =>
        simp only [Thread.step, WarmPc.step]
        by_cases hpos : 0 < p.2.queryCount
        · have h : TableStep t inp (.warm (.syncWrite (p :: todo)))
              (inp.storeWrite t (t.register p.1 p.2)).1 :=
            .storeWrite fun happ ↦ .upsert p (by simp [Thread.upsert, happ, hpos])
          rw [if_pos hpos]
          split_ifs <;> exact h
        · rw [if_neg hpos]
          exact .same
    | pendingWrite old p todo =>
      have h : TableStep t inp (.warm (.pendingWrite old p todo))
          (inp.storeWrite t (t.register p.1 p.2)).1 :=
        .storeWrite fun happ ↦ .upsert p (by simp [Thread.upsert, happ])
      simp only [Thread.step, WarmPc.step]
      split <;> exact h
    | pendingLoad old todo | keepLoad old newCache todo =>
      cases todo with
      | nil => exact .same
      | cons p todo =>
        simp only [Thread.step, WarmPc.step]
        split_ifs <;> exact .same
    | syncLoad | list | listTasks =>
      simp only [Thread.step, WarmPc.step]
      split
      all_goals try split_ifs
      all_goals try split
      all_goals exact .same
    | _ => exact .same

end TableStep

/-! ## Calls and the world -/

inductive Call
  | registerWithCapacity (task addr : String) (capacity : Int64)
  | getServiceForRequestor (task : String) (requestorIP : Option IP)
  | cleanup (timeout : Time)
  | warmCacheFromDB

/-- The first program counter of a call. Blank names are turned away at once. -/
def Call.begin : Call → Thread
  | .registerWithCapacity task addr capacity =>
    let task := Go.trimSpace task
    let addr := Go.trimSpace addr
    if task = "" ∨ addr = "" then .returned .registered
    else .register (.readCache task addr (normalizedCapacity capacity))
  | .getServiceForRequestor task requestorIP =>
    let task := Go.trimSpace task
    if task = "" then .returned (.answer (.error .invalidTaskName))
    else .lookup (.readCache task requestorIP)
  | .cleanup timeout => .cleanup (.readCache timeout)
  | .warmCacheFromDB => .warm .syncRead

/-- The shared table, and the servers with their threads. Servers are named by `ι` and the threads
of each by `κ`. -/
structure World (ι κ : Type) where
  table : Table
  shared : ι → Shared
  threads : ι → κ → Thread

/-- What happens next: a thread of a server starts a call or makes a step. -/
inductive Action (ι κ : Type)
  | start (i : ι) (k : κ) (call : Call)
  | step (i : ι) (k : κ) (inp : Input)

namespace World

variable {ι κ : Type} [DecidableEq ι] [DecidableEq κ] (c : Collation) (w : World ι κ)

def setThread (i : ι) (k : κ) (th : Thread) : World ι κ :=
  { w with threads := Function.update w.threads i (Function.update (w.threads i) k th) }

/-- No thread of any server has begun: the registries as they were built, over a table. -/
def start (table : Table) (registries : ι → StoreBackedRegistry) : World ι κ where
  table := table
  shared := fun i ↦ Shared.ofRegistry (registries i)
  threads := fun _ _ ↦ .returned .registered

/-- A thread that has returned starts a call; a thread that is busy ignores the request. -/
def act : Action ι κ → World ι κ
  | .start i k call =>
    match w.threads i k with
    | .returned _ => w.setThread i k call.begin
    | _ => w
  | .step i k inp =>
    let (t, sh, th) := (w.threads i k).step c w.table (w.shared i) inp
    { w with table := t, shared := Function.update w.shared i sh }.setThread i k th

variable {c w}

theorem act_start_of_returned {i : ι} {k : κ} {reply : Reply} (call : Call)
    (h : w.threads i k = .returned reply) :
    w.act c (.start i k call) = w.setThread i k call.begin := by
  rw [act, h]

theorem act_start_of_busy {i : ι} {k : κ} (call : Call)
    (h : ∀ reply, w.threads i k ≠ .returned reply) : w.act c (.start i k call) = w := by
  rw [act]
  split
  · rename_i reply heq
    exact absurd heq (h reply)
  · rfl

@[simp] theorem setThread_table (i : ι) (k : κ) (th : Thread) :
    (w.setThread i k th).table = w.table := rfl

@[simp] theorem setThread_shared (i : ι) (k : κ) (th : Thread) :
    (w.setThread i k th).shared = w.shared := rfl

@[simp] theorem setThread_threads_self (i : ι) (k : κ) (th : Thread) :
    (w.setThread i k th).threads i = Function.update (w.threads i) k th := by
  simp [setThread]

theorem setThread_threads_of_ne {i j : ι} (h : j ≠ i) (k : κ) (th : Thread) :
    (w.setThread i k th).threads j = w.threads j := by
  simp [setThread, h]

/-- The table, the shared fields and the thread that a step leaves. -/
abbrev outcome (c : Collation) (w : World ι κ) (i : ι) (k : κ) (inp : Input) :
    Table × Shared × Thread :=
  (w.threads i k).step c w.table (w.shared i) inp

@[simp] theorem act_step_table (i : ι) (k : κ) (inp : Input) :
    (w.act c (.step i k inp)).table = (w.outcome c i k inp).1 := rfl

@[simp] theorem act_step_shared_self (i : ι) (k : κ) (inp : Input) :
    (w.act c (.step i k inp)).shared i = (w.outcome c i k inp).2.1 := by
  simp [act]

theorem act_step_shared_of_ne {i j : ι} (h : j ≠ i) (k : κ) (inp : Input) :
    (w.act c (.step i k inp)).shared j = w.shared j := by
  simp [act, h]

@[simp] theorem act_step_threads_self (i : ι) (k : κ) (inp : Input) :
    (w.act c (.step i k inp)).threads i
      = Function.update (w.threads i) k (w.outcome c i k inp).2.2 := by
  simp [act]

theorem act_step_threads_of_ne {i j : ι} (h : j ≠ i) (k : κ) (inp : Input) :
    (w.act c (.step i k inp)).threads j = w.threads j := by
  simp [act, setThread_threads_of_ne h]

end World

end TaskDiscovery
