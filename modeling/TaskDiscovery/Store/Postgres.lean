import Mathlib.Data.List.Sort
import TaskDiscovery.Lib.RangeMap
import TaskDiscovery.Registry.Entry

/-!
# The Postgres store

The table `services` has one row for each pair of a task and an address, which its unique index
guarantees; here it is a finite map from such pairs to rows. Each statement of `PostgresStore` is a
function on the table, and Postgres executes it atomically.

A call may fail. The schedule `outage` says which calls do, with which error, and whether the
statement took effect before the connection broke. A store whose schedule is empty is `Reliable`.

Timestamps are counted in the resolution of the database column, and rows are ordered by the
collation of the database, of which only the order axioms are known.
-/

namespace TaskDiscovery

/-- The columns of a row of `services` besides its key. -/
structure Row where
  lastHeartbeat : Time
  queryCount : Int
  capacity : Int64
  isActive : Bool
  deriving DecidableEq, Repr

/-- The collation of the database. -/
structure Collation where
  le : String → String → Bool
  total : ∀ a b, le a b = true ∨ le b a = true
  trans : ∀ a b c, le a b = true → le b c = true → le a c = true
  antisymm : ∀ a b, le a b = true → le b a = true → a = b

/-- The collation `C`: by code point. -/
def Collation.codePoint : Collation where
  le a b := decide (a ≤ b)
  total a b := by simpa using String.le_total a b
  trans a b c := by simpa using fun h h' ↦ String.le_trans h h'
  antisymm a b := by simpa using fun h h' ↦ String.le_antisymm h h'

/-- The table `services`, keyed by task and address. -/
abbrev Table := AList fun _ : String × String ↦ Row

namespace Table

variable (t : Table)

/-- The pair has a row with `is_active = TRUE`. -/
def Active (task addr : String) : Prop :=
  ∃ row, t.lookup (task, addr) = some row ∧ row.isActive = true

instance (task addr : String) : Decidable (t.Active task addr) :=
  match h : t.lookup (task, addr) with
  | none => isFalse (by rintro ⟨row, hrow, -⟩; simp [h] at hrow)
  | some row => decidable_of_iff (row.isActive = true) (by simp [Active, h])

/-- `query_count` of a pair, zero without a row. -/
def queryCount (task addr : String) : Int :=
  match t.lookup (task, addr) with
  | none => 0
  | some row => row.queryCount

/-! ## Statements -/

/-- The row `Register` leaves for a pair, given the row before. A positive count is written as it
is. Otherwise an active row keeps its count and a reactivated one starts at zero. -/
def registeredRow (entry : ServiceEntry) (old : Option Row) : Row where
  lastHeartbeat := entry.lastHeartbeat
  queryCount :=
    if 0 < entry.queryCount then entry.queryCount
    else match old with
      | none => 0
      | some row => if row.isActive then row.queryCount else 0
  capacity := normalizedCapacity entry.capacity
  isActive := true

/-- The upsert of `PostgresStore.Register`. -/
def register (task : String) (entry : ServiceEntry) : Table :=
  t.insert (task, entry.address) (registeredRow entry (t.lookup (task, entry.address)))

/-- The update of `PostgresStore.IncrementQueryCount`, with the number of rows affected. -/
def incrementQueryCount (task addr : String) : Table × ℕ :=
  match t.lookup (task, addr) with
  | none => (t, 0)
  | some row =>
    if row.isActive then
      (t.insert (task, addr) { row with queryCount := row.queryCount + 1 }, 1)
    else (t, 0)

/-- A row as it is scanned into an entry. -/
def scan (addr : String) (row : Row) : ServiceEntry where
  address := addr
  lastHeartbeat := row.lastHeartbeat
  queryCount := row.queryCount
  capacity := normalizedCapacity row.capacity

/-- `ORDER BY task, address ASC`. -/
def rowLe (c : Collation) (p q : String × ServiceEntry) : Prop :=
  if p.1 = q.1 then c.le p.2.address q.2.address = true else c.le p.1 q.1 = true

instance (c : Collation) : DecidableRel (rowLe c) := fun p q ↦
  inferInstanceAs (Decidable (if p.1 = q.1 then _ = true else _ = true))

/-- The active rows of the tasks selected by `p`, ordered by task and address. -/
def activeRows (c : Collation) (p : String → Bool) : List (String × ServiceEntry) :=
  ((t.entries.filter fun r ↦ r.2.isActive && p r.1.1).map fun r ↦
    (r.1.1, scan r.1.2 r.2)).insertionSort (rowLe c)

/-- The query of `ListTaskServices`. -/
def listTaskServices (c : Collation) (task : String) : List ServiceEntry :=
  (t.activeRows c fun s ↦ s = task).map Prod.snd

/-- The query of `ListServices`, grouped by task. -/
def listServices (c : Collation) : AList fun _ : String ↦ List ServiceEntry :=
  AList.group (t.activeRows c fun _ ↦ true)

/-- The query of `ListServicesForTasks`, grouped by task. -/
def listServicesForTasks (c : Collation) (tasks : List String) :
    AList fun _ : String ↦ List ServiceEntry :=
  AList.group (t.activeRows c fun s ↦ s ∈ tasks)

/-- `SUM(query_count)` over the active rows of a task. -/
def totalQueryCount (task : String) : Int :=
  ((t.entries.filter fun r ↦ r.2.isActive && decide (r.1.1 = task)).map fun r ↦
    r.2.queryCount).sum

/-- `ORDER BY SUM(query_count) DESC, task ASC`. -/
def taskLe (c : Collation) (a b : String) : Prop :=
  t.totalQueryCount b < t.totalQueryCount a
    ∨ t.totalQueryCount a = t.totalQueryCount b ∧ c.le a b = true

instance (c : Collation) : DecidableRel (t.taskLe c) := fun _ _ ↦
  inferInstanceAs (Decidable (_ < _ ∨ _ = _ ∧ _ = true))

/-- The query of `ListTopTasksByQueryCount`. -/
def listTopTasksByQueryCount (c : Collation) (limit : ℕ) : List String :=
  (((t.entries.filter fun r ↦ r.2.isActive).map fun r ↦ r.1.1).dedup.insertionSort
    (t.taskLe c)).take limit

/-- The update of `PostgresStore.Cleanup`, with the number of rows affected. -/
def cleanup (cutoff : Time) : Table × ℕ :=
  let stale : Row → Bool := fun row ↦ decide (row.lastHeartbeat < cutoff) && row.isActive
  (t.mapVal fun _ row ↦ if stale row then { row with isActive := false } else row,
    (t.entries.filter fun r ↦ stale r.2).length)

/-! ## What the statements do to a row -/

variable {t}

@[simp] theorem not_active_empty (task addr : String) : ¬Active ∅ task addr := by
  rintro ⟨row, hrow, -⟩
  simp at hrow

theorem lookup_register (task : String) (entry : ServiceEntry) (k : String × String) :
    (t.register task entry).lookup k
      = if k = (task, entry.address) then
          some (registeredRow entry (t.lookup (task, entry.address)))
        else t.lookup k := by
  rw [register]
  by_cases h : k = (task, entry.address)
  · rw [if_pos h, h, AList.lookup_insert]
  · rw [if_neg h, AList.lookup_insert_ne h]

theorem active_register {task : String} {entry : ServiceEntry} {task' addr' : String} :
    (t.register task entry).Active task' addr'
      ↔ (task' = task ∧ addr' = entry.address) ∨ t.Active task' addr' := by
  rw [Active, lookup_register]
  by_cases h : (task', addr') = (task, entry.address)
  · rw [if_pos h]
    simp [Prod.mk.inj h, registeredRow]
  · rw [if_neg h, Active]
    have hne : ¬(task' = task ∧ addr' = entry.address) := fun hc ↦ h (Prod.ext hc.1 hc.2)
    simp [hne]

theorem lookup_incrementQueryCount (task addr : String) (k : String × String) :
    (t.incrementQueryCount task addr).1.lookup k
      = if k = (task, addr) then
          (t.lookup (task, addr)).map fun row ↦
            if row.isActive then { row with queryCount := row.queryCount + 1 } else row
        else t.lookup k := by
  rw [incrementQueryCount]
  by_cases hk : k = (task, addr)
  · subst hk
    rw [if_pos rfl]
    rcases h : t.lookup (task, addr) with _ | row
    · simp [h]
    · by_cases hact : row.isActive <;> simp [hact, h]
  · rw [if_neg hk]
    rcases h : t.lookup (task, addr) with _ | row
    · rfl
    · by_cases hact : row.isActive
      · simp only [hact, if_true]
        rw [AList.lookup_insert_ne hk]
      · simp [hact]

@[simp] theorem active_incrementQueryCount {task addr task' addr' : String} :
    (t.incrementQueryCount task addr).1.Active task' addr' ↔ t.Active task' addr' := by
  rw [Active, Active, lookup_incrementQueryCount]
  by_cases hk : (task', addr') = (task, addr)
  · rw [if_pos hk, hk]
    rcases t.lookup (task, addr) with _ | row
    · simp
    · by_cases hact : row.isActive <;> simp [hact]
  · rw [if_neg hk]

/-! ### Query counts -/

/-- A registration without a count keeps all counts, unless it reactivates a row. -/
theorem queryCount_register_of_zero {task : String} {entry : ServiceEntry}
    (hzero : entry.queryCount = 0)
    (hactive : ∀ row, t.lookup (task, entry.address) = some row → row.isActive = true)
    (task' addr' : String) :
    (t.register task entry).queryCount task' addr' = t.queryCount task' addr' := by
  rw [queryCount, lookup_register, queryCount]
  by_cases h : (task', addr') = (task, entry.address)
  · rw [if_pos h, h]
    rcases hlook : t.lookup (task, entry.address) with _ | row
    · simp [registeredRow, hzero]
    · simp [registeredRow, hzero, hactive row hlook]
  · rw [if_neg h]

theorem queryCount_incrementQueryCount {task addr : String} (hact : t.Active task addr)
    (task' addr' : String) :
    (t.incrementQueryCount task addr).1.queryCount task' addr'
      = if task' = task ∧ addr' = addr then t.queryCount task' addr' + 1
        else t.queryCount task' addr' := by
  obtain ⟨row, hlook, hrow⟩ := hact
  rw [queryCount, lookup_incrementQueryCount, queryCount]
  by_cases h : task' = task ∧ addr' = addr
  · rw [if_pos h, if_pos (by rw [h.1, h.2]), h.1, h.2, hlook]
    simp [hrow]
  · rw [if_neg h, if_neg (fun heq ↦ h (Prod.mk.inj heq))]

/-! ## What the queries return -/

theorem mem_activeRows {c : Collation} {p : String → Bool} {task : String} {e : ServiceEntry} :
    (task, e) ∈ t.activeRows c p ↔ p task = true ∧
      ∃ row, t.lookup (task, e.address) = some row ∧ row.isActive = true
        ∧ e = scan e.address row := by
  rw [activeRows, List.mem_insertionSort, List.mem_map]
  simp only [List.mem_filter, Bool.and_eq_true, Prod.mk.injEq]
  constructor
  · rintro ⟨⟨⟨_, addr⟩, row⟩, ⟨hmem, hact, hp⟩, rfl, rfl⟩
    exact ⟨hp, row, AList.mem_entries_iff.mp hmem, hact, rfl⟩
  · rintro ⟨hp, row, hlook, hact, he⟩
    exact ⟨⟨(task, e.address), row⟩, ⟨AList.mem_entries_iff.mpr hlook, hact, hp⟩, rfl, he.symm⟩

theorem mem_listTaskServices {c : Collation} {task : String} {e : ServiceEntry} :
    e ∈ t.listTaskServices c task ↔
      ∃ row, t.lookup (task, e.address) = some row ∧ row.isActive = true
        ∧ e = scan e.address row := by
  rw [listTaskServices, List.mem_map]
  constructor
  · rintro ⟨⟨task', e'⟩, hmem, rfl⟩
    obtain ⟨htask, hrow⟩ := mem_activeRows.mp hmem
    rw [decide_eq_true_eq] at htask
    exact htask ▸ hrow
  · intro h
    exact ⟨(task, e), mem_activeRows.mpr ⟨by simp, h⟩, rfl⟩

theorem queryCount_of_mem_listTaskServices {c : Collation} {task : String} {e : ServiceEntry}
    (h : e ∈ t.listTaskServices c task) : e.queryCount = t.queryCount task e.address := by
  obtain ⟨row, hlook, -, he⟩ := mem_listTaskServices.mp h
  rw [queryCount, hlook, he]
  rfl

private theorem mem_slice_group_activeRows {c : Collation} {p : String → Bool} {task : String}
    {e : ServiceEntry} :
    e ∈ (AList.group (t.activeRows c p)).slice task
      ↔ p task = true ∧ e ∈ t.listTaskServices c task := by
  rw [AList.slice_group, mem_listTaskServices, ← mem_activeRows]
  constructor
  · intro h
    obtain ⟨⟨task', e'⟩, hmem, rfl⟩ := List.mem_map.mp h
    obtain ⟨hin, htask⟩ := List.mem_filter.mp hmem
    obtain rfl : task' = task := by simpa using htask
    exact hin
  · intro h
    exact List.mem_map.mpr ⟨(task, e), List.mem_filter.mpr ⟨h, by simp⟩, rfl⟩

theorem mem_slice_listServices {c : Collation} {task : String} {e : ServiceEntry} :
    e ∈ (t.listServices c).slice task ↔ e ∈ t.listTaskServices c task := by
  rw [listServices, mem_slice_group_activeRows]
  simp

theorem mem_slice_listServicesForTasks {c : Collation} {tasks : List String} {task : String}
    {e : ServiceEntry} :
    e ∈ (t.listServicesForTasks c tasks).slice task
      ↔ task ∈ tasks ∧ e ∈ t.listTaskServices c task := by
  rw [listServicesForTasks, mem_slice_group_activeRows, decide_eq_true_eq]

theorem mem_map_listTaskServices {c : Collation} {task addr : String} :
    addr ∈ (t.listTaskServices c task).map ServiceEntry.address ↔ t.Active task addr := by
  rw [List.mem_map]
  constructor
  · rintro ⟨e, he, rfl⟩
    obtain ⟨row, hlook, hact, -⟩ := mem_listTaskServices.mp he
    exact ⟨row, hlook, hact⟩
  · rintro ⟨row, hlook, hact⟩
    exact ⟨scan addr row, mem_listTaskServices.mpr ⟨row, hlook, hact, rfl⟩, rfl⟩

/-! ### The order of the rows -/

theorem rowLe_total (c : Collation) (p q : String × ServiceEntry) : rowLe c p q ∨ rowLe c q p := by
  rw [rowLe, rowLe]
  by_cases h : p.1 = q.1
  · rw [if_pos h, if_pos h.symm]
    exact c.total _ _
  · rw [if_neg h, if_neg (Ne.symm h)]
    exact c.total _ _

theorem rowLe_trans (c : Collation) {p q r : String × ServiceEntry} (hpq : rowLe c p q)
    (hqr : rowLe c q r) : rowLe c p r := by
  rw [rowLe] at hpq hqr ⊢
  by_cases h : p.1 = q.1
  · rw [h]
    by_cases h' : q.1 = r.1
    · rw [if_pos h] at hpq
      rw [if_pos h'] at hqr ⊢
      exact c.trans _ _ _ hpq hqr
    · rw [if_neg h'] at hqr ⊢
      exact hqr
  · rw [if_neg h] at hpq
    by_cases h' : q.1 = r.1
    · rw [← h', if_neg h]
      exact hpq
    · rw [if_neg h'] at hqr
      -- otherwise the three tasks would be one
      have hne : p.1 ≠ r.1 := fun heq ↦ h (c.antisymm _ _ hpq (heq ▸ hqr))
      rw [if_neg hne]
      exact c.trans _ _ _ hpq hqr

theorem pairwise_activeRows (t : Table) (c : Collation) (p : String → Bool) :
    (t.activeRows c p).Pairwise (rowLe c) := by
  have : Std.Total (rowLe c) := ⟨rowLe_total c⟩
  have : IsTrans (String × ServiceEntry) (rowLe c) := ⟨fun _ _ _ ↦ rowLe_trans c⟩
  exact List.pairwise_insertionSort _ _

theorem nodup_activeRows (t : Table) (c : Collation) (p : String → Bool) :
    ((t.activeRows c p).map fun q ↦ (q.1, q.2.address)).Nodup := by
  have hperm : ((t.activeRows c p).map fun q ↦ (q.1, q.2.address)).Perm
      ((t.entries.filter fun r ↦ r.2.isActive && p r.1.1).map Sigma.fst) := by
    have hsorted := List.perm_insertionSort (rowLe c)
      ((t.entries.filter fun r ↦ r.2.isActive && p r.1.1).map fun r ↦ (r.1.1, scan r.1.2 r.2))
    rw [activeRows]
    refine (hsorted.map fun q ↦ (q.1, q.2.address)).trans (List.Perm.of_eq ?_)
    rw [List.map_map]
    rfl
  exact hperm.nodup_iff.mpr (t.nodupKeys.sublist List.filter_sublist)

/-- A list of entries in the order of their addresses, none of them twice. -/
structure Ordered (c : Collation) (entries : List ServiceEntry) : Prop where
  sorted : entries.Pairwise fun a b ↦ c.le a.address b.address = true
  nodup : (entries.map ServiceEntry.address).Nodup

theorem ordered_slice_activeRows (t : Table) (c : Collation) (p : String → Bool) (task : String) :
    Ordered c (((t.activeRows c p).filter fun q ↦ q.1 = task).map Prod.snd) := by
  have htask : ∀ q ∈ (t.activeRows c p).filter (fun q ↦ q.1 = task), q.1 = task := fun q hq ↦ by
    simpa using (List.mem_filter.mp hq).2
  refine ⟨?_, ?_⟩
  · rw [List.pairwise_map]
    refine ((t.pairwise_activeRows c p).filter _).imp_of_mem fun {a b} ha hb hle ↦ ?_
    rwa [rowLe, if_pos ((htask a ha).trans (htask b hb).symm)] at hle
  · have hkeys := (t.nodup_activeRows c p).sublist
      ((List.filter_sublist (p := fun q : String × ServiceEntry ↦ q.1 = task)).map
        fun q ↦ (q.1, q.2.address))
    have hpair : ((t.activeRows c p).filter fun q ↦ q.1 = task).map (fun q ↦ (q.1, q.2.address))
        = ((((t.activeRows c p).filter fun q ↦ q.1 = task).map Prod.snd).map
          ServiceEntry.address).map fun addr ↦ (task, addr) := by
      rw [List.map_map, List.map_map]
      refine List.map_congr_left fun q hq ↦ ?_
      simp [htask q hq]
    rw [hpair] at hkeys
    exact hkeys.of_map _

theorem listTaskServices_eq_filter (t : Table) (c : Collation) (task : String) :
    t.listTaskServices c task
      = ((t.activeRows c fun s ↦ s = task).filter fun q ↦ q.1 = task).map Prod.snd := by
  rw [listTaskServices, List.filter_eq_self.mpr]
  intro q hq
  exact (mem_activeRows.mp hq).1

theorem ordered_listTaskServices (t : Table) (c : Collation) (task : String) :
    Ordered c (t.listTaskServices c task) := by
  rw [listTaskServices_eq_filter]
  exact ordered_slice_activeRows t c _ task

theorem nodup_listTaskServices (t : Table) (c : Collation) (task : String) :
    ((t.listTaskServices c task).map ServiceEntry.address).Nodup :=
  (ordered_listTaskServices t c task).nodup

/-- An ordered list is determined by its elements, seen through any function that shows the
address. -/
theorem Ordered.map_eq {c : Collation} {l l' : List ServiceEntry} (hl : Ordered c l)
    (hl' : Ordered c l') {β : Type} (f : ServiceEntry → β) (addr : β → String)
    (hf : ∀ e, addr (f e) = e.address) (hmem : ∀ b, b ∈ l.map f ↔ b ∈ l'.map f) :
    l.map f = l'.map f := by
  have haddr (l : List ServiceEntry) : (l.map f).map addr = l.map ServiceEntry.address := by
    rw [List.map_map]
    exact List.map_congr_left fun e _ ↦ hf e
  have hsorted {l : List ServiceEntry} (h : Ordered c l) :
      (l.map f).Pairwise fun a b ↦ c.le (addr a) (addr b) = true := by
    rw [List.pairwise_map]
    exact h.sorted.imp fun {a b} hle ↦ by rwa [hf, hf]
  have hnodup : ((l.map f).map addr).Nodup := haddr l ▸ hl.nodup
  have hnodup' : ((l'.map f).map addr).Nodup := haddr l' ▸ hl'.nodup
  refine List.Perm.eq_of_pairwise (fun a b ha hb hab hba ↦ ?_) (hsorted hl) (hsorted hl')
    ((List.perm_ext_iff_of_nodup (hnodup.of_map _) (hnodup'.of_map _)).mpr hmem)
  exact List.inj_on_of_nodup_map hnodup ha ((hmem b).mpr hb) (c.antisymm _ _ hab hba)

theorem Ordered.eq {c : Collation} {l l' : List ServiceEntry} (hl : Ordered c l)
    (hl' : Ordered c l') (hmem : ∀ e, e ∈ l ↔ e ∈ l') : l = l' := by
  have h := hl.map_eq hl' id ServiceEntry.address (fun _ ↦ rfl) (by simpa using hmem)
  simpa using h

theorem slice_listServices (t : Table) (c : Collation) (task : String) :
    (t.listServices c).slice task = t.listTaskServices c task := by
  refine Ordered.eq (c := c) ?_ (ordered_listTaskServices t c task) fun _ ↦ mem_slice_listServices
  rw [listServices, AList.slice_group]
  exact ordered_slice_activeRows t c _ task

theorem slice_listServicesForTasks (t : Table) (c : Collation) {tasks : List String} {task : String}
    (h : task ∈ tasks) :
    (t.listServicesForTasks c tasks).slice task = t.listTaskServices c task := by
  refine Ordered.eq (c := c) ?_ (ordered_listTaskServices t c task) fun _ ↦ ?_
  · rw [listServicesForTasks, AList.slice_group]
    exact ordered_slice_activeRows t c _ task
  · rw [mem_slice_listServicesForTasks]
    exact and_iff_right h

end Table

/-! ## The store with its schedule of failures -/

/-- A failed call: its error, and whether the statement had been executed. -/
structure Outage where
  text : String
  applied : Bool
  deriving DecidableEq, Repr

/-- A `PostgresStore`: the table, and which of the calls made on it fail. -/
structure PostgresStore where
  table : Table
  collation : Collation
  outage : ℕ → Option Outage
  calls : ℕ

namespace PostgresStore

variable (ps : PostgresStore)

/-- Execute a statement as the next call. -/
def exec {α : Type} (stmt : Table → Table × α) : PostgresStore × Except RegistryError α :=
  let (table', a) := stmt ps.table
  match ps.outage ps.calls with
  | none => ({ ps with table := table', calls := ps.calls + 1 }, .ok a)
  | some o =>
    ({ ps with table := if o.applied then table' else ps.table, calls := ps.calls + 1 },
      .error (.store o.text))

def register (task : String) (entry : ServiceEntry) : PostgresStore × Except RegistryError Unit :=
  ps.exec fun t ↦ (t.register task entry, ())

/-- `PostgresStore.IncrementQueryCount`. Its `ErrNotFound` is a value of its own, different from
the registry's error of that name. -/
def incrementQueryCount (task addr : String) : PostgresStore × Except RegistryError Unit :=
  match ps.exec fun t ↦ t.incrementQueryCount task addr with
  | (ps, .ok 0) => (ps, .error (.store "service not found"))
  | (ps, .ok _) => (ps, .ok ())
  | (ps, .error err) => (ps, .error err)

def listTaskServices (task : String) : PostgresStore × Except RegistryError (List ServiceEntry) :=
  ps.exec fun t ↦ (t, t.listTaskServices ps.collation task)

def listServices :
    PostgresStore × Except RegistryError (AList fun _ : String ↦ List ServiceEntry) :=
  ps.exec fun t ↦ (t, t.listServices ps.collation)

def listTopTasksByQueryCount (limit : Int) : PostgresStore × Except RegistryError (List String) :=
  if limit ≤ 0 then (ps, .ok [])
  else ps.exec fun t ↦ (t, t.listTopTasksByQueryCount ps.collation limit.toNat)

def listServicesForTasks (tasks : List String) :
    PostgresStore × Except RegistryError (AList fun _ : String ↦ List ServiceEntry) :=
  if tasks = [] then (ps, .ok ∅)
  else ps.exec fun t ↦ (t, t.listServicesForTasks ps.collation tasks)

def cleanup (now timeout : Time) : PostgresStore × Except RegistryError ℕ :=
  ps.exec fun t ↦ t.cleanup (now - timeout)

def Reliable : Prop := ∀ n, ps.outage n = none

/-- A store without rows that fails no call. -/
def empty : PostgresStore := ⟨∅, .codePoint, fun _ ↦ none, 0⟩

theorem empty_reliable : empty.Reliable := fun _ ↦ rfl

variable {ps}

theorem exec_of_reliable {α : Type} (h : ps.Reliable) (stmt : Table → Table × α) :
    ps.exec stmt = ({ ps with table := (stmt ps.table).1, calls := ps.calls + 1 },
      .ok (stmt ps.table).2) := by
  rw [exec, h ps.calls]

/-- **A call.** It keeps the schedule and the collation, and either the statement took effect and
its answer was returned, or the store is one that fails calls. -/
theorem exec_cases {α : Type} {stmt : Table → Table × α} {ps' : PostgresStore}
    {result : Except RegistryError α} (h : ps.exec stmt = (ps', result)) :
    ps'.outage = ps.outage ∧ ps'.collation = ps.collation ∧
      ((result = .ok (stmt ps.table).2 ∧ ps'.table = (stmt ps.table).1)
        ∨ ∃ err, result = .error err ∧ ¬ps.Reliable) := by
  rw [exec] at h
  rcases hout : ps.outage ps.calls with _ | o
  · simp only [hout] at h
    obtain ⟨rfl, rfl⟩ := Prod.mk.inj h
    exact ⟨rfl, rfl, Or.inl ⟨rfl, rfl⟩⟩
  · simp only [hout] at h
    obtain ⟨rfl, rfl⟩ := Prod.mk.inj h
    refine ⟨rfl, rfl, Or.inr ⟨_, rfl, fun hrel ↦ ?_⟩⟩
    rw [hrel ps.calls] at hout
    exact absurd hout (by simp)

theorem register_of_reliable (h : ps.Reliable) (task : String) (entry : ServiceEntry) :
    ps.register task entry
      = ({ ps with table := ps.table.register task entry, calls := ps.calls + 1 }, .ok ()) :=
  exec_of_reliable h _

theorem register_config {task : String} {entry : ServiceEntry} {ps' : PostgresStore}
    {result : Except RegistryError Unit} (h : ps.register task entry = (ps', result)) :
    ps'.outage = ps.outage ∧ ps'.collation = ps.collation :=
  ⟨(exec_cases h).1, (exec_cases h).2.1⟩

theorem read_cases {α : Type} {f : Table → α} {ps' : PostgresStore}
    {result : Except RegistryError α} (h : ps.exec (fun t ↦ (t, f t)) = (ps', result)) :
    ps'.outage = ps.outage ∧ ps'.collation = ps.collation ∧
      ((result = .ok (f ps.table) ∧ ps'.table = ps.table)
        ∨ ∃ err, result = .error err ∧ ¬ps.Reliable) :=
  exec_cases h

/-- Listing no task makes no call; the empty listing is what a call would have returned. -/
theorem listServicesForTasks_cases {tasks : List String} {ps' : PostgresStore}
    {result : Except RegistryError (AList fun _ : String ↦ List ServiceEntry)}
    (h : ps.listServicesForTasks tasks = (ps', result)) :
    ps'.outage = ps.outage ∧ ps'.collation = ps.collation ∧
      ((∃ services, result = .ok services ∧ ps'.table = ps.table ∧ ∀ task ∈ tasks,
          services.slice task = (ps.table.listServicesForTasks ps.collation tasks).slice task)
        ∨ ∃ err, result = .error err ∧ ¬ps.Reliable) := by
  rw [listServicesForTasks] at h
  split_ifs at h with hnil
  · obtain ⟨rfl, rfl⟩ := Prod.mk.inj h
    exact ⟨rfl, rfl, Or.inl ⟨_, rfl, rfl, fun task htask ↦ absurd htask (by simp [hnil])⟩⟩
  · obtain ⟨hout, hcoll, ⟨rfl, htable⟩ | hfail⟩ := read_cases h
    · exact ⟨hout, hcoll, Or.inl ⟨_, rfl, htable, fun _ _ ↦ rfl⟩⟩
    · exact ⟨hout, hcoll, Or.inr hfail⟩

theorem incrementQueryCount_cases {task addr : String} {ps' : PostgresStore}
    {result : Except RegistryError Unit} (h : ps.incrementQueryCount task addr = (ps', result))
    (hact : ps.table.Active task addr) :
    ps'.outage = ps.outage ∧ ps'.collation = ps.collation ∧
      ((result = .ok () ∧ ps'.table = (ps.table.incrementQueryCount task addr).1)
        ∨ ∃ err, result = .error err ∧ ¬ps.Reliable) := by
  obtain ⟨row, hlook, hrow⟩ := hact
  have hone : (ps.table.incrementQueryCount task addr).2 = 1 := by
    simp [Table.incrementQueryCount, hlook, hrow]
  rw [incrementQueryCount] at h
  rcases hexec : ps.exec fun t ↦ t.incrementQueryCount task addr with ⟨ps₁, result₁⟩
  obtain ⟨hout, hcoll, hcase⟩ := exec_cases hexec
  rcases hcase with ⟨rfl, htable⟩ | ⟨err, rfl, hrel⟩
  · rw [hexec, hone] at h
    obtain ⟨rfl, rfl⟩ := Prod.mk.inj h
    exact ⟨hout, hcoll, Or.inl ⟨rfl, htable⟩⟩
  · rw [hexec] at h
    obtain ⟨rfl, rfl⟩ := Prod.mk.inj h
    exact ⟨hout, hcoll, Or.inr ⟨err, rfl, hrel⟩⟩

end PostgresStore

end TaskDiscovery
