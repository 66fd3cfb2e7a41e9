import TaskDiscovery.CardDb.Pctr
import TaskDiscovery.Go.Strings

/-!
# Seeding the cards

`Seed` inserts cards that are not there yet. Up to 100 records are inserted one by one. For longer
lists `seedCardsBulk` builds one statement for every 1000 of them, with placeholders that it numbers
itself.

A statement with many rows does what as many statements do (`execute_bulkStatement`), and the
records of a chunk follow those of the chunk before. But the two functions do not skip the same
records: the one by one loop skips empty card IDs, the other those that are empty once trimmed. So
they agree exactly when every card ID that is blank but not empty is there already
(`seedCardsBulk_agrees_iff`).

The column `updated_at` is left out. It is never read, and within a statement all rows get the same
time.
-/

namespace TaskDiscovery

namespace CardDb

/-- `Record`, which is also a row of `cards`. -/
structure Record where
  cardId : String
  active : Bool
  blocked : Bool
  balanceCents : Int64
  deriving DecidableEq

@[ext]
structure CardTable where
  rows : List Record
  nodup_ids : (rows.map Record.cardId).Nodup

/-- A value that is passed for a placeholder. -/
inductive Arg
  | text (s : String)
  | bool (b : Bool)
  | bigint (n : Int64)

/-- An insert of several rows: the numbers of the placeholders in each row, and the arguments. -/
structure InsertStatement where
  values : List (ℕ × ℕ × ℕ × ℕ)
  args : List Arg

namespace CardTable

variable (t : CardTable)

def ids : List String := t.rows.map Record.cardId

/-- One row with `ON CONFLICT (card_id) DO NOTHING`. -/
def insert (r : Record) : CardTable :=
  if h : r.cardId ∈ t.rows.map Record.cardId then t
  else
    { rows := t.rows ++ [r]
      nodup_ids := by
        rw [List.map_append]
        exact t.nodup_ids.append (List.nodup_singleton _) (by simpa using h) }

end CardTable

/-! ## Statements with many rows -/

namespace InsertStatement

/-- The argument of a placeholder. Placeholders are counted from 1. -/
def arg (st : InsertStatement) (n : ℕ) : Option Arg := if n = 0 then none else st.args[n - 1]?

/-- The record that the placeholders of a row stand for. -/
def record (st : InsertStatement) (value : ℕ × ℕ × ℕ × ℕ) : Option Record :=
  match st.arg value.1, st.arg value.2.1, st.arg value.2.2.1, st.arg value.2.2.2 with
  | some (.text cardId), some (.bool active), some (.bool blocked), some (.bigint balance) =>
    some ⟨cardId, active, blocked, balance⟩
  | _, _, _, _ => none

/-- Postgres inserts the rows in their order. A placeholder without an argument of its type is an
error. -/
def execute (st : InsertStatement) (t : CardTable) : Option CardTable :=
  (st.values.mapM st.record).map fun records ↦ records.foldl CardTable.insert t

end InsertStatement

/-- The arguments for a record. -/
def Record.args (r : Record) : List Arg :=
  [.text r.cardId, .bool r.active, .bool r.blocked, .bigint r.balanceCents]

/-- The body of the loop over a chunk. The counter is that of the next placeholder. -/
def addRow (b : InsertStatement × ℕ) (r : Record) : InsertStatement × ℕ :=
  let (st, param) := b
  ({ values := st.values ++ [(param, param + 1, param + 2, param + 3)],
     args := st.args ++ r.args }, param + 4)

/-- The statement for a chunk. -/
def bulkStatement (chunk : List Record) : InsertStatement := (chunk.foldl addRow (⟨[], []⟩, 1)).1

/-! ## `Seed` -/

namespace CardTable

variable (wt : Weather)

/-- The loop of `Seed` over the records. -/
def seedEach (t : CardTable) (records : List Record) : CardTable × Bool :=
  insertRows (fun r ↦ decide (r.cardId ≠ "")) insert wt 0 records t

/-- The loop over the chunks; `n` is the number of the next statement. -/
def seedChunks : ℕ → List (List Record) → CardTable → CardTable × Bool
  | _, [], t => (t, true)
  | n, chunk :: chunks, t =>
    match (bulkStatement chunk).execute t with
    | none => (t, false)
    | some t' =>
      if (wt.outcome n).ok then seedChunks (n + 1) chunks t'
      else (if wt.landed n then t' else t, false)

def seedCardsBulk (t : CardTable) (records : List Record) : CardTable × Bool :=
  let filtered := records.filter fun r ↦ decide (Go.trimSpace r.cardId ≠ "")
  if filtered.length = 0 then (t, true) else seedChunks wt 0 (filtered.blocks 1000) t

def seed (t : CardTable) (records : List Record) : CardTable × Bool :=
  if records.length = 0 then (t, true)
  else if 100 < records.length then t.seedCardsBulk wt records
  else t.seedEach wt records

end CardTable

/-! ## The statement of a chunk -/

namespace InsertStatement

theorem arg_append {st : InsertStatement} {n : ℕ} {a : Arg} (h : st.arg n = some a)
    (values : List (ℕ × ℕ × ℕ × ℕ)) (args : List Arg) :
    arg ⟨values, st.args ++ args⟩ n = some a := by
  rw [arg] at h ⊢
  split_ifs at h ⊢ with hn
  rw [List.getElem?_append_left (List.getElem?_eq_some_iff.mp h).1, h]

theorem record_append {st : InsertStatement} {value : ℕ × ℕ × ℕ × ℕ} {r : Record}
    (h : st.record value = some r) (values : List (ℕ × ℕ × ℕ × ℕ)) (args : List Arg) :
    record ⟨values, st.args ++ args⟩ value = some r := by
  rw [record] at h
  split at h
  next cardId active blocked balance h₁ h₂ h₃ h₄ =>
    rw [record, arg_append h₁, arg_append h₂, arg_append h₃, arg_append h₄]
    exact h
  next => cases h

theorem record_new (values : List (ℕ × ℕ × ℕ × ℕ)) (args : List Arg) (r : Record) :
    record ⟨values, args ++ r.args⟩
      (args.length + 1, args.length + 2, args.length + 3, args.length + 4) = some r := by
  have harg : ∀ k, arg ⟨values, args ++ r.args⟩ (args.length + (k + 1)) = r.args[k]? := by
    intro k
    rw [arg, if_neg (by omega), List.getElem?_append_right (by omega)]
    congr 1
    omega
  rw [record, harg 0, harg 1, harg 2, harg 3]
  rfl

end InsertStatement

/-- The rows of a statement stand for the records that were added, and its counter is that of the
next placeholder. -/
structure StandsFor (records : List Record) (b : InsertStatement × ℕ) : Prop where
  next : b.2 = b.1.args.length + 1
  rows : b.1.values.map b.1.record = records.map some

theorem StandsFor.addRow {records : List Record} {b : InsertStatement × ℕ}
    (h : StandsFor records b) (r : Record) : StandsFor (records ++ [r]) (addRow b r) := by
  obtain ⟨st, param⟩ := b
  have hnext : param = st.args.length + 1 := h.next
  have hrows : st.values.map st.record = records.map some := h.rows
  refine ⟨?_, ?_⟩
  · simp [CardDb.addRow, hnext, Record.args]
  · -- the placeholders of the rows before are below the counter
    have hold : st.values.map (InsertStatement.record ⟨st.values
        ++ [(param, param + 1, param + 2, param + 3)], st.args ++ r.args⟩)
        = st.values.map st.record := by
      refine List.map_congr_left fun value hvalue ↦ ?_
      have hsome : st.record value ∈ records.map some := hrows ▸ List.mem_map_of_mem hvalue
      obtain ⟨r', -, hr'⟩ := List.mem_map.mp hsome
      rw [← hr', InsertStatement.record_append hr'.symm]
    simp only [CardDb.addRow]
    rw [List.map_append, hold, hrows, List.map_append, List.map_singleton, List.map_singleton,
      hnext]
    exact congrArg (fun row ↦ records.map some ++ [row]) (InsertStatement.record_new _ _ r)

theorem standsFor_foldl {records : List Record} {b : InsertStatement × ℕ} (h : StandsFor records b)
    (chunk : List Record) : StandsFor (records ++ chunk) (chunk.foldl addRow b) := by
  induction chunk generalizing records b with
  | nil => rwa [List.append_nil]
  | cons r chunk ih =>
    rw [List.append_cons]
    exact ih (h.addRow r)

/-- **A statement with many rows inserts them one after the other.** -/
theorem execute_bulkStatement (chunk : List Record) (t : CardTable) :
    (bulkStatement chunk).execute t = some (chunk.foldl CardTable.insert t) := by
  have hempty : StandsFor [] (⟨[], []⟩, 1) := ⟨rfl, rfl⟩
  have hrows := (standsFor_foldl hempty chunk).rows
  rw [List.nil_append] at hrows
  rw [InsertStatement.execute, bulkStatement, List.mapM_eq_some_iff.mpr hrows]
  rfl

namespace CardTable

variable {wt wt' : Weather} {t : CardTable} {records : List Record}

/-! ## Both loops are folds -/

theorem seedChunks_ok {n : ℕ} {chunks : List (List Record)}
    (h : (seedChunks wt n chunks t).2 = true) :
    (seedChunks wt n chunks t).1 = chunks.flatten.foldl insert t := by
  induction chunks generalizing n t with
  | nil => rfl
  | cons chunk chunks ih =>
    rw [seedChunks, execute_bulkStatement] at h ⊢
    simp only at h ⊢
    split_ifs at h ⊢ with hok
    rw [ih h, List.flatten_cons, List.foldl_append]

theorem seedCardsBulk_ok (h : (t.seedCardsBulk wt records).2 = true) :
    (t.seedCardsBulk wt records).1
      = (records.filter fun r ↦ decide (Go.trimSpace r.cardId ≠ "")).foldl insert t := by
  rw [seedCardsBulk] at h ⊢
  split_ifs at h ⊢ with hnone
  · rw [List.length_eq_zero_iff.mp hnone]
    rfl
  · rw [seedChunks_ok h, List.flatten_blocks (by decide)]

theorem seedEach_ok (h : (t.seedEach wt records).2 = true) :
    (t.seedEach wt records).1
      = (records.filter fun r ↦ decide (r.cardId ≠ "")).foldl insert t :=
  insertRows_ok h

theorem ids_insert (t : CardTable) (r : Record) : (t.insert r).ids = t.ids.addNew r.cardId := by
  rw [insert, List.addNew]
  by_cases h : r.cardId ∈ t.ids
  · rw [if_pos h]
    exact congrArg ids (dif_pos h)
  · rw [if_neg h]
    refine (congrArg ids (dif_neg h)).trans ?_
    rw [ids, List.map_append, List.map_singleton, ids]

theorem ids_foldl_insert (records : List Record) (t : CardTable) :
    (records.foldl insert t).ids = (records.map Record.cardId).foldl List.addNew t.ids := by
  induction records generalizing t with
  | nil => rfl
  | cons r records ih => rw [List.foldl_cons, ih, ids_insert, List.map_cons, List.foldl_cons]

/-! ## What seeding is for -/

/-- The rows that were there stay, and the first record of each new card ID is added. -/
def Seeded (t : CardTable) (records : List Record) (t' : CardTable) : Prop :=
  ∃ new, t'.rows = t.rows ++ new ∧ ∀ r, r ∈ new ↔
    r.cardId ≠ "" ∧ r.cardId ∉ t.ids ∧ records.find? (fun r' ↦ r'.cardId = r.cardId) = some r

theorem rows_foldl_insert (records : List Record) (t : CardTable) :
    ∃ new, (records.foldl insert t).rows = t.rows ++ new ∧ ∀ r, r ∈ new ↔
      r.cardId ∉ t.ids ∧ records.find? (fun r' ↦ r'.cardId = r.cardId) = some r := by
  -- a record counts if it is the first with its card ID in the list, which may be the head
  induction records generalizing t with
  | nil => exact ⟨[], by simp⟩
  | cons a records ih =>
    obtain ⟨new, hrows, hnew⟩ := ih (t.insert a)
    by_cases ha : a.cardId ∈ t.ids
    · have hsame : t.insert a = t := dif_pos ha
      rw [hsame] at hrows hnew
      refine ⟨new, by rw [List.foldl_cons, hsame, hrows], fun r ↦ ?_⟩
      rw [hnew]
      refine and_congr_right fun hr ↦ ?_
      have hne : a.cardId ≠ r.cardId := fun heq ↦ hr (heq ▸ ha)
      rw [List.find?_cons_of_neg (by simpa using hne)]
    · have hadded : (t.insert a).rows = t.rows ++ [a] := congrArg rows (dif_neg ha)
      refine ⟨a :: new, by rw [List.foldl_cons, hrows, hadded, List.append_assoc]; rfl,
        fun r ↦ ?_⟩
      rw [List.mem_cons, hnew, ids_insert, List.mem_addNew, not_or]
      by_cases heq : a.cardId = r.cardId
      · rw [List.find?_cons_of_pos (by simpa using heq), Option.some.injEq]
        constructor
        · rintro (rfl | ⟨⟨-, hne⟩, -⟩)
          · exact ⟨ha, rfl⟩
          · exact absurd heq.symm hne
        · rintro ⟨-, rfl⟩
          exact Or.inl rfl
      · rw [List.find?_cons_of_neg (by simpa using heq)]
        constructor
        · rintro (rfl | ⟨⟨hr, -⟩, hfind⟩)
          · exact absurd rfl heq
          · exact ⟨hr, hfind⟩
        · rintro ⟨hr, hfind⟩
          exact Or.inr ⟨⟨hr, Ne.symm heq⟩, hfind⟩

/-- Inserting all records that have a card ID does what seeding is for. -/
theorem foldl_insert_seeded (t : CardTable) (records : List Record) :
    Seeded t records ((records.filter fun r ↦ decide (r.cardId ≠ "")).foldl insert t) := by
  obtain ⟨new, hrows, hnew⟩ := rows_foldl_insert
    (records.filter fun r ↦ decide (r.cardId ≠ "")) t
  refine ⟨new, hrows, fun r ↦ ?_⟩
  rw [hnew, and_left_comm, List.find?_filter]
  simp only [decide_eq_true_eq]
  refine and_congr_right fun _ ↦ ?_
  by_cases hempty : r.cardId = ""
  · have hnone : records.find? (fun r' ↦ decide (r'.cardId ≠ "" ∧ r'.cardId = r.cardId)) = none :=
      List.find?_eq_none.mpr fun r' _ ↦ by simp [hempty]
    rw [hnone]
    simp [hempty]
  · have hsame : (fun r' : Record ↦ decide (r'.cardId ≠ "" ∧ r'.cardId = r.cardId))
        = fun r' ↦ decide (r'.cardId = r.cardId) := by
      funext r'
      refine decide_eq_decide.mpr (and_iff_right_of_imp fun hr' ↦ ?_)
      rwa [hr']
    rw [hsame, and_iff_right hempty]

/-- Blank card IDs that are there already can be skipped. -/
theorem foldl_insert_filter
    (h : ∀ r ∈ records, r.cardId ≠ "" → Go.trimSpace r.cardId = "" → r.cardId ∈ t.ids) :
    (records.filter fun r ↦ decide (Go.trimSpace r.cardId ≠ "")).foldl insert t
      = (records.filter fun r ↦ decide (r.cardId ≠ "")).foldl insert t := by
  induction records generalizing t with
  | nil => rfl
  | cons r records ih =>
    obtain ⟨hr, hrecords⟩ := List.forall_mem_cons.mp h
    simp only [List.filter_cons, decide_eq_true_eq]
    by_cases hempty : r.cardId = ""
    · have htrim : Go.trimSpace r.cardId = "" := by
        rw [hempty]
        decide
      rw [if_neg (not_not.mpr htrim), if_neg (not_not.mpr hempty)]
      exact ih hrecords
    rw [if_pos hempty]
    by_cases htrim : Go.trimSpace r.cardId = ""
    · -- only the loop over the records tries to insert this one, and there is a conflict
      have hsame : t.insert r = t := dif_pos (hr hempty htrim)
      rw [if_neg (not_not.mpr htrim), List.foldl_cons, hsame]
      exact ih hrecords
    · rw [if_pos htrim, List.foldl_cons, List.foldl_cons]
      refine ih fun r' hr' hne hblank ↦ ?_
      rw [ids_insert]
      exact List.mem_addNew.mpr (Or.inl (hrecords r' hr' hne hblank))

/-- **When bulk and row by row seeding agree.** For every table and every list of records, when no
statement fails, the loop over the records keeps the rows and adds the first record of each new card
ID, and the bulk statements lead to the same table if and only if every card ID that is blank but
not empty has a row already. -/
theorem seedCardsBulk_agrees_iff (t : CardTable) (records : List Record) (wt wt' : Weather)
    (hok : (t.seedCardsBulk wt records).2 = true) (hok' : (t.seedEach wt' records).2 = true) :
    Seeded t records (t.seedEach wt' records).1
      ∧ ((t.seedCardsBulk wt records).1 = (t.seedEach wt' records).1
        ↔ ∀ r ∈ records, r.cardId ≠ "" → Go.trimSpace r.cardId = "" → r.cardId ∈ t.ids) := by
  refine ⟨?_, fun heq r hr hne htrim ↦ ?_, fun h ↦ ?_⟩
  · rw [seedEach_ok hok']
    exact foldl_insert_seeded t records
  · have hmem : r.cardId ∈ (t.seedEach wt' records).1.ids := by
      rw [seedEach_ok hok', ids_foldl_insert, List.mem_foldl_addNew]
      exact Or.inr (List.mem_map_of_mem (List.mem_filter.mpr ⟨hr, decide_eq_true hne⟩))
    rw [← heq, seedCardsBulk_ok hok, ids_foldl_insert, List.mem_foldl_addNew] at hmem
    refine hmem.resolve_right fun hfiltered ↦ ?_
    obtain ⟨r', hr', hsame⟩ := List.mem_map.mp hfiltered
    have hkept := of_decide_eq_true (List.mem_filter.mp hr').2
    rw [hsame] at hkept
    exact hkept htrim
  · rw [seedCardsBulk_ok hok, seedEach_ok hok', foldl_insert_filter h]

/-- `Seed` takes the bulk statements for more than 100 records only. -/
theorem seed_seeded (h : (t.seed wt records).2 = true)
    (hblank : 100 < records.length →
      ∀ r ∈ records, r.cardId ≠ "" → Go.trimSpace r.cardId = "" → r.cardId ∈ t.ids) :
    Seeded t records (t.seed wt records).1 := by
  rw [seed] at h ⊢
  split_ifs at h ⊢ with hnone hmany
  · rw [List.length_eq_zero_iff.mp hnone]
    exact ⟨[], by simp⟩
  · rw [seedCardsBulk_ok h, foldl_insert_filter (hblank hmany)]
    exact foldl_insert_seeded t records
  · rw [seedEach_ok h]
    exact foldl_insert_seeded t records

def oneCard (cardId : String) : CardTable where
  rows := [⟨cardId, true, false, 500⟩]
  nodup_ids := List.nodup_singleton _

/-- Records with a repeated card ID, an empty one and a blank one. -/
def oddRecords : List Record :=
  [⟨"c1", true, false, 100⟩, ⟨"", true, false, 200⟩, ⟨"c1", false, true, 300⟩,
    ⟨" ", true, false, 400⟩]

/-- With a row for the blank card ID the tables are the same. -/
theorem oddRecords_agree :
    ((oneCard " ").seedCardsBulk .calm oddRecords).1
      = ((oneCard " ").seedEach .calm oddRecords).1 :=
  (seedCardsBulk_agrees_iff (oneCard " ") oddRecords .calm .calm (by decide +kernel)
    (by decide +kernel)).2.mpr (by decide +kernel)

/-- Without one, the loop over the records inserts it, and the bulk statement does not. -/
theorem oddRecords_differ :
    ((oneCard "c0").seedCardsBulk .calm oddRecords).1.ids = ["c0", "c1"]
      ∧ ((oneCard "c0").seedEach .calm oddRecords).1.ids = ["c0", "c1", " "] := by
  decide +kernel

end CardTable

end CardDb

end TaskDiscovery
