import Mathlib.Data.List.Dedup
import TaskDiscovery.Lib.Rows
import TaskDiscovery.Store.Postgres

/-!
# The tables of the PCTR back office

`pctr.go` keeps the taps of token-based cards, the fares between stations, and the debts that follow
from pairs of taps. A statement is a function on the tables, and Postgres executes it atomically.
Journey construction runs one database transaction for each token, with the taps of the token
locked, so that a committed transaction is a function on the tables as well (`constructToken`), and
one that fails changes nothing.

Amounts are exact integers here. `BIGINT` sums leave the range of an `int64` only in
`GetUnreportedDebts`, where scanning such a sum is an error.

`GetUnreportedDebts` returns one sum for each token. Beside it stand the rows the sum was taken
over, as `charges`; the code does not have them, but what becomes of a row cannot be said without
them. Every row is in one of the sums (`charges_owedByToken`).
-/

namespace TaskDiscovery

namespace CardDb

/-- What the tables of taps say about a tap. The `holder` is the card, or the token. -/
structure TapRow where
  transactionId : String
  holder : String
  station : String
  tapTime : Time
  deriving DecidableEq

/-- `PCTRTransaction`, as far as it is read. The zero time is `none`. -/
structure PctrTransaction where
  transactionId : String
  token : String
  gateId : String
  stationId : String
  tapTime : Option Time

/-- A transaction that is inserted: nothing is blank, and the time is not zero. -/
def PctrTransaction.complete (tx : PctrTransaction) : Bool :=
  decide (tx.transactionId ≠ "" ∧ tx.token ≠ "" ∧ tx.gateId ≠ "" ∧ tx.stationId ≠ "")
    && tx.tapTime.isSome

/-- The row of a transaction that is inserted. -/
def PctrTransaction.row (tx : PctrTransaction) : Option TapRow :=
  if tx.complete then
    tx.tapTime.map fun tapTime ↦ ⟨tx.transactionId, tx.token, tx.stationId, tapTime⟩
  else none

/-- A row of `pctr_transactions`. -/
structure PctrTap where
  transactionId : String
  token : String
  station : String
  tapTime : Time
  processed : Bool := false
  journeyCost : Option Int := none
  errorReason : Option String := none

def PctrTap.row (tap : PctrTap) : TapRow :=
  ⟨tap.transactionId, tap.token, tap.station, tap.tapTime⟩

/-- A row of `station_costs`. -/
structure StationCost where
  fromStation : String
  toStation : String
  cost : Int

/-- `getStationCostCentsTx`: a fare holds in both directions. -/
def getStationCostCentsTx (stationCosts : List StationCost) (a b : String) : Option Int :=
  (stationCosts.find? fun c ↦
    (c.fromStation = a ∧ c.toStation = b) ∨ (c.fromStation = b ∧ c.toStation = a)).map
      StationCost.cost

/-- A row of `pctr_debts`. -/
structure PctrDebt where
  id : ℕ
  token : String
  amount : Int
  reported : Bool
  deriving DecidableEq

/-- What a debt asks for: its row and its amount. -/
abbrev Charge := ℕ × Int

def PctrDebt.charge (d : PctrDebt) : Charge := (d.id, d.amount)

/-- `PCTROwed`, with the debts it sums up. -/
structure PctrOwed where
  token : String
  amount : Int
  charges : List Charge
  deriving DecidableEq

/-- The database of the PCTR back office. -/
structure PctrStore where
  transactions : List PctrTap
  stationCosts : List StationCost
  debts : List PctrDebt
  nextId : ℕ
  collation : Collation

/-- A sum that can be scanned into an `int64`. -/
def fitsInt64 (n : Int) : Bool := decide (-2 ^ 63 ≤ n ∧ n < 2 ^ 63)

/-- How a statement ends. The rows of a query may break off after some of them. -/
inductive Outcome
  | done
  | failed
  | cut (n : ℕ)
  deriving DecidableEq

namespace Outcome

/-- What a caller is told that looks at `rows.Err`. -/
def ok : Outcome → Bool
  | .done => true
  | .failed | .cut _ => false

theorem ok_iff {o : Outcome} : o.ok = true ↔ o = .done := by
  cases o <;> simp [ok]

/-- The rows of a caller that does not look at `rows.Err`. -/
def read {α : Type} (rows : List α) : Outcome → Option (List α)
  | .done => some rows
  | .failed => none
  | .cut n => some (rows.take n)

/-- Such a caller has not missed any of so many rows. -/
def whole (total : ℕ) : Outcome → Bool
  | .done | .failed => true
  | .cut n => decide (total ≤ n)

theorem read_eq_of_whole {α : Type} {o : Outcome} {rows rows' : List α}
    (h : o.whole rows.length = true) (hread : o.read rows = some rows') : rows' = rows := by
  cases o with
  | done => exact (Option.some.inj hread).symm
  | failed => simp [read] at hread
  | cut n =>
    rw [← Option.some.inj hread]
    exact List.take_of_length_le (of_decide_eq_true h)

end Outcome

/-- How the statements and commits of a call end. -/
structure Weather where
  outcome : ℕ → Outcome
  /-- A commit that is reported as failed has taken effect. -/
  landed : ℕ → Bool

/-- Nothing fails. -/
def Weather.calm : Weather where
  outcome _ := .done
  landed _ := false

/-! ## Inserting rows -/

section InsertRows

variable {σ τ : Type} (complete : τ → Bool) (insert : σ → τ → σ)

/-- The loop of `InsertCSTransactions` and `InsertPCTRTransactions`, and whether there was no error.
The rows before an error stay, since each is a statement of its own; `n` is the number of the next
statement. -/
def insertRows (wt : Weather) : ℕ → List τ → σ → σ × Bool
  | _, [], s => (s, true)
  | n, tx :: txs, s =>
    if !complete tx then insertRows wt n txs s
    else if (wt.outcome n).ok then insertRows wt (n + 1) txs (insert s tx)
    else (if wt.landed n then insert s tx else s, false)

variable {complete insert}

/-- Some of the rows are inserted, and all of them when there is no error. -/
theorem insertRows_eq (hskip : ∀ s tx, complete tx = false → insert s tx = s) (wt : Weather) (n : ℕ)
    (txs : List τ) (s : σ) :
    ∃ done, done <+: txs ∧ (insertRows complete insert wt n txs s).1 = done.foldl insert s
      ∧ ((insertRows complete insert wt n txs s).2 = true → done = txs) := by
  fun_induction insertRows complete insert wt n txs s with
  | case1 n s => exact ⟨[], List.nil_prefix, rfl, fun _ ↦ rfl⟩
  | case2 n tx txs s hincomplete ih =>
    obtain ⟨done, hprefix, hstore, hall⟩ := ih
    refine ⟨tx :: done, (List.prefix_cons_inj tx).mpr hprefix, ?_, fun h ↦ by rw [hall h]⟩
    rw [hstore, List.foldl_cons, hskip s tx (by simpa using hincomplete)]
  | case3 n tx txs s hcomplete hok ih =>
    obtain ⟨done, hprefix, hstore, hall⟩ := ih
    exact ⟨tx :: done, (List.prefix_cons_inj tx).mpr hprefix, hstore, fun h ↦ by rw [hall h]⟩
  | case4 n tx txs s hcomplete hfail =>
    split_ifs
    · exact ⟨[tx], by simp, rfl, by simp⟩
    · exact ⟨[], List.nil_prefix, rfl, by simp⟩

theorem insertRows_ok {wt : Weather} {n : ℕ} {txs : List τ} {s : σ}
    (h : (insertRows complete insert wt n txs s).2 = true) :
    (insertRows complete insert wt n txs s).1 = (txs.filter complete).foldl insert s := by
  fun_induction insertRows complete insert wt n txs s with
  | case1 n s => rfl
  | case2 n tx txs s hincomplete ih =>
    rw [ih h, List.filter_cons_of_neg (by simpa using hincomplete)]
  | case3 n tx txs s hcomplete hok ih =>
    rw [ih h, List.filter_cons_of_pos (by simpa using hcomplete), List.foldl_cons]
  | case4 n tx txs s hcomplete hfail => cases h

theorem insertRows_calm (n : ℕ) (hskip : ∀ s tx, complete tx = false → insert s tx = s)
    (txs : List τ) (s : σ) :
    insertRows complete insert .calm n txs s = (txs.foldl insert s, true) := by
  fun_induction insertRows complete insert .calm n txs s with
  | case1 n s => rfl
  | case2 n tx txs s hincomplete ih =>
    rw [ih, List.foldl_cons, hskip s tx (by simpa using hincomplete)]
  | case3 n tx txs s hcomplete hok ih => rw [ih, List.foldl_cons]
  | case4 n tx txs s hcomplete hfail => exact absurd rfl hfail

theorem rows_foldl_insert {rows : σ → List TapRow} {row : τ → Option TapRow}
    (hinsert : ∀ s tx, rows (insert s tx)
      = (row tx).elim (rows s) ((rows s).addNewBy TapRow.transactionId))
    (txs : List τ) (s : σ) :
    rows (txs.foldl insert s)
      = (txs.filterMap row).foldl (List.addNewBy TapRow.transactionId) (rows s) := by
  induction txs generalizing s with
  | nil => rfl
  | cons tx txs ih =>
    rw [List.foldl_cons, ih, hinsert, List.filterMap_cons]
    cases row tx <;> rfl

end InsertRows

namespace PctrStore

variable (s : PctrStore)

/-! ## Taps -/

/-- One row of `InsertPCTRTransactions`. Incomplete transactions are passed over, and so are those
with an id that is there already. -/
def insertTransaction (tx : PctrTransaction) : PctrStore :=
  match tx.tapTime with
  | none => s
  | some tapTime =>
    if tx.transactionId = "" ∨ tx.token = "" ∨ tx.gateId = "" ∨ tx.stationId = "" then s
    else if tx.transactionId ∈ s.transactions.map PctrTap.transactionId then s
    else
      let tap : PctrTap :=
        { transactionId := tx.transactionId, token := tx.token, station := tx.stationId,
          tapTime := tapTime }
      { s with transactions := s.transactions ++ [tap] }

/-- `InsertPCTRTransactions`. -/
def insertTransactions (wt : Weather) (txs : List PctrTransaction) : PctrStore × Bool :=
  insertRows PctrTransaction.complete insertTransaction wt 0 txs s

def unprocessedTaps (token : String) : List PctrTap :=
  (s.transactions.filter fun tap ↦ tap.token = token && !tap.processed).insertionSort
    fun a b ↦ a.tapTime ≤ b.tapTime

/-- The tokens with at least two unprocessed taps. -/
def tokensToConstruct : List String :=
  (((s.transactions.filter fun tap ↦ !tap.processed).map PctrTap.token).dedup.filter fun token ↦
    2 ≤ (s.transactions.filter fun tap ↦ tap.token = token && !tap.processed).length).insertionSort
      fun a b ↦ s.collation.le a b = true

def getStationCostCents (a b : String) : Option Int := getStationCostCentsTx s.stationCosts a b

def markProcessed (id id' : String) (cost : Int) (reason : Option String) : PctrStore :=
  { s with
    transactions := s.transactions.map fun tap ↦
      if tap.transactionId = id ∨ tap.transactionId = id' then
        { tap with processed := true, journeyCost := some cost, errorReason := reason }
      else tap }

def insertDebt (token : String) (amount : Int) : PctrStore :=
  { s with
    debts := s.debts ++ [{ id := s.nextId, token := token, amount := amount, reported := false }]
    nextId := s.nextId + 1 }

/-- The loop over the pairs of taps, with the number of journeys. -/
def journeyPairs (token : String) : List PctrTap → PctrStore → PctrStore × ℕ
  | from' :: to' :: taps, s =>
    match s.getStationCostCents from'.station to'.station with
    | none =>
      journeyPairs token taps
        (s.markProcessed from'.transactionId to'.transactionId 0 (some "missing cost"))
    | some cost =>
      let (s, journeys) := journeyPairs token taps
        ((s.insertDebt token cost).markProcessed from'.transactionId to'.transactionId cost none)
      (s, journeys + 1)
  | _, s => (s, 0)

/-- The committed transaction of one token in `RunPCTRJourneyConstruction`. -/
def constructToken (token : String) : PctrStore × ℕ :=
  let taps := s.unprocessedTaps token
  if taps.length < 2 then (s, 0) else journeyPairs token taps s

/-! ## Debts -/

/-- The rows with `reported = FALSE`. -/
def unreported : List PctrDebt := s.debts.filter fun d ↦ !d.reported

/-- The rows with `reported = TRUE`. -/
def reportedDebts : List PctrDebt := s.debts.filter PctrDebt.reported

/-- The sum query of `GetUnreportedDebts`. -/
def owedByToken : List PctrOwed :=
  ((s.unreported.map PctrDebt.token).dedup.insertionSort fun a b ↦ s.collation.le a b = true).map
    fun token ↦
      let rows := s.unreported.filter fun d ↦ d.token = token
      { token := token, amount := (rows.map PctrDebt.amount).sum,
        charges := rows.map PctrDebt.charge }

/-- The sum query and the scan of its rows, which fails on a sum that is no `int64`. -/
def queryOwed : Option (List PctrOwed) :=
  if s.owedByToken.all fun o ↦ fitsInt64 o.amount then some s.owedByToken else none

/-- The id query of `GetUnreportedDebts`. -/
def unreportedIds : List ℕ := s.unreported.map PctrDebt.id

/-- The update of `MarkDebtsReported`. It is issued when there is an id to mark, and marks all
rows. -/
def markDebtsReported (ids : List ℕ) : PctrStore :=
  if ids = [] then s
  else { s with debts := s.debts.map fun d ↦ { d with reported := true } }

/-! ## What the statements do to the debts -/

variable {s}

/-- Ids are given out once. -/
abbrev Numbered (s : PctrStore) : Prop := Serial (s.debts.map PctrDebt.id) s.nextId

/-- Tables that differ in their taps only, and in debts that were added for a token. -/
structure Extends (token : String) (s s' : PctrStore) : Prop where
  debts : ∃ added : List PctrDebt, s'.debts = s.debts ++ added
    ∧ ∀ d ∈ added, d.token = token ∧ d.reported = false
  numbered : s.Numbered → s'.Numbered
  tokens : s'.transactions.map PctrTap.token = s.transactions.map PctrTap.token

theorem Extends.refl (token : String) (s : PctrStore) : Extends token s s :=
  ⟨⟨[], by simp⟩, id, rfl⟩

theorem Extends.trans {token : String} {s₁ s₂ s₃ : PctrStore} (h : Extends token s₁ s₂)
    (h' : Extends token s₂ s₃) : Extends token s₁ s₃ := by
  obtain ⟨added, hdebts, hadded⟩ := h.debts
  obtain ⟨added', hdebts', hadded'⟩ := h'.debts
  refine ⟨⟨added ++ added', by rw [hdebts', hdebts, List.append_assoc], fun d hd ↦ ?_⟩,
    h'.numbered ∘ h.numbered, h'.tokens.trans h.tokens⟩
  exact (List.mem_append.mp hd).elim (hadded d) (hadded' d)

theorem Extends.markProcessed (token id id' : String) (cost : Int) (reason : Option String) :
    Extends token s (s.markProcessed id id' cost reason) := by
  refine ⟨⟨[], by simp [PctrStore.markProcessed]⟩, fun h ↦ h, ?_⟩
  simp only [PctrStore.markProcessed, List.map_map]
  refine List.map_congr_left fun tap _ ↦ ?_
  simp only [Function.comp_apply]
  split_ifs <;> rfl

theorem Extends.insertDebt (token : String) (amount : Int) :
    Extends token s (s.insertDebt token amount) := by
  refine ⟨⟨_, rfl, by simp⟩, fun h ↦ ?_, rfl⟩
  rw [Numbered, PctrStore.insertDebt, List.map_append, List.map_singleton]
  exact h.append

theorem Extends.journeyPairs (token : String) (taps : List PctrTap) (s : PctrStore) :
    Extends token s (journeyPairs token taps s).1 := by
  fun_induction PctrStore.journeyPairs token taps s with
  | case1 s from' to' taps hcost ih => exact (Extends.markProcessed ..).trans ih
  | case2 s from' to' taps cost hcost s' journeys hrest ih =>
    rw [hrest] at ih
    exact ((Extends.insertDebt token cost).trans (Extends.markProcessed ..)).trans ih
  | case3 taps s hshort => exact Extends.refl token s

/-- **Journey construction only adds debts of its token.** -/
theorem Extends.constructToken (s : PctrStore) (token : String) :
    Extends token s (s.constructToken token).1 := by
  simp only [PctrStore.constructToken]
  split_ifs
  · exact Extends.refl token s
  · exact Extends.journeyPairs token _ s

/-! ## The rows of the taps -/

def rows (s : PctrStore) : List TapRow := s.transactions.map PctrTap.row

def ids (s : PctrStore) : List String := s.transactions.map PctrTap.transactionId

theorem map_transactionId_rows (s : PctrStore) : s.rows.map TapRow.transactionId = s.ids := by
  rw [rows, List.map_map]
  rfl

theorem rows_insertTransaction (s : PctrStore) (tx : PctrTransaction) :
    (s.insertTransaction tx).rows
      = tx.row.elim s.rows (s.rows.addNewBy TapRow.transactionId) := by
  rw [insertTransaction, PctrTransaction.row, PctrTransaction.complete]
  cases htime : tx.tapTime with
  | none => simp
  | some tapTime =>
    simp only [Option.isSome_some, Bool.and_true, decide_eq_true_eq]
    by_cases hblank : tx.transactionId = "" ∨ tx.token = "" ∨ tx.gateId = "" ∨ tx.stationId = ""
    · rw [if_pos hblank, if_neg (by tauto), Option.elim_none]
    · have hcomplete : tx.transactionId ≠ "" ∧ tx.token ≠ "" ∧ tx.gateId ≠ ""
          ∧ tx.stationId ≠ "" := by
        tauto
      rw [if_neg hblank, if_pos hcomplete, Option.map_some, Option.elim_some, List.addNewBy,
        map_transactionId_rows]
      by_cases hid : tx.transactionId ∈ s.ids
      · rw [if_pos hid]
        exact congrArg rows (if_pos hid)
      · rw [if_neg hid]
        refine (congrArg rows (if_neg hid)).trans ?_
        rw [rows, List.map_append, List.map_singleton, rows]
        rfl

theorem ids_foldl_insertTransaction (txs : List PctrTransaction) (s : PctrStore) :
    (txs.foldl insertTransaction s).ids
      = ((txs.filterMap PctrTransaction.row).map TapRow.transactionId).foldl List.addNew s.ids := by
  rw [← map_transactionId_rows, rows_foldl_insert rows_insertTransaction, List.map_foldl_addNewBy,
    map_transactionId_rows]

theorem insertTransaction_of_not_complete {tx : PctrTransaction} (h : tx.complete = false) :
    s.insertTransaction tx = s := by
  rw [insertTransaction]
  cases htime : tx.tapTime with
  | none => rfl
  | some tapTime =>
    rw [PctrTransaction.complete, htime] at h
    simp only [Option.isSome_some, Bool.and_true, decide_eq_false_iff_not] at h
    exact if_pos (by tauto)

/-! ## What the sums contain -/

/-- **Every outstanding debt is in one of the sums.** -/
theorem charges_owedByToken (s : PctrStore) :
    (s.owedByToken.flatMap PctrOwed.charges).Perm (s.unreported.map PctrDebt.charge) := by
  have hperm := List.perm_insertionSort (fun a b ↦ s.collation.le a b = true)
    (s.unreported.map PctrDebt.token).dedup
  have hgroups := List.flatMap_filter_perm PctrDebt.token (l := s.unreported)
    (hperm.nodup_iff.mpr (List.nodup_dedup _))
    fun d hd ↦ hperm.mem_iff.mpr (List.mem_dedup.mpr (List.mem_map_of_mem hd))
  rw [owedByToken, List.flatMap_map]
  refine List.Perm.trans (List.Perm.of_eq ?_) (hgroups.map PctrDebt.charge)
  rw [List.map_flatMap]

theorem amount_of_mem_owedByToken {o : PctrOwed} (h : o ∈ s.owedByToken) :
    o.amount = (o.charges.map Prod.snd).sum := by
  obtain ⟨token, -, rfl⟩ := List.mem_map.mp h
  simp only [List.map_map]
  rfl

theorem token_of_mem_owedByToken {o : PctrOwed} (h : o ∈ s.owedByToken) :
    ∃ d ∈ s.debts, d.token = o.token := by
  obtain ⟨token, htoken, rfl⟩ := List.mem_map.mp h
  rw [List.mem_insertionSort, List.mem_dedup] at htoken
  obtain ⟨d, hd, rfl⟩ := List.mem_map.mp htoken
  exact ⟨d, (List.mem_filter.mp hd).1, rfl⟩

theorem owedByToken_eq_nil_iff : s.owedByToken = [] ↔ s.unreported = [] := by
  rw [owedByToken, List.map_eq_nil_iff, ← List.length_eq_zero_iff, List.length_insertionSort,
    List.length_eq_zero_iff, List.dedup_eq_nil, List.map_eq_nil_iff]

theorem queryOwed_eq_some {owed : List PctrOwed} (h : s.queryOwed = some owed) :
    owed = s.owedByToken := by
  rw [queryOwed] at h
  split_ifs at h
  exact (Option.some.inj h).symm

theorem reportedDebts_append_unreported (s : PctrStore) :
    (s.reportedDebts ++ s.unreported).Perm s.debts :=
  List.filter_append_perm PctrDebt.reported s.debts

theorem reportedDebts_markDebtsReported {ids : List ℕ} (hids : ids ≠ []) :
    (s.markDebtsReported ids).reportedDebts.map PctrDebt.charge = s.debts.map PctrDebt.charge := by
  rw [markDebtsReported, if_neg hids, reportedDebts]
  simp only
  rw [List.filter_eq_self.mpr (by simp), List.map_map]
  rfl

theorem numbered_markDebtsReported (h : s.Numbered) (ids : List ℕ) :
    (s.markDebtsReported ids).Numbered := by
  rw [markDebtsReported]
  split_ifs
  · exact h
  · rw [Numbered, List.map_map]
    exact h

theorem Extends.reportedDebts {token : String} {s' : PctrStore} (h : Extends token s s') :
    s'.reportedDebts = s.reportedDebts := by
  obtain ⟨added, hdebts, hadded⟩ := h.debts
  have hnone : added.filter PctrDebt.reported = [] :=
    List.filter_eq_nil_iff.mpr fun d hd ↦ by simp [(hadded d hd).2]
  rw [PctrStore.reportedDebts, hdebts, List.filter_append, hnone, List.append_nil]
  rfl

end PctrStore

end CardDb

end TaskDiscovery
