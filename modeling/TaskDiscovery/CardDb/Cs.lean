import TaskDiscovery.CardDb.Pctr

/-!
# The tables of the card service

`cs.go` keeps the taps of prepaid cards beside their balances. `RunJourneyConstruction` takes the
cards with at least two unprocessed taps one after the other. In one transaction for each of them it
pairs the taps by their times, debits the balance by the fare of each pair and marks both taps.

Any statement can fail, and any commit. `Weather` says how the statements of a call end, by their
number, and whether a commit that is reported as failed has taken effect. A statement that fails
inside a transaction ends the call, and the transaction with it. What the call leaves behind is
therefore, for every card, the state before its transaction or the state after it.
-/

namespace TaskDiscovery

namespace CardDb

/-- `CSTransaction`, as far as it is read. The zero time is `none`. -/
structure CsTransaction where
  transactionId : String
  cardId : String
  gateId : String
  stationId : String
  tapTime : Option Time

/-- A transaction that is inserted: nothing is blank, and the time is not zero. -/
def CsTransaction.complete (tx : CsTransaction) : Bool :=
  decide (tx.transactionId ≠ "" ∧ tx.cardId ≠ "" ∧ tx.gateId ≠ "" ∧ tx.stationId ≠ "")
    && tx.tapTime.isSome

/-- The row of a transaction that is inserted. -/
def CsTransaction.row (tx : CsTransaction) : Option TapRow :=
  if tx.complete then
    tx.tapTime.map fun tapTime ↦ ⟨tx.transactionId, tx.cardId, tx.stationId, tapTime⟩
  else none

/-- A row of `transactions`. -/
structure CsTap where
  transactionId : String
  cardId : String
  station : String
  tapTime : Time
  processed : Bool := false
  journeyCost : Option Int := none
  errorReason : Option String := none
  deriving DecidableEq

def CsTap.row (tap : CsTap) : TapRow :=
  ⟨tap.transactionId, tap.cardId, tap.station, tap.tapTime⟩

/-- What an update of a processed tap sets. -/
def CsTap.charge (cost : Int) (reason : Option String) (tap : CsTap) : CsTap :=
  { tap with processed := true, journeyCost := some cost, errorReason := reason }

/-- The database of the card service. Transactions have different ids. -/
structure CsStore where
  cards : AList fun _ : String ↦ Int
  transactions : List CsTap
  nodup_ids : (transactions.map CsTap.transactionId).Nodup
  stationCosts : List StationCost
  collation : Collation

namespace CsStore

variable (s : CsStore)

/-! ## Taps -/

/-- One row of `InsertCSTransactions`. Incomplete transactions are passed over, and so are those
with an id that is there already. -/
def insertTransaction (tx : CsTransaction) : CsStore :=
  match tx.tapTime with
  | none => s
  | some tapTime =>
    if tx.transactionId = "" ∨ tx.cardId = "" ∨ tx.gateId = "" ∨ tx.stationId = "" then s
    else if hid : tx.transactionId ∈ s.transactions.map CsTap.transactionId then s
    else
      let tap : CsTap :=
        { transactionId := tx.transactionId, cardId := tx.cardId, station := tx.stationId,
          tapTime := tapTime }
      { s with
        transactions := s.transactions ++ [tap]
        nodup_ids := by
          rw [List.map_append]
          exact s.nodup_ids.append (List.nodup_singleton _) (by simpa using hid) }

/-- `InsertCSTransactions`. -/
def insertTransactions (wt : Weather) (txs : List CsTransaction) : CsStore × Bool :=
  insertRows CsTransaction.complete insertTransaction wt 0 txs s

def unprocessedTaps (cardId : String) : List CsTap :=
  (s.transactions.filter fun tap ↦ tap.cardId = cardId && !tap.processed).insertionSort
    fun a b ↦ a.tapTime ≤ b.tapTime

/-- The cards with at least two unprocessed taps. -/
def cardsToConstruct : List String :=
  (((s.transactions.filter fun tap ↦ !tap.processed).map CsTap.cardId).dedup.filter fun cardId ↦
    2 ≤ (s.transactions.filter fun tap ↦
      tap.cardId = cardId && !tap.processed).length).insertionSort
        fun a b ↦ s.collation.le a b = true

def getStationCostCents (a b : String) : Option Int := getStationCostCentsTx s.stationCosts a b

def markProcessed (id id' : String) (cost : Int) (reason : Option String) : CsStore :=
  { s with
    transactions := s.transactions.map fun tap ↦
      if tap.transactionId = id ∨ tap.transactionId = id' then tap.charge cost reason else tap
    nodup_ids := by
      have hids : (CsTap.transactionId ∘ fun tap ↦
          if tap.transactionId = id ∨ tap.transactionId = id' then tap.charge cost reason else tap)
          = CsTap.transactionId := by
        funext tap
        simp only [Function.comp_apply]
        split_ifs <;> rfl
      rw [List.map_map, hids]
      exact s.nodup_ids }

/-- Debit a card. A balance that is no `BIGINT` is an error. -/
def debit (cardId : String) (cost : Int) : Option CsStore :=
  match s.cards.lookup cardId with
  | none => some s
  | some balance =>
    if fitsInt64 (balance - cost) then
      some { s with cards := s.cards.insert cardId (balance - cost) }
    else none

/-! ## `RunJourneyConstruction` -/

/-- What the loops carry: the tables, the number of journeys and that of statements. -/
structure Progress where
  store : CsStore
  journeys : ℕ
  statements : ℕ

variable (wt : Weather)

/-- The loop over the pairs of taps, inside a transaction. When a statement fails it returns the
number of journeys, which counts those that are rolled back. -/
def journeyPairs (cardId : String) : List CsTap → Progress → Except ℕ Progress
  | from' :: to' :: taps, p =>
    if (wt.outcome p.statements).ok then
      match p.store.getStationCostCents from'.station to'.station with
      | none =>
        if (wt.outcome (p.statements + 1)).ok then
          journeyPairs cardId taps
            { store := p.store.markProcessed from'.transactionId to'.transactionId 0
                (some "missing cost"),
              journeys := p.journeys, statements := p.statements + 2 }
        else .error p.journeys
      | some cost =>
        match p.store.debit cardId cost with
        | none => .error p.journeys
        | some store =>
          if (wt.outcome (p.statements + 1)).ok ∧ (wt.outcome (p.statements + 2)).ok then
            journeyPairs cardId taps
              { store := store.markProcessed from'.transactionId to'.transactionId cost none,
                journeys := p.journeys + 1, statements := p.statements + 3 }
          else .error p.journeys
    else .error p.journeys
  | _, p => .ok p

/-- The transaction of one card: what the next one starts from, or what an error leaves behind. -/
def constructCard (cardId : String) (p : Progress) : Except (CsStore × ℕ) Progress :=
  -- the context, the begin of the transaction, and the balance
  if (wt.outcome p.statements).ok ∧ (wt.outcome (p.statements + 1)).ok
      ∧ (wt.outcome (p.statements + 2)).ok then
    match p.store.cards.lookup cardId with
    | none =>
      -- the transaction is rolled back before the taps are marked, so neither the update nor the
      -- commit is executed
      .ok { p with statements := p.statements + 3 }
    | some _ =>
      let o := wt.outcome (p.statements + 3)
      -- the loop over the taps does not look at `rows.Err`
      match o.read (p.store.unprocessedTaps cardId) with
      | none => .error (p.store, p.journeys)
      | some taps =>
        if taps.length < 2 then .ok { p with statements := p.statements + 4 }
        -- taps that break off leave a transaction that Postgres has aborted
        else if ¬o.ok then .error (p.store, p.journeys)
        else
          match journeyPairs wt cardId taps { p with statements := p.statements + 4 } with
          | .error journeys => .error (p.store, journeys)
          | .ok q =>
            if (wt.outcome q.statements).ok then .ok { q with statements := q.statements + 1 }
            else .error (if wt.landed q.statements then q.store else p.store, q.journeys)
  else .error (p.store, p.journeys)

def constructCards : List String → Progress → Except (CsStore × ℕ) Progress
  | [], p => .ok p
  | cardId :: cards, p =>
    match constructCard wt cardId p with
    | .error left => .error left
    | .ok p => constructCards cards p

/-- `RunJourneyConstruction`: the tables afterwards, the number of journeys, and whether there was
no error. -/
def runJourneyConstruction : CsStore × ℕ × Bool :=
  if (wt.outcome 0).ok then
    match constructCards wt s.cardsToConstruct ⟨s, 0, 1⟩ with
    | .ok p => (p.store, p.journeys, true)
    | .error (store, journeys) => (store, journeys, false)
  else (s, 0, false)

/-! ## The rows of the taps -/

variable {s}

def rows (s : CsStore) : List TapRow := s.transactions.map CsTap.row

def ids (s : CsStore) : List String := s.transactions.map CsTap.transactionId

theorem map_transactionId_rows (s : CsStore) : s.rows.map TapRow.transactionId = s.ids := by
  rw [rows, List.map_map]
  rfl

theorem rows_insertTransaction (s : CsStore) (tx : CsTransaction) :
    (s.insertTransaction tx).rows
      = tx.row.elim s.rows (s.rows.addNewBy TapRow.transactionId) := by
  rw [insertTransaction, CsTransaction.row, CsTransaction.complete]
  cases htime : tx.tapTime with
  | none => simp
  | some tapTime =>
    simp only [Option.isSome_some, Bool.and_true, decide_eq_true_eq]
    by_cases hblank : tx.transactionId = "" ∨ tx.cardId = "" ∨ tx.gateId = "" ∨ tx.stationId = ""
    · rw [if_pos hblank, if_neg (by tauto), Option.elim_none]
    · have hcomplete : tx.transactionId ≠ "" ∧ tx.cardId ≠ "" ∧ tx.gateId ≠ ""
          ∧ tx.stationId ≠ "" := by
        tauto
      rw [if_neg hblank, if_pos hcomplete, Option.map_some, Option.elim_some, List.addNewBy,
        map_transactionId_rows]
      by_cases hid : tx.transactionId ∈ s.ids
      · rw [if_pos hid]
        exact congrArg rows (dif_pos hid)
      · rw [if_neg hid]
        refine (congrArg rows (dif_neg hid)).trans ?_
        rw [rows, List.map_append, List.map_singleton, rows]
        rfl

theorem insertTransaction_of_not_complete {tx : CsTransaction} (h : tx.complete = false) :
    s.insertTransaction tx = s := by
  rw [insertTransaction]
  cases htime : tx.tapTime with
  | none => rfl
  | some tapTime =>
    rw [CsTransaction.complete, htime] at h
    simp only [Option.isSome_some, Bool.and_true, decide_eq_false_iff_not] at h
    exact if_pos (by tauto)

end CsStore

end CardDb

end TaskDiscovery
