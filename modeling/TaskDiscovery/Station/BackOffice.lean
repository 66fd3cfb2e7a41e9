import TaskDiscovery.CardDb.Cs
import TaskDiscovery.Station.Computer

/-!
# The back offices

The card service takes batches of `OY` transactions, and the PCTR back office those of `PCTR`
transactions. Both decode a batch strictly: a field their own `Transaction` does not have is an
error. Both then check the card type and parse the time of every transaction before anything is
inserted. The PCTR back office also refuses a blank token, where the card service leaves a blank
card to the insert.

The fields of an object are compared with the known names exactly, as those of `marshal` are.
-/

namespace TaskDiscovery

open Go (trimSpace toUpper)
open Station (Value Object)
open CardDb (Weather TapRow CsStore CsTransaction PctrStore PctrTransaction)

/-- `time.Parse` of a tap time that may have spaces around it. The zero time is `some none`. -/
def parseTapTime (s : String) : Option (Option Time) :=
  (Go.parseRFC3339Nano (trimSpace s).toList).map fun t ↦ if t = 0 then none else some t

/-- `json.Decoder.Decode` into a structure, with `DisallowUnknownFields`. -/
def decodeStrict {α : Type} (zero : α) (setField : α → String × Value → Option α) (o : Object) :
    Option α :=
  o.foldlM setField zero

section HandleBatch

variable {τ ρ σ : Type} (decode : Object → Option τ) (toInsert : τ → Option ρ)
  (insert : σ → List ρ → σ × Bool)

/-- A handler of `/batch`: the tables afterwards, and the status. -/
def handleBatch (s : σ) (batch : List Object) : σ × ℕ :=
  match batch.mapM decode with
  | none | some [] => (s, 400)
  | some txs =>
    match txs.mapM toInsert with
    | none => (s, 400)
    | some rows =>
      let (s, ok) := insert s rows
      (s, if ok then 200 else 503)

variable {decode toInsert insert}

/-- The tables change only when the whole batch was converted. -/
theorem handleBatch_eq {batch : List Object} (hne : batch ≠ []) (s : σ) :
    handleBatch decode toInsert insert s batch
      = match batch.mapM fun o ↦ (decode o).bind toInsert with
        | none => (s, 400)
        | some rows => ((insert s rows).1, if (insert s rows).2 then 200 else 503) := by
  rw [handleBatch, ← List.mapM_bind_mapM]
  rcases hdecode : batch.mapM decode with _ | _ | ⟨tx, txs⟩
  · rfl
  · rw [List.mapM_eq_some_iff, List.map_nil, List.map_eq_nil_iff] at hdecode
    exact absurd hdecode hne
  · rfl

theorem handleBatch_fst (s : σ) (batch : List Object) :
    (handleBatch decode toInsert insert s batch).1 = s
      ∨ ∃ rows, (handleBatch decode toInsert insert s batch).1 = (insert s rows).1 := by
  by_cases hne : batch = []
  · rw [hne]
    exact .inl rfl
  · rw [handleBatch_eq hne]
    rcases batch.mapM fun o ↦ (decode o).bind toInsert with _ | rows
    · exact .inl rfl
    · exact .inr ⟨rows, rfl⟩

end HandleBatch

namespace Cs

structure Transaction where
  transactionId : String := ""
  cardType : String := ""
  cardId : String := ""
  gateId : String := ""
  stationId : String := ""
  tapTime : String := ""
  allowed : Bool := false
  reason : String := ""

def Transaction.setField (tx : Transaction) : String × Value → Option Transaction
  | ("transaction_id", .text s) => some { tx with transactionId := s }
  | ("card_type", .text s) => some { tx with cardType := s }
  | ("card_id", .text s) => some { tx with cardId := s }
  | ("gate_id", .text s) => some { tx with gateId := s }
  | ("station_id", .text s) => some { tx with stationId := s }
  | ("tap_time", .text s) => some { tx with tapTime := s }
  | ("allowed", .flag b) => some { tx with allowed := b }
  | ("reason", .text s) => some { tx with reason := s }
  | _ => none

def decode : Object → Option Transaction := decodeStrict {} Transaction.setField

/-- The loop over the batch: what is inserted for a transaction. -/
def toInsert (tx : Transaction) : Option CsTransaction :=
  if toUpper (trimSpace tx.cardType) ≠ "OY" then none
  else
    (parseTapTime tx.tapTime).map fun tapTime ↦
      { transactionId := trimSpace tx.transactionId, cardId := trimSpace tx.cardId,
        gateId := trimSpace tx.gateId, stationId := trimSpace tx.stationId, tapTime := tapTime }

def handleBatch (wt : Weather) (s : CsStore) (batch : List Object) : CsStore × ℕ :=
  TaskDiscovery.handleBatch decode toInsert (fun s rows ↦ s.insertTransactions wt rows) s batch

end Cs

namespace Pctrbo

structure Transaction where
  transactionId : String := ""
  cardType : String := ""
  token : String := ""
  gateId : String := ""
  stationId : String := ""
  tapTime : String := ""
  allowed : Bool := false
  reason : String := ""

def Transaction.setField (tx : Transaction) : String × Value → Option Transaction
  | ("transaction_id", .text s) => some { tx with transactionId := s }
  | ("card_type", .text s) => some { tx with cardType := s }
  | ("token", .text s) => some { tx with token := s }
  | ("gate_id", .text s) => some { tx with gateId := s }
  | ("station_id", .text s) => some { tx with stationId := s }
  | ("tap_time", .text s) => some { tx with tapTime := s }
  | ("allowed", .flag b) => some { tx with allowed := b }
  | ("reason", .text s) => some { tx with reason := s }
  | _ => none

def decode : Object → Option Transaction := decodeStrict {} Transaction.setField

def toInsert (tx : Transaction) : Option PctrTransaction :=
  if toUpper (trimSpace tx.cardType) ≠ "PCTR" then none
  else
    match parseTapTime tx.tapTime with
    | none => none
    | some tapTime =>
      if trimSpace tx.token = "" then none
      else
        some { transactionId := trimSpace tx.transactionId, token := trimSpace tx.token,
               gateId := trimSpace tx.gateId, stationId := trimSpace tx.stationId,
               tapTime := tapTime }

def handleBatch (wt : Weather) (s : PctrStore) (batch : List Object) : PctrStore × ℕ :=
  TaskDiscovery.handleBatch decode toInsert (fun s rows ↦ s.insertTransactions wt rows) s batch

theorem handleBatch_fst (wt : Weather) (s : PctrStore) (batch : List Object) :
    ∃ rows : List PctrTransaction,
      (handleBatch wt s batch).1 = rows.foldl PctrStore.insertTransaction s := by
  rcases TaskDiscovery.handleBatch_fst s batch with h | ⟨rows, h⟩
  · exact ⟨[], h⟩
  · obtain ⟨done, -, hdone, -⟩ := CardDb.insertRows_eq
      (fun s tx ↦ PctrStore.insertTransaction_of_not_complete) wt 0 rows s
    exact ⟨done, h.trans hdone⟩

end Pctrbo

/-! ## Both of them -/

/-- The tables of the two back offices. -/
structure BackOffices where
  cs : CsStore
  pctr : PctrStore

namespace BackOffices

variable (o : BackOffices)

/-- The taps in the table of a card type. -/
def rows (cardType : String) : List TapRow := if cardType = "PCTR" then o.pctr.rows else o.cs.rows

def ids (cardType : String) : List String := if cardType = "PCTR" then o.pctr.ids else o.cs.ids

theorem map_transactionId_rows (cardType : String) :
    (o.rows cardType).map TapRow.transactionId = o.ids cardType := by
  rw [rows, ids]
  split_ifs
  · exact o.pctr.map_transactionId_rows
  · exact o.cs.map_transactionId_rows

/-- Nothing has arrived yet. -/
def empty : BackOffices where
  cs := { cards := ∅, transactions := [], nodup_ids := List.nodup_nil, stationCosts := [],
          collation := .codePoint }
  pctr := { transactions := [], stationCosts := [], debts := [], nextId := 1,
            collation := .codePoint }

theorem ids_empty (cardType : String) : empty.ids cardType = [] := by
  rw [ids]
  split_ifs <;> rfl

/-- A batch reaches the back office of its card type. -/
def postBatch (wt : Weather) (cardType : String) (batch : List Station.Transaction) :
    BackOffices × ℕ :=
  let body := batch.map Station.Transaction.marshal
  if cardType = "PCTR" then
    let (pctr, status) := Pctrbo.handleBatch wt o.pctr body
    ({ o with pctr := pctr }, status)
  else
    let (cs, status) := Cs.handleBatch wt o.cs body
    ({ o with cs := cs }, status)

/-- **A batch leaves every transaction id there once.** -/
theorem nodup_ids_postBatch {o : BackOffices} (h : ∀ cardType, (o.ids cardType).Nodup)
    (wt : Weather) (cardType : String) (batch : List Station.Transaction) :
    ∀ cardType', ((o.postBatch wt cardType batch).1.ids cardType').Nodup := by
  have hpctr : o.pctr.ids.Nodup := h "PCTR"
  have hpost : (o.postBatch wt cardType batch).1.pctr.ids.Nodup := by
    rw [postBatch]
    split_ifs
    · obtain ⟨rows, hrows⟩ :=
        Pctrbo.handleBatch_fst wt o.pctr (batch.map Station.Transaction.marshal)
      simp only [hrows, PctrStore.ids_foldl_insertTransaction]
      exact hpctr.foldl_addNew _
    · exact hpctr
  intro cardType'
  rw [ids]
  split_ifs
  · exact hpost
  · exact CsStore.nodup_ids _

end BackOffices

end TaskDiscovery
