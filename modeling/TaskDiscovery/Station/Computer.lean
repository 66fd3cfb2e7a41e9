import Mathlib.Data.List.AList
import TaskDiscovery.Go.Time

/-!
# The station computer

A gate posts a transaction to `/transaction`. The handler puts its fields in order, fills in what is
missing, and refuses what is blank or not allowed. What it accepts goes to a buffer for its card
type. Whenever a transaction makes a buffer reach the batch size, the batch at its head is taken out
and forwarded.

A transaction travels as a JSON object. It is kept here as the list of its fields; `card_id` and
`token` are left out when they are empty.
-/

namespace Go

/-- `strings.ToUpper`. A text that becomes one of the card types has ASCII letters only. -/
def toUpper (s : String) : String := String.ofList (s.toList.map Char.toUpper)

end Go

namespace TaskDiscovery

namespace Station

open Go (trimSpace toUpper)

/-! ## Transactions -/

structure Transaction where
  transactionId : String
  cardType : String
  cardId : String
  token : String
  gateId : String
  stationId : String
  tapTime : String
  allowed : Bool
  reason : String
  deriving DecidableEq

/-- The value of a field in a JSON object. -/
inductive Value
  | text (s : String)
  | flag (b : Bool)

abbrev Object := List (String × Value)

/-- A field with `omitempty`. -/
def omitEmpty (name value : String) : Object := if value = "" then [] else [(name, .text value)]

def Transaction.marshal (tx : Transaction) : Object :=
  [("transaction_id", .text tx.transactionId), ("card_type", .text tx.cardType)]
    ++ omitEmpty "card_id" tx.cardId ++ omitEmpty "token" tx.token
    ++ [("gate_id", .text tx.gateId), ("station_id", .text tx.stationId),
      ("tap_time", .text tx.tapTime), ("allowed", .flag tx.allowed), ("reason", .text tx.reason)]

/-! ## The handler -/

/-- What `time.Now` returns: a time since the epoch, as a number and in UTC. -/
structure Clock where
  unixNano : ℕ
  utc : Go.DateTime
  epoch_le : 1970 ≤ utc.year

/-- The fields in order, and defaults for what is missing. -/
def normalize (stationId : String) (now : Clock) (tx : Transaction) : Transaction :=
  let gateId := trimSpace tx.gateId
  { tx with
    cardType := toUpper (trimSpace tx.cardType)
    cardId := trimSpace tx.cardId
    token := trimSpace tx.token
    gateId := gateId
    stationId := stationId
    transactionId :=
      if tx.transactionId = "" then gateId ++ "-" ++ toString now.unixNano else tx.transactionId
    tapTime := if tx.tapTime = "" then String.ofList now.utc.format else tx.tapTime }

/-- The handler of `/transaction`: what is passed to `Add` when the transaction is accepted. -/
def handleTransaction (stationId : String) (now : Clock) (tx : Transaction) : Option Transaction :=
  let tx := normalize stationId now tx
  if tx.cardType = "" ∨ tx.gateId = "" then none
  else if tx.cardType ≠ "OY" ∧ tx.cardType ≠ "PCTR" then none
  else if tx.cardType = "OY" ∧ trimSpace tx.cardId = "" then none
  else if tx.cardType = "PCTR" ∧ trimSpace tx.token = "" then none
  else if !tx.allowed then none
  else some tx

theorem handleTransaction_eq_some {stationId : String} {now : Clock} {tx tx' : Transaction}
    (h : handleTransaction stationId now tx = some tx') :
    tx' = normalize stationId now tx ∧ tx'.gateId ≠ ""
      ∧ (tx'.cardType = "OY" ∧ trimSpace tx'.cardId ≠ ""
        ∨ tx'.cardType = "PCTR" ∧ trimSpace tx'.token ≠ "") := by
  simp only [handleTransaction] at h
  split_ifs at h with hblank htype hcard htoken hallowed
  cases h
  refine ⟨rfl, fun hgate ↦ hblank (.inr hgate), ?_⟩
  by_cases hoy : (normalize stationId now tx).cardType = "OY"
  · exact .inl ⟨hoy, fun hid ↦ hcard ⟨hoy, hid⟩⟩
  · have hpctr : (normalize stationId now tx).cardType = "PCTR" := by
      by_contra hne
      exact htype ⟨hoy, hne⟩
    exact .inr ⟨hpctr, fun hid ↦ htoken ⟨hpctr, hid⟩⟩

/-! ## The buffers -/

/-- `PerTypeBatcher`. The program puts 5 for a batch size that is not positive. -/
structure PerTypeBatcher where
  batchSize : ℕ
  batchSize_pos : 0 < batchSize
  byType : AList fun _ : String ↦ List Transaction

namespace PerTypeBatcher

variable (b : PerTypeBatcher)

/-- `NewPerTypeBatcher`. -/
def new (batchSize : ℕ) (h : 0 < batchSize) : PerTypeBatcher where
  batchSize := batchSize
  batchSize_pos := h
  byType := ((∅ : AList fun _ : String ↦ List Transaction).insert "PCTR" []).insert "OY" []

def buffer (cardType : String) : List Transaction := (b.byType.lookup cardType).getD []

/-- `Add`: the number of buffered transactions of the type, and a batch, which is empty if none is
full. -/
def add (tx : Transaction) : PerTypeBatcher × ℕ × List Transaction :=
  let cur := b.buffer tx.cardType ++ [tx]
  if cur.length < b.batchSize then
    ({ b with byType := b.byType.insert tx.cardType cur }, cur.length, [])
  else
    ({ b with byType := b.byType.insert tx.cardType (cur.drop b.batchSize) },
      (cur.drop b.batchSize).length, cur.take b.batchSize)

/-- A batch that could not be forwarded goes back to the head of its buffer. -/
def putBack : List Transaction → PerTypeBatcher
  | [] => b
  | tx :: batch =>
    { b with byType := b.byType.insert tx.cardType (tx :: batch ++ b.buffer tx.cardType) }

end PerTypeBatcher

end Station

end TaskDiscovery
