import TaskDiscovery.Station.BackOffice

/-!
# What the station accepts and what the back offices take

A transaction passes four checks on its way: the handler of the station, the strict decoder of the
back office, the loop over the batch, and the filter of the insert. They do not agree.

* The station passes on any `transaction_id` and any `tap_time` that is not empty. The back office
  bounces the batch when a time cannot be parsed, and passes over the transaction when the id is
  blank or the time is zero.
* The station keeps a `token` beside the card of an `OY` transaction, and a `card_id` beside the
  token of a `PCTR` transaction. The decoder of the back office does not know that field.
* The station id is a flag of the program, and a blank one is not refused.
* The station does not compare ids. The back office keeps the first transaction with an id, without
  the spaces around it, and answers 200 to the others as well.

`Fits` states the condition for each field under which they agree. Together with the absence of a
clash of ids it is exact: `delivered_iff_fits`.
-/

namespace Go

theorem trimSpace_ne_empty {s : String} {c : Char} (hc : c ∈ s.toList)
    (hspace : isSpace c = false) : trimSpace s ≠ "" := by
  intro hempty
  have htrim : trimText s.toList = [] := by
    have h := congrArg String.toList hempty
    rwa [trimSpace, String.toList_ofList] at h
  rw [trimText, List.rdropWhile_eq_nil_iff] at htrim
  rw [← List.takeWhile_append_dropWhile (p := isSpace) (l := s.toList)] at hc
  rcases List.mem_append.mp hc with hc | hc
  · exact absurd (List.mem_takeWhile_imp hc) (by simp [hspace])
  · exact absurd (htrim c hc) (by simp [hspace])

theorem trimSpace_format (d : DateTime) :
    trimSpace (String.ofList d.format) = String.ofList d.format := by
  rw [trimSpace, String.toList_ofList, trimText_eq_self (isSpace_of_mem_format d)]

end Go

namespace TaskDiscovery

open Go (trimSpace toUpper)
open CardDb (TapRow CsStore CsTransaction PctrStore PctrTransaction)

/-! ## What a back office makes of one transaction -/

namespace Cs

/-- What is inserted for a transaction of the station. -/
def entry (tx : Station.Transaction) : Option CsTransaction := (decode tx.marshal).bind toInsert

theorem decode_marshal (tx : Station.Transaction) :
    decode tx.marshal = if tx.token = "" then
        some { transactionId := tx.transactionId, cardType := tx.cardType, cardId := tx.cardId,
               gateId := tx.gateId, stationId := tx.stationId, tapTime := tx.tapTime,
               allowed := tx.allowed, reason := tx.reason }
      else none := by
  rw [decode, decodeStrict, Station.Transaction.marshal, Station.omitEmpty, Station.omitEmpty]
  split_ifs with hcard htoken htoken
  · rw [hcard]
    rfl
  · rfl
  · rfl
  · rfl

theorem entry_eq {tx : Station.Transaction} (htype : tx.cardType = "OY") :
    entry tx = if tx.token = "" then
        (parseTapTime tx.tapTime).map fun tapTime ↦
          { transactionId := trimSpace tx.transactionId, cardId := trimSpace tx.cardId,
            gateId := trimSpace tx.gateId, stationId := trimSpace tx.stationId, tapTime := tapTime }
      else none := by
  have hupper : toUpper (trimSpace "OY") = "OY" := by decide
  rw [entry, decode_marshal]
  split_ifs
  · rw [Option.bind_some, toInsert, htype, if_neg (not_not.mpr hupper)]
  · rfl

end Cs

namespace Pctrbo

/-- What is inserted for a transaction of the station. -/
def entry (tx : Station.Transaction) : Option PctrTransaction := (decode tx.marshal).bind toInsert

theorem decode_marshal (tx : Station.Transaction) :
    decode tx.marshal = if tx.cardId = "" then
        some { transactionId := tx.transactionId, cardType := tx.cardType, token := tx.token,
               gateId := tx.gateId, stationId := tx.stationId, tapTime := tx.tapTime,
               allowed := tx.allowed, reason := tx.reason }
      else none := by
  rw [decode, decodeStrict, Station.Transaction.marshal, Station.omitEmpty, Station.omitEmpty]
  split_ifs with hcard htoken htoken
  · rw [htoken]
    rfl
  · rfl
  · rfl
  · rfl

theorem entry_eq {tx : Station.Transaction} (htype : tx.cardType = "PCTR")
    (htoken : trimSpace tx.token ≠ "") :
    entry tx = if tx.cardId = "" then
        (parseTapTime tx.tapTime).map fun tapTime ↦
          { transactionId := trimSpace tx.transactionId, token := trimSpace tx.token,
            gateId := trimSpace tx.gateId, stationId := trimSpace tx.stationId, tapTime := tapTime }
      else none := by
  have hupper : toUpper (trimSpace "PCTR") = "PCTR" := by decide
  rw [entry, decode_marshal]
  split_ifs
  · rw [Option.bind_some, toInsert, htype, if_neg (not_not.mpr hupper)]
    cases parseTapTime tx.tapTime with
    | none => rfl
    | some tapTime => simp only [if_neg htoken, Option.map_some]
  · rfl

end Pctrbo

namespace BackOffices

/-- The row that a back office keeps of a transaction: `none` if it refuses the batch, `some none`
if it passes over the transaction. -/
def receives (cardType : String) (tx : Station.Transaction) : Option (Option TapRow) :=
  if cardType = "PCTR" then (Pctrbo.entry tx).map PctrTransaction.row
  else (Cs.entry tx).map CsTransaction.row

section Calm

variable {τ ρ σ : Type} {decode : Station.Object → Option τ} {toInsert : τ → Option ρ}
  {complete : ρ → Bool} {insert : σ → ρ → σ} {rows : σ → List TapRow} {row : ρ → Option TapRow}

theorem handleBatch_calm (hskip : ∀ s entry, complete entry = false → insert s entry = s)
    {batch : List Station.Transaction} (hne : batch ≠ []) (s : σ) :
    handleBatch decode toInsert
        (fun s entries ↦ CardDb.insertRows complete insert .calm 0 entries s) s
        (batch.map Station.Transaction.marshal)
      = match batch.mapM fun tx ↦ (decode tx.marshal).bind toInsert with
        | none => (s, 400)
        | some entries => (entries.foldl insert s, 200) := by
  rw [handleBatch_eq (by simpa using hne), List.mapM_map, Function.comp_def]
  rcases hentries : batch.mapM fun tx ↦ (decode tx.marshal).bind toInsert with _ | entries
  · simp only [hentries]
  · simp only [hentries, CardDb.insertRows_calm 0 hskip, if_true]

theorem filterMap_join_eq {entry : Station.Transaction → Option ρ}
    {batch : List Station.Transaction} {entries : List ρ} (h : batch.mapM entry = some entries) :
    (batch.filterMap fun tx ↦ ((entry tx).map row).join) = entries.filterMap row := by
  rw [List.mapM_eq_some_iff] at h
  have hentries : batch.filterMap (fun tx ↦ ((entry tx).map row).join)
      = (batch.map entry).filterMap fun e ↦ (e.map row).join := by
    rw [List.filterMap_map]
    rfl
  rw [hentries, h, List.filterMap_map]
  rfl

theorem handleBatch_calm_spec (hskip : ∀ s entry, complete entry = false → insert s entry = s)
    (hinsert : ∀ s entry, rows (insert s entry)
      = (row entry).elim (rows s) ((rows s).addNewBy TapRow.transactionId))
    {batch : List Station.Transaction} (hne : batch ≠ []) (s : σ)
    {receives : Station.Transaction → Option (Option TapRow)}
    (hreceives : ∀ tx, receives tx = ((decode tx.marshal).bind toInsert).map row)
    {answer : σ × ℕ} (hanswer : answer = handleBatch decode toInsert
      (fun s entries ↦ CardDb.insertRows complete insert .calm 0 entries s) s
      (batch.map Station.Transaction.marshal)) :
    (answer.2 = 200 ↔ ∀ tx ∈ batch, (receives tx).isSome = true)
      ∧ (answer.2 = 200 → rows answer.1
        = (batch.filterMap fun tx ↦ (receives tx).join).foldl
          (List.addNewBy TapRow.transactionId) (rows s)) := by
  have hsome := List.isSome_mapM_iff (l := batch) (f := fun tx ↦ (decode tx.marshal).bind toInsert)
  rw [handleBatch_calm hskip hne] at hanswer
  simp only [hreceives, Option.isSome_map]
  rw [← hsome, hanswer]
  cases hentries : batch.mapM fun tx ↦ (decode tx.marshal).bind toInsert with
  | none => simp
  | some entries =>
    simp only [Option.isSome_some, forall_const, true_and]
    rw [filterMap_join_eq hentries]
    exact CardDb.rows_foldl_insert hinsert entries s

end Calm

variable {batch : List Station.Transaction}

/-- **The answer to a batch.** It is 200 when no transaction is refused, and then those that are not
passed over are inserted, unless their id is there already. -/
theorem postBatch_calm (o : BackOffices) (cardType : String) (hne : batch ≠ []) :
    ((o.postBatch .calm cardType batch).2 = 200
        ↔ ∀ tx ∈ batch, (receives cardType tx).isSome = true)
      ∧ ((o.postBatch .calm cardType batch).2 = 200 →
        (o.postBatch .calm cardType batch).1.rows cardType
          = (batch.filterMap fun tx ↦ (receives cardType tx).join).foldl
            (List.addNewBy TapRow.transactionId) (o.rows cardType)) := by
  simp only [postBatch, rows]
  split_ifs with htype
  · exact handleBatch_calm_spec (fun _ _ ↦ PctrStore.insertTransaction_of_not_complete)
      PctrStore.rows_insertTransaction hne o.pctr (fun tx ↦ by rw [receives, if_pos htype]; rfl) rfl
  · exact handleBatch_calm_spec (fun _ _ ↦ CsStore.insertTransaction_of_not_complete)
      CsStore.rows_insertTransaction hne o.cs (fun tx ↦ by rw [receives, if_neg htype]; rfl) rfl

end BackOffices

/-! ## Where the checks agree -/

namespace Station

open BackOffices (receives)

/-- The card or the token of a transaction. -/
def Transaction.holder (cardType : String) (tx : Transaction) : String :=
  if cardType = "PCTR" then tx.token else tx.cardId

/-- The field that the back office of a card type does not know. -/
def Transaction.foreign (cardType : String) (tx : Transaction) : String :=
  if cardType = "PCTR" then tx.cardId else tx.token

/-- The row that stands for a transaction: it has its id, its card or token, its station and its
time. Without a time there is none. -/
def Transaction.row (cardType : String) (tx : Transaction) : Option TapRow :=
  (parseTapTime tx.tapTime).join.map fun tapTime ↦
    ⟨trimSpace tx.transactionId, trimSpace (tx.holder cardType), trimSpace tx.stationId, tapTime⟩

/-- A batch is answered 200, and every transaction has its row then. The database accepts what is
inserted. -/
def Delivered (o : BackOffices) (cardType : String) (batch : List Transaction) : Prop :=
  (o.postBatch .calm cardType batch).2 = 200
    ∧ ∀ tx ∈ batch, ∃ row ∈ (o.postBatch .calm cardType batch).1.rows cardType,
      tx.row cardType = some row

instance (o : BackOffices) (cardType : String) (batch : List Transaction) :
    Decidable (Delivered o cardType batch) :=
  inferInstanceAs (Decidable (_ ∧ _))

/-- What a transaction that is posted to a station must look like for the back office of its card
type not to refuse the batch. -/
structure Readable (cardType : String) (tx : Transaction) : Prop where
  tapTime : tx.tapTime = "" ∨ (parseTapTime tx.tapTime).isSome = true
  foreign : trimSpace (tx.foreign cardType) = ""

/-- What it must look like for the back office to insert it. -/
structure Fits (stationId cardType : String) (tx : Transaction) : Prop where
  transactionId : tx.transactionId = "" ∨ trimSpace tx.transactionId ≠ ""
  tapTime : tx.tapTime = "" ∨ ∃ t, parseTapTime tx.tapTime = some (some t)
  stationId : trimSpace stationId ≠ ""
  foreign : trimSpace (tx.foreign cardType) = ""

variable {stationId cardType : String} {now : Clock} {tx tx' : Transaction} {row : TapRow}

theorem Transaction.transactionId_row (h : tx.row cardType = some row) :
    row.transactionId = trimSpace tx.transactionId := by
  obtain ⟨_, -, rfl⟩ := Option.map_eq_some_iff.mp h
  rfl

theorem Transaction.isSome_row_iff :
    (tx.row cardType).isSome = true ↔ ∃ t, parseTapTime tx.tapTime = some (some t) := by
  rw [row, Option.isSome_map, Option.isSome_iff_exists]
  simp only [Option.join_eq_some_iff]

/-- A generated id is not blank. -/
theorem transactionId_normalize_iff (stationId : String) (now : Clock) (tx : Transaction) :
    trimSpace (normalize stationId now tx).transactionId ≠ ""
      ↔ tx.transactionId = "" ∨ trimSpace tx.transactionId ≠ "" := by
  simp only [normalize]
  split_ifs with hempty
  · refine ⟨fun _ ↦ .inl hempty, fun _ ↦ ?_⟩
    exact Go.trimSpace_ne_empty (c := '-') (by simp) (by decide)
  · simp [hempty]

theorem parseTapTime_clock (now : Clock) :
    parseTapTime (String.ofList now.utc.format) = some (some now.utc.instant) := by
  have hpos : 0 < now.utc.instant := Go.DateTime.instant_pos (by have := now.epoch_le; omega)
  rw [parseTapTime, Go.trimSpace_format, String.toList_ofList, Go.parseRFC3339Nano_format,
    Option.map_some, if_neg hpos.ne']

theorem parseTapTime_normalize (stationId : String) (now : Clock) (tx : Transaction) :
    parseTapTime (normalize stationId now tx).tapTime
      = if tx.tapTime = "" then some (some now.utc.instant) else parseTapTime tx.tapTime := by
  simp only [normalize]
  split_ifs
  · exact parseTapTime_clock now
  · rfl

theorem foreign_normalize (stationId : String) (now : Clock) (tx : Transaction) :
    (normalize stationId now tx).foreign cardType = trimSpace (tx.foreign cardType) := by
  rw [Transaction.foreign, Transaction.foreign]
  split_ifs <;> rfl

/-- What a back office does with a transaction that the station accepts. -/
theorem receives_of_accepted (h : handleTransaction stationId now tx = some tx')
    (htype : tx'.cardType = cardType) :
    receives cardType tx' = if tx'.foreign cardType = "" then
        (parseTapTime tx'.tapTime).map fun _ ↦
          if trimSpace tx'.transactionId ≠ "" ∧ trimSpace stationId ≠ "" then tx'.row cardType
          else none
      else none := by
  obtain ⟨hnormal, hgate, hcard⟩ := handleTransaction_eq_some h
  have hgate' : trimSpace tx'.gateId ≠ "" := by
    rw [hnormal] at hgate ⊢
    simp only [normalize] at hgate ⊢
    rwa [Go.trimSpace_idem]
  have hstation : tx'.stationId = stationId := by rw [hnormal]; rfl
  rcases hcard with ⟨hoy, hcard⟩ | ⟨hpctr, htoken⟩
  · have hne : cardType ≠ "PCTR" := by
      rw [← htype, hoy]
      decide
    rw [receives, Transaction.foreign, if_neg hne, if_neg hne, Cs.entry_eq hoy]
    by_cases hforeign : tx'.token = ""
    · rw [if_pos hforeign, if_pos hforeign]
      rcases hparse : parseTapTime tx'.tapTime with _ | _ | t <;>
        simp [CsTransaction.row, CsTransaction.complete, Transaction.row, Transaction.holder,
          hparse, hne, hcard, hgate', hstation]
    · rw [if_neg hforeign, if_neg hforeign, Option.map_none]
  · have heq : cardType = "PCTR" := by rw [← htype, hpctr]
    rw [receives, Transaction.foreign, if_pos heq, if_pos heq, Pctrbo.entry_eq hpctr htoken]
    by_cases hforeign : tx'.cardId = ""
    · rw [if_pos hforeign, if_pos hforeign]
      rcases hparse : parseTapTime tx'.tapTime with _ | _ | t <;>
        simp [PctrTransaction.row, PctrTransaction.complete, Transaction.row, Transaction.holder,
          hparse, heq, htoken, hgate', hstation]
    · rw [if_neg hforeign, if_neg hforeign, Option.map_none]

theorem fits_iff (h : handleTransaction stationId now tx = some tx') :
    Fits stationId cardType tx ↔ Readable cardType tx ∧ trimSpace tx'.transactionId ≠ ""
      ∧ trimSpace stationId ≠ "" ∧ (tx'.row cardType).isSome = true := by
  have hnormal := (handleTransaction_eq_some h).1
  have htime : (∃ t, parseTapTime tx'.tapTime = some (some t))
      ↔ tx.tapTime = "" ∨ ∃ t, parseTapTime tx.tapTime = some (some t) := by
    rw [hnormal, parseTapTime_normalize]
    split_ifs with hempty <;> simp [hempty]
  rw [Transaction.isSome_row_iff, htime, hnormal, transactionId_normalize_iff]
  constructor
  · intro hfits
    refine ⟨⟨hfits.tapTime.imp_right ?_, hfits.foreign⟩, hfits.transactionId, hfits.stationId,
      hfits.tapTime⟩
    rintro ⟨t, ht⟩
    rw [ht]
    rfl
  · rintro ⟨hread, hid, hstation, ht⟩
    exact ⟨hid, ht, hstation, hread.foreign⟩

section Accepted

variable (h : handleTransaction stationId now tx = some tx') (htype : tx'.cardType = cardType)

include h htype

theorem isSome_receives_iff : (receives cardType tx').isSome = true ↔ Readable cardType tx := by
  have hnormal := (handleTransaction_eq_some h).1
  have hforeign : tx'.foreign cardType = trimSpace (tx.foreign cardType) := by
    rw [hnormal, foreign_normalize]
  have htime : (parseTapTime tx'.tapTime).isSome = true
      ↔ tx.tapTime = "" ∨ (parseTapTime tx.tapTime).isSome = true := by
    rw [hnormal, parseTapTime_normalize]
    split_ifs with hempty <;> simp [hempty]
  rw [receives_of_accepted h htype, hforeign]
  by_cases hblank : trimSpace (tx.foreign cardType) = ""
  · rw [if_pos hblank, Option.isSome_map, htime]
    exact ⟨fun ht ↦ ⟨ht, hblank⟩, Readable.tapTime⟩
  · rw [if_neg hblank]
    exact iff_of_false (by simp) fun hread ↦ hblank hread.foreign

/-- What it inserts for a transaction is the row of the transaction, if it fits. -/
theorem join_receives_eq_some_iff :
    (receives cardType tx').join = some row
      ↔ Fits stationId cardType tx ∧ tx'.row cardType = some row := by
  rw [fits_iff h, ← isSome_receives_iff h htype, receives_of_accepted h htype]
  by_cases hforeign : tx'.foreign cardType = ""
  · rw [if_pos hforeign]
    cases hparse : parseTapTime tx'.tapTime with
    | none => simp
    | some tapTime =>
      rw [Option.map_some, Option.join_some]
      by_cases hblank : trimSpace tx'.transactionId ≠ "" ∧ trimSpace stationId ≠ ""
      · rw [if_pos hblank]
        refine ⟨fun hrow ↦ ⟨⟨rfl, hblank.1, hblank.2, ?_⟩, hrow⟩, And.right⟩
        rw [hrow]
        rfl
      · rw [if_neg hblank]
        exact iff_of_false (by simp) fun hrow ↦ hblank ⟨hrow.1.2.1, hrow.1.2.2.1⟩
  · rw [if_neg hforeign]
    simp

end Accepted

/-- The id under which a request comes to the table of its card type. -/
def idOf (stationId : String) (r : Clock × Transaction) : String :=
  trimSpace (normalize stationId r.1 r.2).transactionId

def rowOf (stationId cardType : String) (r : Clock × Transaction) : Option TapRow :=
  (normalize stationId r.1 r.2).row cardType

theorem transactionId_rowOf {r : Clock × Transaction} (h : rowOf stationId cardType r = some row) :
    row.transactionId = idOf stationId r :=
  Transaction.transactionId_row h

theorem not_delivered_nil (o : BackOffices) (cardType : String) : ¬Delivered o cardType [] := by
  have hstatus : (o.postBatch .calm cardType []).2 = 400 := by
    rw [BackOffices.postBatch]
    split_ifs <;> rfl
  rw [Delivered, hstatus]
  simp

/-- The rows that a batch of requests brings. -/
def newRows (stationId cardType : String) (batch : List (Clock × Transaction)) : List TapRow :=
  batch.filterMap fun r ↦ (receives cardType (normalize stationId r.1 r.2)).join

section Requests

variable {batch : List (Clock × Transaction)}
  (haccepted : ∀ r ∈ batch, ∃ tx, handleTransaction stationId r.1 r.2 = some tx
    ∧ tx.cardType = cardType)

include haccepted

theorem mem_newRows : row ∈ newRows stationId cardType batch
    ↔ ∃ r ∈ batch, Fits stationId cardType r.2 ∧ rowOf stationId cardType r = some row := by
  rw [newRows, List.mem_filterMap]
  refine exists_congr fun r ↦ and_congr_right fun hr ↦ ?_
  obtain ⟨tx, htx, htype⟩ := haccepted r hr
  obtain rfl := (handleTransaction_eq_some htx).1
  exact join_receives_eq_some_iff htx htype

theorem exists_mem_newRows {r : Clock × Transaction} (hr : r ∈ batch)
    (hfits : Fits stationId cardType r.2) :
    ∃ row ∈ newRows stationId cardType batch, rowOf stationId cardType r = some row := by
  obtain ⟨tx, htx, -⟩ := haccepted r hr
  obtain rfl := (handleTransaction_eq_some htx).1
  obtain ⟨row, heq⟩ := Option.isSome_iff_exists.mp ((fits_iff htx).mp hfits).2.2.2
  exact ⟨row, (mem_newRows haccepted).mpr ⟨r, hr, hfits, heq⟩, heq⟩

/-- The row came with a request that fits, and this one has its id. -/
theorem fits_of_mem_newRows {r : Clock × Transaction} (hr : r ∈ batch)
    (hread : Readable cardType r.2) (heq : rowOf stationId cardType r = some row)
    (hmem : row ∈ newRows stationId cardType batch) : Fits stationId cardType r.2 := by
  obtain ⟨r₀, hr₀, hfits₀, heq₀⟩ := (mem_newRows haccepted).mp hmem
  obtain ⟨tx₀, htx₀, -⟩ := haccepted r₀ hr₀
  obtain rfl := (handleTransaction_eq_some htx₀).1
  obtain ⟨tx, htx, -⟩ := haccepted r hr
  obtain rfl := (handleTransaction_eq_some htx).1
  obtain ⟨-, hid₀, hstation, -⟩ := (fits_iff htx₀).mp hfits₀
  refine (fits_iff htx).mpr ⟨hread, ?_, hstation, ?_⟩
  · rwa [← idOf, ← transactionId_rowOf heq, transactionId_rowOf heq₀, idOf]
  · rw [← rowOf, heq]
    rfl

theorem delivered_iff_rows (o : BackOffices) (hne : batch ≠ []) :
    Delivered o cardType (batch.filterMap fun r ↦ handleTransaction stationId r.1 r.2)
      ↔ (∀ r ∈ batch, Readable cardType r.2)
        ∧ ∀ r ∈ batch, ∃ row ∈ (newRows stationId cardType batch).foldl
          (List.addNewBy TapRow.transactionId) (o.rows cardType),
          rowOf stationId cardType r = some row := by
  have hbatch : batch.filterMap (fun r ↦ handleTransaction stationId r.1 r.2)
      = batch.map fun r ↦ normalize stationId r.1 r.2 := by
    rw [← List.filterMap_eq_map]
    refine List.filterMap_congr fun r hr ↦ ?_
    obtain ⟨tx, htx, -⟩ := haccepted r hr
    rw [htx, (handleTransaction_eq_some htx).1]
    rfl
  obtain ⟨hstatus, hrows⟩ := BackOffices.postBatch_calm o cardType
    (mt List.map_eq_nil_iff.mp hne : batch.map (fun r ↦ normalize stationId r.1 r.2) ≠ [])
  have hread : (o.postBatch .calm cardType (batch.map fun r ↦ normalize stationId r.1 r.2)).2 = 200
      ↔ ∀ r ∈ batch, Readable cardType r.2 := by
    rw [hstatus, List.forall_mem_map]
    refine forall₂_congr fun r hr ↦ ?_
    obtain ⟨tx, htx, htype⟩ := haccepted r hr
    obtain rfl := (handleTransaction_eq_some htx).1
    exact isSome_receives_iff htx htype
  rw [Delivered, hbatch, ← hread, List.forall_mem_map]
  refine and_congr_right fun hok ↦ ?_
  rw [hrows hok, List.filterMap_map]
  rfl

end Requests

/-- **The station and the back offices agree on exactly the transactions that fit and do not
clash.** Take any requests that the station accepts with one card type. The batch made of them is
answered 200 and leaves a row for each if and only if it is not empty, none is refused, and each
either has its row in the table already, or fits, has an id that is not in the table, and is like
all others of the batch with its id. -/
theorem delivered_iff_fits (stationId cardType : String) (o : BackOffices)
    (batch : List (Clock × Transaction))
    (haccepted : ∀ r ∈ batch, ∃ tx, handleTransaction stationId r.1 r.2 = some tx
      ∧ tx.cardType = cardType) :
    Delivered o cardType (batch.filterMap fun r ↦ handleTransaction stationId r.1 r.2)
      ↔ batch ≠ [] ∧ ∀ r ∈ batch, Readable cardType r.2
        ∧ ((∃ row ∈ o.rows cardType, rowOf stationId cardType r = some row)
          ∨ Fits stationId cardType r.2 ∧ idOf stationId r ∉ o.ids cardType
            ∧ ∀ r' ∈ batch, Fits stationId cardType r'.2 → idOf stationId r' = idOf stationId r →
              rowOf stationId cardType r' = rowOf stationId cardType r) := by
  by_cases hne : batch = []
  · rw [hne]
    exact iff_of_false (not_delivered_nil o cardType) fun h ↦ h.1 rfl
  rw [delivered_iff_rows haccepted o hne, and_iff_right hne]
  constructor
  · rintro ⟨hread, hrow⟩ r hr
    refine ⟨hread r hr, ?_⟩
    obtain ⟨row, hin, heq⟩ := hrow r hr
    rcases List.mem_foldl_addNewBy.mp hin with hold | ⟨hnew, hfind⟩
    · exact .inl ⟨row, hold, heq⟩
    · refine .inr ⟨?_, ?_, fun r' hr' _ hid' ↦ ?_⟩
      · exact fits_of_mem_newRows haccepted hr (hread r hr) heq (List.mem_of_find?_eq_some hfind)
      · rwa [← o.map_transactionId_rows, ← transactionId_rowOf heq]
      · obtain ⟨row', hin', heq'⟩ := hrow r' hr'
        have hkey : row'.transactionId = row.transactionId := by
          rw [transactionId_rowOf heq', transactionId_rowOf heq, hid']
        rw [heq', heq, List.eq_of_mem_foldl_addNewBy hin hin' hkey hnew]
  · intro h
    refine ⟨fun r hr ↦ (h r hr).1, fun r hr ↦ ?_⟩
    rcases (h r hr).2 with ⟨row, hold, heq⟩ | ⟨hfits, hid, halike⟩
    · exact ⟨row, List.mem_foldl_addNewBy.mpr (.inl hold), heq⟩
    · obtain ⟨row, hmem, heq⟩ := exists_mem_newRows haccepted hr hfits
      refine ⟨row, List.mem_foldl_addNewBy_of_alike hmem ?_ fun row' hin' hkey ↦ ?_, heq⟩
      · rwa [o.map_transactionId_rows, transactionId_rowOf heq]
      · obtain ⟨r', hr', hfits', heq'⟩ := (mem_newRows haccepted).mp hin'
        have hid' : idOf stationId r' = idOf stationId r := by
          rw [← transactionId_rowOf heq', hkey, transactionId_rowOf heq]
        exact Option.some.inj (heq'.symm.trans ((halike r' hr' hfits' hid').trans heq))

def sampleClock : Clock where
  unixNano := 1714979289000000000
  utc := { year := 2024, month := 5, day := 6, hour := 7, min := 8, sec := 9, nsec := 0,
           year_le := by decide, month_le := by decide, day_le := by decide, hour_lt := by decide,
           min_lt := by decide, sec_lt := by decide, nsec_lt := by decide }
  epoch_le := by decide

/-- A tap of a prepaid card, as a gate posts it. -/
def sampleRequest : Transaction where
  transactionId := "t1"
  cardType := "oy"
  cardId := "C1"
  token := ""
  gateId := "G1"
  stationId := ""
  tapTime := ""
  allowed := true
  reason := "ok"

/-- Two taps, and the first of them once more. -/
def sampleBatch : List (Clock × Transaction) :=
  [(sampleClock, sampleRequest), (sampleClock, { sampleRequest with transactionId := "t2" }),
    (sampleClock, sampleRequest)]

/-- The second tap of the batch has arrived before. -/
def sampleOffices : BackOffices :=
  (BackOffices.empty.postBatch .calm "OY"
    [normalize "1" sampleClock { sampleRequest with transactionId := "t2" }]).1

theorem sampleBatch_delivered :
    (∀ r ∈ sampleBatch, (handleTransaction "1" r.1 r.2).isSome = true)
      ∧ sampleOffices.ids "OY" = ["t2"]
      ∧ Delivered sampleOffices "OY"
        (sampleBatch.filterMap fun r ↦ handleTransaction "1" r.1 r.2) := by
  refine ⟨by decide +kernel, by decide +kernel,
    (delivered_iff_fits "1" "OY" sampleOffices sampleBatch fun r hr ↦
      ⟨normalize "1" r.1 r.2, ?_⟩).mpr ⟨by simp [sampleBatch], ?_⟩⟩
  · revert r hr
    decide +kernel
  · have hread : ∀ r ∈ sampleBatch, r.2.tapTime = "" ∧ trimSpace (r.2.foreign "OY") = "" := by
      decide +kernel
    have hplace : ∀ r ∈ sampleBatch, rowOf "1" "OY" r ∈ (sampleOffices.rows "OY").map some
        ∨ trimSpace r.2.transactionId ≠ "" ∧ idOf "1" r ∉ sampleOffices.ids "OY"
          ∧ ∀ r' ∈ sampleBatch, idOf "1" r' = idOf "1" r →
            rowOf "1" "OY" r' = rowOf "1" "OY" r := by
      decide +kernel
    intro r hr
    obtain ⟨htime, hforeign⟩ := hread r hr
    refine ⟨⟨.inl htime, hforeign⟩, (hplace r hr).imp ?_ ?_⟩
    · intro hin
      obtain ⟨row, hrow, heq⟩ := List.mem_map.mp hin
      exact ⟨row, hrow, heq.symm⟩
    · rintro ⟨hid, hnew, halike⟩
      exact ⟨⟨.inr hid, .inl htime, by decide +kernel, hforeign⟩, hnew,
        fun r' hr' _ ↦ halike r' hr'⟩

/-- A time without its `T` and a token beside the card make the back office refuse the batch, and a
blank id makes it pass over the transaction. Two taps whose ids differ in a space only are kept as
one, and the second card is lost. -/
theorem accepted_not_delivered :
    (∃ tx,
        handleTransaction "1" sampleClock { sampleRequest with tapTime := "2024-05-06 07:08:09Z" }
          = some tx ∧ (BackOffices.empty.postBatch .calm "OY" [tx]).2 = 400
        ∧ ¬Delivered .empty "OY" [tx])
      ∧ (∃ tx, handleTransaction "1" sampleClock { sampleRequest with token := "T1" } = some tx
        ∧ (BackOffices.empty.postBatch .calm "OY" [tx]).2 = 400 ∧ ¬Delivered .empty "OY" [tx])
      ∧ (∃ tx,
        handleTransaction "1" sampleClock { sampleRequest with transactionId := " " } = some tx
        ∧ (BackOffices.empty.postBatch .calm "OY" [tx]).2 = 200
        ∧ (BackOffices.empty.postBatch .calm "OY" [tx]).1.ids "OY" = []
        ∧ ¬Delivered .empty "OY" [tx])
      ∧ ∃ tx tx', handleTransaction "1" sampleClock sampleRequest = some tx
        ∧ handleTransaction "1" sampleClock
          { sampleRequest with transactionId := " t1", cardId := "C2" } = some tx'
        ∧ (BackOffices.empty.postBatch .calm "OY" [tx, tx']).2 = 200
        ∧ ((BackOffices.empty.postBatch .calm "OY" [tx, tx']).1.rows "OY").map TapRow.holder
          = ["C1"]
        ∧ ¬Delivered .empty "OY" [tx, tx'] := by
  refine ⟨⟨normalize "1" sampleClock { sampleRequest with tapTime := "2024-05-06 07:08:09Z" }, ?_⟩,
    ⟨normalize "1" sampleClock { sampleRequest with token := "T1" }, ?_⟩,
    ⟨normalize "1" sampleClock { sampleRequest with transactionId := " " }, ?_⟩,
    normalize "1" sampleClock sampleRequest,
    normalize "1" sampleClock { sampleRequest with transactionId := " t1", cardId := "C2" }, ?_⟩ <;>
  decide +kernel

end Station

end TaskDiscovery
