import TaskDiscovery.CardDb.Pa
import TaskDiscovery.Lib.Run

/-!
# Tokens for cards

`GetOrCreateToken` looks a card up, and if it has no token draws one at random, inserts it and looks
the card up again. Between any two statements of a call, statements of other calls are executed.

The insert does nothing when the card has a token by then. It fails when the drawn token belongs to
another card, because only a conflict on the card is caught. No statement of the program changes or
deletes a row of the table, so it only grows, and whatever a call has returned stays in it
(`Recorded`). Since tokens and cards are unique in the table, the calls that succeed agree.
-/

namespace TaskDiscovery

namespace CardDb

namespace TokenTable

variable (t : TokenTable)

/-- The select of `GetOrCreateToken`. -/
def tokenOf (cardId : String) : Option String :=
  (t.rows.find? fun r ↦ r.cardId = cardId).map PaToken.token

/-- The insert of `GetOrCreateToken` violates the primary key. -/
def refuses (token cardId : String) : Bool :=
  decide (cardId ∉ t.rows.map PaToken.cardId ∧ token ∈ t.rows.map PaToken.token)

variable {t}

theorem tokenOf_eq_some_iff {cardId token : String} :
    t.tokenOf cardId = some token ↔ ⟨token, cardId⟩ ∈ t.rows := by
  constructor
  · intro h
    obtain ⟨r, hfind, rfl⟩ := Option.map_eq_some_iff.mp h
    have hcard : r.cardId = cardId := by simpa using List.find?_some hfind
    rw [← hcard]
    exact List.mem_of_find?_eq_some hfind
  · intro h
    -- the row that is found is the only one with this card
    have hsome : (t.rows.find? fun r ↦ r.cardId = cardId).isSome = true := by
      rw [List.find?_isSome]
      exact ⟨_, h, by simp⟩
    obtain ⟨r, hfind⟩ := Option.isSome_iff_exists.mp hsome
    have hcard : r.cardId = cardId := by simpa using List.find?_some hfind
    have hrow := List.inj_on_of_nodup_map t.nodup_cards (List.mem_of_find?_eq_some hfind) h hcard
    rw [tokenOf, hfind, hrow, Option.map_some]

end TokenTable

/-! ## Calls and their statements -/

/-- The statement that a call executes next. -/
inductive TokenPhase
  | select
  | insert (token : String)
  | reselect

/-- A call of `GetOrCreateToken` that has not returned. -/
structure TokenCall where
  cardId : String
  phase : TokenPhase

/-- The table, the calls that are under way, and the cards and tokens of the calls that
succeeded. -/
structure TokenService where
  table : TokenTable
  calls : List TokenCall
  returned : List PaToken

inductive TokenEvent
  /-- A call begins. -/
  | call (cardId : String)
  /-- A call executes its next statement. `drawn` is the token it draws if it comes to that. A
  statement that fails ends the call; it may have taken effect. -/
  | execute (i : ℕ) (drawn : String) (ok landed : Bool)

namespace TokenService

variable (w : TokenService)

def start (table : TokenTable) : TokenService := ⟨table, [], []⟩

/-- A call returns an error. -/
def drop (i : ℕ) : TokenService := { w with calls := w.calls.eraseIdx i }

/-- A call returns a token. -/
def finish (i : ℕ) (cardId token : String) : TokenService :=
  { w.drop i with returned := w.returned ++ [⟨token, cardId⟩] }

/-- The next statement of a call. -/
def execute (i : ℕ) (drawn : String) (ok landed : Bool) : TokenService :=
  match w.calls[i]? with
  | none => w
  | some ⟨cardId, .select⟩ =>
    if ok then
      match w.table.tokenOf cardId with
      | some token => w.finish i cardId token
      | none => { w with calls := w.calls.set i ⟨cardId, .insert drawn⟩ }
    else w.drop i
  | some ⟨cardId, .insert token⟩ =>
    if ok then
      if w.table.refuses token cardId then w.drop i
      else
        { w with
          table := w.table.insert token cardId
          calls := w.calls.set i ⟨cardId, .reselect⟩ }
    else { w.drop i with table := if landed then w.table.insert token cardId else w.table }
  | some ⟨cardId, .reselect⟩ =>
    if ok then
      match w.table.tokenOf cardId with
      | some token => w.finish i cardId token
      | none => w.drop i
    else w.drop i

def step (w : TokenService) : TokenEvent → TokenService
  | .call cardId => { w with calls := w.calls ++ [⟨cardId, .select⟩] }
  | .execute i drawn ok landed => w.execute i drawn ok landed

/-! ## The table grows, and keeps what was returned -/

/-- What one step does: rows stay, and a token that is returned is in the table. -/
structure Grows (w w' : TokenService) : Prop where
  rows : ∀ r ∈ w.table.rows, r ∈ w'.table.rows
  returned : ∀ r ∈ w'.returned, r ∈ w.returned ∨ r ∈ w.table.rows

variable {w}

theorem Grows.of_returned_eq {w' : TokenService} (hrows : ∀ r ∈ w.table.rows, r ∈ w'.table.rows)
    (hreturned : w'.returned = w.returned) : Grows w w' :=
  ⟨hrows, fun _ hr ↦ .inl (hreturned ▸ hr)⟩

theorem grows_finish (i : ℕ) {cardId token : String} (h : w.table.tokenOf cardId = some token) :
    Grows w (w.finish i cardId token) := by
  refine ⟨fun _ hr ↦ hr, fun r hr ↦ ?_⟩
  rcases List.mem_append.mp hr with hr | hr
  · exact .inl hr
  · rw [List.mem_singleton.mp hr]
    exact .inr (TokenTable.tokenOf_eq_some_iff.mp h)

theorem grows_execute (i : ℕ) (drawn : String) (ok landed : Bool) :
    Grows w (w.execute i drawn ok landed) := by
  have hsame : ∀ r ∈ w.table.rows, r ∈ w.table.rows := fun _ hr ↦ hr
  rw [execute]
  rcases w.calls[i]? with _ | ⟨cardId, _ | token | _⟩
  · exact .of_returned_eq hsame rfl
  · -- the first select
    cases ok with
    | false => exact .of_returned_eq hsame rfl
    | true =>
      cases htoken : w.table.tokenOf cardId with
      | none =>
        simp only [htoken, if_true]
        exact .of_returned_eq hsame rfl
      | some token =>
        simp only [htoken, if_true]
        exact grows_finish i htoken
  · -- the insert
    simp only
    split_ifs
    · exact .of_returned_eq hsame rfl
    · exact .of_returned_eq (fun _ hr ↦ TokenTable.mem_insert hr ..) rfl
    · exact .of_returned_eq (fun _ hr ↦ TokenTable.mem_insert hr ..) rfl
    · exact .of_returned_eq hsame rfl
  · -- the second select
    cases ok with
    | false => exact .of_returned_eq hsame rfl
    | true =>
      cases htoken : w.table.tokenOf cardId with
      | none =>
        simp only [htoken, if_true]
        exact .of_returned_eq hsame rfl
      | some token =>
        simp only [htoken, if_true]
        exact grows_finish i htoken

theorem grows_step (w : TokenService) (e : TokenEvent) : Grows w (w.step e) := by
  cases e with
  | call cardId => exact .of_returned_eq (fun _ hr ↦ hr) rfl
  | execute i drawn ok landed => exact grows_execute i drawn ok landed

/-- What calls have returned is in the table. -/
def Recorded (w : TokenService) : Prop := ∀ r ∈ w.returned, r ∈ w.table.rows

theorem Grows.recorded {w' : TokenService} (h : Grows w w') (hw : w.Recorded) : w'.Recorded := by
  intro r hr
  rcases h.returned r hr with hr | hr
  · exact h.rows r (hw r hr)
  · exact h.rows r hr

theorem rows_exec (w : TokenService) (events : List TokenEvent) :
    ∀ r ∈ w.table.rows, r ∈ (Run.exec step w events).table.rows := by
  induction events generalizing w with
  | nil => exact fun _ hr ↦ hr
  | cons e events ih => exact fun r hr ↦ ih _ r ((grows_step w e).rows r hr)

theorem recorded_exec (table : TokenTable) (events : List TokenEvent) :
    (Run.exec step (start table) events).Recorded :=
  Run.invariant (fun w e ↦ (grows_step w e).recorded) (by simp [Recorded, start]) events

/-- **Tokens are stable and unique.** Take any interleaving of the statements of any calls. Two
calls that succeed return the same token exactly when they are for the same card, and a card that
has a token keeps it whatever happens afterwards. -/
theorem tokens_stable_unique (table : TokenTable) (events more : List TokenEvent) :
    let w := Run.exec step (start table) events
    let w' := Run.exec step (start table) (events ++ more)
    (∀ r ∈ w'.returned, ∀ r' ∈ w'.returned, r.cardId = r'.cardId ↔ r.token = r'.token)
      ∧ ∀ cardId token, w.table.tokenOf cardId = some token →
        w'.table.tokenOf cardId = some token := by
  intro w w'
  constructor
  · intro r hr r' hr'
    have hrow := recorded_exec table (events ++ more) r hr
    have hrow' := recorded_exec table (events ++ more) r' hr'
    constructor
    · intro hcard
      rw [List.inj_on_of_nodup_map w'.table.nodup_cards hrow hrow' hcard]
    · intro htoken
      rw [List.inj_on_of_nodup_map w'.table.nodup_tokens hrow hrow' htoken]
  · intro cardId token htoken
    have hw' : w' = Run.exec step w more := Run.exec_append ..
    rw [TokenTable.tokenOf_eq_some_iff] at htoken ⊢
    rw [hw']
    exact rows_exec w more _ htoken

/-- Two calls for one card find no token, draw different ones, and return that of the first
insert. -/
example : (Run.exec step (start .empty)
    [.call "C", .call "C", .execute 0 "a" true false, .execute 1 "b" true false,
      .execute 1 "" true false, .execute 0 "" true false, .execute 0 "" true false,
      .execute 0 "" true false]).returned = [⟨"b", "C"⟩, ⟨"b", "C"⟩] := by
  decide +kernel

end TokenService

end CardDb

end TaskDiscovery
