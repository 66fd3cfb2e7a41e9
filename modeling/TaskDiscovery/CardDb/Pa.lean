import TaskDiscovery.CardDb.Pctr

/-!
# The tables of the payment authority

`pa.go` keeps the tokens that stand for cards, and the debts that the back office has sent. A debt
is outstanding until a restitution has exported it.

`BuildRestitution` runs two queries. The first joins the outstanding debts with the tokens and
returns one sum for each token that is known; the second returns the ids of all outstanding debts.
As in the back office, a sum comes with the charges it was taken over. The charges of the first
query are those of all outstanding debts when every token is known (`charges_owedByCard`).
-/

namespace TaskDiscovery

namespace CardDb

/-- A row of `pctr_tokens`. -/
structure PaToken where
  token : String
  cardId : String
  deriving DecidableEq

/-- The table `pctr_tokens`: a token stands for one card, and a card has one token. -/
structure TokenTable where
  rows : List PaToken
  nodup_tokens : (rows.map PaToken.token).Nodup
  nodup_cards : (rows.map PaToken.cardId).Nodup

/-- A row of `pa_debts`. -/
structure PaDebt where
  id : ℕ
  token : String
  amount : Int
  exported : Bool
  deriving DecidableEq

def PaDebt.charge (d : PaDebt) : Charge := (d.id, d.amount)

/-- The database of the payment authority. -/
structure PaStore where
  tokens : TokenTable
  debts : List PaDebt
  nextId : ℕ
  collation : Collation

/-- `RestitutionRow`, with the debts it sums up. -/
structure RestitutionRow where
  cardId : String
  amount : Int
  charges : List Charge
  deriving DecidableEq

namespace TokenTable

def empty : TokenTable := ⟨[], List.nodup_nil, List.nodup_nil⟩

/-- The insert of `GetOrCreateToken`. A card that has a token keeps it, and a token that is taken is
refused. -/
def insert (t : TokenTable) (token cardId : String) : TokenTable :=
  if h : token ∉ t.rows.map PaToken.token ∧ cardId ∉ t.rows.map PaToken.cardId then
    { rows := t.rows ++ [⟨token, cardId⟩]
      nodup_tokens := by
        rw [List.map_append]
        exact t.nodup_tokens.append (List.nodup_singleton _) (by simpa using h.1)
      nodup_cards := by
        rw [List.map_append]
        exact t.nodup_cards.append (List.nodup_singleton _) (by simpa using h.2) }
  else t

theorem mem_insert {t : TokenTable} {r : PaToken} (h : r ∈ t.rows) (token cardId : String) :
    r ∈ (t.insert token cardId).rows := by
  rw [insert]
  split_ifs
  · exact List.mem_append_left _ h
  · exact h

end TokenTable

namespace PaStore

variable (s : PaStore)

/-- The statement of `InsertDebts`. -/
def insertDebt (token : String) (amount : Int) : PaStore :=
  { s with
    debts := s.debts ++ [{ id := s.nextId, token := token, amount := amount, exported := false }]
    nextId := s.nextId + 1 }

def total : Int := (s.debts.map PaDebt.amount).sum

@[simp] theorem total_insertDebt (token : String) (amount : Int) :
    (s.insertDebt token amount).total = s.total + amount := by
  simp [total, insertDebt]

/-! ## Restitution -/

/-- The rows with `exported_at IS NULL`. -/
def outstanding : List PaDebt := s.debts.filter fun d ↦ !d.exported

/-- The rows of `pctr_tokens` that have outstanding debts, by card. -/
def owingTokens : List PaToken :=
  (s.tokens.rows.insertionSort fun a b ↦ s.collation.le a.cardId b.cardId = true).filter fun t ↦
    (s.outstanding.filter fun d ↦ d.token = t.token) ≠ []

/-- The sum query of `BuildRestitution`, with the card of each sum. -/
def owedByCard : List RestitutionRow :=
  s.owingTokens.map fun t ↦
    let rows := s.outstanding.filter fun d ↦ d.token = t.token
    { cardId := t.cardId, amount := (rows.map PaDebt.amount).sum,
      charges := rows.map PaDebt.charge }

/-- The body `byCard[cardID] += owed` of the loop over the sums. -/
def addOwed (m : AList fun _ : String ↦ RestitutionRow) (r : RestitutionRow) :
    AList fun _ : String ↦ RestitutionRow :=
  let old := (m.lookup r.cardId).getD ⟨r.cardId, 0, []⟩
  m.insert r.cardId ⟨r.cardId, old.amount + r.amount, old.charges ++ r.charges⟩

/-- The map `byCard` after the loop. -/
def byCard (rows : List RestitutionRow) : AList fun _ : String ↦ RestitutionRow :=
  rows.foldl addOwed ∅

/-- The first half of `BuildRestitution`. Scanning fails on a sum that is no `int64`, and the loop
over the map returns the cards in an order the language leaves open. -/
def restitution (ord : RangeOrder (Sigma fun _ : String ↦ RestitutionRow)) :
    Option (List RestitutionRow) :=
  if s.owedByCard.all fun r ↦ fitsInt64 r.amount then
    some ((ord.arrange (byCard s.owedByCard).entries).map Sigma.snd)
  else none

/-- The second half of `BuildRestitution`. -/
def outstandingIds : List ℕ := s.outstanding.map PaDebt.id

/-- The chunks of at most 500 ids in which `MarkDebtsExported` updates. -/
def exportChunks (ids : List ℕ) : List (List ℕ) := ids.blocks 500

/-- The update of one chunk. -/
def markExported (ids : List ℕ) : PaStore :=
  { s with debts := s.debts.map fun d ↦ if d.id ∈ ids then { d with exported := true } else d }

/-! ## The charges of the debts -/

/-- The charges of the debts with a property. -/
def charges (p : PaDebt → Bool) : List Charge := (s.debts.filter p).map PaDebt.charge

variable {s}

theorem charges_insertDebt {p : PaDebt → Bool} {token : String} {amount : Int}
    (hp : p ⟨s.nextId, token, amount, false⟩ = false) :
    (s.insertDebt token amount).charges p = s.charges p := by
  simp [charges, insertDebt, hp]

theorem charges_markExported (ids rest : List ℕ) :
    (s.markExported ids).charges (fun d ↦ d.exported || decide (d.id ∈ rest))
      = s.charges fun d ↦ d.exported || decide (d.id ∈ ids ++ rest) := by
  simp only [charges, markExported, List.filter_map, List.map_map]
  have hcharge : (PaDebt.charge ∘ fun d ↦ if d.id ∈ ids then { d with exported := true } else d)
      = PaDebt.charge := by
    funext d
    simp only [Function.comp_apply]
    split_ifs <;> rfl
  rw [hcharge]
  congr 1
  refine List.filter_congr fun d _ ↦ ?_
  by_cases hd : d.id ∈ ids <;> simp [hd]

theorem charges_exported_append (ids : List ℕ) :
    (s.charges PaDebt.exported
        ++ s.charges fun d ↦ !d.exported && decide (d.id ∈ ids)).Perm
      (s.charges fun d ↦ d.exported || decide (d.id ∈ ids)) := by
  have hsplit := List.filter_append_perm PaDebt.exported
    (s.debts.filter fun d ↦ d.exported || decide (d.id ∈ ids))
  rw [List.filter_filter, List.filter_filter] at hsplit
  rw [charges, charges, ← List.map_append]
  refine List.Perm.trans (List.Perm.of_eq ?_) (hsplit.map PaDebt.charge)
  congr 2
  · refine List.filter_congr fun d _ ↦ ?_
    cases d.exported <;> simp
  · refine List.filter_congr fun d _ ↦ ?_
    cases d.exported <;> simp

theorem charges_outstandingIds :
    (s.charges fun d ↦ !d.exported && decide (d.id ∈ s.outstandingIds))
      = s.outstanding.map PaDebt.charge := by
  rw [charges, outstanding]
  congr 1
  refine List.filter_congr fun d hd ↦ ?_
  cases hexported : d.exported
  · have hmem : d.id ∈ s.outstandingIds :=
      List.mem_map_of_mem (List.mem_filter.mpr ⟨hd, by rw [hexported]; rfl⟩)
    simp [hmem]
  · rfl

/-! ## What a restitution contains -/

/-- A row of a restitution that is backed by debts: it sums up charges of debts of its card. -/
structure Backed (s : PaStore) (row : RestitutionRow) : Prop where
  amount : row.amount = (row.charges.map Prod.snd).sum
  card : ∀ c ∈ row.charges, ∃ d ∈ s.debts, d.charge = c ∧ ⟨d.token, row.cardId⟩ ∈ s.tokens.rows

theorem nodup_cards_owedByCard (s : PaStore) :
    (s.owedByCard.map RestitutionRow.cardId).Nodup := by
  have hsort := (List.perm_insertionSort
    (fun a b : PaToken ↦ s.collation.le a.cardId b.cardId = true) s.tokens.rows).map PaToken.cardId
  rw [owedByCard, List.map_map]
  exact (hsort.nodup_iff.mpr s.tokens.nodup_cards).sublist (List.filter_sublist.map _)

theorem backed_of_mem_owedByCard {row : RestitutionRow} (h : row ∈ s.owedByCard) :
    s.Backed row := by
  obtain ⟨t, ht, rfl⟩ := List.mem_map.mp h
  refine ⟨by simp only [List.map_map]; rfl, fun c hc ↦ ?_⟩
  obtain ⟨d, hd, rfl⟩ := List.mem_map.mp hc
  obtain ⟨hout, htoken⟩ := List.mem_filter.mp hd
  refine ⟨d, (List.mem_filter.mp hout).1, rfl, ?_⟩
  rw [of_decide_eq_true htoken]
  exact (List.mem_insertionSort _).mp (List.mem_filter.mp ht).1

/-- **A restitution contains every outstanding debt whose token is known.** -/
theorem charges_owedByCard
    (hknown : ∀ d ∈ s.outstanding, d.token ∈ s.tokens.rows.map PaToken.token) :
    (s.owedByCard.flatMap RestitutionRow.charges).Perm (s.outstanding.map PaDebt.charge) := by
  have hsort := (List.perm_insertionSort
    (fun a b : PaToken ↦ s.collation.le a.cardId b.cardId = true) s.tokens.rows).map PaToken.token
  have hgroups := List.flatMap_filter_perm PaDebt.token
    (hsort.nodup_iff.mpr s.tokens.nodup_tokens) fun d hd ↦ hsort.mem_iff.mpr (hknown d hd)
  refine List.Perm.trans (List.Perm.of_eq ?_) (hgroups.map PaDebt.charge)
  rw [owedByCard, List.flatMap_map, owingTokens, List.flatMap_map, List.map_flatMap]
  generalize s.tokens.rows.insertionSort
    (fun a b : PaToken ↦ s.collation.le a.cardId b.cardId = true) = tokens
  -- tokens that owe nothing contribute nothing
  induction tokens with
  | nil => rfl
  | cons t tokens ih =>
    rw [List.flatMap_cons, ← ih, List.filter_cons]
    split_ifs with hne
    · rfl
    · rw [of_not_not (mt decide_eq_true hne), List.map_nil, List.nil_append]

theorem owedByCard_eq_nil
    (hunknown : ∀ d ∈ s.outstanding, d.token ∉ s.tokens.rows.map PaToken.token) :
    s.owedByCard = [] := by
  rw [owedByCard, List.map_eq_nil_iff, owingTokens, List.filter_eq_nil_iff]
  intro t ht
  rw [List.mem_insertionSort] at ht
  have hnone : (s.outstanding.filter fun d ↦ d.token = t.token) = [] := by
    refine List.filter_eq_nil_iff.mpr fun d hd htoken ↦ hunknown d hd ?_
    rw [of_decide_eq_true htoken]
    exact List.mem_map_of_mem ht
  simp [hnone]

theorem addOwed_of_notMem {m : AList fun _ : String ↦ RestitutionRow} {r : RestitutionRow}
    (hr : r.cardId ∉ m) : addOwed m r = m.insert r.cardId r := by
  simp [addOwed, AList.lookup_eq_none.mpr hr]

theorem entries_foldl_addOwed {rows : List RestitutionRow}
    {m : AList fun _ : String ↦ RestitutionRow}
    (hnodup : (rows.map RestitutionRow.cardId).Nodup) (hnew : ∀ r ∈ rows, r.cardId ∉ m) :
    ((rows.foldl addOwed m).entries.map Sigma.snd).Perm (rows ++ m.entries.map Sigma.snd) := by
  induction rows generalizing m with
  | nil => exact List.Perm.refl _
  | cons r rows ih =>
    obtain ⟨hr, hnodup⟩ := List.nodup_cons.mp hnodup
    have hmem : r.cardId ∉ m := hnew r List.mem_cons_self
    rw [List.foldl_cons, addOwed_of_notMem hmem]
    refine (ih hnodup fun r' hr' ↦ ?_).trans ?_
    · rw [AList.mem_insert]
      rintro (heq | hmem')
      · exact hr (heq ▸ List.mem_map_of_mem hr')
      · exact hnew r' (List.mem_cons_of_mem _ hr') hmem'
    · rw [AList.entries_insert_of_notMem hmem]
      exact List.perm_middle

/-- Cards are unique, so the loop collects the sums as they are. -/
theorem entries_byCard {rows : List RestitutionRow}
    (hnodup : (rows.map RestitutionRow.cardId).Nodup) :
    ((byCard rows).entries.map Sigma.snd).Perm rows := by
  have hfold := entries_foldl_addOwed (m := ∅) hnodup fun r _ ↦ AList.notMem_empty r.cardId
  rwa [AList.empty_entries, List.map_nil, List.append_nil] at hfold

/-- What the first half of `BuildRestitution` returns, in whatever order. -/
theorem restitution_perm {ord : RangeOrder (Sigma fun _ : String ↦ RestitutionRow)}
    {rows : List RestitutionRow} (h : s.restitution ord = some rows) : rows.Perm s.owedByCard := by
  rw [restitution] at h
  split_ifs at h
  obtain rfl := Option.some.inj h
  exact ((ord.perm _).map _).trans (entries_byCard s.nodup_cards_owedByCard)

/-! ## What the statements keep -/

/-- Ids are given out once. -/
abbrev Numbered (s : PaStore) : Prop := Serial (s.debts.map PaDebt.id) s.nextId

/-- Debts and tokens stay what they are; at most, debts are exported. -/
structure Extends (s s' : PaStore) : Prop where
  debts : ∀ d ∈ s.debts, ∃ d' ∈ s'.debts, d'.charge = d.charge ∧ d'.token = d.token
  tokens : ∀ t ∈ s.tokens.rows, t ∈ s'.tokens.rows

theorem Backed.mono {s' : PaStore} {row : RestitutionRow} (h : s.Backed row) (hext : Extends s s') :
    s'.Backed row := by
  refine ⟨h.amount, fun c hc ↦ ?_⟩
  obtain ⟨d, hd, hcharge, htoken⟩ := h.card c hc
  obtain ⟨d', hd', hcharge', htoken'⟩ := hext.debts d hd
  exact ⟨d', hd', hcharge'.trans hcharge, htoken' ▸ hext.tokens _ htoken⟩

theorem Extends.insertDebt (s : PaStore) (token : String) (amount : Int) :
    Extends s (s.insertDebt token amount) :=
  ⟨fun d hd ↦ ⟨d, List.mem_append_left _ hd, rfl, rfl⟩, fun _ ht ↦ ht⟩

theorem Extends.markExported (s : PaStore) (ids : List ℕ) : Extends s (s.markExported ids) := by
  refine ⟨fun d hd ↦ ⟨_, List.mem_map_of_mem hd, ?_⟩, fun _ ht ↦ ht⟩
  split_ifs <;> exact ⟨rfl, rfl⟩

theorem numbered_insertDebt (h : s.Numbered) (token : String) (amount : Int) :
    (s.insertDebt token amount).Numbered := by
  rw [Numbered, insertDebt, List.map_append, List.map_singleton]
  exact h.append

theorem numbered_markExported (h : s.Numbered) (ids : List ℕ) : (s.markExported ids).Numbered := by
  have hids : (s.markExported ids).debts.map PaDebt.id = s.debts.map PaDebt.id := by
    rw [markExported, List.map_map]
    refine List.map_congr_left fun d _ ↦ ?_
    simp only [Function.comp_apply]
    split_ifs <;> rfl
  rw [Numbered, hids]
  exact h

theorem nodup_charges (h : s.Numbered) : (s.debts.map PaDebt.charge).Nodup := by
  refine List.Nodup.of_map Prod.fst ?_
  rw [List.map_map]
  exact h.nodup

end PaStore

end CardDb

end TaskDiscovery
