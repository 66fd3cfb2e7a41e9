import TaskDiscovery.CardDb.Backlog

/-!
# Fares of tokens and of cards

`RunPCTRJourneyConstruction` is written after `RunJourneyConstruction`. It works on the taps of a
token instead of a card, and where the card is debited it inserts a debt.

What the tables of the PCTR back office hold about a token can be read as tables of the card service
with a single card, whose balance is what the token owes, below zero (`PctrStore.ReadsAs`). Read
like this, each pair of taps does to the one what it does to the other, so that the transaction of a
token is one of a card (`ReadsAs.constructToken`). How an account is cleared is determined by its
taps and the fares, and therefore the two agree (`fares_agree`).
-/

namespace TaskDiscovery

namespace CardDb

namespace PctrStore

/-! ## `RunPCTRJourneyConstruction` -/

/-- What the loops carry: the tables, the number of journeys and that of statements. -/
structure Progress where
  store : PctrStore
  journeys : ℕ
  statements : ℕ

variable (wt : Weather)

/-- The loop over the pairs of taps, when statements may fail. -/
def tryPairs (token : String) : List PctrTap → Progress → Except ℕ Progress
  | from' :: to' :: taps, p =>
    if (wt.outcome p.statements).ok then
      match p.store.getStationCostCents from'.station to'.station with
      | none =>
        if (wt.outcome (p.statements + 1)).ok then
          tryPairs token taps
            { store := p.store.markProcessed from'.transactionId to'.transactionId 0
                (some "missing cost"),
              journeys := p.journeys, statements := p.statements + 2 }
        else .error p.journeys
      | some cost =>
        if (wt.outcome (p.statements + 1)).ok ∧ (wt.outcome (p.statements + 2)).ok then
          tryPairs token taps
            { store := (p.store.insertDebt token cost).markProcessed from'.transactionId
                to'.transactionId cost none,
              journeys := p.journeys + 1, statements := p.statements + 3 }
        else .error p.journeys
    else .error p.journeys
  | _, p => .ok p

/-- The transaction of one token: what the next one starts from, or what an error leaves behind. -/
def tryToken (token : String) (p : Progress) : Except (PctrStore × ℕ) Progress :=
  if (wt.outcome p.statements).ok then
    let o := wt.outcome (p.statements + 1)
    -- the loop over the taps does not look at `rows.Err`
    match o.read (p.store.unprocessedTaps token) with
    | none => .error (p.store, p.journeys)
    | some taps =>
      if taps.length < 2 then .ok { p with statements := p.statements + 2 }
      -- taps that break off leave a transaction that Postgres has aborted
      else if ¬o.ok then .error (p.store, p.journeys)
      else
        match tryPairs wt token taps { p with statements := p.statements + 2 } with
        | .error journeys => .error (p.store, journeys)
        | .ok q =>
          if (wt.outcome q.statements).ok then .ok { q with statements := q.statements + 1 }
          else .error (if wt.landed q.statements then q.store else p.store, q.journeys)
  else .error (p.store, p.journeys)

def tryTokens : List String → Progress → Except (PctrStore × ℕ) Progress
  | [], p => .ok p
  | token :: tokens, p =>
    match tryToken wt token p with
    | .error left => .error left
    | .ok p => tryTokens tokens p

/-- `RunPCTRJourneyConstruction`: the tables afterwards, the number of journeys, and whether there
was no error. -/
def runPCTRJourneyConstruction (s : PctrStore) : PctrStore × ℕ × Bool :=
  if (wt.outcome 0).ok then
    match tryTokens wt s.tokensToConstruct ⟨s, 0, 1⟩ with
    | .ok p => (p.store, p.journeys, true)
    | .error (store, journeys) => (store, journeys, false)
  else (s, 0, false)

variable {wt} {s : PctrStore} {token : String}

/-- A loop over the pairs that does not fail is that of `journeyPairs`. -/
theorem tryPairs_ok {taps : List PctrTap} {p q : Progress} (h : tryPairs wt token taps p = .ok q) :
    q.store = (journeyPairs token taps p.store).1
      ∧ q.journeys = p.journeys + (journeyPairs token taps p.store).2 := by
  fun_induction tryPairs wt token taps p with
  | case1 p from' to' taps hok hcost hok' ih =>
    simp only [journeyPairs, hcost]
    exact ih h
  | case2 p from' to' taps hok hcost hok' => cases h
  | case3 p from' to' taps hok cost hcost hok' ih =>
    obtain ⟨hstore, hjourneys⟩ := ih h
    simp only [journeyPairs, hcost]
    refine ⟨hstore, ?_⟩
    rw [hjourneys]
    simp only
    omega
  | case4 p from' to' taps hok cost hcost hok' => cases h
  | case5 p from' to' taps hok => cases h
  | case6 taps p hshort =>
    cases h
    rw [journeyPairs.eq_2 _ _ _ hshort]
    exact ⟨rfl, rfl⟩

/-- A transaction that does not fail is that of `constructToken`. -/
theorem tryToken_ok (hwhole : wt.Whole) {p q : Progress} (h : tryToken wt token p = .ok q) :
    q.store = (p.store.constructToken token).1
      ∧ q.journeys = p.journeys + (p.store.constructToken token).2 := by
  rw [tryToken] at h
  split_ifs at h with hbegin
  simp only at h
  rw [constructToken]
  cases ho : wt.outcome (p.statements + 1) with
  | failed => simp [ho, Outcome.read] at h
  | cut k => exact absurd ho (hwhole _ k)
  | done =>
    simp only [ho, Outcome.read] at h
    split_ifs at h with hfew
    · cases h
      simp [hfew]
    · simp only [hfew, if_false]
      cases hpairs : tryPairs wt token (p.store.unprocessedTaps token)
          { p with statements := p.statements + 2 } with
      | error journeys => simp [hpairs] at h
      | ok q' =>
        simp only [hpairs] at h
        split_ifs at h
        cases h
        have hdone := tryPairs_ok hpairs
        exact hdone

/-! ## Tokens read as cards -/

/-- What the debts of a token come to. -/
def owed (s : PctrStore) (token : String) : Int :=
  ((s.debts.filter fun d ↦ d.token = token).map PctrDebt.amount).sum

theorem owed_of_append {p p' : PctrStore} {token : String} {added : List PctrDebt}
    (hdebts : p'.debts = p.debts ++ added) (hadded : ∀ d ∈ added, d.token = token) :
    p'.owed token = p.owed token + (added.map PctrDebt.amount).sum := by
  have hall : added.filter (fun d ↦ decide (d.token = token)) = added :=
    List.filter_eq_self.mpr fun d hd ↦ decide_eq_true (hadded d hd)
  rw [owed, hdebts, List.filter_append, List.map_append, List.sum_append, hall]
  rfl

/-- The rows of a token. -/
def tapsOf (s : PctrStore) (token : String) : List PctrTap :=
  s.transactions.filter fun tap ↦ tap.token = token

end PctrStore

/-- The tap of a token as that of a card. -/
def PctrTap.toCsTap (cardId : String) (tap : PctrTap) : CsTap where
  transactionId := tap.transactionId
  cardId := cardId
  station := tap.station
  tapTime := tap.tapTime
  processed := tap.processed
  journeyCost := tap.journeyCost
  errorReason := tap.errorReason

namespace PctrStore

variable {wt : Weather} {token cardId : String}

/-- Tables of the card service that say about a card what those of the PCTR back office say about a
token. -/
structure ReadsAs (token cardId : String) (p : PctrStore) (s : CsStore) : Prop where
  transactions : s.transactions = (p.tapsOf token).map (PctrTap.toCsTap cardId)
  stationCosts : s.stationCosts = p.stationCosts
  balance : s.cards.lookup cardId = some (-p.owed token)

namespace ReadsAs

variable {p : PctrStore} {s : CsStore}

theorem exists_of_nodup (token cardId : String) (hids : p.ids.Nodup) :
    ∃ s, ReadsAs token cardId p s := by
  have hnodup : (((p.tapsOf token).map (PctrTap.toCsTap cardId)).map
      CsTap.transactionId).Nodup := by
    rw [List.map_map]
    exact hids.sublist (List.filter_sublist.map _)
  exact ⟨⟨AList.singleton cardId (-p.owed token), _, hnodup, p.stationCosts, p.collation⟩, rfl, rfl,
    AList.lookup_insert (s := ∅) ..⟩

theorem getStationCostCents_eq (h : ReadsAs token cardId p s) :
    s.getStationCostCents = p.getStationCostCents := by
  funext a b
  rw [CsStore.getStationCostCents, h.stationCosts]
  rfl

theorem taps_account (h : ReadsAs token cardId p s) :
    (s.account cardId).taps = (p.tapsOf token).map (PctrTap.toCsTap cardId) := by
  rw [CsStore.account, h.transactions]
  exact List.filter_eq_self.mpr fun tap htap ↦ by
    obtain ⟨tap', -, rfl⟩ := List.mem_map.mp htap
    exact decide_eq_true rfl

theorem unprocessedTaps_eq (h : ReadsAs token cardId p s) :
    s.unprocessedTaps cardId = (p.unprocessedTaps token).map (PctrTap.toCsTap cardId) := by
  have hfilter : (p.transactions.filter fun tap ↦ tap.token = token && !tap.processed)
      = (p.tapsOf token).filter fun tap ↦ !tap.processed := by
    rw [tapsOf, List.filter_filter]
    exact List.filter_congr fun tap _ ↦ Bool.and_comm _ _
  rw [← CsStore.unprocessed_account, Account.unprocessed, h.taps_account, List.filter_map,
    unprocessedTaps, hfilter]
  exact (List.map_insertionSort (fun a b : PctrTap ↦ a.tapTime ≤ b.tapTime)
    (fun a b : CsTap ↦ a.tapTime ≤ b.tapTime) _ _ fun _ _ _ _ ↦ Iff.rfl).symm

theorem transactions_markProcessed (h : ReadsAs token cardId p s) (id id' : String) (cost : Int)
    (reason : Option String) :
    (s.markProcessed id id' cost reason).transactions
      = ((p.markProcessed id id' cost reason).tapsOf token).map (PctrTap.toCsTap cardId) := by
  change s.transactions.map _ = _
  simp only [h.transactions, tapsOf, PctrStore.markProcessed, List.map_map, List.filter_map]
  have htokens : ((fun tap : PctrTap ↦ decide (tap.token = token)) ∘ fun tap ↦
      if tap.transactionId = id ∨ tap.transactionId = id' then
        { tap with processed := true, journeyCost := some cost, errorReason := reason }
      else tap) = fun tap ↦ decide (tap.token = token) := by
    funext tap
    simp only [Function.comp_apply]
    split_ifs <;> rfl
  rw [htokens]
  -- the marks go by transaction id, which both readings of a tap have in common
  refine List.map_congr_left fun tap _ ↦ ?_
  simp only [Function.comp_apply]
  split_ifs with hid hid' hid'
  · rfl
  · exact absurd hid hid'
  · exact absurd hid' hid
  · rfl

theorem missingCost (h : ReadsAs token cardId p s) (from' to' : PctrTap) :
    ReadsAs token cardId
      (p.markProcessed from'.transactionId to'.transactionId 0 (some "missing cost"))
      (CsStore.chargeJourney cardId s ⟨from'.toCsTap cardId, to'.toCsTap cardId, none⟩) where
  transactions := h.transactions_markProcessed _ _ _ _
  stationCosts := h.stationCosts
  balance := h.balance

/-- A pair with a fare: what is debited there is added to the debts here. -/
theorem charged (h : ReadsAs token cardId p s) (from' to' : PctrTap) (cost : Int) :
    ReadsAs token cardId
      ((p.insertDebt token cost).markProcessed from'.transactionId to'.transactionId cost none)
      (CsStore.chargeJourney cardId s ⟨from'.toCsTap cardId, to'.toCsTap cardId, some cost⟩) where
  transactions := h.transactions_markProcessed _ _ _ _
  stationCosts := h.stationCosts
  balance := by
    have howed : ((p.insertDebt token cost).markProcessed from'.transactionId to'.transactionId cost
        none).owed token = p.owed token + cost := by
      refine (owed_of_append rfl (by simp)).trans ?_
      rw [List.map_singleton, List.sum_singleton]
    have hlookup := Journey.lookup_debited ⟨from'.toCsTap cardId, to'.toCsTap cardId, some cost⟩
      cardId s.cards
    rw [h.balance, Option.map_some] at hlookup
    rw [howed]
    refine hlookup.trans (congrArg some ?_)
    simp only [Journey.fare, Option.getD_some]
    omega

theorem journeyPairs (h : ReadsAs token cardId p s) (taps : List PctrTap) :
    ∃ s', CsStore.Charges cardId (taps.map (PctrTap.toCsTap cardId)) s s'
      ∧ ReadsAs token cardId (PctrStore.journeyPairs token taps p).1 s' := by
  fun_induction PctrStore.journeyPairs token taps p generalizing s with
  | case1 from' to' taps p hcost ih =>
    obtain ⟨s', hcharges, hreads⟩ := ih (h.missingCost from' to')
    refine ⟨s', .cons ?_ hcharges, hreads⟩
    rw [h.getStationCostCents_eq]
    exact hcost
  | case2 from' to' taps p cost hcost p' journeys hrest ih =>
    obtain ⟨s', hcharges, hreads⟩ := ih (h.charged from' to' cost)
    rw [hrest] at hreads
    refine ⟨s', .cons ?_ hcharges, hreads⟩
    rw [h.getStationCostCents_eq]
    exact hcost
  | case3 taps p hshort =>
    refine ⟨s, ⟨[], taps.map _, rfl, ?_, by simp, rfl⟩, h⟩
    rw [List.length_map]
    exact List.length_le_one_of_ne_cons_cons hshort

end ReadsAs

theorem journeyPairs_snd (taps : List PctrTap) (p : PctrStore) :
    (journeyPairs token taps p).2 = taps.pairOff.countP fun pair ↦
      (p.getStationCostCents pair.1.station pair.2.station).isSome := by
  fun_induction journeyPairs token taps p with
  | case1 p from' to' taps hcost ih =>
    rw [ih, List.pairOff, List.countP_cons_of_neg (by simp [hcost])]
    rfl
  | case2 p from' to' taps cost hcost p' journeys hrest ih =>
    rw [hrest] at ih
    rw [List.pairOff, List.countP_cons_of_pos (by simp [hcost])]
    exact congrArg (· + 1) ih
  | case3 taps p hshort =>
    rw [List.pairOff_of_ne_cons_cons hshort]
    rfl

/-- **The transaction of a token is that of a card.** -/
theorem ReadsAs.constructToken {p : PctrStore} {s : CsStore} (h : ReadsAs token cardId p s) :
    (∃ s', ReadsAs token cardId (p.constructToken token).1 s'
        ∧ (s.account cardId).Clears p.getStationCostCents (s'.account cardId))
      ∧ (p.constructToken token).2
        = ((s.account cardId).journeys p.getStationCostCents).countP Journey.paid := by
  have hcount : ((s.account cardId).journeys p.getStationCostCents).countP Journey.paid
      = (p.unprocessedTaps token).pairOff.countP fun pair ↦
        (p.getStationCostCents pair.1.station pair.2.station).isSome := by
    rw [Account.journeys, CsStore.unprocessed_account, h.unprocessedTaps_eq, List.pairOff_map,
      List.map_map, List.countP_map]
    rfl
  have hknown : (s.cards.lookup cardId).isSome = true := by
    rw [h.balance]
    rfl
  rw [PctrStore.constructToken, hcount, ← h.getStationCostCents_eq]
  split_ifs with hfew
  · have hshort : (s.account cardId).unprocessed.length ≤ 1 := by
      rw [CsStore.unprocessed_account, h.unprocessedTaps_eq, List.length_map]
      exact Nat.le_of_lt_succ hfew
    refine ⟨⟨s, h, ((Account.Settles.refl _ _).clears hshort).2⟩, ?_⟩
    rw [List.pairOff_of_length_lt hfew]
    rfl
  · obtain ⟨s', hcharges, hreads⟩ := h.journeyPairs (p.unprocessedTaps token)
    rw [← h.unprocessedTaps_eq] at hcharges
    obtain ⟨journeys, rest, hsettles, hshort⟩ := CsStore.Commits.settles_of_charges hknown hcharges
    refine ⟨⟨s', hreads, (hsettles.clears hshort).2⟩, ?_⟩
    rw [h.getStationCostCents_eq]
    exact journeyPairs_snd _ p

theorem mem_tokensToConstruct {p : PctrStore} {t : String} :
    t ∈ p.tokensToConstruct ↔ 2 ≤ (p.unprocessedTaps t).length := by
  rw [tokensToConstruct, List.mem_insertionSort, unprocessedTaps, List.length_insertionSort]
  exact List.mem_having PctrTap.token Nat.zero_lt_two

/-- A run without an error, when only one token can have journeys. -/
theorem runPCTRJourneyConstruction_of_single {p : PctrStore} (hwhole : wt.Whole)
    (hothers : ∀ t, t ≠ token → (p.unprocessedTaps t).length < 2)
    (hok : (p.runPCTRJourneyConstruction wt).2.2 = true) :
    (p.runPCTRJourneyConstruction wt).1 = (p.constructToken token).1
      ∧ (p.runPCTRJourneyConstruction wt).2.1 = (p.constructToken token).2 := by
  have hnodup : p.tokensToConstruct.Nodup :=
    (List.perm_insertionSort _ _).nodup_iff.mpr ((List.nodup_dedup _).filter _)
  have honly : ∀ t ∈ p.tokensToConstruct, t = token := by
    intro t ht
    by_contra hne
    exact absurd (mem_tokensToConstruct.mp ht) (Nat.not_le_of_lt (hothers t hne))
  rw [runPCTRJourneyConstruction] at hok ⊢
  split_ifs at hok ⊢ with hquery
  -- the loop has one turn at most
  rcases hnodup.eq_nil_or_singleton honly with hnil | hsingle
  · have hfew : (p.unprocessedTaps token).length < 2 := by
      rw [← Nat.not_le, ← mem_tokensToConstruct, hnil]
      simp
    simp [hnil, tryTokens, constructToken, hfew]
  · rw [hsingle, tryTokens] at hok ⊢
    cases htoken : tryToken wt token ⟨p, 0, 1⟩ with
    | error left => simp [htoken] at hok
    | ok q =>
      obtain ⟨hstore, hjourneys⟩ := tryToken_ok hwhole htoken
      rw [Nat.zero_add] at hjourneys
      exact ⟨hstore, hjourneys⟩

end PctrStore

namespace CsStore

variable {wt : Weather} {s : CsStore} {cardId : String}

/-- A run without an error counts the paid journeys of a card, when only that card can have any. -/
theorem journeys_runJourneyConstruction (hwhole : wt.Whole)
    (hothers : ∀ c, c ≠ cardId → (s.unprocessedTaps c).length < 2)
    (hknown : (s.cards.lookup cardId).isSome = true)
    (hok : (s.runJourneyConstruction wt).2.2 = true) :
    (s.runJourneyConstruction wt).2.1
      = ((s.account cardId).journeys s.getStationCostCents).countP Journey.paid := by
  obtain ⟨q, hcards, -, hjourneys⟩ := runJourneyConstruction_ok hok
  have honly : ∀ c ∈ s.cardsToConstruct, c = cardId := by
    intro c hc
    by_contra hne
    exact absurd (mem_cardsToConstruct.mp hc) (Nat.not_le_of_lt (hothers c hne))
  rw [hjourneys]
  rcases s.nodup_cardsToConstruct.eq_nil_or_singleton honly with hnil | hsingle
  · have hfew : (s.unprocessedTaps cardId).length < 2 := by
      rw [← Nat.not_le, ← mem_cardsToConstruct, hnil]
      simp
    rw [hnil, constructCards] at hcards
    cases hcards
    rw [Account.journeys, unprocessed_account, List.pairOff_of_length_lt hfew]
    rfl
  · rw [hsingle, constructCards] at hcards
    cases hcard : constructCard wt cardId ⟨s, 0, 1⟩ with
    | error left => simp [hcard] at hcards
    | ok q' =>
      simp only [hcard, constructCards] at hcards
      cases hcards
      have hcount := (constructCard_clears hwhole hcard hknown).2
      rwa [Nat.zero_add] at hcount

end CsStore

/-! ## The two runs -/

/-- Rows for the same two stations, in one direction or the other. -/
def StationCost.Same (c c' : StationCost) : Prop :=
  c.fromStation = c'.fromStation ∧ c.toStation = c'.toStation
    ∨ c.fromStation = c'.toStation ∧ c.toStation = c'.fromStation

/-- The same taps at different times, recorded under a token here and under a card there, with the
same fares. No other token or card has enough taps for a journey. -/
structure SameTaps (token cardId : String) (p : PctrStore) (s : CsStore) : Prop where
  ids : p.ids.Nodup
  taps : ((p.tapsOf token).map (PctrTap.toCsTap cardId)).Perm (s.account cardId).taps
  times : ((s.account cardId).taps.map CsTap.tapTime).Nodup
  costs : p.stationCosts.Perm s.stationCosts
  single : s.stationCosts.Pairwise fun c c' ↦ ¬c.Same c'
  tokens : ∀ t, t ≠ token → (p.unprocessedTaps t).length < 2
  cards : ∀ c, c ≠ cardId → (s.unprocessedTaps c).length < 2

namespace SameTaps

variable {token cardId : String} {p : PctrStore} {s : CsStore}

theorem getStationCostCents_eq (h : SameTaps token cardId p s) :
    p.getStationCostCents = s.getStationCostCents := by
  have hsymm : Std.Symm fun c c' : StationCost ↦ ¬c.Same c' :=
    ⟨fun c c' hne hsame ↦ hne (by simp only [StationCost.Same] at hsame ⊢; grind)⟩
  funext a b
  refine congrArg (Option.map StationCost.cost) (h.costs.find?_eq fun c hc c' hc' hq hq' ↦ ?_)
  by_contra hne
  refine h.single.forall (h.costs.mem_iff.mp hc) (h.costs.mem_iff.mp hc') hne ?_
  simp only [StationCost.Same, decide_eq_true_eq] at hq hq' ⊢
  grind

end SameTaps

/-- **Fares of tokens and of cards agree.** Of the same taps, the two runs process the same with the
same fares and reasons and report the same number of journeys. The debts that are added for the
token are what the card is debited by. -/
theorem fares_agree {token cardId : String} {p : PctrStore} {s : CsStore} {wt wt' : Weather}
    {balance : Int} (h : SameTaps token cardId p s)
    (hbalance : s.cards.lookup cardId = some balance) (hwhole : wt.Whole) (hwhole' : wt'.Whole)
    (hok : (p.runPCTRJourneyConstruction wt).2.2 = true)
    (hok' : (s.runJourneyConstruction wt').2.2 = true) :
    (((p.runPCTRJourneyConstruction wt).1.tapsOf token).map (PctrTap.toCsTap cardId)).Perm
        ((s.runJourneyConstruction wt').1.account cardId).taps
      ∧ (p.runPCTRJourneyConstruction wt).2.1 = (s.runJourneyConstruction wt').2.1
      ∧ ∃ (added : List PctrDebt) (balance' : Int),
        (p.runPCTRJourneyConstruction wt).1.debts = p.debts ++ added
          ∧ (∀ d ∈ added, d.token = token)
          ∧ (s.runJourneyConstruction wt').1.cards.lookup cardId = some balance'
          ∧ (added.map PctrDebt.amount).sum = balance - balance' := by
  have hknown : (s.cards.lookup cardId).isSome = true := by
    rw [hbalance]
    rfl
  obtain ⟨hstore, hjourneys⟩ := PctrStore.runPCTRJourneyConstruction_of_single hwhole h.tokens hok
  have hjourneys' := CsStore.journeys_runJourneyConstruction hwhole' h.cards hknown hok'
  have hclears' := CsStore.runJourneyConstruction_clears hwhole' hok' hknown
  -- the token, read as a card
  obtain ⟨s₀, hreads⟩ := PctrStore.ReadsAs.exists_of_nodup token cardId h.ids
  obtain ⟨⟨s₁, hreads', hclears⟩, hcount⟩ := hreads.constructToken
  rw [h.getStationCostCents_eq] at hclears hcount
  have htaps : (s₀.account cardId).taps.Perm (s.account cardId).taps := by
    rw [hreads.taps_account]
    exact h.taps
  obtain ⟨hsame, hafter⟩ := hclears.agree hclears' htaps h.times
  rw [hreads'.taps_account] at hafter
  refine ⟨hstore ▸ hafter, ?_, ?_⟩
  · rw [hjourneys, hjourneys', hcount, hsame]
  obtain ⟨added, hdebts, hadded⟩ := (PctrStore.Extends.constructToken p token).debts
  refine ⟨added, balance - (((s.account cardId).journeys s.getStationCostCents).map
    Journey.fare).sum, hstore ▸ hdebts, fun d hd ↦ (hadded d hd).1, ?_, ?_⟩
  · have hdebited := hclears'.balance
    rwa [show (s.account cardId).balance = some balance from hbalance, Option.map_some]
      at hdebited
  · have howed : (p.constructToken token).1.owed token
        = p.owed token + (added.map PctrDebt.amount).sum :=
      PctrStore.owed_of_append hdebts fun d hd ↦ (hadded d hd).1
    have hbefore : (s₀.account cardId).balance = some (-p.owed token) := hreads.balance
    have hdebited : (s₁.account cardId).balance = some (-(p.constructToken token).1.owed token) :=
      hreads'.balance
    rw [hclears.balance, hbefore, Option.map_some, Option.some.injEq, howed, hsame] at hdebited
    omega

/-- Five taps: a journey, a pair without a fare, and one tap left over. -/
def fiveTaps : List PctrTap :=
  [{ transactionId := "t1", token := "tok", station := "A", tapTime := 1 },
    { transactionId := "t2", token := "tok", station := "B", tapTime := 2 },
    { transactionId := "t3", token := "tok", station := "B", tapTime := 3 },
    { transactionId := "t4", token := "tok", station := "C", tapTime := 4 },
    { transactionId := "t5", token := "tok", station := "A", tapTime := 5 }]

def underToken : PctrStore where
  transactions := fiveTaps
  stationCosts := [{ fromStation := "B", toStation := "A", cost := 250 }]
  debts := []
  nextId := 1
  collation := .codePoint

/-- The taps under a card, stored in the opposite order. -/
def underCard : CsStore where
  cards := AList.singleton "c1" 1000
  transactions := (fiveTaps.map (PctrTap.toCsTap "c1")).reverse
  nodup_ids := by decide
  stationCosts := [{ fromStation := "B", toStation := "A", cost := 250 }]
  collation := .codePoint

theorem underToken_sameTaps : SameTaps "tok" "c1" underToken underCard where
  ids := by decide
  taps := by
    have htoken : (underToken.tapsOf "tok").map (PctrTap.toCsTap "c1")
        = fiveTaps.map (PctrTap.toCsTap "c1") := rfl
    have hcard : (underCard.account "c1").taps = (fiveTaps.map (PctrTap.toCsTap "c1")).reverse := by
      decide +kernel
    rw [htoken, hcard]
    exact (List.reverse_perm _).symm
  times := by decide +kernel
  costs := List.Perm.refl _
  single := by simp [underCard]
  tokens t ht := by simp [PctrStore.unprocessedTaps, underToken, fiveTaps, Ne.symm ht]
  cards c hc := by
    simp [CsStore.unprocessedTaps, underCard, fiveTaps, PctrTap.toCsTap, Ne.symm hc]

/-- Both sides report one journey, and the token owes what the card has paid. -/
theorem fiveTaps_agree :
    (underToken.runPCTRJourneyConstruction .calm).2.1 = (underCard.runJourneyConstruction .calm).2.1
      ∧ (underToken.runPCTRJourneyConstruction .calm).2 = (1, true)
      ∧ (underCard.runJourneyConstruction .calm).1.cards.lookup "c1" = some 750 :=
  ⟨(fares_agree underToken_sameTaps rfl Weather.calm_whole Weather.calm_whole (by decide +kernel)
    (by decide +kernel)).2.1, by decide +kernel, by decide +kernel⟩

end CardDb

end TaskDiscovery
