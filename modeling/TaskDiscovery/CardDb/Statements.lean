import TaskDiscovery.CardDb.Backlog

/-!
# The statements of a run

`RunJourneyConstruction` has one transaction for each card, and an error in one of them ends the
run. Whether it charges a card is decided before it starts, by the tables and by the weather. The
transactions of other cards matter only for the number of their statements and for whether they
fail, and those depend on the accounts of these cards, which nothing else touches.

So the statements are counted here without executing them: up to the first of a card (`startOf`),
and from there to the commit (`commitAt`). A run charges the card if and only if that commit takes
effect (`runJourneyConstruction_foretold`).
-/

namespace TaskDiscovery

namespace CardDb

namespace Account

variable (fare : String → String → Option Int) (wt : Weather) (a : Account)

/-- The statement after the loop over pairs of taps that begins with the `n`th, if none of its
statements fails and each balance is a `BIGINT`. -/
def pairsEnd : List (CsTap × CsTap) → Int → ℕ → Option ℕ
  | [], _, n => some n
  | (from', to') :: pairs, balance, n =>
    match fare from'.station to'.station with
    | none =>
      if (wt.outcome n).ok ∧ (wt.outcome (n + 1)).ok then pairsEnd pairs balance (n + 2) else none
    | some cost =>
      if (wt.outcome n).ok ∧ fitsInt64 (balance - cost)
          ∧ (wt.outcome (n + 1)).ok ∧ (wt.outcome (n + 2)).ok then
        pairsEnd pairs (balance - cost) (n + 3)
      else none

/-- The commit of a transaction that begins with the `n`th statement, if it comes to that. -/
def commitAt (n : ℕ) : Option ℕ :=
  if (wt.outcome n).ok ∧ (wt.outcome (n + 1)).ok ∧ (wt.outcome (n + 2)).ok
      ∧ (wt.outcome (n + 3)).ok then
    a.balance.bind fun balance ↦ pairsEnd fare wt a.unprocessed.pairOff balance (n + 4)
  else none

/-- The statement after a transaction that begins with the `n`th, if it ends without an error. A
card without a balance is passed over, and so is one with less than two taps that could be read. -/
def cardEnd (n : ℕ) : Option ℕ :=
  if (wt.outcome n).ok ∧ (wt.outcome (n + 1)).ok ∧ (wt.outcome (n + 2)).ok then
    if a.balance = none then some (n + 3)
    else
      ((wt.outcome (n + 3)).read a.unprocessed).bind fun taps ↦
        if taps.length < 2 then some (n + 4)
        else (a.commitAt fare wt n).bind fun m ↦ if (wt.outcome m).ok then some (m + 1) else none
  else none

/-- The transaction that begins with the `n`th statement takes effect. -/
def TakesEffect (n : ℕ) : Prop :=
  ∃ m ∈ a.commitAt fare wt n, (wt.outcome m).ok = true ∨ wt.landed m = true

instance (n : ℕ) : Decidable (a.TakesEffect fare wt n) :=
  inferInstanceAs (Decidable (∃ m ∈ a.commitAt fare wt n, _ ∨ _))

end Account

namespace CsStore

variable (s : CsStore) (wt : Weather)

/-- The first statement for a card in the loop over the cards, if the loop comes to that. -/
def startOf (c : String) : List String → ℕ → Option ℕ
  | [], _ => none
  | cardId :: cards, n =>
    if cardId = c then some n
    else ((s.account cardId).cardEnd s.getStationCostCents wt n).bind (startOf c cards)

/-- A run comes to the card, and its transaction takes effect. -/
def RunCharges (c : String) : Prop :=
  (wt.outcome 0).ok = true ∧ ∃ n ∈ s.startOf wt c s.cardsToConstruct 1,
    (s.account c).TakesEffect s.getStationCostCents wt n

instance (c : String) : Decidable (s.RunCharges wt c) :=
  inferInstanceAs (Decidable (_ ∧ ∃ n ∈ s.startOf wt c s.cardsToConstruct 1,
    (s.account c).TakesEffect s.getStationCostCents wt n))

/-! ## The loop over the pairs -/

variable {s wt}

theorem debit_eq {c : String} {balance : Int} (hbalance : s.cards.lookup c = some balance)
    (cost : Int) :
    s.debit c cost = if fitsInt64 (balance - cost) then
      some { s with cards := s.cards.insert c (balance - cost) } else none := by
  rw [debit, hbalance]

theorem journeyPairs_statements (wt : Weather) {c : String} {p : Progress} {balance : Int}
    (taps : List CsTap) (hbalance : p.store.cards.lookup c = some balance) :
    (journeyPairs wt c taps p).toOption.map Progress.statements
      = Account.pairsEnd p.store.getStationCostCents wt taps.pairOff balance p.statements := by
  fun_induction journeyPairs wt c taps p generalizing balance with
  | case1 p from' to' taps hok hcost hok' ih =>
    rw [ih hbalance, List.pairOff, Account.pairsEnd, hcost]
    simp only [hok, hok', and_self, if_true]
    rfl
  | case2 p from' to' taps hok hcost hok' =>
    rw [List.pairOff, Account.pairsEnd, hcost]
    simp [hok', Except.toOption]
  | case3 p from' to' taps hok cost hcost hdebit =>
    rw [debit_eq hbalance] at hdebit
    rw [List.pairOff, Account.pairsEnd, hcost]
    split_ifs at hdebit with hfits
    simp [hfits, Except.toOption]
  | case4 p from' to' taps hok cost hcost s' hdebit hok' ih =>
    rw [debit_eq hbalance] at hdebit
    split_ifs at hdebit with hfits
    cases hdebit
    -- the next pair is charged to the balance that this one leaves
    rw [ih (AList.lookup_insert _), List.pairOff, Account.pairsEnd, hcost]
    simp only [hok, hfits, hok', and_self, if_true]
    rfl
  | case5 p from' to' taps hok cost hcost s' hdebit hok' =>
    rw [List.pairOff, Account.pairsEnd, hcost]
    simp only [Except.toOption, Option.map_none]
    rw [if_neg fun h ↦ hok' h.2.2]
  | case6 from' to' taps p hok =>
    rw [List.pairOff, Account.pairsEnd]
    cases p.store.getStationCostCents from'.station to'.station <;> simp [hok, Except.toOption]
  | case7 taps p hshort =>
    rw [List.pairOff_of_ne_cons_cons hshort]
    rfl

/-! ## The transaction of a card -/

/-- What the count says about the transaction of a card: with which statement the next one begins,
and whether the tables change. -/
structure Foretold (wt : Weather) (cardId : String) (p : Progress)
    (result : Except (CsStore × ℕ) Progress) : Prop where
  statements : result.toOption.map Progress.statements
    = (p.store.account cardId).cardEnd p.store.getStationCostCents wt p.statements
  charged : 2 ≤ (p.store.account cardId).unprocessed.length →
    (p.store.account cardId).TakesEffect p.store.getStationCostCents wt p.statements →
      ((left result).account cardId).unprocessed.length ≤ 1
  unchanged : ¬(p.store.account cardId).TakesEffect p.store.getStationCostCents wt p.statements →
    left result = p.store

theorem Foretold.of_commitAt_eq_none {cardId : String} {p : Progress}
    {result : Except (CsStore × ℕ) Progress}
    (hcommit : (p.store.account cardId).commitAt p.store.getStationCostCents wt p.statements = none)
    (hstatements : result.toOption.map Progress.statements
      = (p.store.account cardId).cardEnd p.store.getStationCostCents wt p.statements)
    (hleft : left result = p.store) : Foretold wt cardId p result where
  statements := hstatements
  charged _ := by
    rintro ⟨m, hm, -⟩
    rw [hcommit] at hm
    cases hm
  unchanged _ := hleft

section Begun

variable {cardId : String} {p : Progress} {balance : Int}
  (hbegin : (wt.outcome p.statements).ok = true ∧ (wt.outcome (p.statements + 1)).ok = true
    ∧ (wt.outcome (p.statements + 2)).ok = true)
  (hbalance : p.store.cards.lookup cardId = some balance)

include hbegin hbalance

theorem cardEnd_of_begun :
    (p.store.account cardId).cardEnd p.store.getStationCostCents wt p.statements
      = ((wt.outcome (p.statements + 3)).read (p.store.unprocessedTaps cardId)).bind fun taps ↦
        if taps.length < 2 then some (p.statements + 4)
        else ((p.store.account cardId).commitAt p.store.getStationCostCents wt p.statements).bind
          fun m ↦ if (wt.outcome m).ok then some (m + 1) else none := by
  have hsome : (p.store.account cardId).balance ≠ none := by simp [account, hbalance]
  rw [Account.cardEnd, if_pos hbegin, if_neg hsome, unprocessed_account]

theorem commitAt_of_begun :
    (p.store.account cardId).commitAt p.store.getStationCostCents wt p.statements
      = if (wt.outcome (p.statements + 3)).ok then
          (journeyPairs wt cardId (p.store.unprocessedTaps cardId)
            { p with statements := p.statements + 4 }).toOption.map Progress.statements
        else none := by
  have hpairs := journeyPairs_statements wt (p := { p with statements := p.statements + 4 })
    (p.store.unprocessedTaps cardId) hbalance
  have hbalance' : (p.store.account cardId).balance = some balance := hbalance
  rw [hpairs, Account.commitAt, hbalance', unprocessed_account, Option.bind_some]
  by_cases hok : (wt.outcome (p.statements + 3)).ok = true
  · rw [if_pos hok, if_pos ⟨hbegin.1, hbegin.2.1, hbegin.2.2, hok⟩]
  · rw [if_neg hok, if_neg fun h ↦ hok h.2.2.2]

/-- The taps have been read, and there are two of them or more. -/
theorem foretold_of_begun (hok : (wt.outcome (p.statements + 3)).ok = true)
    (htwo : ¬(p.store.unprocessedTaps cardId).length < 2) :
    Foretold wt cardId p
      (match journeyPairs wt cardId (p.store.unprocessedTaps cardId)
        { p with statements := p.statements + 4 } with
      | .error journeys => .error (p.store, journeys)
      | .ok q =>
        if (wt.outcome q.statements).ok then .ok { q with statements := q.statements + 1 }
        else .error (if wt.landed q.statements then q.store else p.store, q.journeys)) := by
  have hend := cardEnd_of_begun hbegin hbalance
  have hcommit := commitAt_of_begun hbegin hbalance
  rw [Outcome.ok_iff.mp hok, Outcome.read, Option.bind_some, if_neg htwo] at hend
  rw [if_pos hok] at hcommit
  cases hpairs : journeyPairs wt cardId (p.store.unprocessedTaps cardId)
    { p with statements := p.statements + 4 } with
  | error journeys =>
    rw [hpairs] at hcommit
    refine .of_commitAt_eq_none hcommit ?_ rfl
    rw [hend, hcommit]
    rfl
  | ok q =>
    have hcharges := journeyPairs_ok wt hpairs
    obtain ⟨journeys, rest, hsettles, hshort⟩ :=
      Commits.settles_of_charges (by simp [hbalance]) hcharges
    have hlength : (q.store.account cardId).unprocessed.length ≤ 1 := by
      rwa [hsettles.unprocessed_perm.length_eq]
    have hcommit : (p.store.account cardId).commitAt p.store.getStationCostCents wt p.statements
        = some q.statements := by
      rw [hcommit, hpairs]
      rfl
    have heffect : (p.store.account cardId).TakesEffect p.store.getStationCostCents wt p.statements
        ↔ (wt.outcome q.statements).ok = true ∨ wt.landed q.statements = true := by
      simp [Account.TakesEffect, hcommit]
    rw [hcommit, Option.bind_some] at hend
    simp only
    by_cases hdone : (wt.outcome q.statements).ok = true
    · rw [if_pos hdone] at hend ⊢
      exact ⟨hend.symm, fun _ _ ↦ hlength, fun h ↦ absurd (heffect.mpr (Or.inl hdone)) h⟩
    · rw [if_neg hdone] at hend ⊢
      refine ⟨hend.symm, fun _ h ↦ ?_, fun h ↦ ?_⟩
      · -- a commit that is reported as failed may have taken effect
        rw [if_pos ((heffect.mp h).resolve_left hdone)]
        exact hlength
      · rw [if_neg fun hlanded ↦ h (heffect.mpr (Or.inr hlanded))]
        rfl

end Begun

theorem constructCard_foretold (wt : Weather) (cardId : String) (p : Progress) :
    Foretold wt cardId p (constructCard wt cardId p) := by
  rw [constructCard]
  split_ifs with hbegin
  case neg =>
    refine .of_commitAt_eq_none ?_ ?_ rfl
    · exact if_neg fun h ↦ hbegin ⟨h.1, h.2.1, h.2.2.1⟩
    · rw [Account.cardEnd, if_neg hbegin]
      rfl
  cases hbalance : p.store.cards.lookup cardId with
  | none =>
    have hnone : (p.store.account cardId).balance = none := hbalance
    refine .of_commitAt_eq_none ?_ ?_ rfl
    · rw [Account.commitAt, hnone, Option.bind_none, ite_self]
    · rw [Account.cardEnd, if_pos hbegin, if_pos hnone]
      rfl
  | some balance =>
    have hend := cardEnd_of_begun hbegin hbalance
    have hcommit := commitAt_of_begun hbegin hbalance
    simp only
    cases ho : wt.outcome (p.statements + 3) with
    | failed =>
      rw [ho] at hend hcommit
      exact .of_commitAt_eq_none hcommit hend.symm rfl
    | cut k =>
      -- with two taps or more the aborted transaction is an error, and otherwise it is not used
      have hcut : ¬(Outcome.cut k).ok = true := by simp [Outcome.ok]
      rw [ho, if_neg hcut] at hcommit
      rw [ho, hcommit, Outcome.read, Option.bind_some] at hend
      simp only [Outcome.read]
      by_cases hfew : ((p.store.unprocessedTaps cardId).take k).length < 2
      · rw [if_pos hfew] at hend ⊢
        exact .of_commitAt_eq_none hcommit hend.symm rfl
      · rw [if_neg hfew] at hend ⊢
        rw [if_pos hcut]
        exact .of_commitAt_eq_none hcommit hend.symm rfl
    | done =>
      by_cases hfew : (p.store.unprocessedTaps cardId).length < 2
      · rw [ho, Outcome.read, Option.bind_some, if_pos hfew] at hend
        simp only [Outcome.read, if_pos hfew]
        refine ⟨hend.symm, fun htwo ↦ ?_, fun _ ↦ rfl⟩
        rw [unprocessed_account] at htwo
        omega
      · simp only [Outcome.read]
        rw [if_neg hfew, if_neg (by simp [Outcome.ok])]
        exact foretold_of_begun hbegin hbalance (Outcome.ok_iff.mpr ho) hfew

/-! ## The loop over the cards -/

/-- The loop comes to a card in the state of its account and with the number of statements that were
foretold, or it does not come to it and leaves its account as it is. -/
theorem constructCards_startOf {s : CsStore} (wt : Weather) {cards : List String}
    (hnodup : cards.Nodup) {p : Progress}
    (hsame : ∀ cardId ∈ cards, p.store.account cardId = s.account cardId)
    (hfares : p.store.getStationCostCents = s.getStationCostCents) (c : String) :
    s.startOf wt c cards p.statements = none
        ∧ (left (constructCards wt cards p)).account c = p.store.account c
      ∨ ∃ p', s.startOf wt c cards p.statements = some p'.statements
        ∧ p'.store.account c = s.account c
        ∧ p'.store.getStationCostCents = s.getStationCostCents
        ∧ (left (constructCards wt cards p)).account c
          = (left (constructCard wt c p')).account c := by
  induction cards generalizing p with
  | nil => exact Or.inl ⟨rfl, rfl⟩
  | cons cardId cards ih =>
    obtain ⟨hcardId, hnodup⟩ := List.nodup_cons.mp hnodup
    have hcommits := constructCard_commits wt cardId p
    rw [startOf, constructCards]
    by_cases hc : cardId = c
    · -- no other transaction of the loop touches the account
      subst hc
      refine Or.inr ⟨p, if_pos rfl, hsame _ List.mem_cons_self, hfares, ?_⟩
      cases hcard : constructCard wt cardId p with
      | error e => rfl
      | ok q => exact account_constructCards_of_notMem wt hcardId q
    · have hend := (constructCard_foretold wt cardId p).statements
      rw [hsame cardId List.mem_cons_self, hfares] at hend
      have hframe := hcommits.account_of_ne (Ne.symm hc)
      rw [if_neg hc, ← hend]
      cases hcard : constructCard wt cardId p with
      | error e =>
        rw [hcard] at hframe
        exact Or.inl ⟨rfl, hframe⟩
      | ok q =>
        rw [hcard, left_ok] at hframe hcommits
        -- the accounts of the cards that are still to come are as at the start
        have hsame' : ∀ d ∈ cards, q.store.account d = s.account d := by
          intro d hd
          have hne : d ≠ cardId := fun heq ↦ hcardId (heq ▸ hd)
          exact (hcommits.account_of_ne hne).trans (hsame d (List.mem_cons_of_mem _ hd))
        rcases ih hnodup hsame' (hcommits.getStationCostCents_eq.trans hfares) with
          ⟨hnone, heq⟩ | hsome
        · exact Or.inl ⟨hnone, heq.trans hframe⟩
        · exact Or.inr hsome

theorem runJourneyConstruction_fst (s : CsStore) (wt : Weather) :
    (s.runJourneyConstruction wt).1
      = if (wt.outcome 0).ok then left (constructCards wt s.cardsToConstruct ⟨s, 0, 1⟩) else s := by
  rw [runJourneyConstruction]
  split_ifs
  · cases constructCards wt s.cardsToConstruct ⟨s, 0, 1⟩ <;> rfl
  · rfl

theorem mem_of_startOf {s : CsStore} {c : String} {cards : List String} {n m : ℕ}
    (h : s.startOf wt c cards n = some m) : c ∈ cards := by
  induction cards generalizing n with
  | nil => cases h
  | cons cardId cards ih =>
    rw [startOf] at h
    split_ifs at h with hc
    · exact hc ▸ List.mem_cons_self
    · obtain ⟨k, -, hrest⟩ := Option.bind_eq_some_iff.mp h
      exact List.mem_cons_of_mem _ (ih hrest)

/-- **A run charges a card as foretold.** If the run comes to the card and its transaction takes
effect, one unprocessed tap is left at most; otherwise its account stays as it is. -/
theorem runJourneyConstruction_foretold (s : CsStore) (wt : Weather) (c : String) :
    (s.RunCharges wt c → ((s.runJourneyConstruction wt).1.account c).unprocessed.length ≤ 1)
      ∧ (¬s.RunCharges wt c → (s.runJourneyConstruction wt).1.account c = s.account c) := by
  rw [runJourneyConstruction_fst]
  by_cases hquery : (wt.outcome 0).ok = true
  swap
  · rw [if_neg hquery]
    exact ⟨fun h ↦ absurd h.1 hquery, fun _ ↦ rfl⟩
  rw [if_pos hquery]
  rcases constructCards_startOf wt s.nodup_cardsToConstruct (p := ⟨s, 0, 1⟩) (fun _ _ ↦ rfl) rfl c
    with ⟨hnone, hleft⟩ | ⟨p, hsome, haccount, hfares, hleft⟩
  · refine ⟨?_, fun _ ↦ hleft⟩
    rintro ⟨-, n, hn, -⟩
    rw [hnone] at hn
    cases hn
  · have hcharges : s.RunCharges wt c
        ↔ (p.store.account c).TakesEffect p.store.getStationCostCents wt p.statements := by
      simp [RunCharges, hquery, hsome, haccount, hfares]
    have hforetold := constructCard_foretold wt c p
    have htwo : 2 ≤ (p.store.account c).unprocessed.length := by
      rw [haccount, unprocessed_account]
      exact mem_cardsToConstruct.mp (mem_of_startOf hsome)
    rw [hcharges, hleft]
    refine ⟨hforetold.charged htwo, fun h ↦ ?_⟩
    rw [hforetold.unchanged h, haccount]

end CsStore

end CardDb

end TaskDiscovery
