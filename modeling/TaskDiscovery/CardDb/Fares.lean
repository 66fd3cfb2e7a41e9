import Mathlib.Algebra.BigOperators.Group.List.Basic
import Mathlib.Data.List.Nodup
import TaskDiscovery.CardDb.Cs
import TaskDiscovery.Lib.Pairing

/-!
# The fare ledger

What the tables hold about one card is an `Account`: its balance and its taps. Both taps of a
journey carry the fare, so twice the balance together with the fares of the processed taps is an
amount that no journey changes (`Account.ledger`).

A transaction that commits charges journeys one after the other (`chargeJourney`), and they are
consecutive pairs of the unprocessed taps of its card (`Commits`). Which rows there are afterwards
is said up to a permutation, because an update addresses rows by their ids and leaves their places
alone. The accounts of the other cards do not change at all, and so the loop over the cards can
treat each of them as if the call had begun with it.
-/

namespace TaskDiscovery

namespace CardDb

/-! ## Accounts and journeys -/

/-- What the tables hold about one card. -/
@[ext]
structure Account where
  balance : Option Int
  taps : List CsTap

/-- Two taps that were paired. The cost is `none` when there is no fare between their stations. -/
structure Journey where
  from' : CsTap
  to' : CsTap
  cost : Option Int

namespace Account

variable (a : Account)

def processed : List CsTap := a.taps.filter CsTap.processed

def unprocessed : List CsTap :=
  (a.taps.filter fun tap ↦ !tap.processed).insertionSort fun x y ↦ x.tapTime ≤ y.tapTime

/-- Twice the balance, with the fares of the processed taps. -/
def ledger : Int :=
  2 * a.balance.getD 0 + (a.processed.map fun tap ↦ tap.journeyCost.getD 0).sum

theorem unprocessed_perm : a.unprocessed.Perm (a.taps.filter fun tap ↦ !tap.processed) :=
  List.perm_insertionSort _ _

theorem processed_append_unprocessed : (a.processed ++ a.unprocessed).Perm a.taps :=
  (a.unprocessed_perm.append_left _).trans (List.filter_append_perm CsTap.processed a.taps)

theorem processed_of_mem {tap : CsTap} (h : tap ∈ a.processed) : tap.processed = true :=
  (List.mem_filter.mp h).2

theorem processed_of_mem_unprocessed {tap : CsTap} (h : tap ∈ a.unprocessed) :
    tap.processed = false := by
  simpa using (List.mem_filter.mp (a.unprocessed_perm.mem_iff.mp h)).2

end Account

namespace Journey

variable (j : Journey)

/-- What the balance is debited by. -/
def fare : Int := j.cost.getD 0

/-- What is written beside the taps. -/
def reason : Option String :=
  match j.cost with
  | none => some "missing cost"
  | some _ => none

def taps : List CsTap := [j.from', j.to']

/-- The taps as the journey leaves them. -/
def charged : List CsTap := j.taps.map (CsTap.charge j.fare j.reason)

/-- The balances as the journey leaves them. -/
def debited (cardId : String) (cards : AList fun _ : String ↦ Int) : AList fun _ : String ↦ Int :=
  match j.cost, cards.lookup cardId with
  | some cost, some balance => cards.insert cardId (balance - cost)
  | _, _ => cards

theorem lookup_debited (cardId : String) (cards : AList fun _ : String ↦ Int) :
    (j.debited cardId cards).lookup cardId = (cards.lookup cardId).map (· - j.fare) := by
  rw [debited, fare]
  cases hcost : j.cost with
  | none => simp
  | some cost => cases hbalance : cards.lookup cardId <;> simp [hbalance]

theorem lookup_debited_of_ne {cardId c : String} (hne : c ≠ cardId)
    (cards : AList fun _ : String ↦ Int) :
    (j.debited cardId cards).lookup c = cards.lookup c := by
  rw [debited]
  cases hcost : j.cost with
  | none => rfl
  | some cost =>
    cases hbalance : cards.lookup cardId with
    | none => rfl
    | some balance => exact AList.lookup_insert_ne hne

theorem processed_of_mem_charged {tap : CsTap} (h : tap ∈ j.charged) : tap.processed = true := by
  obtain ⟨tap', -, rfl⟩ := List.mem_map.mp h
  rfl

end Journey

/-! ## Settled accounts -/

/-- An account after the journeys were charged to it, which are the unprocessed taps in their order
without a rest. -/
structure Account.Settles (fare : String → String → Option Int) (journeys : List Journey)
    (rest : List CsTap) (a a' : Account) : Prop where
  pairs : a.unprocessed = journeys.flatMap Journey.taps ++ rest
  short : journeys = [] ∨ rest.length ≤ 1
  costs : ∀ j ∈ journeys, j.cost = fare j.from'.station j.to'.station
  known : journeys ≠ [] → a.balance.isSome = true
  balance : a'.balance = a.balance.map (· - (journeys.map Journey.fare).sum)
  taps : a'.taps.Perm (a.processed ++ journeys.flatMap Journey.charged ++ rest)

namespace Account.Settles

variable {fare : String → String → Option Int} {journeys : List Journey} {rest : List CsTap}
  {a a' : Account}

theorem refl (fare : String → String → Option Int) (a : Account) :
    a.Settles fare [] a.unprocessed a where
  pairs := rfl
  short := .inl rfl
  costs := by simp
  known h := absurd rfl h
  balance := by simp
  taps := by simpa using a.processed_append_unprocessed.symm

end Account.Settles

/-! ## A committed transaction -/

namespace CsStore

variable (s : CsStore)

def account (cardId : String) : Account where
  balance := s.cards.lookup cardId
  taps := s.transactions.filter fun tap ↦ tap.cardId = cardId

theorem unprocessed_account (cardId : String) :
    (s.account cardId).unprocessed = s.unprocessedTaps cardId := by
  rw [Account.unprocessed, unprocessedTaps, account, List.filter_filter]
  refine congrArg _ (List.filter_congr fun tap _ ↦ ?_)
  exact Bool.and_comm _ _

/-- The debit of a journey and the marks on its taps. -/
def chargeJourney (cardId : String) (s : CsStore) (j : Journey) : CsStore :=
  { s.markProcessed j.from'.transactionId j.to'.transactionId j.fare j.reason with
    cards := j.debited cardId s.cards }

variable {s}

theorem stationCosts_foldl_chargeJourney (cardId : String) (journeys : List Journey)
    (s : CsStore) : (journeys.foldl (chargeJourney cardId) s).stationCosts = s.stationCosts := by
  induction journeys generalizing s with
  | nil => rfl
  | cons j journeys ih => exact ih _

theorem transactions_chargeJourney (cardId : String) {j : Journey} {others : List CsTap}
    (h : s.transactions.Perm (j.taps ++ others)) :
    (chargeJourney cardId s j).transactions.Perm (j.charged ++ others) := by
  have hnodup := (h.map CsTap.transactionId).nodup_iff.mp s.nodup_ids
  rw [List.map_append, List.nodup_append'] at hnodup
  have hother : ∀ tap ∈ others, ¬(tap.transactionId = j.from'.transactionId
      ∨ tap.transactionId = j.to'.transactionId) := by
    rintro tap htap hid
    refine hnodup.2.2 ?_ (List.mem_map_of_mem htap)
    simpa [Journey.taps] using hid
  refine (h.map _).trans (List.Perm.of_eq ?_)
  rw [List.map_append]
  refine congrArg₂ _ ?_ ?_
  · simp [Journey.taps, Journey.charged]
  · refine (List.map_congr_left fun tap htap ↦ ?_).trans (List.map_id _)
    rw [if_neg (hother tap htap), id_eq]

theorem transactions_foldl_chargeJourney (cardId : String) {journeys : List Journey}
    {others : List CsTap} (h : s.transactions.Perm (journeys.flatMap Journey.taps ++ others)) :
    (journeys.foldl (chargeJourney cardId) s).transactions.Perm
      (journeys.flatMap Journey.charged ++ others) := by
  -- the journeys that are charged already join the others
  induction journeys generalizing s others with
  | nil => exact h
  | cons j journeys ih =>
    rw [List.flatMap_cons, List.append_assoc] at h
    have hstep := (transactions_chargeJourney cardId h).trans (List.perm_append_comm_assoc ..)
    refine (ih hstep).trans ?_
    rw [List.flatMap_cons, List.append_assoc]
    exact List.perm_append_comm_assoc ..

theorem lookup_foldl_chargeJourney (cardId : String) (journeys : List Journey) (s : CsStore) :
    (journeys.foldl (chargeJourney cardId) s).cards.lookup cardId
      = (s.cards.lookup cardId).map (· - (journeys.map Journey.fare).sum) := by
  induction journeys generalizing s with
  | nil => simp
  | cons j journeys ih =>
    rw [List.foldl_cons, ih, chargeJourney, j.lookup_debited, Option.map_map, List.map_cons,
      List.sum_cons]
    refine congrArg (Option.map · _) (funext fun balance ↦ ?_)
    simp only [Function.comp_apply]
    omega

theorem account_chargeJourney_of_ne {cardId c : String} (hne : c ≠ cardId) {j : Journey}
    (hfrom : j.from' ∈ s.transactions) (hto : j.to' ∈ s.transactions)
    (hcard : ∀ tap ∈ j.taps, tap.cardId = cardId) :
    (chargeJourney cardId s j).account c = s.account c := by
  have hfixed : ∀ tap ∈ s.transactions, tap.cardId = c →
      ¬(tap.transactionId = j.from'.transactionId ∨ tap.transactionId = j.to'.transactionId) := by
    rintro tap htap rfl (hid | hid)
    · rw [List.inj_on_of_nodup_map s.nodup_ids htap hfrom hid] at hne
      exact hne (hcard _ (by simp [Journey.taps]))
    · rw [List.inj_on_of_nodup_map s.nodup_ids htap hto hid] at hne
      exact hne (hcard _ (by simp [Journey.taps]))
  refine Account.ext (j.lookup_debited_of_ne hne s.cards) ?_
  simp only [account, chargeJourney, markProcessed, List.filter_map]
  have hcards : ((fun tap : CsTap ↦ decide (tap.cardId = c)) ∘ fun tap ↦
      if tap.transactionId = j.from'.transactionId ∨ tap.transactionId = j.to'.transactionId then
        tap.charge j.fare j.reason else tap) = fun tap ↦ decide (tap.cardId = c) := by
    funext tap
    simp only [Function.comp_apply]
    split_ifs <;> rfl
  rw [hcards]
  refine (List.map_congr_left fun tap htap ↦ ?_).trans (List.map_id _)
  obtain ⟨hmem, hc⟩ := List.mem_filter.mp htap
  rw [if_neg (hfixed tap hmem (of_decide_eq_true hc)), id_eq]

theorem account_foldl_chargeJourney_of_ne {cardId c : String} (hne : c ≠ cardId)
    {journeys : List Journey} {others : List CsTap}
    (h : s.transactions.Perm (journeys.flatMap Journey.taps ++ others))
    (hcard : ∀ tap ∈ journeys.flatMap Journey.taps, tap.cardId = cardId) :
    (journeys.foldl (chargeJourney cardId) s).account c = s.account c := by
  induction journeys generalizing s others with
  | nil => rfl
  | cons j journeys ih =>
    rw [List.flatMap_cons] at h hcard
    rw [List.append_assoc] at h
    have hmem : ∀ tap ∈ j.taps, tap ∈ s.transactions := fun tap htap ↦
      h.mem_iff.mpr (List.mem_append_left _ htap)
    have hstep := (transactions_chargeJourney cardId h).trans (List.perm_append_comm_assoc ..)
    rw [List.foldl_cons, ih hstep fun tap htap ↦ hcard tap (List.mem_append_right _ htap)]
    exact account_chargeJourney_of_ne hne (hmem _ (by simp [Journey.taps]))
      (hmem _ (by simp [Journey.taps])) fun tap htap ↦ hcard tap (List.mem_append_left _ htap)

/-- The tables after taps were paired in their order, one tap at most left over, and the journeys
charged to a card. -/
def Charges (cardId : String) (taps : List CsTap) (s s' : CsStore) : Prop :=
  ∃ (journeys : List Journey) (rest : List CsTap),
    taps = journeys.flatMap Journey.taps ++ rest ∧ rest.length ≤ 1
      ∧ (∀ j ∈ journeys, j.cost = s.getStationCostCents j.from'.station j.to'.station)
      ∧ s' = journeys.foldl (chargeJourney cardId) s

/-- What a transaction makes of the tables: nothing, or journeys of its card are charged. -/
def Commits (cardId : String) (s s' : CsStore) : Prop :=
  s' = s ∨ (s.cards.lookup cardId).isSome = true ∧ Charges cardId (s.unprocessedTaps cardId) s s'

namespace Commits

variable {cardId : String} {s' : CsStore}

theorem getStationCostCents_eq (h : Commits cardId s s') :
    s'.getStationCostCents = s.getStationCostCents := by
  have hcosts : s'.stationCosts = s.stationCosts := by
    rcases h with rfl | ⟨-, journeys, rest, -, -, -, rfl⟩
    · rfl
    · exact stationCosts_foldl_chargeJourney ..
  funext a b
  rw [getStationCostCents, getStationCostCents, hcosts]

theorem transactions_perm (s : CsStore) (cardId : String) :
    s.transactions.Perm (s.unprocessedTaps cardId
      ++ s.transactions.filter fun tap ↦ !(tap.cardId = cardId && !tap.processed)) :=
  ((List.perm_insertionSort _ _).append_right _).trans (List.filter_append_perm _ _) |>.symm

theorem cardId_of_mem_unprocessedTaps {tap : CsTap} (h : tap ∈ s.unprocessedTaps cardId) :
    tap.cardId = cardId := by
  rw [unprocessedTaps, List.mem_insertionSort] at h
  simpa using (Bool.and_eq_true_iff.mp (List.mem_filter.mp h).2).1

theorem account_of_ne (h : Commits cardId s s') {c : String} (hne : c ≠ cardId) :
    s'.account c = s.account c := by
  rcases h with rfl | ⟨-, journeys, rest, hpairs, -, -, rfl⟩
  · rfl
  · have hperm := transactions_perm s cardId
    rw [hpairs, List.append_assoc] at hperm
    refine account_foldl_chargeJourney_of_ne hne hperm fun tap htap ↦ ?_
    exact cardId_of_mem_unprocessedTaps (hpairs ▸ List.mem_append_left rest htap)

theorem settles_of_charges (hknown : (s.cards.lookup cardId).isSome = true)
    (h : Charges cardId (s.unprocessedTaps cardId) s s') :
    ∃ journeys rest, (s.account cardId).Settles s.getStationCostCents journeys rest
      (s'.account cardId) ∧ rest.length ≤ 1 := by
  obtain ⟨journeys, rest, hpairs, hshort, hcosts, rfl⟩ := h
  refine ⟨journeys, rest, ⟨?_, .inr hshort, hcosts, fun _ ↦ hknown,
    lookup_foldl_chargeJourney .., ?_⟩, hshort⟩
  · rw [unprocessed_account, hpairs]
  · have hperm := transactions_perm s cardId
    rw [hpairs, List.append_assoc] at hperm
    have hcard : ∀ tap ∈ journeys.flatMap Journey.charged ++ rest, tap.cardId = cardId := by
      have hunprocessed : ∀ tap ∈ journeys.flatMap Journey.taps ++ rest, tap.cardId = cardId :=
        fun tap htap ↦ cardId_of_mem_unprocessedTaps (hpairs ▸ htap)
      intro tap htap
      rcases List.mem_append.mp htap with htap | htap
      · obtain ⟨j, hj, htap⟩ := List.mem_flatMap.mp htap
        obtain ⟨tap', htap', rfl⟩ := List.mem_map.mp htap
        exact hunprocessed tap' (List.mem_append_left _ (List.mem_flatMap.mpr ⟨j, hj, htap'⟩))
      · exact hunprocessed tap (List.mem_append_right _ htap)
    -- among the other rows, those of the card are the processed ones
    have hothers : (s.transactions.filter fun tap ↦
        !(tap.cardId = cardId && !tap.processed)).filter (fun tap ↦ tap.cardId = cardId)
          = (s.account cardId).processed := by
      rw [Account.processed, account, List.filter_filter, List.filter_filter]
      refine List.filter_congr fun tap _ ↦ ?_
      by_cases hc : tap.cardId = cardId <;> simp [hc]
    have hrows := (transactions_foldl_chargeJourney cardId hperm).filter
      fun tap ↦ decide (tap.cardId = cardId)
    rw [← List.append_assoc, List.filter_append, hothers,
      List.filter_eq_self.mpr fun tap htap ↦ decide_eq_true (hcard tap htap)] at hrows
    rw [List.append_assoc]
    exact hrows.trans List.perm_append_comm

/-- **A committed transaction settles the account of its card.** -/
theorem settles (h : Commits cardId s s') :
    ∃ journeys rest, (s.account cardId).Settles s.getStationCostCents journeys rest
      (s'.account cardId) := by
  rcases h with rfl | ⟨hknown, hcharges⟩
  · exact ⟨[], _, .refl _ _⟩
  · obtain ⟨journeys, rest, hsettles, -⟩ := settles_of_charges hknown hcharges
    exact ⟨journeys, rest, hsettles⟩

end Commits

/-! ## The loops -/

theorem markProcessed_of_debit {cardId : String} {cost : Int} {s' : CsStore}
    (h : s.debit cardId cost = some s') (from' to' : CsTap) :
    s'.markProcessed from'.transactionId to'.transactionId cost none
      = chargeJourney cardId s ⟨from', to', some cost⟩ := by
  rw [debit] at h
  rw [chargeJourney, Journey.debited]
  cases hbalance : s.cards.lookup cardId with
  | none =>
    rw [hbalance] at h
    cases h
    rfl
  | some balance =>
    simp only [hbalance] at h
    split_ifs at h
    cases h
    rfl

/-- The journey in front is charged first, and that leaves the fares alone. -/
theorem Charges.cons {cardId : String} {from' to' : CsTap} {taps : List CsTap} {s' : CsStore}
    {cost : Option Int} (hcost : s.getStationCostCents from'.station to'.station = cost)
    (h : Charges cardId taps (chargeJourney cardId s ⟨from', to', cost⟩) s') :
    Charges cardId (from' :: to' :: taps) s s' := by
  obtain ⟨journeys, rest, rfl, hshort, hcosts, hstore⟩ := h
  refine ⟨⟨from', to', cost⟩ :: journeys, rest, rfl, hshort, ?_, hstore⟩
  exact List.forall_mem_cons.mpr ⟨hcost.symm, hcosts⟩

variable (wt : Weather)

theorem journeyPairs_ok {cardId : String} {taps : List CsTap} {p q : Progress}
    (h : journeyPairs wt cardId taps p = .ok q) : Charges cardId taps p.store q.store := by
  fun_induction journeyPairs wt cardId taps p with
  | case1 p from' to' taps hok hcost hok' ih => exact .cons hcost (ih h)
  | case2 p from' to' taps hok hcost hok' => cases h
  | case3 p from' to' taps hok cost hcost hdebit => cases h
  | case4 p from' to' taps hok cost hcost s' hdebit hok' ih =>
    refine .cons hcost ?_
    rw [← markProcessed_of_debit hdebit]
    exact ih h
  | case5 p from' to' taps hok cost hcost s' hdebit hok' => cases h
  | case6 p from' to' taps hok => cases h
  | case7 taps p hshort =>
    cases h
    exact ⟨[], taps, rfl, List.length_le_one_of_ne_cons_cons hshort, by simp, rfl⟩

/-- The tables that a loop leaves behind. -/
def left : Except (CsStore × ℕ) Progress → CsStore
  | .ok p => p.store
  | .error (store, _) => store

@[simp]
theorem left_ok (p : Progress) : left (.ok p) = p.store := rfl

theorem constructCard_commits (cardId : String) (p : Progress) :
    Commits cardId p.store (left (constructCard wt cardId p)) := by
  rw [constructCard]
  split_ifs with hbegin
  case neg => exact .inl rfl
  cases hbalance : p.store.cards.lookup cardId with
  | none => exact .inl rfl
  | some balance =>
    simp only
    cases hread : (wt.outcome (p.statements + 3)).read (p.store.unprocessedTaps cardId) with
    | none => exact .inl rfl
    | some taps =>
      simp only
      split_ifs with hfew hwhole
      · exact .inl rfl
      · -- the taps were read to the end
        have hwhole : p.store.unprocessedTaps cardId = taps := by
          rw [Outcome.ok_iff.mp hwhole] at hread
          exact Option.some.inj hread
        cases hpairs : journeyPairs wt cardId taps { p with statements := p.statements + 4 } with
        | error journeys => exact .inl rfl
        | ok q =>
          have hcharges := journeyPairs_ok wt hpairs
          rw [← hwhole] at hcharges
          have hcommit : Commits cardId p.store q.store := .inr ⟨by simp [hbalance], hcharges⟩
          simp only
          split_ifs
          · exact hcommit
          · exact hcommit
          · exact .inl rfl
      · exact .inl rfl

theorem account_constructCards_of_notMem {cards : List String} {c : String} (hc : c ∉ cards)
    (p : Progress) : (left (constructCards wt cards p)).account c = p.store.account c := by
  induction cards generalizing p with
  | nil => rfl
  | cons cardId cards ih =>
    obtain ⟨hne, hc⟩ := not_or.mp (List.mem_cons.not.mp hc)
    have hstep := (constructCard_commits wt cardId p).account_of_ne hne
    rw [constructCards]
    cases hcard : constructCard wt cardId p with
    | error e => rwa [hcard] at hstep
    | ok q =>
      rw [hcard] at hstep
      exact (ih hc q).trans hstep

theorem getStationCostCents_constructCards (cards : List String) (p : Progress) :
    (left (constructCards wt cards p)).getStationCostCents = p.store.getStationCostCents := by
  induction cards generalizing p with
  | nil => rfl
  | cons cardId cards ih =>
    have hstep := (constructCard_commits wt cardId p).getStationCostCents_eq
    rw [constructCards]
    cases hcard : constructCard wt cardId p with
    | error e => rwa [hcard] at hstep
    | ok q =>
      rw [hcard] at hstep
      exact (ih q).trans hstep

theorem constructCards_settles {cards : List String} (hnodup : cards.Nodup) (p : Progress)
    (c : String) :
    ∃ journeys rest, (p.store.account c).Settles p.store.getStationCostCents journeys rest
      ((left (constructCards wt cards p)).account c) := by
  induction cards generalizing p with
  | nil => exact ⟨[], _, .refl _ _⟩
  | cons cardId cards ih =>
    obtain ⟨hcardId, hnodup⟩ := List.nodup_cons.mp hnodup
    have hstep := constructCard_commits wt cardId p
    rw [constructCards]
    cases hcard : constructCard wt cardId p with
    | error e =>
      rw [hcard] at hstep
      by_cases hc : c = cardId
      · exact hc ▸ hstep.settles
      · simp only
        rw [← hstep.account_of_ne hc]
        exact ⟨[], _, .refl _ _⟩
    | ok q =>
      rw [hcard, left_ok] at hstep
      simp only
      by_cases hc : c = cardId
      · subst hc
        rw [account_constructCards_of_notMem wt hcardId]
        exact hstep.settles
      · have hrest := ih hnodup q
        rwa [hstep.account_of_ne hc, hstep.getStationCostCents_eq] at hrest

theorem nodup_cardsToConstruct (s : CsStore) : s.cardsToConstruct.Nodup :=
  (List.perm_insertionSort _ _).nodup_iff.mpr ((List.nodup_dedup _).filter _)

theorem getStationCostCents_runJourneyConstruction (s : CsStore) :
    (s.runJourneyConstruction wt).1.getStationCostCents = s.getStationCostCents := by
  rw [runJourneyConstruction]
  split_ifs
  · have hloop := getStationCostCents_constructCards wt s.cardsToConstruct ⟨s, 0, 1⟩
    cases hcards : constructCards wt s.cardsToConstruct ⟨s, 0, 1⟩ with
    | ok p => rwa [hcards] at hloop
    | error e => rwa [hcards] at hloop
  · rfl

/-- **A call of `RunJourneyConstruction` settles every account, wherever it fails.** -/
theorem runJourneyConstruction_settles (s : CsStore) (c : String) :
    ∃ journeys rest, (s.account c).Settles s.getStationCostCents journeys rest
      ((s.runJourneyConstruction wt).1.account c) := by
  rw [runJourneyConstruction]
  split_ifs
  · have hloop := constructCards_settles wt s.nodup_cardsToConstruct ⟨s, 0, 1⟩ c
    cases hcards : constructCards wt s.cardsToConstruct ⟨s, 0, 1⟩ with
    | ok p => rwa [hcards] at hloop
    | error e => rwa [hcards] at hloop
  · exact ⟨[], _, .refl _ _⟩

end CsStore

end CardDb

end TaskDiscovery
