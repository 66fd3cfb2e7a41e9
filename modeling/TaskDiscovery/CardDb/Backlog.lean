import TaskDiscovery.CardDb.Fares

/-!
# What a journey run leaves behind

A run that reports no error has been through every card with two unprocessed taps. The taps of a
card that has a balance are paired off, all but the last of an odd number (`Account.Clears`), and no
backlog is left.

A card without a row in `cards` is meant to have its taps marked with 'unknown card'. But the
transaction is rolled back first, the update is then refused, and its error is not looked at. The
run goes on, and reports no error. So it leaves no backlog exactly when every card that it takes up
is known (`backlog_iff`).
-/

namespace TaskDiscovery

namespace CardDb

/-- A fare is charged for the journey. -/
def Journey.paid (j : Journey) : Bool := j.cost.isSome

namespace Account

variable {fare : String → String → Option Int} {rest : List CsTap} {a a' : Account}

/-- The journeys of an account: its unprocessed taps, paired off in the order of their times. -/
def journeys (fare : String → String → Option Int) (a : Account) : List Journey :=
  a.unprocessed.pairOff.map fun p ↦ ⟨p.1, p.2, fare p.1.station p.2.station⟩

/-- All journeys of the account are charged to it. -/
def Clears (fare : String → String → Option Int) (a a' : Account) : Prop :=
  a.Settles fare (a.journeys fare) a.unprocessed.leftOver a'

namespace Settles

theorem pairOff_eq {journeys : List Journey} (h : a.Settles fare journeys rest a')
    (hshort : rest.length ≤ 1) :
    a.unprocessed.pairOff = journeys.map (fun j ↦ (j.from', j.to'))
      ∧ a.unprocessed.leftOver = rest := by
  have htaps : a.unprocessed
      = (journeys.map fun j ↦ (j.from', j.to')).flatMap List.both ++ rest := by
    rw [h.pairs, List.flatMap_map]
    rfl
  rw [htaps]
  exact List.pairOff_unique _ hshort

theorem clears {journeys : List Journey} (h : a.Settles fare journeys rest a')
    (hshort : rest.length ≤ 1) : journeys = a.journeys fare ∧ a.Clears fare a' := by
  obtain ⟨hpairs, hleft⟩ := h.pairOff_eq hshort
  have hjourneys : journeys = a.journeys fare := by
    rw [Account.journeys, hpairs, List.map_map]
    refine (List.map_id journeys).symm.trans (List.map_congr_left fun j hj ↦ ?_)
    simp only [Function.comp_apply, ← h.costs j hj, id_eq]
  refine ⟨hjourneys, ?_⟩
  rw [Clears, hleft, ← hjourneys]
  exact h

theorem unprocessed_perm {journeys : List Journey} (h : a.Settles fare journeys rest a') :
    a'.unprocessed.Perm rest := by
  have hold : a.processed.filter (fun tap ↦ !tap.processed) = [] :=
    List.filter_eq_nil_iff.mpr fun tap htap ↦ by simp [a.processed_of_mem htap]
  have hnew : (journeys.flatMap Journey.charged).filter (fun tap ↦ !tap.processed) = [] := by
    refine List.filter_eq_nil_iff.mpr fun tap htap ↦ ?_
    obtain ⟨j, -, htap⟩ := List.mem_flatMap.mp htap
    simp [j.processed_of_mem_charged htap]
  have hrest : rest.filter (fun tap ↦ !tap.processed) = rest := by
    refine List.filter_eq_self.mpr fun tap htap ↦ ?_
    have hmem : tap ∈ a.unprocessed := h.pairs ▸ List.mem_append_right _ htap
    simp [a.processed_of_mem_unprocessed hmem]
  have hperm := h.taps.filter fun tap ↦ !tap.processed
  rw [List.filter_append, List.filter_append, hold, hnew, hrest, List.nil_append,
    List.nil_append] at hperm
  exact a'.unprocessed_perm.trans hperm

end Settles

theorem sorted_unique {taps taps' : List CsTap} (h : taps.Perm taps')
    (htimes : (taps'.map CsTap.tapTime).Nodup)
    (hsorted : taps.Pairwise fun x y ↦ x.tapTime ≤ y.tapTime)
    (hsorted' : taps'.Pairwise fun x y ↦ x.tapTime ≤ y.tapTime) : taps = taps' := by
  refine List.Perm.eq_of_pairwise (fun x y hx hy hxy hyx ↦ ?_) hsorted hsorted' h
  exact List.inj_on_of_nodup_map htimes (h.mem_iff.mp hx) hy (le_antisymm hxy hyx)

theorem sorted_unprocessed (a : Account) :
    a.unprocessed.Pairwise fun x y ↦ x.tapTime ≤ y.tapTime :=
  List.pairwise_insertionSort _ _

theorem unprocessed_eq_of_perm {b : Account} (htaps : a.taps.Perm b.taps)
    (htimes : (b.taps.map CsTap.tapTime).Nodup) : a.unprocessed = b.unprocessed := by
  refine sorted_unique ?_ ?_ a.sorted_unprocessed b.sorted_unprocessed
  · exact (a.unprocessed_perm.trans (htaps.filter _)).trans b.unprocessed_perm.symm
  · refine ((b.unprocessed_perm.map _).nodup_iff).mpr (htimes.sublist ?_)
    exact List.filter_sublist.map _

/-- **Clearing is determined by the taps and the fares.** -/
theorem Clears.agree {b b' : Account} (ha : a.Clears fare a') (hb : b.Clears fare b')
    (htaps : a.taps.Perm b.taps) (htimes : (b.taps.map CsTap.tapTime).Nodup) :
    a.journeys fare = b.journeys fare ∧ a'.taps.Perm b'.taps := by
  have hunprocessed := unprocessed_eq_of_perm htaps htimes
  have hjourneys : a.journeys fare = b.journeys fare := by
    rw [Account.journeys, hunprocessed, Account.journeys]
  refine ⟨hjourneys, ha.taps.trans (List.Perm.trans ?_ hb.taps.symm)⟩
  rw [hjourneys, hunprocessed]
  exact ((htaps.filter _).append_right _).append_right _

theorem Clears.length_unprocessed_le (h : a.Clears fare a') : a'.unprocessed.length ≤ 1 := by
  rw [h.unprocessed_perm.length_eq]
  exact List.length_leftOver_le _

end Account

/-- The rows of no query break off. -/
def Weather.Whole (wt : Weather) : Prop := ∀ n k, wt.outcome n ≠ .cut k

theorem Weather.calm_whole : Weather.calm.Whole := fun _ _ ↦ nofun

namespace CsStore

variable {wt : Weather} {s : CsStore}

/-! ## The transaction of a card -/

theorem journeyPairs_journeys {cardId : String} {taps : List CsTap} {p q : Progress}
    (h : journeyPairs wt cardId taps p = .ok q) :
    q.journeys = p.journeys + taps.pairOff.countP fun pair ↦
      (p.store.getStationCostCents pair.1.station pair.2.station).isSome := by
  fun_induction journeyPairs wt cardId taps p with
  | case1 p from' to' taps hok hcost hok' ih =>
    rw [ih h, List.pairOff, List.countP_cons_of_neg (by simp [hcost])]
    rfl
  | case2 p from' to' taps hok hcost hok' => cases h
  | case3 p from' to' taps hok cost hcost hdebit => cases h
  | case4 p from' to' taps hok cost hcost s' hdebit hok' ih =>
    rw [ih h, markProcessed_of_debit hdebit, List.pairOff,
      List.countP_cons_of_pos (by simp [hcost])]
    exact Nat.add_right_comm ..
  | case5 p from' to' taps hok cost hcost s' hdebit hok' => cases h
  | case6 p from' to' taps hok => cases h
  | case7 taps p hshort =>
    cases h
    rw [List.pairOff_of_ne_cons_cons hshort]
    rfl

theorem constructCard_of_unknown {cardId : String} {p q : Progress}
    (h : constructCard wt cardId p = .ok q) (hunknown : p.store.cards.lookup cardId = none) :
    q.store = p.store ∧ q.journeys = p.journeys := by
  rw [constructCard, hunknown] at h
  split_ifs at h
  cases h
  exact ⟨rfl, rfl⟩

/-- **A transaction without an error clears the account of its card.** -/
theorem constructCard_clears (hwhole : wt.Whole) {cardId : String} {p q : Progress}
    (h : constructCard wt cardId p = .ok q)
    (hknown : (p.store.cards.lookup cardId).isSome = true) :
    (p.store.account cardId).Clears p.store.getStationCostCents (q.store.account cardId)
      ∧ q.journeys = p.journeys + ((p.store.account cardId).journeys
        p.store.getStationCostCents).countP Journey.paid := by
  have hcount : ((p.store.account cardId).journeys p.store.getStationCostCents).countP Journey.paid
      = (p.store.unprocessedTaps cardId).pairOff.countP fun pair ↦
        (p.store.getStationCostCents pair.1.station pair.2.station).isSome := by
    rw [Account.journeys, List.countP_map, unprocessed_account]
    rfl
  rw [hcount]
  suffices hcharges : Charges cardId (p.store.unprocessedTaps cardId) p.store q.store
      ∧ q.journeys = p.journeys + (p.store.unprocessedTaps cardId).pairOff.countP fun pair ↦
        (p.store.getStationCostCents pair.1.station pair.2.station).isSome by
    obtain ⟨journeys, rest, hsettles, hshort⟩ := Commits.settles_of_charges hknown hcharges.1
    exact ⟨(hsettles.clears hshort).2, hcharges.2⟩
  obtain ⟨balance, hbalance⟩ := Option.isSome_iff_exists.mp hknown
  rw [constructCard, hbalance] at h
  split_ifs at h with hbegin
  simp only at h
  -- the query of the taps is the only one whose error could go unnoticed
  cases ho : wt.outcome (p.statements + 3) with
  | failed => simp [ho, Outcome.read] at h
  | cut k => exact absurd ho (hwhole _ k)
  | done =>
    simp only [ho, Outcome.read] at h
    split_ifs at h with hfew
    · cases h
      refine ⟨⟨[], _, rfl, Nat.le_of_lt_succ hfew, by simp, rfl⟩, ?_⟩
      rw [List.pairOff_of_length_lt hfew]
      rfl
    · cases hpairs : journeyPairs wt cardId (p.store.unprocessedTaps cardId)
          { p with statements := p.statements + 4 } with
      | error journeys => simp [hpairs] at h
      | ok q' =>
        simp only [hpairs] at h
        split_ifs at h
        cases h
        have hcharges := journeyPairs_ok wt hpairs
        have hjourneys := journeyPairs_journeys hpairs
        exact ⟨hcharges, hjourneys⟩

/-! ## The loop over the cards -/

theorem constructCards_ok {cards : List String} (hnodup : cards.Nodup) {p q : Progress}
    (h : constructCards wt cards p = .ok q) {c : String} (hc : c ∈ cards) :
    ∃ p' q', constructCard wt c p' = .ok q' ∧ p'.store.account c = p.store.account c
      ∧ p'.store.getStationCostCents = p.store.getStationCostCents
      ∧ q.store.account c = q'.store.account c := by
  -- before its turn the account is framed by the other transactions, and after it as well
  induction cards generalizing p with
  | nil => simp at hc
  | cons cardId cards ih =>
    obtain ⟨hcardId, hnodup⟩ := List.nodup_cons.mp hnodup
    have hstep := constructCard_commits wt cardId p
    rw [constructCards] at h
    cases hcard : constructCard wt cardId p with
    | error e => simp [hcard] at h
    | ok p₁ =>
      simp only [hcard] at h
      rw [hcard, left_ok] at hstep
      by_cases heq : c = cardId
      · subst heq
        have hframe := account_constructCards_of_notMem wt hcardId p₁
        rw [h, left_ok] at hframe
        exact ⟨p, p₁, hcard, rfl, rfl, hframe⟩
      · obtain ⟨p', q', hown, hbefore, hfares, hafter⟩ :=
          ih hnodup h ((List.mem_cons.mp hc).resolve_left heq)
        exact ⟨p', q', hown, hbefore.trans (hstep.account_of_ne heq),
          hfares.trans hstep.getStationCostCents_eq, hafter⟩

theorem mem_cardsToConstruct {c : String} :
    c ∈ s.cardsToConstruct ↔ 2 ≤ (s.unprocessedTaps c).length := by
  rw [cardsToConstruct, List.mem_insertionSort, unprocessedTaps, List.length_insertionSort]
  exact List.mem_having CsTap.cardId Nat.zero_lt_two

theorem runJourneyConstruction_ok (hok : (s.runJourneyConstruction wt).2.2 = true) :
    ∃ q, constructCards wt s.cardsToConstruct ⟨s, 0, 1⟩ = .ok q
      ∧ (s.runJourneyConstruction wt).1 = q.store
      ∧ (s.runJourneyConstruction wt).2.1 = q.journeys := by
  rw [runJourneyConstruction] at hok ⊢
  split_ifs at hok ⊢ with hquery
  cases hcards : constructCards wt s.cardsToConstruct ⟨s, 0, 1⟩ with
  | error e => simp [hcards] at hok
  | ok q => exact ⟨q, rfl, rfl, rfl⟩

/-! ## A run without an error -/

/-- **A run without an error clears the account of every known card.** -/
theorem runJourneyConstruction_clears (hwhole : wt.Whole)
    (hok : (s.runJourneyConstruction wt).2.2 = true) {c : String}
    (hknown : (s.cards.lookup c).isSome = true) :
    (s.account c).Clears s.getStationCostCents ((s.runJourneyConstruction wt).1.account c) := by
  obtain ⟨q, hcards, hstore, -⟩ := runJourneyConstruction_ok hok
  rw [hstore]
  by_cases hc : c ∈ s.cardsToConstruct
  · obtain ⟨p', q', hown, hbefore, hfares, hafter⟩ :=
      constructCards_ok s.nodup_cardsToConstruct hcards hc
    have hknown' : (p'.store.cards.lookup c).isSome = true := by
      have hbalance : p'.store.cards.lookup c = s.cards.lookup c := congrArg Account.balance hbefore
      rwa [hbalance]
    have hclears := (constructCard_clears hwhole hown hknown').1
    rwa [hbefore, hfares, ← hafter] at hclears
  · have hframe := account_constructCards_of_notMem wt hc ⟨s, 0, 1⟩
    rw [hcards, left_ok] at hframe
    rw [hframe]
    have hfew : (s.account c).unprocessed.length ≤ 1 := by
      rw [unprocessed_account]
      exact Nat.le_of_lt_succ (Nat.lt_of_not_le (mem_cardsToConstruct.not.mp hc))
    exact ((Account.Settles.refl _ _).clears hfew).2

theorem runJourneyConstruction_of_unknown (hok : (s.runJourneyConstruction wt).2.2 = true)
    {c : String} (hunknown : s.cards.lookup c = none) :
    (s.runJourneyConstruction wt).1.account c = s.account c := by
  obtain ⟨q, hcards, hstore, -⟩ := runJourneyConstruction_ok hok
  rw [hstore]
  by_cases hc : c ∈ s.cardsToConstruct
  · obtain ⟨p', q', hown, hbefore, -, hafter⟩ :=
      constructCards_ok s.nodup_cardsToConstruct hcards hc
    have hbalance : p'.store.cards.lookup c = s.cards.lookup c := congrArg Account.balance hbefore
    rw [hafter, (constructCard_of_unknown hown (hbalance.trans hunknown)).1, hbefore]
  · have hframe := account_constructCards_of_notMem wt hc ⟨s, 0, 1⟩
    rwa [hcards, left_ok] at hframe

/-- **When a run leaves no backlog.** A run that reports no error, and for which no statement fails
behind its back, leaves every card with one unprocessed tap at most and the taps of unknown cards
marked, if and only if every card with two unprocessed taps has a row in `cards`. -/
theorem backlog_iff (s : CsStore) (wt : Weather) (hwhole : wt.Whole)
    (hok : (s.runJourneyConstruction wt).2.2 = true) :
    ((∀ c, ((s.runJourneyConstruction wt).1.unprocessedTaps c).length ≤ 1)
        ∧ ∀ c, 2 ≤ (s.unprocessedTaps c).length → s.cards.lookup c = none →
          ∀ tap ∈ s.unprocessedTaps c,
            tap.charge 0 (some "unknown card") ∈ (s.runJourneyConstruction wt).1.transactions)
      ↔ ∀ c, 2 ≤ (s.unprocessedTaps c).length → (s.cards.lookup c).isSome = true := by
  constructor
  · rintro ⟨hshort, -⟩ c htwo
    by_contra hunknown
    have hsame := runJourneyConstruction_of_unknown hok (Option.not_isSome_iff_eq_none.mp hunknown)
    have hle := hshort c
    rw [← unprocessed_account, hsame, unprocessed_account] at hle
    omega
  · intro hknown
    constructor
    · intro c
      rw [← unprocessed_account]
      by_cases hc : (s.cards.lookup c).isSome = true
      · exact (runJourneyConstruction_clears hwhole hok hc).length_unprocessed_le
      · rw [runJourneyConstruction_of_unknown hok (Option.not_isSome_iff_eq_none.mp hc),
          unprocessed_account]
        exact Nat.le_of_lt_succ (Nat.lt_of_not_le fun htwo ↦ hc (hknown c htwo))
    · intro c htwo hunknown
      exact absurd (hknown c htwo) (by simp [hunknown])

/-- Three taps at two stations, and a balance or none. -/
def threeTaps (cards : AList fun _ : String ↦ Int) : CsStore where
  cards := cards
  transactions :=
    [{ transactionId := "t1", cardId := "c1", station := "A", tapTime := 1 },
      { transactionId := "t2", cardId := "c1", station := "B", tapTime := 2 },
      { transactionId := "t3", cardId := "c1", station := "A", tapTime := 3 }]
  nodup_ids := by decide
  stationCosts := [{ fromStation := "A", toStation := "B", cost := 250 }]
  collation := .codePoint

/-- With a balance, two taps become a journey and the third waits. -/
theorem known_no_backlog :
    ((threeTaps (AList.singleton "c1" 1000)).runJourneyConstruction .calm).2 = (1, true)
      ∧ (((threeTaps (AList.singleton "c1" 1000)).runJourneyConstruction .calm).1.unprocessedTaps
        "c1").length ≤ 1 := by
  have hrun : ((threeTaps (AList.singleton "c1" 1000)).runJourneyConstruction .calm).2
      = (1, true) := by
    decide +kernel
  refine ⟨hrun, ((backlog_iff (threeTaps (AList.singleton "c1" 1000)) .calm Weather.calm_whole
    (by rw [hrun])).mpr fun c htwo ↦ ?_).1 "c1"⟩
  by_cases hc : c = "c1"
  · rw [hc]
    rfl
  · simp [unprocessedTaps, threeTaps, Ne.symm hc] at htwo

/-- Without one, the run reports no error and leaves all three taps as they were. -/
theorem unknown_backlog :
    ((threeTaps ∅).runJourneyConstruction .calm).2 = (0, true)
      ∧ ((threeTaps ∅).runJourneyConstruction .calm).1.transactions
        = (threeTaps ∅).transactions
      ∧ (((threeTaps ∅).runJourneyConstruction .calm).1.unprocessedTaps "c1").length = 3 := by
  decide +kernel

end CsStore

end CardDb

end TaskDiscovery
