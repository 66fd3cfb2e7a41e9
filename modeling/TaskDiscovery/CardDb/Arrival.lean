import TaskDiscovery.CardDb.Statements
import TaskDiscovery.Lib.Run

/-!
# Batches that arrive between the runs

The taps of a card come from several stations, and each station forwards its own when a batch is
full. `RunJourneyConstruction` runs in between and pairs what is there.

It should not matter when. What it does to a card is kept here beside the tables, as the pairs of
taps that the steps of a schedule have turned into journeys (`journeysMade`). Together with the
unprocessed taps they are all taps that are stored, and the balance has lost their fares (`Tally`).
After a last run that covers all taps, these are the pairs of the chronological order if and only if
every run in between that charged the card found with each of its taps, except the latest, its
partner in that order (`journeys_chronological_iff`).
-/

namespace TaskDiscovery

namespace CardDb

/-- The row as it was inserted. -/
def CsTap.fresh (tap : CsTap) : CsTap :=
  { tap with processed := false, journeyCost := none, errorReason := none }

/-- What happens to the tables: a batch is delivered, or journeys are constructed. -/
inductive Arrival
  | batch (wt : Weather) (txs : List CsTransaction)
  | run (wt : Weather)

namespace CsStore

def arrive (s : CsStore) : Arrival → CsStore
  | .batch wt txs => (s.insertTransactions wt txs).1
  | .run wt => (s.runJourneyConstruction wt).1

/-- The taps of a card that are stored, as they were inserted. -/
def stored (s : CsStore) (c : String) : List CsTap := (s.account c).taps.map CsTap.fresh

/-- The same in the order of their times. -/
def chronological (s : CsStore) (c : String) : List CsTap :=
  (s.stored c).insertionSort fun x y ↦ x.tapTime ≤ y.tapTime

def isProcessed (s : CsStore) (id : String) : Bool :=
  s.transactions.any fun tap ↦ tap.transactionId = id && tap.processed

/-- The pairs of taps of a card that a step turns into journeys. -/
def made (c : String) (s : CsStore) : Arrival → List (CsTap × CsTap)
  | .batch _ _ => []
  | .run wt => (s.unprocessedTaps c).pairOff.filter fun pair ↦
    (s.runJourneyConstruction wt).1.isProcessed pair.1.transactionId

/-- The journeys of a card in a schedule. -/
def journeysMade (c : String) : CsStore → List Arrival → List (CsTap × CsTap)
  | _, [] => []
  | s, e :: es => s.made c e ++ journeysMade c (s.arrive e) es

/-- What journeys cost. A pair without a fare costs nothing. -/
def totalFare (fare : String → String → Option Int) (pairs : List (CsTap × CsTap)) : Int :=
  (pairs.map fun pair ↦ (fare pair.1.station pair.2.station).getD 0).sum

variable {s : CsStore} {c : String} {wt : Weather}

/-! ## The journeys of a run -/

theorem made_run {fare : String → String → Option Int} {journeys : List Journey} {rest : List CsTap}
    (h : (s.account c).Settles fare journeys rest ((s.runJourneyConstruction wt).1.account c)) :
    s.made c (.run wt) = journeys.map fun j ↦ (j.from', j.to') := by
  have hstored : ∀ tap ∈ ((s.runJourneyConstruction wt).1.account c).taps,
      tap ∈ (s.runJourneyConstruction wt).1.transactions := fun tap htap ↦
    (List.mem_filter.mp htap).1
  rw [made, ← unprocessed_account]
  rcases h.short with rfl | hshort
  · -- nothing was charged, and the taps are as they were
    refine List.filter_eq_nil_iff.mpr fun pair hpair hprocessed ↦ ?_
    have hpairs := h.pairs
    rw [List.flatMap_nil, List.nil_append] at hpairs
    have hmem : pair.1 ∈ (s.account c).unprocessed :=
      List.mem_of_mem_pairOff hpair (by simp [List.both])
    have hkept : pair.1 ∈ (s.runJourneyConstruction wt).1.transactions :=
      hstored _ (h.taps.mem_iff.mpr (List.mem_append_right _ (hpairs ▸ hmem)))
    obtain ⟨tap, htap, hsame⟩ := List.any_eq_true.mp hprocessed
    rw [Bool.and_eq_true_iff, decide_eq_true_iff] at hsame
    have heq := List.inj_on_of_nodup_map (s.runJourneyConstruction wt).1.nodup_ids htap hkept
      hsame.1
    rw [heq, (s.account c).processed_of_mem_unprocessed hmem] at hsame
    exact absurd hsame.2 (by simp)
  · -- every pair was charged, and its first tap is found with the mark
    rw [(h.pairOff_eq hshort).1]
    refine List.filter_eq_self.mpr fun pair hpair ↦ ?_
    obtain ⟨j, hj, rfl⟩ := List.mem_map.mp hpair
    have hcharged : j.from'.charge j.fare j.reason ∈ j.charged := by
      simp [Journey.charged, Journey.taps]
    refine List.any_eq_true.mpr ⟨j.from'.charge j.fare j.reason, hstored _ ?_, ?_⟩
    · refine h.taps.mem_iff.mpr (List.mem_append_left _ (List.mem_append_right _ ?_))
      exact List.mem_flatMap.mpr ⟨j, hj, hcharged⟩
    · simp [CsTap.charge]

theorem made_run_eq (s : CsStore) (c : String) (wt : Weather) :
    s.made c (.run wt) = if s.RunCharges wt c then (s.unprocessedTaps c).pairOff else [] := by
  obtain ⟨journeys, rest, h⟩ := runJourneyConstruction_settles wt s c
  obtain ⟨hcharged, hunchanged⟩ := s.runJourneyConstruction_foretold wt c
  have hrest := h.unprocessed_perm.length_eq
  rw [made_run h]
  split_ifs with hcharges
  · rw [← unprocessed_account, (h.pairOff_eq (hrest ▸ hcharged hcharges)).1]
  · -- as many taps are unprocessed as before
    rw [hunchanged hcharges, h.pairs, List.length_append, Nat.add_eq_right, List.length_eq_zero_iff,
      List.flatMap_eq_nil_iff] at hrest
    rw [List.map_eq_nil_iff, List.eq_nil_iff_forall_not_mem]
    intro j hj
    cases hrest j hj

/-! ## What is stored -/

theorem nodup_stored (s : CsStore) (c : String) : (s.stored c).Nodup := by
  refine List.Nodup.of_map CsTap.transactionId ?_
  rw [stored, List.map_map]
  exact s.nodup_ids.sublist (List.filter_sublist.map _)

theorem stored_run (s : CsStore) (c : String) (wt : Weather) :
    ((s.runJourneyConstruction wt).1.stored c).Perm (s.stored c) := by
  obtain ⟨journeys, rest, h⟩ := runJourneyConstruction_settles wt s c
  have hcharged : (journeys.flatMap Journey.charged).map CsTap.fresh
      = (journeys.flatMap Journey.taps).map CsTap.fresh := by
    rw [List.map_flatMap, List.map_flatMap]
    rfl
  refine (h.taps.map _).trans ?_
  refine List.Perm.trans ?_ ((s.account c).processed_append_unprocessed.map CsTap.fresh)
  rw [h.pairs, List.append_assoc, List.map_append, List.map_append, List.map_append,
    List.map_append, hcharged]

theorem insertTransaction_cases (s : CsStore) (tx : CsTransaction) :
    s.insertTransaction tx = s ∨ ∃ tap : CsTap, tap.fresh = tap
      ∧ (s.insertTransaction tx).transactions = s.transactions ++ [tap]
      ∧ (s.insertTransaction tx).cards = s.cards
      ∧ (s.insertTransaction tx).stationCosts = s.stationCosts := by
  rw [insertTransaction]
  cases tx.tapTime with
  | none => exact Or.inl rfl
  | some tapTime =>
    simp only
    split_ifs
    · exact Or.inl rfl
    · exact Or.inl rfl
    · exact Or.inr ⟨_, rfl, rfl, rfl, rfl⟩

theorem getStationCostCents_insertTransaction (s : CsStore) (tx : CsTransaction) :
    (s.insertTransaction tx).getStationCostCents = s.getStationCostCents := by
  rcases s.insertTransaction_cases tx with heq | ⟨tap, -, -, -, hcosts⟩
  · rw [heq]
  · funext a b
    rw [getStationCostCents, hcosts]
    rfl

theorem account_insertTransaction (s : CsStore) (tx : CsTransaction) (c : String) :
    (s.insertTransaction tx).account c = s.account c ∨ ∃ tap : CsTap, tap.fresh = tap
      ∧ ((s.insertTransaction tx).account c).balance = (s.account c).balance
      ∧ ((s.insertTransaction tx).account c).taps = (s.account c).taps ++ [tap] := by
  rcases s.insertTransaction_cases tx with heq | ⟨tap, hfresh, hrows, hcards, -⟩
  · rw [heq]
    exact Or.inl rfl
  have hbalance : ((s.insertTransaction tx).account c).balance = (s.account c).balance :=
    congrArg (AList.lookup c) hcards
  by_cases hc : tap.cardId = c
  · refine Or.inr ⟨tap, hfresh, hbalance, ?_⟩
    simp [account, hrows, List.filter_append, hc]
  · refine Or.inl (Account.ext hbalance ?_)
    simp [account, hrows, List.filter_append, hc]

theorem arrive_batch (s : CsStore) (wt : Weather) (txs : List CsTransaction) :
    ∃ inserted : List CsTransaction,
      s.arrive (.batch wt txs) = inserted.foldl insertTransaction s := by
  have hskip : ∀ (s : CsStore) (tx : CsTransaction), tx.complete = false →
      s.insertTransaction tx = s := fun _ _ ↦ insertTransaction_of_not_complete
  obtain ⟨inserted, -, hstore, -⟩ := insertRows_eq hskip wt 0 txs s
  exact ⟨inserted, hstore⟩

theorem stored_subset_insertTransaction (s : CsStore) (c : String) (tx : CsTransaction) :
    s.stored c ⊆ (s.insertTransaction tx).stored c := by
  rcases s.account_insertTransaction tx c with haccount | ⟨tap, -, -, htaps⟩
  · rw [stored, stored, haccount]
    exact List.Subset.refl _
  · rw [stored, stored, htaps, List.map_append]
    exact List.subset_append_left _ _

theorem stored_subset_arrive (s : CsStore) (c : String) (e : Arrival) :
    s.stored c ⊆ (s.arrive e).stored c := by
  cases e with
  | run wt => exact (stored_run s c wt).symm.subset
  | batch wt txs =>
    obtain ⟨inserted, hstore⟩ := s.arrive_batch wt txs
    have hstep : ∀ (s' : CsStore) (tx : CsTransaction), s.stored c ⊆ s'.stored c →
        s.stored c ⊆ (s'.insertTransaction tx).stored c := fun s' tx h ↦
      List.Subset.trans h (s'.stored_subset_insertTransaction c tx)
    rw [hstore]
    exact Run.invariant hstep (List.Subset.refl _) inserted

theorem stored_subset_exec (s : CsStore) (c : String) (es : List Arrival) :
    s.stored c ⊆ (Run.exec CsStore.arrive s es).stored c := by
  have hstep : ∀ (s' : CsStore) (e : Arrival), s.stored c ⊆ s'.stored c →
      s.stored c ⊆ (s'.arrive e).stored c := fun s' e h ↦
    List.Subset.trans h (s'.stored_subset_arrive c e)
  exact Run.invariant hstep (List.Subset.refl _) es

/-! ## The tally -/

/-- What the tables say about a card after some journeys, beginning with the tables `s₀`. -/
structure Tally (c : String) (s₀ : CsStore) (done : List (CsTap × CsTap)) (s : CsStore) : Prop where
  fares : s.getStationCostCents = s₀.getStationCostCents
  balance : s.cards.lookup c
    = (s₀.cards.lookup c).map (· - totalFare s₀.getStationCostCents done)
  intact : ∀ tap ∈ s.unprocessedTaps c, tap.fresh = tap
  stored : (s.stored c).Perm (done.flatMap List.both ++ s.unprocessedTaps c)

variable {s₀ : CsStore} {done : List (CsTap × CsTap)}

theorem totalFare_append (fare : String → String → Option Int)
    (pairs pairs' : List (CsTap × CsTap)) :
    totalFare fare (pairs ++ pairs') = totalFare fare pairs + totalFare fare pairs' := by
  rw [totalFare, List.map_append, List.sum_append]
  rfl

theorem Tally.init (hnew : ∀ tap ∈ s₀.transactions, tap.cardId ≠ c) : Tally c s₀ [] s₀ := by
  have hnone : (s₀.account c).taps = [] :=
    List.filter_eq_nil_iff.mpr fun tap htap ↦ by simpa using hnew tap htap
  have hunprocessed : s₀.unprocessedTaps c = [] := by
    rw [← unprocessed_account, Account.unprocessed, hnone]
    rfl
  refine ⟨rfl, ?_, by simp [hunprocessed], ?_⟩
  · cases s₀.cards.lookup c <;> simp [totalFare]
  · rw [CsStore.stored, hnone, hunprocessed]
    rfl

theorem Tally.insert (h : Tally c s₀ done s) (tx : CsTransaction) :
    Tally c s₀ done (s.insertTransaction tx) := by
  have hfares := (s.getStationCostCents_insertTransaction tx).trans h.fares
  rcases s.account_insertTransaction tx c with haccount | ⟨tap, hfresh, hbalance, htaps⟩
  · have hbalance : (s.insertTransaction tx).cards.lookup c = s.cards.lookup c :=
      congrArg Account.balance haccount
    have hunprocessed : (s.insertTransaction tx).unprocessedTaps c = s.unprocessedTaps c := by
      rw [← unprocessed_account, haccount, unprocessed_account]
    refine ⟨hfares, hbalance.trans h.balance, ?_, ?_⟩
    · rw [hunprocessed]
      exact h.intact
    · rw [CsStore.stored, haccount, hunprocessed]
      exact h.stored
  · have hprocessed : tap.processed = false := by
      rw [← hfresh]
      rfl
    have hperm : ((s.insertTransaction tx).unprocessedTaps c).Perm
        (s.unprocessedTaps c ++ [tap]) := by
      rw [← unprocessed_account, ← unprocessed_account]
      refine (Account.unprocessed_perm _).trans ?_
      rw [htaps, List.filter_append, List.filter_singleton, hprocessed]
      exact (Account.unprocessed_perm _).symm.append_right _
    refine ⟨hfares, hbalance.trans h.balance, fun tap' htap' ↦ ?_, ?_⟩
    · rcases List.mem_append.mp (hperm.mem_iff.mp htap') with hold | hnew
      · exact h.intact tap' hold
      · rwa [List.mem_singleton.mp hnew]
    · rw [CsStore.stored, htaps, List.map_append, List.map_singleton, hfresh]
      refine (h.stored.append_right _).trans ?_
      rw [List.append_assoc]
      exact hperm.symm.append_left _

theorem Tally.run (h : Tally c s₀ done s) (wt : Weather) :
    Tally c s₀ (done ++ s.made c (.run wt)) (s.runJourneyConstruction wt).1 := by
  obtain ⟨journeys, rest, hsettles⟩ := runJourneyConstruction_settles wt s c
  have hfares : (journeys.map Journey.fare).sum
      = totalFare s₀.getStationCostCents (journeys.map fun j ↦ (j.from', j.to')) := by
    rw [totalFare, List.map_map]
    refine congrArg List.sum (List.map_congr_left fun j hj ↦ ?_)
    rw [Journey.fare, hsettles.costs j hj, h.fares]
    rfl
  have hrest : ((s.runJourneyConstruction wt).1.unprocessedTaps c).Perm rest := by
    rw [← unprocessed_account]
    exact hsettles.unprocessed_perm
  have hunprocessed : s.unprocessedTaps c
      = (journeys.map fun j ↦ (j.from', j.to')).flatMap List.both ++ rest := by
    rw [← unprocessed_account, hsettles.pairs, List.flatMap_map]
    rfl
  rw [made_run hsettles]
  -- the charged taps go from the unprocessed ones to the journeys, and nothing else changes
  refine ⟨(getStationCostCents_runJourneyConstruction wt s).trans h.fares, ?_, ?_, ?_⟩
  · have hbalance : (s.account c).balance
        = (s₀.cards.lookup c).map (· - totalFare s₀.getStationCostCents done) := h.balance
    refine hsettles.balance.trans ?_
    rw [hbalance, Option.map_map, totalFare_append, hfares]
    refine congrArg (Option.map · _) (funext fun balance ↦ ?_)
    simp only [Function.comp_apply]
    omega
  · intro tap htap
    refine h.intact tap ?_
    rw [hunprocessed]
    exact List.mem_append_right _ (hrest.mem_iff.mp htap)
  · refine (stored_run s c wt).trans (h.stored.trans ?_)
    rw [hunprocessed, List.flatMap_append, List.append_assoc]
    exact (hrest.symm.append_left _).append_left _

/-- **The tally of a step.** -/
theorem Tally.arrive (h : Tally c s₀ done s) (e : Arrival) :
    Tally c s₀ (done ++ s.made c e) (s.arrive e) := by
  cases e with
  | batch wt txs =>
    obtain ⟨inserted, hstore⟩ := s.arrive_batch wt txs
    rw [made, List.append_nil, hstore]
    exact Run.invariant (fun _ tx h ↦ h.insert tx) h inserted
  | run wt => exact h.run wt

/-- **The tally of a schedule.** -/
theorem Tally.exec (h : Tally c s₀ done s) (es : List Arrival) :
    Tally c s₀ (done ++ journeysMade c s es) (Run.exec CsStore.arrive s es) := by
  induction es generalizing s done with
  | nil => rwa [journeysMade, List.append_nil]
  | cons e es ih =>
    rw [journeysMade, ← List.append_assoc]
    exact ih (h.arrive e)

theorem journeysMade_append (c : String) (s : CsStore) (es es' : List Arrival) :
    journeysMade c s (es ++ es')
      = journeysMade c s es ++ journeysMade c (Run.exec CsStore.arrive s es) es' := by
  induction es generalizing s with
  | nil => rfl
  | cons e es ih =>
    rw [List.cons_append, journeysMade, ih, journeysMade, List.append_assoc]
    rfl

/-! ## The chronological order -/

section Chronological

variable {taps : List CsTap}

theorem unprocessedTaps_eq_filter {q : CsTap → Bool}
    (hperm : (s.unprocessedTaps c).Perm (taps.filter q))
    (hsorted : taps.Pairwise fun x y ↦ x.tapTime ≤ y.tapTime)
    (htimes : (taps.map CsTap.tapTime).Nodup) : s.unprocessedTaps c = taps.filter q := by
  refine Account.sorted_unique hperm (htimes.sublist (List.filter_sublist.map _)) ?_
    (hsorted.sublist List.filter_sublist)
  rw [← unprocessed_account]
  exact Account.sorted_unprocessed _

theorem Tally.sublist (h : Tally c s₀ done s) (hstored : s.stored c ⊆ taps)
    (hsorted : taps.Pairwise fun x y ↦ x.tapTime ≤ y.tapTime)
    (htimes : (taps.map CsTap.tapTime).Nodup) : (s.unprocessedTaps c).Sublist taps := by
  have hnodup : (s.unprocessedTaps c).Nodup :=
    (List.nodup_append'.mp (h.stored.nodup_iff.mp (s.nodup_stored c))).2.1
  have hmem : ∀ tap ∈ s.unprocessedTaps c, tap ∈ taps := fun tap htap ↦
    hstored (h.stored.mem_iff.mpr (List.mem_append_right _ htap))
  have heq : s.unprocessedTaps c = taps.filter fun tap ↦ decide (tap ∈ s.unprocessedTaps c) := by
    refine unprocessedTaps_eq_filter ?_ hsorted htimes
    refine (List.perm_ext_iff_of_nodup hnodup ((List.Nodup.of_map _ htimes).filter _)).mpr ?_
    intro tap
    rw [List.mem_filter, decide_eq_true_iff]
    exact ⟨fun htap ↦ ⟨hmem tap htap, htap⟩, And.right⟩
  rw [heq]
  exact List.filter_sublist

theorem Tally.unprocessedTaps_eq (h : Tally c s₀ done s) (hperm : taps.Perm (s.stored c))
    (hsorted : taps.Pairwise fun x y ↦ x.tapTime ≤ y.tapTime)
    (htimes : (taps.map CsTap.tapTime).Nodup) :
    s.unprocessedTaps c = taps.filter fun tap ↦ decide (tap ∉ done.flatMap List.both) := by
  have hdisjoint := (List.nodup_append'.mp (h.stored.nodup_iff.mp (s.nodup_stored c))).2.2
  have htaken : (done.flatMap List.both).filter
      (fun tap ↦ decide (tap ∉ done.flatMap List.both)) = [] :=
    List.filter_eq_nil_iff.mpr fun tap htap ↦ by simpa using htap
  have hleft : (s.unprocessedTaps c).filter
      (fun tap ↦ decide (tap ∉ done.flatMap List.both)) = s.unprocessedTaps c :=
    List.filter_eq_self.mpr fun tap htap ↦ decide_eq_true fun hmem ↦ hdisjoint hmem htap
  have hfilter := (hperm.trans h.stored).filter fun tap ↦ decide (tap ∉ done.flatMap List.both)
  rw [List.filter_append, htaken, hleft, List.nil_append] at hfilter
  exact unprocessedTaps_eq_filter hfilter.symm hsorted htimes

/-- A run that charges the card finds with each of its unprocessed taps, except the latest, its
partner. -/
def Undivided (c : String) (taps : List CsTap) (s : CsStore) : Arrival → Prop
  | .batch _ _ => True
  | .run wt => s.RunCharges wt c → ∀ tap ∈ (s.unprocessedTaps c).dropLast,
    ∃ mate ∈ s.unprocessedTaps c, taps.Partners tap mate

instance (c : String) (taps : List CsTap) (s : CsStore) :
    (e : Arrival) → Decidable (Undivided c taps s e)
  | .batch _ _ => inferInstanceAs (Decidable True)
  | .run _ => inferInstanceAs (Decidable (_ → _))

theorem undivided_iff (hnodup : taps.Nodup) (hsub : (s.unprocessedTaps c).Sublist taps)
    (e : Arrival) :
    Undivided c taps s e ↔ ∀ pair ∈ s.made c e, pair ∈ taps.pairOff := by
  cases e with
  | batch wt txs => simp [Undivided, made]
  | run wt =>
    rw [Undivided, made_run_eq]
    split_ifs with hcharges
    · rw [forall_prop_of_true hcharges, ← List.pairOff_subset_iff hnodup hsub]
    · simp [hcharges]

theorem meets_undivided_iff (h : Tally c s₀ done s) (es : List Arrival)
    (hstored : (Run.exec CsStore.arrive s es).stored c ⊆ taps)
    (hsorted : taps.Pairwise fun x y ↦ x.tapTime ≤ y.tapTime)
    (htimes : (taps.map CsTap.tapTime).Nodup) :
    Run.Meets CsStore.arrive (Undivided c taps) s es
      ↔ ∀ pair ∈ journeysMade c s es, pair ∈ taps.pairOff := by
  -- `taps` are all taps of the whole schedule; the tables of a step hold some of them
  induction es generalizing s done with
  | nil => simp [journeysMade]
  | cons e es ih =>
    have hsub := h.sublist (List.Subset.trans (s.stored_subset_exec c (e :: es)) hstored) hsorted
      htimes
    rw [Run.meets_cons, undivided_iff (List.Nodup.of_map _ htimes) hsub, ih (h.arrive e) hstored,
      journeysMade, List.forall_mem_append]

end Chronological

theorem made_run_of_ok (hwhole : wt.Whole) (hok : (s.runJourneyConstruction wt).2.2 = true)
    (hknown : (s.cards.lookup c).isSome = true) :
    s.made c (.run wt) = (s.unprocessedTaps c).pairOff := by
  have hclears := runJourneyConstruction_clears hwhole hok hknown
  rw [made_run hclears, ← unprocessed_account,
    (hclears.pairOff_eq (List.length_leftOver_le _)).1]

/-- **When charges do not depend on the arrival of the taps.** A card with a balance has no taps
yet. For every schedule of batches and runs, with any failures, after which a last run reports no
error: the journeys are the pairs of all taps in chronological order, and the balance is debited by
their fares, if and only if no run of the schedule that charged the card came between the two taps
of a pair. -/
theorem journeys_chronological_iff {s : CsStore} {c : String} {balance : Int} {es : List Arrival}
    {wt : Weather} (hbalance : s.cards.lookup c = some balance)
    (hnew : ∀ tap ∈ s.transactions, tap.cardId ≠ c)
    (htimes : (((Run.exec arrive s es).chronological c).map CsTap.tapTime).Nodup)
    (hwhole : wt.Whole) (hok : ((Run.exec arrive s es).runJourneyConstruction wt).2.2 = true) :
    ((journeysMade c s (es ++ [.run wt])).Perm ((Run.exec arrive s es).chronological c).pairOff
        ∧ (Run.exec arrive s (es ++ [.run wt])).cards.lookup c = some (balance
          - totalFare s.getStationCostCents ((Run.exec arrive s es).chronological c).pairOff))
      ↔ Run.Meets arrive (Undivided c ((Run.exec arrive s es).chronological c)) s es := by
  have hinit := Tally.init hnew
  have htally := hinit.exec es
  have hlast := hinit.exec (es ++ [.run wt])
  rw [List.nil_append] at htally hlast
  generalize htaps : (Run.exec arrive s es).chronological c = taps at htimes ⊢
  have hperm : taps.Perm ((Run.exec arrive s es).stored c) := by
    rw [← htaps]
    exact List.perm_insertionSort _ _
  have hsorted : taps.Pairwise fun x y ↦ x.tapTime ≤ y.tapTime := by
    rw [← htaps]
    exact List.pairwise_insertionSort _ _
  rw [meets_undivided_iff hinit es hperm.symm.subset hsorted htimes]
  have hknown : ((Run.exec arrive s es).cards.lookup c).isSome = true := by
    rw [htally.balance, hbalance]
    rfl
  have hmade : journeysMade c s (es ++ [.run wt]) = journeysMade c s es
      ++ (taps.filter fun tap ↦
        decide (tap ∉ (journeysMade c s es).flatMap List.both)).pairOff := by
    rw [journeysMade_append, journeysMade, journeysMade, List.append_nil,
      made_run_of_ok hwhole hok hknown, htally.unprocessedTaps_eq hperm hsorted htimes]
  -- the last run pairs off what the runs before it have left over
  rw [hmade] at hlast ⊢
  constructor
  · rintro ⟨hpairs, -⟩ pair hpair
    exact hpairs.subset (List.mem_append_left _ hpair)
  · intro h
    have hnodup : (journeysMade c s es).Nodup := by
      refine List.nodup_of_flatMap_both ?_
      exact (htally.stored.nodup_iff.mp (nodup_stored _ c)).of_append_left
    have hpairs := List.append_pairOff_perm (List.Nodup.of_map _ htimes) h hnodup
    refine ⟨hpairs, ?_⟩
    rw [hlast.balance, hbalance, Option.map_some, totalFare, (hpairs.map _).sum_eq]
    rfl

/-- A card with a balance and no taps, and a fare between two stations. -/
def newCard : CsStore where
  cards := AList.singleton "c1" 1000
  transactions := []
  nodup_ids := List.nodup_nil
  stationCosts := [{ fromStation := "A", toStation := "B", cost := 250 }]
  collation := .codePoint

def tapAt (id station : String) (time : Time) : CsTransaction :=
  { transactionId := id, cardId := "c1", gateId := "g", stationId := station, tapTime := some time }

/-- The stations forward the first journey before the run. -/
def journeyByJourney : List Arrival :=
  [.batch .calm [tapAt "t2" "B" 2], .batch .calm [tapAt "t1" "A" 1], .run .calm,
    .batch .calm [tapAt "t4" "B" 4], .batch .calm [tapAt "t3" "A" 3]]

/-- Both journeys are charged. -/
theorem journeyByJourney_charged :
    (Run.exec arrive newCard (journeyByJourney ++ [.run .calm])).cards.lookup "c1"
      = some (1000 - totalFare newCard.getStationCostCents
        ((Run.exec arrive newCard journeyByJourney).chronological "c1").pairOff) :=
  ((journeys_chronological_iff rfl (by simp [newCard]) (by decide +kernel) Weather.calm_whole
    (by decide +kernel)).mpr (by decide +kernel)).2

/-- The first station fills its batch with both taps of its own before the run. -/
def stationByStation : List Arrival :=
  [.batch .calm [tapAt "t1" "A" 1, tapAt "t3" "A" 3], .run .calm,
    .batch .calm [tapAt "t2" "B" 2, tapAt "t4" "B" 4]]

/-- The taps of each station are paired with each other, no fare is found for them, and the card
pays nothing. In chronological order it owes 500. -/
theorem stationByStation_free :
    ((Run.exec arrive newCard stationByStation).runJourneyConstruction .calm).2.2 = true
      ∧ ((journeysMade "c1" newCard (stationByStation ++ [.run .calm])).map fun pair ↦
        (pair.1.transactionId, pair.2.transactionId)) = [("t1", "t3"), ("t2", "t4")]
      ∧ (((Run.exec arrive newCard stationByStation).chronological "c1").pairOff.map fun pair ↦
        (pair.1.transactionId, pair.2.transactionId)) = [("t1", "t2"), ("t3", "t4")]
      ∧ (Run.exec arrive newCard (stationByStation ++ [.run .calm])).cards.lookup "c1" = some 1000
      ∧ totalFare newCard.getStationCostCents
        ((Run.exec arrive newCard stationByStation).chronological "c1").pairOff = 500 := by
  decide +kernel

end CsStore

end CardDb

end TaskDiscovery
