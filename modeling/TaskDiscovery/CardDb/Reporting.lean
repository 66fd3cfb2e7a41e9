import Mathlib.Data.Fintype.Basic
import Mathlib.Data.List.Count
import TaskDiscovery.CardDb.Pa
import TaskDiscovery.CardDb.Pctr
import TaskDiscovery.Lib.Run

/-!
# Reporting debts to the payment authority

Every five minutes a PCTR back office constructs journeys, asks its database for the sums of the
unreported debts and then for their ids, posts the sums to the payment authority, and marks the
debts as reported when the answer is positive. The authority inserts one row for each sum. None of
this is one transaction, the marking does not look at the ids, and a request carries nothing by
which it could be recognized when it comes again.

`World` is any number of such back offices over one database, each in a phase of its cycle, together
with the authority. One step is one statement or one message, and it says whether it succeeded.
Beside the tables stands the list `credited` of the charges that the sum of `pa_debts` contains,
with repetitions. It is kept by the statements that insert, and the sum of `pa_debts` is the sum of
its amounts (`ExactlyOnce.total`).

A charge is credited twice when a cycle that has inserted something does not get to its marking, or
when two cycles overlap. It is marked without being credited when a debt comes in after the sums
were taken. A run in which neither happens hands every debt over exactly once
(`always_exactlyOnce_of_orderly`).
-/

namespace TaskDiscovery

namespace CardDb

/-! ## The cycle -/

/-- Where a back office is in its cycle. -/
inductive Phase
  /-- Waiting for the ticker. -/
  | idle
  /-- In `RunPCTRJourneyConstruction`, with the tokens still to come. -/
  | constructing (tokens : List String)
  /-- In `GetUnreportedDebts`, between its two queries. -/
  | capturing (owed : List PctrOwed)
  /-- Before `POST /debts`. -/
  | sending (owed : List PctrOwed) (ids : List ℕ)
  /-- The authority is in `InsertDebts`: the sums it has passed, and those to come. -/
  | inserting (passed rest : List PctrOwed) (ids : List ℕ)
  /-- Before `MarkDebtsReported`. -/
  | marking (owed : List PctrOwed) (ids : List ℕ)
  deriving DecidableEq

/-- The sums of a cycle that has taken them: those the authority has passed, and the rest. -/
def Phase.sums : Phase → Option (List PctrOwed × List PctrOwed)
  | .capturing owed | .sending owed _ => some ([], owed)
  | .inserting passed rest _ => some (passed, rest)
  | .marking owed _ => some (owed, [])
  | .idle | .constructing _ => none

/-- Back offices over one database, and the payment authority. -/
structure World (ι : Type) where
  pctr : PctrStore
  pa : PaStore
  phase : ι → Phase
  credited : List Charge

/-- What happens: a tap arrives in a batch, or a back office takes the next step of its cycle. The
step fails when its statement fails, when the request is not delivered, or when the response is
lost. -/
inductive Event (ι : Type)
  | batch (tx : PctrTransaction)
  | act (i : ι) (o : Outcome)

namespace World

variable {ι : Type} [DecidableEq ι]

def enter (w : World ι) (i : ι) (p : Phase) : World ι :=
  { w with phase := Function.update w.phase i p }

/-- One sum in the loop of `InsertDebts`. A sum of zero is passed over, and contained all the
same. -/
def insertOwed (w : World ι) (o : PctrOwed) : World ι :=
  if o.amount = 0 then { w with credited := w.credited ++ o.charges }
  else if o.token = "" then w
  else { w with pa := w.pa.insertDebt o.token o.amount, credited := w.credited ++ o.charges }

/-- The next step of a back office. The loops over the taps of a token and over the ids do not look
at `rows.Err`. Taps that break off leave a transaction that Postgres has aborted, so they are
noticed unless there are too few of them to go on. -/
def act (w : World ι) (i : ι) (o : Outcome) : World ι :=
  match w.phase i with
  | .idle => if o.ok then w.enter i (.constructing w.pctr.tokensToConstruct) else w
  | .constructing (token :: tokens) =>
    match o with
    | .done => { w with pctr := (w.pctr.constructToken token).1 }.enter i (.constructing tokens)
    | .failed => w.enter i .idle
    | .cut n =>
      w.enter i (if ((w.pctr.unprocessedTaps token).take n).length < 2 then .constructing tokens
        else .idle)
  | .constructing [] =>
    match w.pctr.queryOwed with
    | some owed => w.enter i (if o.ok then .capturing owed else .idle)
    | none => w.enter i .idle
  | .capturing owed =>
    match o.read w.pctr.unreportedIds with
    | some ids => w.enter i (if owed ≠ [] then .sending owed ids else .idle)
    | none => w.enter i .idle
  | .sending owed ids => w.enter i (if o.ok then .inserting [] owed ids else .idle)
  | .inserting passed (sum :: rest) ids =>
    -- a sum that is passed over needs no statement
    if o.ok ∨ sum.token = "" ∨ sum.amount = 0 then
      (w.insertOwed sum).enter i (.inserting (passed ++ [sum]) rest ids)
    else w.enter i .idle
  | .inserting passed [] ids => w.enter i (if o.ok then .marking passed ids else .idle)
  | .marking _ ids =>
    if o.ok then { w with pctr := w.pctr.markDebtsReported ids }.enter i .idle else w.enter i .idle

def step (w : World ι) : Event ι → World ι
  | .batch tx => { w with pctr := w.pctr.insertTransaction tx }
  | .act i o => w.act i o

/-! ## Handing over -/

/-- The sum of `pa_debts` is made up of charges, of which it contains that of a debt at most once,
and that of a reported debt exactly once. -/
structure ExactlyOnce (w : World ι) : Prop where
  total : w.pa.total = (w.credited.map Prod.snd).sum
  atMostOnce : ∀ d ∈ w.pctr.debts, w.credited.count d.charge ≤ 1
  reportedOnce : ∀ d ∈ w.pctr.debts, d.reported = true → w.credited.count d.charge = 1

/-! ## Orderly runs -/

/-- The step does not come between another cycle's sums and its marking, and does not keep a cycle
that has passed a sum from its marking.

* A transaction of journey construction commits, and sums are taken, only while no other back office
  is between its own sums and its marking.
* The rows of an id query do not break off before the first.
* Once the authority has passed a sum of a request, its statements succeed, the response arrives,
  and the marking succeeds. -/
def Orderly (w : World ι) : Event ι → Prop
  | .batch _ => True
  | .act i o =>
    match w.phase i with
    | .constructing _ => o = .done → ∀ j, j ≠ i → (w.phase j).sums = none
    | .capturing owed => owed = [] ∨ o ≠ .cut 0
    | .inserting passed _ _ => passed = [] ∨ o = .done
    | .marking _ _ => o = .done
    | .idle | .sending _ _ => True

instance [Fintype ι] (w : World ι) : (e : Event ι) → Decidable (Orderly w e)
  | .batch _ => isTrue trivial
  | .act i o =>
    match h : w.phase i with
    | .constructing _ =>
      decidable_of_iff (o = .done → ∀ j, j ≠ i → (w.phase j).sums = none) (by simp [Orderly, h])
    | .capturing owed => decidable_of_iff (owed = [] ∨ o ≠ .cut 0) (by simp [Orderly, h])
    | .inserting passed _ _ => decidable_of_iff (passed = [] ∨ o = .done) (by simp [Orderly, h])
    | .marking _ _ => decidable_of_iff (o = .done) (by simp [Orderly, h])
    | .idle | .sending _ _ => isTrue (by simp [Orderly, h])

/-- What every step keeps: ids are given out once, tokens are not blank, and the sum of `pa_debts`
is the sum of the credited amounts. -/
structure Sound (w : World ι) : Prop where
  numbered : w.pctr.Numbered
  tapTokens : ∀ tap ∈ w.pctr.transactions, tap.token ≠ ""
  debtTokens : ∀ d ∈ w.pctr.debts, d.token ≠ ""
  constructing : ∀ i tokens, w.phase i = .constructing tokens → ∀ token ∈ tokens, token ≠ ""
  total : w.pa.total = (w.credited.map Prod.snd).sum

/-- No cycle is between its sums and its marking, and exactly the reported debts are credited. -/
structure Settled (w : World ι) : Prop where
  outside : ∀ i, (w.phase i).sums = none
  credited : w.credited.Perm (w.pctr.reportedDebts.map PctrDebt.charge)

/-- One cycle has taken its sums. Its sums are those of the unreported debts, and beside the
reported debts the ones in the sums it has passed are credited. -/
structure Handing (w : World ι) (i : ι) (passed rest : List PctrOwed) : Prop where
  sums : (w.phase i).sums = some (passed, rest)
  alone : ∀ j, j ≠ i → (w.phase j).sums = none
  credited : w.credited.Perm
    (w.pctr.reportedDebts.map PctrDebt.charge ++ passed.flatMap PctrOwed.charges)
  charges : ((passed ++ rest).flatMap PctrOwed.charges).Perm (w.pctr.unreported.map PctrDebt.charge)
  amounts : ∀ o ∈ passed ++ rest, o.token ≠ "" ∧ o.amount = (o.charges.map Prod.snd).sum
  outstanding : passed ++ rest ≠ [] → w.pctr.unreported ≠ []

/-- The ids that a cycle has captured are not empty. -/
def Captured : Phase → Prop
  | .sending _ ids | .inserting _ _ ids | .marking _ ids => ids ≠ []
  | .idle | .constructing _ | .capturing _ => True

/-- The states of an orderly run. -/
structure Steady (w : World ι) : Prop where
  sound : Sound w
  captured : ∀ i, Captured (w.phase i)
  handover : Settled w ∨ ∃ i passed rest, Handing w i passed rest

variable {w : World ι} {i : ι}

/-! ### What a steady state says -/

omit [DecidableEq ι] in
theorem Sound.nodup_charges (h : Sound w) : (w.pctr.debts.map PctrDebt.charge).Nodup := by
  refine List.Nodup.of_map Prod.fst ?_
  rw [List.map_map]
  exact h.numbered.nodup

omit [DecidableEq ι] in
/-- The credited charges are charges of different debts, those of the reported ones among them. -/
theorem Steady.exactlyOnce (h : Steady w) : ExactlyOnce w := by
  obtain ⟨passed, rest, hcredited, hsub⟩ : ∃ passed rest : List Charge,
      w.credited.Perm (w.pctr.reportedDebts.map PctrDebt.charge ++ passed)
        ∧ (passed ++ rest).Perm (w.pctr.unreported.map PctrDebt.charge) := by
    rcases h.handover with hsettled | ⟨i, passed, rest, hhanding⟩
    · exact ⟨[], _, by simpa using hsettled.credited, List.Perm.refl _⟩
    · refine ⟨_, rest.flatMap PctrOwed.charges, hhanding.credited, ?_⟩
      rw [← List.flatMap_append]
      exact hhanding.charges
  have hall : (w.credited ++ rest).Perm (w.pctr.debts.map PctrDebt.charge) := by
    have hsplit := w.pctr.reportedDebts_append_unreported.map PctrDebt.charge
    rw [List.map_append] at hsplit
    refine (hcredited.append_right rest).trans ?_
    rw [List.append_assoc]
    exact (hsub.append_left _).trans hsplit
  have hnodup : w.credited.Nodup :=
    (hall.nodup_iff.mpr h.sound.nodup_charges).sublist (List.sublist_append_left _ _)
  refine ⟨h.sound.total, fun d _ ↦ List.nodup_iff_count_le_one.mp hnodup _, fun d hd hrep ↦ ?_⟩
  refine List.count_eq_one_of_mem hnodup (hcredited.mem_iff.mpr (List.mem_append_left _ ?_))
  exact List.mem_map_of_mem (List.mem_filter.mpr ⟨hd, hrep⟩)

/-! ### What a step keeps -/

theorem enter_phase (w : World ι) (i : ι) (p : Phase) (j : ι) :
    (w.enter i p).phase j = if j = i then p else w.phase j :=
  Function.update_apply ..

theorem Sound.enter (h : Sound w) {p : Phase}
    (hp : ∀ tokens, p = .constructing tokens → ∀ token ∈ tokens, token ≠ "") :
    Sound (w.enter i p) where
  numbered := h.numbered
  tapTokens := h.tapTokens
  debtTokens := h.debtTokens
  constructing := fun j tokens hj ↦ by
    rw [enter_phase] at hj
    split_ifs at hj
    · exact hp tokens hj
    · exact h.constructing j tokens hj
  total := h.total

theorem captured_enter (h : ∀ j, Captured (w.phase j)) {p : Phase} (hp : Captured p) (j : ι) :
    Captured ((w.enter i p).phase j) := by
  rw [enter_phase]
  split_ifs
  · exact hp
  · exact h j

/-- A cycle that has not taken its sums, and does not, leaves the handover alone. -/
theorem Steady.enter_outside (h : Steady w) (hi : (w.phase i).sums = none) {p : Phase}
    (hp : p.sums = none)
    (htokens : ∀ tokens, p = .constructing tokens → ∀ token ∈ tokens, token ≠ "") :
    Steady (w.enter i p) := by
  refine ⟨h.sound.enter htokens, captured_enter h.captured ?_, ?_⟩
  · cases p with
    | idle => trivial
    | constructing tokens => trivial
    | _ => simp [Phase.sums] at hp
  · have hsums : ∀ j, ((w.enter i p).phase j).sums = (w.phase j).sums := fun j ↦ by
      rw [enter_phase]
      split_ifs with hj
      · rw [hp, hj, hi]
      · rfl
    rcases h.handover with hsettled | ⟨j, passed, rest, hh⟩
    · exact Or.inl ⟨fun j ↦ (hsums j).trans (hsettled.outside j), hsettled.credited⟩
    · exact Or.inr ⟨j, passed, rest, (hsums j).trans hh.sums,
        fun k hk ↦ (hsums k).trans (hh.alone k hk), hh.credited, hh.charges, hh.amounts,
        hh.outstanding⟩

/-- A cycle that ends before the authority has passed a sum leaves everything settled. -/
theorem Handing.settled {rest : List PctrOwed} (h : Handing w i [] rest) :
    Settled (w.enter i .idle) := by
  have hcredited := h.credited
  rw [List.flatMap_nil, List.append_nil] at hcredited
  refine ⟨fun j ↦ ?_, hcredited⟩
  rw [enter_phase]
  split_ifs with hj
  · rfl
  · exact h.alone j hj

theorem Handing.enter {passed rest : List PctrOwed} (h : Handing w i passed rest) {p : Phase}
    (hp : p.sums = some (passed, rest)) : Handing (w.enter i p) i passed rest := by
  refine ⟨?_, fun j hj ↦ ?_, h.credited, h.charges, h.amounts, h.outstanding⟩
  · rw [enter_phase, if_pos rfl, hp]
  · rw [enter_phase, if_neg hj]
    exact h.alone j hj

/-- The cycle that has taken its sums is the one the handover is about. -/
theorem Steady.handing (h : Steady w) {passed rest : List PctrOwed}
    (hi : (w.phase i).sums = some (passed, rest)) : Handing w i passed rest := by
  rcases h.handover with hsettled | ⟨j, passed', rest', hh⟩
  · rw [hsettled.outside i] at hi
    exact absurd hi (by simp)
  · by_cases hj : i = j
    · subst hj
      rw [hh.sums] at hi
      obtain ⟨rfl, rfl⟩ := Prod.mk.inj (Option.some.inj hi)
      exact hh
    · rw [hh.alone i hj] at hi
      exact absurd hi (by simp)

theorem Steady.settled (h : Steady w) (hi : (w.phase i).sums = none)
    (halone : ∀ j, j ≠ i → (w.phase j).sums = none) : Settled w := by
  rcases h.handover with hsettled | ⟨j, passed, rest, hh⟩
  · exact hsettled
  · have hnone : (w.phase j).sums = none := by
      by_cases hj : j = i
      · rw [hj, hi]
      · exact halone j hj
    rw [hh.sums] at hnone
    exact absurd hnone (by simp)

theorem Steady.enter_idle (h : Steady w) {rest : List PctrOwed}
    (hi : (w.phase i).sums = some ([], rest)) : Steady (w.enter i .idle) :=
  ⟨h.sound.enter (by simp), captured_enter h.captured trivial, Or.inl (h.handing hi).settled⟩

theorem Steady.enter_inside (h : Steady w) {passed rest : List PctrOwed}
    (hi : (w.phase i).sums = some (passed, rest)) {p : Phase} (hp : p.sums = some (passed, rest))
    (hcaptured : Captured p) : Steady (w.enter i p) := by
  refine ⟨h.sound.enter fun tokens hp' ↦ ?_, captured_enter h.captured hcaptured,
    Or.inr ⟨i, passed, rest, (h.handing hi).enter hp⟩⟩
  rw [hp'] at hp
  simp [Phase.sums] at hp

/-! ### The steps of a cycle -/

theorem mem_tokensToConstruct {s : PctrStore} {token : String} (h : token ∈ s.tokensToConstruct) :
    ∃ tap ∈ s.transactions, tap.token = token := by
  rw [PctrStore.tokensToConstruct, List.mem_insertionSort] at h
  obtain ⟨tap, htap, rfl⟩ := List.mem_map.mp (List.mem_dedup.mp (List.mem_filter.mp h).1)
  exact ⟨tap, (List.mem_filter.mp htap).1, rfl⟩

omit [DecidableEq ι] in
theorem Sound.extends {pctr : PctrStore} {token : String} (h : Sound w) (htoken : token ≠ "")
    (hext : PctrStore.Extends token w.pctr pctr) : Sound { w with pctr := pctr } where
  numbered := hext.numbered h.numbered
  tapTokens := fun tap htap ↦ by
    have hmem := List.mem_map_of_mem (f := PctrTap.token) htap
    rw [hext.tokens] at hmem
    obtain ⟨tap', htap', heq⟩ := List.mem_map.mp hmem
    exact heq ▸ h.tapTokens tap' htap'
  debtTokens := fun d hd ↦ by
    obtain ⟨added, hdebts, hadded⟩ := hext.debts
    simp only [hdebts, List.mem_append] at hd
    rcases hd with hd | hd
    · exact h.debtTokens d hd
    · exact (hadded d hd).1 ▸ htoken
  constructing := h.constructing
  total := h.total

/-- Journeys are constructed while no cycle has taken its sums. -/
theorem Steady.construct (h : Steady w) {token : String} {tokens : List String}
    (hphase : w.phase i = .constructing (token :: tokens))
    (halone : ∀ j, j ≠ i → (w.phase j).sums = none) :
    Steady ({ w with pctr := (w.pctr.constructToken token).1 }.enter i (.constructing tokens)) := by
  have hnamed := h.sound.constructing i _ hphase
  have hext := PctrStore.Extends.constructToken w.pctr token
  have hi : (w.phase i).sums = none := by rw [hphase]; rfl
  have hsettled := h.settled hi halone
  have hsteady : Steady { w with pctr := (w.pctr.constructToken token).1 } := by
    refine ⟨h.sound.extends (hnamed token List.mem_cons_self) hext, h.captured,
      Or.inl ⟨hsettled.outside, ?_⟩⟩
    simp only [hext.reportedDebts]
    exact hsettled.credited
  refine hsteady.enter_outside hi rfl fun tokens' heq token' htoken' ↦ ?_
  obtain rfl := Phase.constructing.inj heq
  exact hnamed token' (List.mem_cons_of_mem _ htoken')

/-- The sums are taken while no other cycle has taken its own. -/
theorem Steady.takeSums (h : Steady w) (hi : (w.phase i).sums = none)
    (halone : ∀ j, j ≠ i → (w.phase j).sums = none) :
    Steady (w.enter i (.capturing w.pctr.owedByToken)) := by
  have hsettled := h.settled hi halone
  refine ⟨h.sound.enter (by simp), captured_enter h.captured trivial,
    Or.inr ⟨i, [], w.pctr.owedByToken, ?_, fun j hj ↦ ?_, ?_, ?_, fun o ho ↦ ?_, fun hne ↦ ?_⟩⟩
  · rw [enter_phase, if_pos rfl]
    rfl
  · rw [enter_phase, if_neg hj]
    exact halone j hj
  · rw [List.flatMap_nil, List.append_nil]
    exact hsettled.credited
  · exact w.pctr.charges_owedByToken
  · rw [List.nil_append] at ho
    obtain ⟨d, hd, htoken⟩ := PctrStore.token_of_mem_owedByToken ho
    exact ⟨htoken ▸ h.sound.debtTokens d hd, PctrStore.amount_of_mem_owedByToken ho⟩
  · exact fun hnil ↦ hne (PctrStore.owedByToken_eq_nil_iff.mpr hnil)

theorem Steady.pass (h : Steady w) {passed rest : List PctrOwed} {o : PctrOwed} {ids : List ℕ}
    (hphase : w.phase i = .inserting passed (o :: rest) ids) :
    Steady ((w.insertOwed o).enter i (.inserting (passed ++ [o]) rest ids)) := by
  have hi : (w.phase i).sums = some (passed, o :: rest) := by rw [hphase]; rfl
  have hids : ids ≠ [] := by
    have hcaptured := h.captured i
    rwa [hphase] at hcaptured
  have hh := h.handing hi
  obtain ⟨htoken, hamount⟩ := hh.amounts o (by simp)
  -- either way the charges are credited, and the total grows by their sum
  have hpassed : ∃ pa : PaStore,
      w.insertOwed o = { w with pa := pa, credited := w.credited ++ o.charges }
        ∧ pa.total = w.pa.total + (o.charges.map Prod.snd).sum := by
    rw [insertOwed, ← hamount]
    by_cases hzero : o.amount = 0
    · exact ⟨w.pa, by rw [if_pos hzero], by rw [hzero, Int.add_zero]⟩
    · exact ⟨_, by rw [if_neg hzero, if_neg htoken], w.pa.total_insertDebt _ _⟩
  obtain ⟨pa, heq, htotal⟩ := hpassed
  rw [heq]
  refine ⟨?_, captured_enter h.captured hids,
    Or.inr ⟨i, passed ++ [o], rest, ?_, ?_, ?_, ?_, ?_, ?_⟩⟩
  · have hsound : Sound { w with pa := pa, credited := w.credited ++ o.charges } := by
      refine ⟨h.sound.numbered, h.sound.tapTokens, h.sound.debtTokens, h.sound.constructing, ?_⟩
      simp only [htotal, h.sound.total, List.map_append, List.sum_append]
    exact hsound.enter (by simp)
  · rw [enter_phase, if_pos rfl]
    rfl
  · intro j hj
    rw [enter_phase, if_neg hj]
    exact hh.alone j hj
  · have hcredited := hh.credited.append_right o.charges
    rw [List.append_assoc] at hcredited
    rw [List.flatMap_append, List.flatMap_singleton]
    exact hcredited
  · rw [List.append_assoc, List.singleton_append]
    exact hh.charges
  · rw [List.append_assoc, List.singleton_append]
    exact hh.amounts
  · rw [List.append_assoc, List.singleton_append]
    exact hh.outstanding

theorem Steady.mark (h : Steady w) {owed : List PctrOwed} {ids : List ℕ}
    (hphase : w.phase i = .marking owed ids) :
    Steady ({ w with pctr := w.pctr.markDebtsReported ids }.enter i .idle) := by
  have hi : (w.phase i).sums = some (owed, []) := by rw [hphase]; rfl
  have hids : ids ≠ [] := by
    have hcaptured := h.captured i
    rwa [hphase] at hcaptured
  have hh := h.handing hi
  have hdebts : (w.pctr.markDebtsReported ids).debts
      = w.pctr.debts.map fun d ↦ { d with reported := true } := by
    rw [PctrStore.markDebtsReported, if_neg hids]
  have hmarked : Sound { w with pctr := w.pctr.markDebtsReported ids } := by
    refine ⟨PctrStore.numbered_markDebtsReported h.sound.numbered ids, ?_, fun d hd ↦ ?_,
      h.sound.constructing, h.sound.total⟩
    · simp only [PctrStore.markDebtsReported, if_neg hids]
      exact h.sound.tapTokens
    · simp only [hdebts] at hd
      obtain ⟨d', hd', rfl⟩ := List.mem_map.mp hd
      exact h.sound.debtTokens d' hd'
  refine ⟨hmarked.enter (by simp), captured_enter h.captured trivial, Or.inl ⟨fun j ↦ ?_, ?_⟩⟩
  · rw [enter_phase]
    split_ifs with hj
    · rfl
    · exact hh.alone j hj
  · have hcharges := hh.charges
    rw [List.append_nil] at hcharges
    have hsplit := w.pctr.reportedDebts_append_unreported.map PctrDebt.charge
    rw [List.map_append] at hsplit
    change w.credited.Perm ((w.pctr.markDebtsReported ids).reportedDebts.map PctrDebt.charge)
    rw [PctrStore.reportedDebts_markDebtsReported hids]
    exact (hh.credited.trans (hcharges.append_left _)).trans hsplit

omit [DecidableEq ι] in
theorem Steady.batch (h : Steady w) (tx : PctrTransaction) :
    Steady { w with pctr := w.pctr.insertTransaction tx } := by
  have hdebts : (w.pctr.insertTransaction tx).debts = w.pctr.debts
      ∧ (w.pctr.insertTransaction tx).nextId = w.pctr.nextId
      ∧ ∀ tap ∈ (w.pctr.insertTransaction tx).transactions, tap.token ≠ "" := by
    rw [PctrStore.insertTransaction]
    rcases tx.tapTime with _ | tapTime
    · exact ⟨rfl, rfl, h.sound.tapTokens⟩
    · simp only
      split_ifs with hblank hknown
      · exact ⟨rfl, rfl, h.sound.tapTokens⟩
      · exact ⟨rfl, rfl, h.sound.tapTokens⟩
      · refine ⟨rfl, rfl, fun tap htap ↦ ?_⟩
        rcases List.mem_append.mp htap with htap | htap
        · exact h.sound.tapTokens tap htap
        · rw [List.mem_singleton.mp htap]
          exact fun hblank' ↦ hblank (Or.inr (Or.inl hblank'))
  obtain ⟨hdebts, hnext, htaps⟩ := hdebts
  generalize w.pctr.insertTransaction tx = pctr at *
  have hreported : pctr.reportedDebts = w.pctr.reportedDebts := by
    rw [PctrStore.reportedDebts, hdebts, PctrStore.reportedDebts]
  have hunreported : pctr.unreported = w.pctr.unreported := by
    rw [PctrStore.unreported, hdebts, PctrStore.unreported]
  refine ⟨⟨⟨?_, ?_⟩, htaps, ?_, h.sound.constructing, h.sound.total⟩, h.captured, ?_⟩
  · simp only [hdebts]
    exact h.sound.numbered.nodup
  · simp only [hdebts, hnext]
    exact h.sound.numbered.below
  · simp only [hdebts]
    exact h.sound.debtTokens
  · rcases h.handover with hsettled | ⟨i, passed, rest, hh⟩
    · refine Or.inl ⟨hsettled.outside, ?_⟩
      simp only [hreported]
      exact hsettled.credited
    · refine Or.inr ⟨i, passed, rest, hh.sums, hh.alone, ?_, ?_, hh.amounts, ?_⟩
      · simp only [hreported]
        exact hh.credited
      · simp only [hunreported]
        exact hh.charges
      · simp only [hunreported]
        exact hh.outstanding

theorem captured_read {o : Outcome} {owed : List PctrOwed} {ids ids' : List ℕ}
    (hread : o.read ids = some ids') (hcut : o ≠ .cut 0) (hids : ids ≠ []) :
    Captured (.sending owed ids') := by
  cases o with
  | done =>
    obtain rfl := Option.some.inj hread
    exact hids
  | failed => simp [Outcome.read] at hread
  | cut n =>
    obtain rfl := Option.some.inj hread
    have hn : n ≠ 0 := fun hzero ↦ hcut (by rw [hzero])
    exact fun hnil ↦ (List.take_eq_nil_iff.mp hnil).elim hn hids

/-! ## One step, by the phase it is taken in -/

theorem Steady.act_idle (h : Steady w) (o : Outcome) (hphase : w.phase i = .idle) :
    Steady (w.act i o) := by
  have hi : (w.phase i).sums = none := by rw [hphase]; rfl
  simp only [act, hphase]
  split_ifs
  · refine h.enter_outside hi rfl fun tokens heq token htoken ↦ ?_
    obtain rfl := Phase.constructing.inj heq
    obtain ⟨tap, htap, rfl⟩ := mem_tokensToConstruct htoken
    exact h.sound.tapTokens tap htap
  · exact h

theorem Steady.act_constructing (h : Steady w) {o : Outcome} {token : String}
    {tokens : List String} (hphase : w.phase i = .constructing (token :: tokens))
    (halone : o = .done → ∀ j, j ≠ i → (w.phase j).sums = none) : Steady (w.act i o) := by
  have hi : (w.phase i).sums = none := by rw [hphase]; rfl
  have hidle : Steady (w.enter i .idle) := h.enter_outside hi rfl (by simp)
  simp only [act, hphase]
  cases o with
  | done => exact h.construct hphase (halone rfl)
  | failed => exact hidle
  | cut n =>
    simp only
    split_ifs
    · refine h.enter_outside hi rfl fun tokens' heq token' htoken' ↦ ?_
      obtain rfl := Phase.constructing.inj heq
      exact h.sound.constructing i _ hphase token' (List.mem_cons_of_mem _ htoken')
    · exact hidle

/-- All tokens are done, and the sums are taken. -/
theorem Steady.act_constructed (h : Steady w) {o : Outcome} (hphase : w.phase i = .constructing [])
    (halone : o = .done → ∀ j, j ≠ i → (w.phase j).sums = none) : Steady (w.act i o) := by
  have hi : (w.phase i).sums = none := by rw [hphase]; rfl
  have hidle : Steady (w.enter i .idle) := h.enter_outside hi rfl (by simp)
  simp only [act, hphase]
  rcases hquery : w.pctr.queryOwed with _ | owed
  · exact hidle
  · obtain rfl := PctrStore.queryOwed_eq_some hquery
    cases o with
    | done => exact h.takeSums hi (halone rfl)
    | failed => exact hidle
    | cut n => exact hidle

theorem Steady.act_capturing (h : Steady w) {o : Outcome} {owed : List PctrOwed}
    (hphase : w.phase i = .capturing owed) (hcut : owed = [] ∨ o ≠ .cut 0) :
    Steady (w.act i o) := by
  have hi : (w.phase i).sums = some ([], owed) := by rw [hphase]; rfl
  simp only [act, hphase]
  rcases hread : o.read w.pctr.unreportedIds with _ | ids
  · exact h.enter_idle hi
  · simp only
    split_ifs with howed
    · refine h.enter_inside hi rfl (captured_read hread (hcut.resolve_left howed) fun hnil ↦ ?_)
      exact (h.handing hi).outstanding howed (List.map_eq_nil_iff.mp hnil)
    · exact h.enter_idle hi

theorem Steady.act_sending (h : Steady w) (o : Outcome) {owed : List PctrOwed} {ids : List ℕ}
    (hphase : w.phase i = .sending owed ids) : Steady (w.act i o) := by
  have hi : (w.phase i).sums = some ([], owed) := by rw [hphase]; rfl
  have hids := h.captured i
  rw [hphase] at hids
  simp only [act, hphase]
  split_ifs
  · exact h.enter_inside hi rfl hids
  · exact h.enter_idle hi

theorem Steady.act_inserting (h : Steady w) {o : Outcome} {passed rest : List PctrOwed}
    {ids : List ℕ} (hphase : w.phase i = .inserting passed rest ids)
    (hdone : passed = [] ∨ o = .done) : Steady (w.act i o) := by
  have hi : (w.phase i).sums = some (passed, rest) := by rw [hphase]; rfl
  have hids := h.captured i
  rw [hphase] at hids
  -- a cycle that fails here has not passed anything yet
  have hidle : o.ok ≠ true → Steady (w.enter i .idle) := by
    intro hok
    obtain rfl := hdone.resolve_right fun hdone ↦ hok (Outcome.ok_iff.mpr hdone)
    exact h.enter_idle hi
  cases rest with
  | nil =>
    simp only [act, hphase]
    split_ifs with hok
    · exact h.enter_inside hi rfl hids
    · exact hidle hok
  | cons sum rest =>
    simp only [act, hphase]
    split_ifs with hok
    · exact h.pass hphase
    · exact hidle fun h ↦ hok (Or.inl h)

/-- **One orderly step.** -/
theorem Steady.step (h : Steady w) (e : Event ι) (he : Orderly w e) : Steady (w.step e) := by
  cases e with
  | batch tx => exact h.batch tx
  | act i o =>
    simp only [Orderly] at he
    rw [World.step]
    cases hphase : w.phase i with
    | idle => exact h.act_idle o hphase
    | constructing tokens =>
      rw [hphase] at he
      cases tokens with
      | nil => exact h.act_constructed hphase he
      | cons token tokens => exact h.act_constructing hphase he
    | capturing owed =>
      rw [hphase] at he
      exact h.act_capturing hphase he
    | sending owed ids => exact h.act_sending o hphase
    | inserting passed rest ids =>
      rw [hphase] at he
      exact h.act_inserting hphase he
    | marking owed ids =>
      rw [hphase] at he
      obtain rfl : o = .done := he
      simp only [act, hphase]
      exact h.mark hphase

/-! ## Whole runs -/

/-- **Debts cross exactly once.** From a settled state, whatever happens in an orderly run, the sum
of `pa_debts` contains every debt at most once, and every reported debt exactly once. -/
theorem always_exactlyOnce_of_orderly (hsound : Sound w) (hsettled : Settled w)
    {events : List (Event ι)} (hrun : Run.Meets step Orderly w events) :
    Run.Always step ExactlyOnce w events := by
  have hsteady : Steady w := by
    refine ⟨hsound, fun i ↦ ?_, Or.inl hsettled⟩
    have hi := hsettled.outside i
    rcases hphase : w.phase i with
      _ | tokens | owed | ⟨owed, ids⟩ | ⟨passed, rest, ids⟩ | ⟨owed, ids⟩
    · trivial
    · trivial
    all_goals
      rw [hphase] at hi
      exact absurd hi (by simp [Phase.sums])
  exact hrun.always (fun w e h he ↦ Steady.step h e he) (fun w h ↦ h.exactlyOnce) hsteady

/-! ## Runs -/

/-- A back office that has received the taps of two journeys between two stations. -/
def twoJourneys : PctrStore where
  transactions :=
    [{ transactionId := "a", token := "t1", station := "1", tapTime := 1 },
      { transactionId := "b", token := "t1", station := "2", tapTime := 2 },
      { transactionId := "c", token := "t2", station := "2", tapTime := 3 },
      { transactionId := "d", token := "t2", station := "1", tapTime := 4 }]
  stationCosts := [{ fromStation := "1", toStation := "2", cost := 150 }]
  debts := []
  nextId := 1
  collation := .codePoint

/-- Two back offices over one database, before anything has been reported. -/
def opening : World Bool where
  pctr := twoJourneys
  pa := ⟨.empty, [], 1, .codePoint⟩
  phase := fun _ ↦ .idle
  credited := []

/-- A cycle of a back office, from the ticker to the answer of the authority to the given number of
sums. -/
def untilAnswer (i : Bool) (journeys sums : ℕ) : List (Event Bool) :=
  List.replicate (1 + journeys + 3 + sums) (.act i .done)

theorem opening_sound : Sound opening where
  numbered := ⟨by decide, by decide⟩
  tapTokens := by decide
  debtTokens := by decide
  constructing := fun i tokens h ↦ by simp [opening] at h
  total := by decide

theorem opening_settled : Settled opening := ⟨fun _ ↦ rfl, by decide⟩

/-- A whole cycle of one back office after a whole cycle of the other. -/
theorem oneAfterTheOther_exactlyOnce :
    Sound opening ∧ Settled opening ∧ Run.Always step ExactlyOnce opening
      (untilAnswer false 2 2 ++ [.act false .done, .act false .done] ++ untilAnswer true 0 0) := by
  refine ⟨opening_sound, opening_settled,
    always_exactlyOnce_of_orderly opening_sound opening_settled ?_⟩
  decide +kernel

/-- The answer to the first request is lost, and the next cycle reports both debts again. -/
def answerLost : List (Event Bool) :=
  untilAnswer false 2 2 ++ [.act false .failed] ++ untilAnswer false 0 2
    ++ [.act false .done, .act false .done]

/-- One back office has taken its sums when two more taps come in and the other makes a journey of
them. -/
def lateJourney : List (Event Bool) :=
  List.replicate 4 (.act false .done)
    ++ [.batch ⟨"e", "t3", "g", "1", some 5⟩, .batch ⟨"f", "t3", "g", "2", some 6⟩,
      .act true .done, .act true .done]
    ++ List.replicate 6 (.act false .done)

/-- In the first run the authority is told of both debts twice. In the second the late debt is
marked as reported, and the authority has not been told of it. -/
theorem debts_doubled_and_lost :
    (Run.exec step opening answerLost).pctr.debts
        = [⟨1, "t1", 150, true⟩, ⟨2, "t2", 150, true⟩]
      ∧ (Run.exec step opening answerLost).credited = [(1, 150), (2, 150), (1, 150), (2, 150)]
      ∧ (Run.exec step opening answerLost).pa.total = 600
      ∧ (Run.exec step opening lateJourney).pctr.debts
        = [⟨1, "t1", 150, true⟩, ⟨2, "t2", 150, true⟩, ⟨3, "t3", 150, true⟩]
      ∧ (Run.exec step opening lateJourney).credited = [(1, 150), (2, 150)]
      ∧ (Run.exec step opening lateJourney).pa.total = 300
      ∧ ∀ events ∈ [answerLost, lateJourney], ¬ExactlyOnce (Run.exec step opening events) := by
  have hlost : (Run.exec step opening answerLost).pctr.debts
        = [⟨1, "t1", 150, true⟩, ⟨2, "t2", 150, true⟩]
      ∧ (Run.exec step opening answerLost).credited = [(1, 150), (2, 150), (1, 150), (2, 150)]
      ∧ (Run.exec step opening answerLost).pa.total = 600 := by decide +kernel
  have hlate : (Run.exec step opening lateJourney).pctr.debts
        = [⟨1, "t1", 150, true⟩, ⟨2, "t2", 150, true⟩, ⟨3, "t3", 150, true⟩]
      ∧ (Run.exec step opening lateJourney).credited = [(1, 150), (2, 150)]
      ∧ (Run.exec step opening lateJourney).pa.total = 300 := by decide +kernel
  refine ⟨hlost.1, hlost.2.1, hlost.2.2, hlate.1, hlate.2.1, hlate.2.2, fun events hevents h ↦ ?_⟩
  simp only [List.mem_cons, List.not_mem_nil, or_false] at hevents
  rcases hevents with rfl | rfl
  · have honce := h.atMostOnce ⟨1, "t1", 150, true⟩ (by simp [hlost.1])
    rw [hlost.2.1] at honce
    exact absurd honce (by decide)
  · have honce := h.reportedOnce ⟨3, "t3", 150, true⟩ (by simp [hlate.1]) rfl
    rw [hlate.2.1] at honce
    exact absurd honce (by decide)

end World

end CardDb

end TaskDiscovery
