import Mathlib.Data.Fintype.Basic
import Mathlib.Data.List.Count
import TaskDiscovery.CardDb.Pa
import TaskDiscovery.Lib.Run

/-!
# Restitution

On `POST /restitution` the payment authority sums up its outstanding debts by card, asks for the ids
of the outstanding debts, writes the sums to a file that is named after the second, and marks the
debts with these ids as exported, 500 at a time. The sums and the ids come from different queries at
different moments, only the first of which looks at the tokens, and an error of the marking is
ignored.

`PaService` is the authority with any number of requests being handled at once. A step is one
statement of one of them, or the creation of a file. The files are kept by the second in their name,
so that a file of the same second is overwritten. Once a file has been created its rows are written
in full; the code ignores the errors of the writer.

A debt is exported without being in a file when its token is not known, or when it comes in between
the two queries. It gets into a second file when the marking fails or the ids break off, or when two
restitutions overlap. When none of this happens, every exported debt is in exactly one file under
the card of its token (`always_accounted_of_orderly`).
-/

namespace TaskDiscovery

namespace CardDb

/-! ## The requests -/

/-- Where the handler of a request is. -/
inductive Handler
  | idle
  /-- In `InsertDebts`, with the debts still to come. -/
  | inserting (rest : List (String × Int))
  /-- Before `BuildRestitution`. -/
  | summing
  /-- In `BuildRestitution`, between its two queries. -/
  | capturing (rows : List RestitutionRow)
  /-- Before the file is created. -/
  | writing (rows : List RestitutionRow) (ids : List ℕ)
  /-- In `MarkDebtsExported`, with the chunks still to come. -/
  | exporting (chunks : List (List ℕ))
  deriving DecidableEq

/-- A restitution that has something to export, from its sums to the end of its marking. -/
def Handler.busy : Handler → Bool
  | .capturing rows => decide (rows ≠ [])
  | .writing _ _ | .exporting _ => true
  | .idle | .inserting _ | .summing => false

/-- A restitution that has something to export, between its two queries. -/
def Handler.between : Handler → Bool
  | .capturing rows => decide (rows ≠ [])
  | .idle | .inserting _ | .summing | .writing _ _ | .exporting _ => false

/-- The payment authority, with the files it has written. -/
structure PaService (ι : Type) where
  pa : PaStore
  files : AList fun _ : ℕ ↦ List RestitutionRow
  handler : ι → Handler

/-- What the environment contributes to a step: the second, and the orders that are left open. -/
structure Moment where
  second : ℕ
  cards : RangeOrder (Sigma fun _ : String ↦ RestitutionRow)
  ids : RangeOrder ℕ

/-- What happens: a request arrives, a token is given out, or a handler takes its next step. -/
inductive PaEvent (ι : Type)
  | debts (i : ι) (debts : List (String × Int))
  | restitution (i : ι)
  | tokenize (token cardId : String)
  | act (i : ι) (o : Outcome) (m : Moment)

namespace PaService

variable {ι : Type} [DecidableEq ι]

def enter (w : PaService ι) (i : ι) (p : Handler) : PaService ι :=
  { w with handler := Function.update w.handler i p }

def act (w : PaService ι) (i : ι) (o : Outcome) (m : Moment) : PaService ι :=
  match w.handler i with
  | .idle => w
  | .inserting [] => w.enter i .idle
  | .inserting ((token, amount) :: rest) =>
    if token = "" ∨ amount = 0 then w.enter i (.inserting rest)
    else if o.ok then { w with pa := w.pa.insertDebt token amount }.enter i (.inserting rest)
    else w.enter i .idle
  | .summing =>
    match w.pa.restitution m.cards with
    | some rows => w.enter i (if o.ok then .capturing rows else .idle)
    | none => w.enter i .idle
  | .capturing rows =>
    -- the loop over the ids does not look at `rows.Err`
    match o.read (m.ids.arrange w.pa.outstandingIds) with
    | some ids => w.enter i (if rows ≠ [] then .writing rows ids else .idle)
    | none => w.enter i .idle
  | .writing rows ids =>
    if o.ok then
      { w with files := w.files.insert m.second rows }.enter i
        (.exporting (PaStore.exportChunks ids))
    else w.enter i .idle
  | .exporting (ids :: chunks) =>
    if o.ok then { w with pa := w.pa.markExported ids }.enter i (.exporting chunks)
    else w.enter i .idle
  | .exporting [] => w.enter i .idle

def step (w : PaService ι) : PaEvent ι → PaService ι
  | .debts i debts => if w.handler i = .idle then w.enter i (.inserting debts) else w
  | .restitution i => if w.handler i = .idle then w.enter i .summing else w
  | .tokenize token cardId =>
    { w with pa := { w.pa with tokens := w.pa.tokens.insert token cardId } }
  | .act i o m => w.act i o m

/-! ## Accounting -/

def filed (w : PaService ι) : List Charge :=
  w.files.entries.flatMap fun f ↦ f.2.flatMap RestitutionRow.charges

/-- The amounts in the files are made up of charges, of which they contain that of a debt at most
once, and that of an exported debt exactly once, under the card of its token. -/
structure Accounted (w : PaService ι) : Prop where
  amounts : ∀ f ∈ w.files.entries, ∀ row ∈ f.2, row.amount = (row.charges.map Prod.snd).sum
  atMostOnce : ∀ d ∈ w.pa.debts, w.filed.count d.charge ≤ 1
  exportedOnce : ∀ d ∈ w.pa.debts, d.exported = true → w.filed.count d.charge = 1
  underCard : ∀ d ∈ w.pa.debts, d.exported = true → ∃ f ∈ w.files.entries, ∃ row ∈ f.2,
    d.charge ∈ row.charges ∧ ⟨d.token, row.cardId⟩ ∈ w.pa.tokens.rows

/-! ## Orderly runs -/

/-- The step does not come between the parts of a restitution, and does not make it miss any.

* A debt is inserted only while no restitution is between its two queries.
* Sums are taken only while no other restitution is under way, and when the outstanding debts have
  known tokens, or none of them has.
* The ids do not break off.
* A file has a name of its own.
* The marking succeeds. -/
def Orderly (w : PaService ι) : PaEvent ι → Prop
  | .debts _ _ | .restitution _ | .tokenize _ _ => True
  | .act i o m =>
    match w.handler i with
    | .idle | .inserting [] | .exporting [] => True
    | .inserting ((token, amount) :: _) =>
      o = .done → token = "" ∨ amount = 0 ∨ ∀ j, (w.handler j).between = false
    | .summing =>
      o = .done → (∀ j, j ≠ i → (w.handler j).busy = false)
        ∧ ((∀ d ∈ w.pa.outstanding, d.token ∈ w.pa.tokens.rows.map PaToken.token)
          ∨ ∀ d ∈ w.pa.outstanding, d.token ∉ w.pa.tokens.rows.map PaToken.token)
    | .capturing rows => rows = [] ∨ o.whole w.pa.outstanding.length = true
    | .writing _ _ => o = .done → m.second ∉ w.files
    | .exporting (_ :: _) => o = .done

instance [Fintype ι] (w : PaService ι) : (e : PaEvent ι) → Decidable (Orderly w e)
  | .debts _ _ | .restitution _ | .tokenize _ _ => isTrue trivial
  | .act i o m =>
    match h : w.handler i with
    | .idle | .inserting [] | .exporting [] => isTrue (by simp [Orderly, h])
    | .inserting ((token, amount) :: _) =>
      decidable_of_iff (o = .done → token = "" ∨ amount = 0 ∨ ∀ j, (w.handler j).between = false)
        (by simp [Orderly, h])
    | .summing =>
      decidable_of_iff (o = .done → (∀ j, j ≠ i → (w.handler j).busy = false)
        ∧ ((∀ d ∈ w.pa.outstanding, d.token ∈ w.pa.tokens.rows.map PaToken.token)
          ∨ ∀ d ∈ w.pa.outstanding, d.token ∉ w.pa.tokens.rows.map PaToken.token))
        (by simp only [Orderly, h])
    | .capturing rows =>
      decidable_of_iff (rows = [] ∨ o.whole w.pa.outstanding.length = true) (by simp [Orderly, h])
    | .writing _ _ => decidable_of_iff (o = .done → m.second ∉ w.files) (by simp [Orderly, h])
    | .exporting (_ :: _) => decidable_of_iff (o = .done) (by simp [Orderly, h])

/-- What every step keeps: ids are given out once, and the rows of the files are backed by debts. -/
structure Sound (w : PaService ι) : Prop where
  numbered : w.pa.Numbered
  backed : ∀ f ∈ w.files.entries, ∀ row ∈ f.2, w.pa.Backed row

/-- No restitution is under way, and exactly the exported debts are in the files. -/
structure Settled (w : PaService ι) : Prop where
  outside : ∀ i, (w.handler i).busy = false
  filed : w.filed.Perm (w.pa.charges PaDebt.exported)

/-- Exactly the exported debts are in the files, and the rows of a restitution contain the
outstanding debts with the given ids. -/
structure Covers (s : PaStore) (filed : List Charge) (rows : List RestitutionRow) (ids : List ℕ) :
    Prop where
  filed : filed.Perm (s.charges PaDebt.exported)
  charges : (rows.flatMap RestitutionRow.charges).Perm
    (s.charges fun d ↦ !d.exported && decide (d.id ∈ ids))
  below : ∀ id ∈ ids, id < s.nextId
  backed : ∀ row ∈ rows, s.Backed row

/-- How far the restitution is that is under way. -/
def Stage (s : PaStore) (filed : List Charge) : Handler → Prop
  | .capturing rows => Covers s filed rows s.outstandingIds
  | .writing rows ids => Covers s filed rows ids
  | .exporting chunks =>
    filed.Perm (s.charges fun d ↦ d.exported || decide (d.id ∈ chunks.flatten))
      ∧ ∀ id ∈ chunks.flatten, id < s.nextId
  | .idle | .inserting _ | .summing => filed.Perm (s.charges PaDebt.exported)

/-- The states of an orderly run. -/
structure Steady (w : PaService ι) : Prop where
  sound : Sound w
  alone : ∀ i j, (w.handler i).busy = true → (w.handler j).busy = true → i = j
  stage : ∀ i, (w.handler i).busy = true → Stage w.pa w.filed (w.handler i)
  settled : (∀ i, (w.handler i).busy = false) → w.filed.Perm (w.pa.charges PaDebt.exported)

variable {w : PaService ι} {i : ι}

/-! ### What a steady state says -/

omit [DecidableEq ι] in
/-- The files contain the exported debts, and those that are being exported. -/
theorem Steady.exists_filed (h : Steady w) : ∃ ids : List ℕ,
    w.filed.Perm (w.pa.charges fun d ↦ d.exported || decide (d.id ∈ ids)) := by
  have hnone (hfiled : w.filed.Perm (w.pa.charges PaDebt.exported)) : ∃ ids : List ℕ,
      w.filed.Perm (w.pa.charges fun d ↦ d.exported || decide (d.id ∈ ids)) :=
    ⟨[], by simpa using hfiled⟩
  by_cases hbusy : ∀ i, (w.handler i).busy = false
  · exact hnone (h.settled hbusy)
  · push Not at hbusy
    obtain ⟨i, hi⟩ := hbusy
    have hstage := h.stage i (by simpa using hi)
    rcases hphase : w.handler i with _ | rest | _ | rows | ⟨rows, ids⟩ | chunks <;>
      rw [hphase] at hstage
    · exact hnone hstage
    · exact hnone hstage
    · exact hnone hstage
    · exact hnone hstage.filed
    · exact hnone hstage.filed
    · exact ⟨chunks.flatten, hstage.1⟩

omit [DecidableEq ι] in
theorem Steady.accounted (h : Steady w) : Accounted w := by
  obtain ⟨ids, hfiled⟩ := h.exists_filed
  have hcharges := PaStore.nodup_charges h.sound.numbered
  have hnodup : w.filed.Nodup :=
    hfiled.nodup_iff.mpr (hcharges.sublist (List.filter_sublist.map _))
  have hmem : ∀ d ∈ w.pa.debts, d.exported = true → d.charge ∈ w.filed := fun d hd hexported ↦
    hfiled.mem_iff.mpr (List.mem_map_of_mem (List.mem_filter.mpr ⟨hd, by simp [hexported]⟩))
  refine ⟨fun f hf row hrow ↦ (h.sound.backed f hf row hrow).amount,
    fun d _ ↦ List.nodup_iff_count_le_one.mp hnodup _,
    fun d hd hexported ↦ List.count_eq_one_of_mem hnodup (hmem d hd hexported),
    fun d hd hexported ↦ ?_⟩
  obtain ⟨f, hf, hcharge⟩ := List.mem_flatMap.mp (hmem d hd hexported)
  obtain ⟨row, hrow, hcharge⟩ := List.mem_flatMap.mp hcharge
  obtain ⟨d', hd', heq, htoken⟩ := (h.sound.backed f hf row hrow).card _ hcharge
  obtain rfl := List.inj_on_of_nodup_map hcharges hd' hd heq
  exact ⟨f, hf, row, hrow, hcharge, htoken⟩

/-! ### What a step keeps -/

theorem enter_handler (w : PaService ι) (i : ι) (p : Handler) (j : ι) :
    (w.enter i p).handler j = if j = i then p else w.handler j :=
  Function.update_apply ..

/-- The one restitution that may be under way goes on, or ends. -/
theorem Sound.enter (h : Sound w) (halone : ∀ j, j ≠ i → (w.handler j).busy = false) {p : Handler}
    (hstage : Stage w.pa w.filed p)
    (hsettled : p.busy = false → w.filed.Perm (w.pa.charges PaDebt.exported)) :
    Steady (w.enter i p) := by
  have hbusy : ∀ j, ((w.enter i p).handler j).busy = true → j = i := fun j hj ↦ by
    by_contra hne
    rw [enter_handler, if_neg hne, halone j hne] at hj
    exact absurd hj (by simp)
  refine ⟨⟨h.numbered, h.backed⟩, fun j k hj hk ↦ (hbusy j hj).trans (hbusy k hk).symm,
    fun j hj ↦ ?_, fun hnone ↦ ?_⟩
  · obtain rfl := hbusy j hj
    rw [enter_handler, if_pos rfl]
    exact hstage
  · have hi := hnone i
    rw [enter_handler, if_pos rfl] at hi
    exact hsettled hi

theorem Steady.enter_quiet (h : Steady w) (hi : (w.handler i).busy = false) {p : Handler}
    (hp : p.busy = false) : Steady (w.enter i p) := by
  have hbusy : ∀ j, ((w.enter i p).handler j).busy = (w.handler j).busy := fun j ↦ by
    rw [enter_handler]
    split_ifs with hj
    · rw [hp, hj, hi]
    · rfl
  refine ⟨⟨h.sound.numbered, h.sound.backed⟩, fun j k hj hk ↦ ?_, fun j hj ↦ ?_, fun hnone ↦ ?_⟩
  · exact h.alone j k (hbusy j ▸ hj) (hbusy k ▸ hk)
  · have hne : j ≠ i := fun heq ↦ by
      rw [hbusy j, heq, hi] at hj
      exact absurd hj (by simp)
    have hstage := h.stage j (hbusy j ▸ hj)
    rw [enter_handler, if_neg hne]
    exact hstage
  · exact h.settled fun j ↦ (hbusy j).symm.trans (hnone j)

omit [DecidableEq ι] in
theorem Steady.others (h : Steady w) (hi : (w.handler i).busy = true) (j : ι) (hj : j ≠ i) :
    (w.handler j).busy = false := by
  by_contra hbusy
  exact hj (h.alone j i (by simpa using hbusy) hi)

omit [DecidableEq ι] in
/-- New debts and tokens change nothing for the restitution under way, unless it is between its
queries. -/
theorem Steady.store (h : Steady w) {pa : PaStore} (hnumbered : pa.Numbered)
    (hext : PaStore.Extends w.pa pa) (hnext : w.pa.nextId ≤ pa.nextId)
    (hcharges : ∀ p : PaDebt → Bool,
      (∀ d : PaDebt, w.pa.nextId ≤ d.id → d.exported = false → p d = false) →
        pa.charges p = w.pa.charges p)
    (hbetween : pa.outstandingIds = w.pa.outstandingIds ∨ ∀ i, (w.handler i).between = false) :
    Steady { w with pa := pa } := by
  have hexported (hfiled : w.filed.Perm (w.pa.charges PaDebt.exported)) :
      w.filed.Perm (pa.charges PaDebt.exported) := by
    rw [hcharges _ fun _ _ hd ↦ hd]
    exact hfiled
  have hcovers : ∀ {rows ids}, Covers w.pa w.filed rows ids → Covers pa w.filed rows ids := by
    intro rows ids hcov
    refine ⟨hexported hcov.filed, ?_, fun id hid ↦ (hcov.below id hid).trans_le hnext,
      fun row hrow ↦ (hcov.backed row hrow).mono hext⟩
    refine hcov.charges.trans (List.Perm.of_eq (hcharges _ fun d hd _ ↦ ?_).symm)
    have hnot : d.id ∉ ids := fun hid ↦ absurd (hcov.below _ hid) (by omega)
    simp [hnot]
  refine ⟨⟨hnumbered, fun f hf row hrow ↦ (h.sound.backed f hf row hrow).mono hext⟩, h.alone,
    fun i hi ↦ ?_, fun hnone ↦ hexported (h.settled hnone)⟩
  have hstage := h.stage i hi
  change Stage pa w.filed (w.handler i)
  rcases hphase : w.handler i with _ | rest | _ | rows | ⟨rows, ids⟩ | chunks <;>
    rw [hphase] at hstage
  · exact hexported hstage
  · exact hexported hstage
  · exact hexported hstage
  · rcases hbetween with hids | hbetween
    · simp only [Stage, hids]
      exact hcovers hstage
    · have hquiet := hbetween i
      have hbusy : (w.handler i).busy = true := hi
      rw [hphase] at hquiet hbusy
      exact absurd (hquiet.symm.trans hbusy) (by simp)
  · exact hcovers hstage
  · refine ⟨hstage.1.trans (List.Perm.of_eq (hcharges _ fun d hd hexp ↦ ?_).symm),
      fun id hid ↦ (hstage.2 id hid).trans_le hnext⟩
    have hnot : d.id ∉ chunks.flatten := fun hid ↦ absurd (hstage.2 _ hid) (by omega)
    rw [hexp, decide_eq_false hnot]
    rfl

omit [DecidableEq ι] in
theorem Steady.insertDebt (h : Steady w) (token : String) (amount : Int)
    (hbetween : ∀ i, (w.handler i).between = false) :
    Steady { w with pa := w.pa.insertDebt token amount } :=
  h.store (PaStore.numbered_insertDebt h.sound.numbered token amount)
    (PaStore.Extends.insertDebt w.pa token amount) (Nat.le_succ _)
    (fun _ hp ↦ PaStore.charges_insertDebt (hp _ le_rfl rfl)) (Or.inr hbetween)

omit [DecidableEq ι] in
theorem Steady.tokenize (h : Steady w) (token cardId : String) :
    Steady { w with pa := { w.pa with tokens := w.pa.tokens.insert token cardId } } :=
  h.store h.sound.numbered
    ⟨fun d hd ↦ ⟨d, hd, rfl, rfl⟩, fun _ ht ↦ TokenTable.mem_insert ht token cardId⟩ le_rfl
    (fun _ _ ↦ rfl) (Or.inl rfl)

/-! ### The steps of a restitution -/

theorem Steady.takeSums (h : Steady w) (hphase : w.handler i = .summing)
    (halone : ∀ j, j ≠ i → (w.handler j).busy = false)
    (hknown : (∀ d ∈ w.pa.outstanding, d.token ∈ w.pa.tokens.rows.map PaToken.token)
      ∨ ∀ d ∈ w.pa.outstanding, d.token ∉ w.pa.tokens.rows.map PaToken.token)
    {ord : RangeOrder (Sigma fun _ : String ↦ RestitutionRow)} {rows : List RestitutionRow}
    (hrows : w.pa.restitution ord = some rows) : Steady (w.enter i (.capturing rows)) := by
  have hperm := PaStore.restitution_perm hrows
  have hi : (w.handler i).busy = false := by rw [hphase]; rfl
  rcases hknown with hknown | hunknown
  · have hfiled := h.settled fun j ↦ by
      by_cases hj : j = i
      · rw [hj, hi]
      · exact halone j hj
    refine h.sound.enter halone ⟨hfiled, ?_, fun id hid ↦ ?_, fun row hrow ↦ ?_⟩ fun _ ↦ hfiled
    · rw [PaStore.charges_outstandingIds]
      exact (hperm.flatMap_right _).trans (PaStore.charges_owedByCard hknown)
    · obtain ⟨d, hd, rfl⟩ := List.mem_map.mp hid
      exact h.sound.numbered.below _ (List.mem_map_of_mem (List.mem_filter.mp hd).1)
    · exact PaStore.backed_of_mem_owedByCard (hperm.mem_iff.mp hrow)
  · rw [PaStore.owedByCard_eq_nil hunknown] at hperm
    obtain rfl := hperm.eq_nil
    exact h.enter_quiet hi rfl

theorem Steady.takeIds (h : Steady w) {rows : List RestitutionRow}
    (hphase : w.handler i = .capturing rows) (hne : rows ≠ []) {ids : List ℕ}
    (hids : ids.Perm w.pa.outstandingIds) : Steady (w.enter i (.writing rows ids)) := by
  have hi : (w.handler i).busy = true := by
    rw [hphase]
    exact decide_eq_true hne
  have hcov := h.stage i hi
  rw [hphase] at hcov
  refine h.sound.enter (h.others hi) ⟨hcov.filed, ?_,
    fun id hid ↦ hcov.below id (hids.mem_iff.mp hid), hcov.backed⟩ fun _ ↦ hcov.filed
  simp only [hids.mem_iff]
  exact hcov.charges

theorem Steady.write (h : Steady w) {rows : List RestitutionRow} {ids : List ℕ}
    (hphase : w.handler i = .writing rows ids) {second : ℕ} (hnew : second ∉ w.files) :
    Steady ({ w with files := w.files.insert second rows }.enter i
      (.exporting (PaStore.exportChunks ids))) := by
  have hi : (w.handler i).busy = true := by rw [hphase]; rfl
  have hcov := h.stage i hi
  rw [hphase] at hcov
  have hentries : (w.files.insert second rows).entries = ⟨second, rows⟩ :: w.files.entries :=
    AList.entries_insert_of_notMem hnew
  have hsound : Sound { w with files := w.files.insert second rows } := by
    refine ⟨h.sound.numbered, fun f hf row hrow ↦ ?_⟩
    simp only [hentries, List.mem_cons] at hf
    rcases hf with rfl | hf
    · exact hcov.backed row hrow
    · exact h.sound.backed f hf row hrow
  have hflatten : (PaStore.exportChunks ids).flatten = ids := List.flatten_blocks (by omega) ids
  refine hsound.enter (h.others hi) ⟨?_, ?_⟩ fun hbusy ↦ absurd hbusy (by simp [Handler.busy])
  · rw [hflatten, filed]
    simp only [hentries, List.flatMap_cons]
    exact (hcov.charges.append hcov.filed).trans
      (List.perm_append_comm.trans (PaStore.charges_exported_append ids))
  · rw [hflatten]
    exact hcov.below

theorem Steady.mark (h : Steady w) {ids : List ℕ} {chunks : List (List ℕ)}
    (hphase : w.handler i = .exporting (ids :: chunks)) :
    Steady ({ w with pa := w.pa.markExported ids }.enter i (.exporting chunks)) := by
  have hi : (w.handler i).busy = true := by rw [hphase]; rfl
  have hstage := h.stage i hi
  rw [hphase] at hstage
  obtain ⟨hfiled, hbelow⟩ := hstage
  rw [List.flatten_cons] at hfiled hbelow
  have hsound : Sound { w with pa := w.pa.markExported ids } :=
    ⟨PaStore.numbered_markExported h.sound.numbered ids, fun f hf row hrow ↦
      (h.sound.backed f hf row hrow).mono (PaStore.Extends.markExported w.pa ids)⟩
  refine hsound.enter (h.others hi) ⟨?_, fun id hid ↦ hbelow id (List.mem_append_right _ hid)⟩
    fun hbusy ↦ absurd hbusy (by simp [Handler.busy])
  simp only [PaStore.charges_markExported]
  exact hfiled

/-- A restitution that ends before its file, or after its marking, leaves everything settled. -/
theorem Steady.leave (h : Steady w)
    (hfiled : (w.handler i).busy = true → w.filed.Perm (w.pa.charges PaDebt.exported)) :
    Steady (w.enter i .idle) := by
  rcases hi : (w.handler i).busy with _ | _
  · exact h.enter_quiet hi rfl
  · exact h.sound.enter (h.others hi) (hfiled hi) fun _ ↦ hfiled hi

/-- **One orderly step.** -/
theorem Steady.step (h : Steady w) (e : PaEvent ι) (he : Orderly w e) : Steady (w.step e) := by
  cases e with
  | debts i debts =>
    simp only [PaService.step]
    split_ifs with hidle
    · exact h.enter_quiet (by rw [hidle]; rfl) rfl
    · exact h
  | restitution i =>
    simp only [PaService.step]
    split_ifs with hidle
    · exact h.enter_quiet (by rw [hidle]; rfl) rfl
    · exact h
  | tokenize token cardId => exact h.tokenize token cardId
  | act i o m =>
    simp only [Orderly] at he
    simp only [PaService.step, act]
    have hstage := h.stage i
    rcases hphase : w.handler i with _ | (_ | ⟨⟨token, amount⟩, rest⟩) | _ | rows | ⟨rows, ids⟩
      | (_ | ⟨ids, chunks⟩) <;> simp only [hphase] at he hstage
    · exact h
    · exact h.enter_quiet (by rw [hphase]; rfl) rfl
    · have hi : (w.handler i).busy = false := by rw [hphase]; rfl
      simp only
      split_ifs with hskip hok
      · exact h.enter_quiet hi rfl
      · have hbetween := ((he (Outcome.ok_iff.mp hok)).resolve_left fun ht ↦
          hskip (Or.inl ht)).resolve_left fun ha ↦ hskip (Or.inr ha)
        exact (h.insertDebt token amount hbetween).enter_quiet hi rfl
      · exact h.enter_quiet hi rfl
    · have hi : (w.handler i).busy = false := by rw [hphase]; rfl
      rcases hrows : w.pa.restitution m.cards with _ | rows
      · exact h.enter_quiet hi rfl
      · cases o with
        | done => exact h.takeSums hphase (he rfl).1 (he rfl).2 hrows
        | failed => exact h.enter_quiet hi rfl
        | cut n => exact h.enter_quiet hi rfl
    · have hleave : Steady (w.enter i .idle) :=
        h.leave fun hi ↦ (hstage (by rwa [hphase] at hi)).filed
      rcases hread : o.read (m.ids.arrange w.pa.outstandingIds) with _ | ids
      · exact hleave
      · simp only
        split_ifs with hne
        · refine h.takeIds hphase hne ?_
          have hlength : (m.ids.arrange w.pa.outstandingIds).length = w.pa.outstanding.length := by
            rw [(m.ids.perm _).length_eq, PaStore.outstandingIds, List.length_map]
          rw [← hlength] at he
          rw [Outcome.read_eq_of_whole (he.resolve_left hne) hread]
          exact m.ids.perm _
        · exact hleave
    · simp only
      split_ifs with hok
      · exact h.write hphase (he (Outcome.ok_iff.mp hok))
      · exact h.leave fun hi ↦ (hstage rfl).filed
    · exact h.leave fun _ ↦ by simpa using (hstage rfl).1
    · subst he
      exact h.mark hphase

/-- **Restitution accounts for every exported debt.** From a settled state, whatever happens in an
orderly run, every debt is in at most one file, and every exported debt in exactly one, under the
card of its token. -/
theorem always_accounted_of_orderly (hsound : Sound w) (hsettled : Settled w)
    {events : List (PaEvent ι)} (hrun : Run.Meets step Orderly w events) :
    Run.Always step Accounted w events := by
  have hsteady : Steady w := by
    refine ⟨hsound, fun i _ hi ↦ ?_, fun i hi ↦ ?_, fun _ ↦ hsettled.filed⟩
    · rw [hsettled.outside i] at hi
      exact absurd hi (by simp)
    · rw [hsettled.outside i] at hi
      exact absurd hi (by simp)
  exact hrun.always (fun w e h he ↦ Steady.step h e he) (fun w h ↦ h.accounted) hsteady

/-! ## Runs -/

/-- An authority that knows two tokens, with two requests at a time. -/
def opening : PaService Bool where
  pa := ⟨(TokenTable.empty.insert "t1" "a").insert "t2" "b", [], 1, .codePoint⟩
  files := ∅
  handler := fun _ ↦ .idle

/-- Steps of a handler that succeed, in one second. -/
def acts (i : Bool) (n second : ℕ) : List (PaEvent Bool) :=
  List.replicate n (.act i .done ⟨second, .asStored, .asStored⟩)

/-- A request of debts, from its arrival to its answer. -/
def posted (debts : List (String × Int)) : List (PaEvent Bool) :=
  .debts true debts :: acts true (debts.length + 1) 0

theorem opening_sound : Sound opening := ⟨⟨by decide, by decide⟩, by simp [opening]⟩

theorem opening_settled : Settled opening := ⟨fun _ ↦ rfl, by decide⟩

/-- Two restitutions, with debts that come in before each of them. -/
theorem twoRestitutions_accounted :
    Sound opening ∧ Settled opening ∧ Run.Always step Accounted opening
      (posted [("t1", 150), ("t2", 70)] ++ .restitution false :: acts false 5 1
        ++ posted [("t1", 30)] ++ .restitution false :: acts false 5 2) := by
  refine ⟨opening_sound, opening_settled,
    always_accounted_of_orderly opening_sound opening_settled ?_⟩
  decide +kernel

/-- One of two debts has an unknown token. -/
def unknownToken : List (PaEvent Bool) :=
  posted [("t1", 150), ("t9", 70)] ++ .restitution false :: acts false 5 1

/-- The second of two debts comes in between the queries of the restitution. -/
def lateDebt : List (PaEvent Bool) :=
  posted [("t1", 150)] ++ .restitution false :: acts false 1 1 ++ posted [("t2", 70)]
    ++ acts false 4 1

/-- The marking fails, and there is another restitution in the next second. -/
def unmarked : List (PaEvent Bool) :=
  posted [("t1", 150)] ++ .restitution false :: acts false 3 1
    ++ .act false .failed ⟨1, .asStored, .asStored⟩ :: .restitution false :: acts false 5 2

/-- In the first two runs both debts are exported, and the second is in no file. In the third the
debt is in two files. -/
theorem debts_unfiled_and_refiled :
    (Run.exec step opening unknownToken).pa.debts = [⟨1, "t1", 150, true⟩, ⟨2, "t9", 70, true⟩]
      ∧ (Run.exec step opening unknownToken).filed = [(1, 150)]
      ∧ (Run.exec step opening lateDebt).pa.debts = [⟨1, "t1", 150, true⟩, ⟨2, "t2", 70, true⟩]
      ∧ (Run.exec step opening lateDebt).filed = [(1, 150)]
      ∧ (Run.exec step opening unmarked).pa.debts = [⟨1, "t1", 150, true⟩]
      ∧ (Run.exec step opening unmarked).filed = [(1, 150), (1, 150)]
      ∧ ∀ events ∈ [unknownToken, lateDebt, unmarked],
        ¬Accounted (Run.exec step opening events) := by
  have hunknown : (Run.exec step opening unknownToken).pa.debts
      = [⟨1, "t1", 150, true⟩, ⟨2, "t9", 70, true⟩]
      ∧ (Run.exec step opening unknownToken).filed = [(1, 150)] := by decide +kernel
  have hlate : (Run.exec step opening lateDebt).pa.debts
      = [⟨1, "t1", 150, true⟩, ⟨2, "t2", 70, true⟩]
      ∧ (Run.exec step opening lateDebt).filed = [(1, 150)] := by decide +kernel
  have hunmarked : (Run.exec step opening unmarked).pa.debts = [⟨1, "t1", 150, true⟩]
      ∧ (Run.exec step opening unmarked).filed = [(1, 150), (1, 150)] := by decide +kernel
  refine ⟨hunknown.1, hunknown.2, hlate.1, hlate.2, hunmarked.1, hunmarked.2,
    fun events hevents h ↦ ?_⟩
  simp only [List.mem_cons, List.not_mem_nil, or_false] at hevents
  rcases hevents with rfl | rfl | rfl
  · have honce := h.exportedOnce ⟨2, "t9", 70, true⟩ (by simp [hunknown.1]) rfl
    rw [hunknown.2] at honce
    exact absurd honce (by decide)
  · have honce := h.exportedOnce ⟨2, "t2", 70, true⟩ (by simp [hlate.1]) rfl
    rw [hlate.2] at honce
    exact absurd honce (by decide)
  · have honce := h.atMostOnce ⟨1, "t1", 150, true⟩ (by simp [hunmarked.1])
    rw [hunmarked.2] at honce
    exact absurd honce (by decide)

end PaService

end CardDb

end TaskDiscovery
