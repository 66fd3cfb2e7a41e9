import Mathlib.Algebra.Ring.Nat
import Mathlib.Data.List.Infix
import Mathlib.Logic.Function.Iterate
import Mathlib.Order.WellFounded

/-!
# Runs of a transition function

A run is a list of actions folded over a state. Three notions are enough for the safety arguments
of this development: the state a run ends in (`exec`), that every state along a run has a property
(`Always`), and that every step of a run meets a condition on the state before it and the action
taken (`Meets`). Where the actions are calls, `outputs` lists what they return.

The rule used for exact characterizations is `always_iff_meets`: if one step preserves `P` exactly
when it meets `cond`, then `P` holds all along a run exactly when every step of the run meets
`cond`.
-/

theorem List.countP_eq_sum {α : Type*} (p : α → Bool) (l : List α) :
    l.countP p = (l.map fun a ↦ (p a).toNat).sum := by
  induction l with
  | nil => rfl
  | cons a l ih =>
    rw [countP_cons, ih, map_cons, sum_cons, Nat.add_comm]
    cases p a <;> rfl

namespace Run

variable {σ α : Type*} (step : σ → α → σ)

/-- The state after performing the actions in order. -/
def exec (s : σ) (acts : List α) : σ := acts.foldl step s

/-- Every step of the run meets `cond`, a condition on the state before the step and the action. -/
def Meets (cond : σ → α → Prop) : σ → List α → Prop
  | _, [] => True
  | s, a :: acts => cond s a ∧ Meets cond (step s a) acts

instance Meets.decidable {cond : σ → α → Prop} [∀ s a, Decidable (cond s a)] :
    ∀ s acts, Decidable (Meets step cond s acts)
  | _, [] => isTrue trivial
  | s, a :: acts => @instDecidableAnd _ _ _ (Meets.decidable (step s a) acts)

/-- Every state of the run, the first and the last included, satisfies `P`. -/
def Always (P : σ → Prop) (s : σ) (acts : List α) : Prop :=
  ∀ pre, pre <+: acts → P (exec step s pre)

variable {step}

@[simp] theorem exec_nil (s : σ) : exec step s [] = s := rfl

@[simp] theorem exec_cons (s : σ) (a : α) (acts : List α) :
    exec step s (a :: acts) = exec step (step s a) acts := rfl

theorem exec_append (s : σ) (acts acts' : List α) :
    exec step s (acts ++ acts') = exec step (exec step s acts) acts' :=
  List.foldl_append

/-- What a run of calls returns, one value for each call. -/
def outputs {ρ : Type*} (call : σ → α → σ × ρ) : σ → List α → List ρ
  | _, [] => []
  | s, a :: acts => (call s a).2 :: outputs call (call s a).1 acts

/-- **The counting rule.** A number that each call raises by what it returns is raised by a run by
the sum of that. -/
theorem sum_outputs {ρ : Type*} (call : σ → α → σ × ρ) (f : σ → ℕ) (g : ρ → ℕ)
    (hcall : ∀ s a, f (call s a).1 = f s + g (call s a).2) (s : σ) (acts : List α) :
    f (exec (fun s a ↦ (call s a).1) s acts) = f s + ((outputs call s acts).map g).sum := by
  induction acts generalizing s with
  | nil => rfl
  | cons a acts ih =>
    rw [exec_cons, ih, hcall, outputs, List.map_cons, List.sum_cons, Nat.add_assoc]

/-- **The refinement rule.** Two systems that return the same from related states, and end in
related states, return the same all along a run. -/
theorem outputs_refine {σ' ρ : Type*} {call : σ → α → σ × ρ} {call' : σ' → α → σ' × ρ}
    {Rel : σ → σ' → Prop} {Adm : α → Prop}
    (hcall : ∀ s s' a, Adm a → Rel s s' →
      (call s a).2 = (call' s' a).2 ∧ Rel (call s a).1 (call' s' a).1)
    {s : σ} {s' : σ'} (h : Rel s s') {acts : List α} (hacts : ∀ a ∈ acts, Adm a) :
    outputs call s acts = outputs call' s' acts
      ∧ Rel (exec (fun s a ↦ (call s a).1) s acts) (exec (fun s a ↦ (call' s a).1) s' acts) := by
  induction acts generalizing s s' with
  | nil => exact ⟨rfl, h⟩
  | cons a acts ih =>
    obtain ⟨hout, hrel⟩ := hcall s s' a (hacts a List.mem_cons_self) h
    obtain ⟨houts, hend⟩ := ih hrel fun b hb ↦ hacts b (List.mem_cons_of_mem a hb)
    exact ⟨by rw [outputs, outputs, hout, houts], hend⟩

variable {cond : σ → α → Prop} {P Inv : σ → Prop}

@[simp] theorem meets_nil (s : σ) : Meets step cond s [] := trivial

@[simp] theorem meets_cons (s : σ) (a : α) (acts : List α) :
    Meets step cond s (a :: acts) ↔ cond s a ∧ Meets step cond (step s a) acts := Iff.rfl

theorem meets_append {s : σ} {acts acts' : List α} :
    Meets step cond s (acts ++ acts')
      ↔ Meets step cond s acts ∧ Meets step cond (exec step s acts) acts' := by
  induction acts generalizing s with
  | nil => simp
  | cons a acts ih => rw [List.cons_append, meets_cons, meets_cons, ih, and_assoc, exec_cons]

theorem Meets.initial {s : σ} {pre acts : List α} (h : Meets step cond s acts)
    (hpre : pre <+: acts) : Meets step cond s pre := by
  obtain ⟨post, rfl⟩ := hpre
  exact (meets_append.mp h).1

/-- **The invariant rule.** What one step preserves under `cond`, a run preserves whose steps all
meet `cond`. -/
theorem Meets.invariant (hstep : ∀ s a, Inv s → cond s a → Inv (step s a)) {s : σ}
    {acts : List α} (hs : Inv s) (h : Meets step cond s acts) : Inv (exec step s acts) := by
  induction acts generalizing s with
  | nil => exact hs
  | cons a acts ih => exact ih (hstep s a hs h.1) h.2

theorem Meets.and {cond' : σ → α → Prop} {s : σ} {acts : List α} (h : Meets step cond s acts)
    (h' : Meets step cond' s acts) : Meets step (fun s a ↦ cond s a ∧ cond' s a) s acts := by
  induction acts generalizing s with
  | nil => trivial
  | cons a acts ih => exact ⟨⟨h.1, h'.1⟩, ih h.2 h'.2⟩

/-- The invariant rule, read off in every state of the run. -/
theorem Meets.always (hstep : ∀ s a, Inv s → cond s a → Inv (step s a)) (hP : ∀ s, Inv s → P s)
    {s : σ} {acts : List α} (hs : Inv s) (h : Meets step cond s acts) : Always step P s acts :=
  fun _ hpre ↦ hP _ ((h.initial hpre).invariant hstep hs)

/-- **The transfer rule.** Under an invariant that steps meeting `cond` keep, a condition that
follows from `cond` holds at every step of a run that meets `cond`. -/
theorem Meets.transfer {cond' : σ → α → Prop} {Adm : α → Prop}
    (hstep : ∀ s a, Adm a → Inv s → cond s a → Inv (step s a) ∧ cond' s a) {s : σ}
    {acts : List α} (hacts : ∀ a ∈ acts, Adm a) (hs : Inv s) (h : Meets step cond s acts) :
    Meets step cond' s acts := by
  induction acts generalizing s with
  | nil => trivial
  | cons a acts ih =>
    obtain ⟨hs', hc⟩ := hstep s a (hacts a List.mem_cons_self) hs h.1
    exact ⟨hc, ih (fun b hb ↦ hacts b (List.mem_cons_of_mem _ hb)) hs' h.2⟩

/-- The invariant rule for a property that every step preserves. -/
theorem invariant (hstep : ∀ s a, Inv s → Inv (step s a)) {s : σ} (hs : Inv s) (acts : List α) :
    Inv (exec step s acts) := by
  induction acts generalizing s with
  | nil => exact hs
  | cons a acts ih => exact ih (hstep s a hs)

theorem always_cons {s : σ} {a : α} {acts : List α} :
    Always step P s (a :: acts) ↔ P s ∧ Always step P (step s a) acts := by
  constructor
  · intro h
    refine ⟨h [] (List.nil_prefix), fun pre hpre ↦ ?_⟩
    exact h (a :: pre) (List.cons_prefix_cons.mpr ⟨rfl, hpre⟩)
  · rintro ⟨hs, h⟩ pre hpre
    cases pre with
    | nil => exact hs
    | cons b pre =>
      obtain ⟨rfl, hpre'⟩ := List.cons_prefix_cons.mp hpre
      exact h pre hpre'

/-- The invariant rule for a property that a step preserves from the states of the run. -/
theorem Always.invariant (hstep : ∀ s a, P s → Inv s → Inv (step s a)) {s : σ} {acts : List α}
    (hs : Inv s) (h : Always step P s acts) : Inv (exec step s acts) := by
  induction acts generalizing s with
  | nil => exact hs
  | cons a acts ih =>
    obtain ⟨hP, hrest⟩ := always_cons.mp h
    exact ih (hstep s a hP hs) hrest

/-- **The exactness rule.** When one admissible step from a state with `P` keeps `P` exactly if it
meets `cond`, a run of admissible steps keeps `P` in all its states exactly if all its steps meet
`cond`. -/
theorem always_iff_meets {Adm : α → Prop} (hinv : ∀ s a, Adm a → Inv s → Inv (step s a))
    (hstep : ∀ s a, Adm a → Inv s → P s → (P (step s a) ↔ cond s a)) {s : σ} {acts : List α}
    (hacts : ∀ a ∈ acts, Adm a) (hs : Inv s) (hP : P s) :
    Always step P s acts ↔ Meets step cond s acts := by
  induction acts generalizing s with
  | nil =>
    refine ⟨fun _ ↦ trivial, fun _ pre hpre ↦ ?_⟩
    rw [List.prefix_nil.mp hpre]
    exact hP
  | cons a acts ih =>
    have ha : Adm a := hacts a List.mem_cons_self
    have hrest : ∀ b ∈ acts, Adm b := fun b hb ↦ hacts b (List.mem_cons_of_mem _ hb)
    rw [always_cons, meets_cons]
    constructor
    · rintro ⟨-, h⟩
      have hP' : P (step s a) := h [] List.nil_prefix
      exact ⟨(hstep s a ha hs hP).mp hP', (ih hrest (hinv s a ha hs) hP').mp h⟩
    · rintro ⟨hc, h⟩
      exact ⟨hP, (ih hrest (hinv s a ha hs) ((hstep s a ha hs hP).mpr hc)).mpr h⟩

/-- **The exactness rule for an invariant that only good steps keep.** When a step that meets `cond`
keeps the invariant, and one that does not leads out of `P`, a run keeps `P` in all its states
exactly if all its steps meet `cond`. -/
theorem always_iff_meets_of_invariant (hP : ∀ s, Inv s → P s)
    (hkeep : ∀ s a, Inv s → cond s a → Inv (step s a))
    (hexact : ∀ s a, Inv s → P (step s a) → cond s a) {s : σ} {acts : List α} (hs : Inv s) :
    Always step P s acts ↔ Meets step cond s acts := by
  refine ⟨fun h ↦ ?_, fun h ↦ h.always hkeep hP hs⟩
  induction acts generalizing s with
  | nil => trivial
  | cons a acts ih =>
    obtain ⟨-, hrest⟩ := always_cons.mp h
    have hcond : cond s a := hexact s a hs (hrest [] List.nil_prefix)
    exact ⟨hcond, ih (hkeep s a hs hcond) hrest⟩

/-- **The termination rule.** If under an invariant a step that is not the last one keeps the
invariant and lowers a measure, iterating the step ends, with the invariant still true. -/
theorem exists_iterate {β : Type*} [LT β] [WellFoundedLT β] {f : σ → σ} {Done : σ → Prop}
    {μ : σ → β} (hstep : ∀ s, Inv s → ¬Done s → Inv (f s) ∧ μ (f s) < μ s) {s : σ} (hs : Inv s) :
    ∃ n, Done (f^[n] s) ∧ Inv (f^[n] s) := by
  induction hμ : μ s using WellFoundedLT.induction generalizing s with
  | ind m ih =>
    by_cases hdone : Done s
    · exact ⟨0, hdone, hs⟩
    · obtain ⟨hinv, hlt⟩ := hstep s hs hdone
      obtain ⟨n, hn⟩ := ih (μ (f s)) (hμ ▸ hlt) hinv rfl
      exact ⟨n + 1, hn⟩

end Run

/-! ## Small systems

The agents of the runs that are shown as examples are numerals of `Fin 2` and `Fin 3`. -/

instance neZeroTwo : NeZero 2 := ⟨by decide⟩

instance neZeroThree : NeZero 3 := ⟨by decide⟩
