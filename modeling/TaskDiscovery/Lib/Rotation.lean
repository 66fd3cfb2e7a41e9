import Mathlib.Data.List.Infix
import Mathlib.Data.List.Rotate
import TaskDiscovery.Lib.Run

/-!
# Going round a list

A cursor that goes round a list reads one element after the other and starts again at the end. `turn
l c` is what it reads from position `c` on, and `Reads xs f` says that `xs` is an initial segment of
the sequence `f`.

As many consecutive readings as the list is long are a rearrangement of the list, wherever they
start (`Reads.perm_of_infix`). A list that is sorted in one order may be sorted in another when it
is read from some place on, as the hours of the day are from now on (`pairwise_rotate_findIdx`).
-/

namespace List

variable {α : Type*} {l : List α}

/-- The readings of a cursor that goes round `l` and stands at `c`. -/
def turn (l : List α) (c : ℕ) : ℕ → Option α := fun i ↦ l[(c + i) % l.length]?

theorem turn_succ (l : List α) (c : ℕ) : turn l (c + 1) = fun i ↦ turn l c (i + 1) := by
  funext i
  rw [turn, turn, Nat.add_assoc, Nat.add_comm 1 i]

theorem turn_replicate {n : ℕ} (hn : 0 < n) (a : α) (c : ℕ) :
    turn (replicate n a) c = fun _ ↦ some a := by
  funext i
  rw [turn, length_replicate, getElem?_replicate_of_lt (Nat.mod_lt _ hn)]

/-- One round of readings is the list, rotated. -/
theorem turn_eq_getElem?_rotate {c i : ℕ} (hi : i < l.length) :
    turn l c i = (l.rotate c)[i]? := by
  rw [turn, getElem?_rotate hi, Nat.add_comm]

/-- `xs` are the first elements of the sequence `f`. -/
def Reads (xs : List α) (f : ℕ → Option α) : Prop := ∀ i < xs.length, xs[i]? = f i

theorem reads_nil (f : ℕ → Option α) : Reads [] f := fun i hi ↦ absurd hi (Nat.not_lt_zero i)

theorem reads_cons {a : α} {xs : List α} {f : ℕ → Option α} :
    Reads (a :: xs) f ↔ some a = f 0 ∧ Reads xs fun i ↦ f (i + 1) := by
  constructor
  · intro h
    refine ⟨h 0 (by simp), fun i hi ↦ ?_⟩
    have hread := h (i + 1) (by simpa using hi)
    rwa [getElem?_cons_succ] at hread
  · rintro ⟨hzero, hsucc⟩ i hi
    cases i with
    | zero => rw [getElem?_cons_zero, hzero]
    | succ i => rw [getElem?_cons_succ, hsucc i (by simpa using hi)]

/-- **The rule for a cursor.** Calls go round `l` if each of them returns the element at the place
it finds in the state and moves on by one. The place may be bounded. -/
theorem reads_outputs {σ β : Type*} {call : σ → β → σ × α} {At : ℕ → σ → Prop} {bound : ℕ}
    (hstep : ∀ c s b, c < bound → At c s →
      some (call s b).2 = l[c % l.length]? ∧ At (c + 1) (call s b).1)
    {c : ℕ} {s : σ} (hs : At c s) {acts : List β} (hbound : c + acts.length ≤ bound) :
    Reads (Run.outputs call s acts) (turn l c) := by
  induction acts generalizing c s with
  | nil => exact reads_nil _
  | cons b acts ih =>
    rw [length_cons] at hbound
    obtain ⟨hnow, hnext⟩ := hstep c s b (by omega) hs
    refine reads_cons.mpr ⟨hnow, ?_⟩
    rw [← turn_succ]
    exact ih hnext (by omega)

/-- **A full round.** Any `l.length` consecutive readings of a cursor that goes round `l` are the
elements of `l`, each as often as in `l`. -/
theorem Reads.perm_of_infix {xs window : List α} {c : ℕ} (h : Reads xs (turn l c))
    (hwindow : window <:+: xs) (hlen : window.length = l.length) : window ~ l := by
  obtain ⟨pre, post, rfl⟩ := hwindow
  have hrotate : window = l.rotate (c + pre.length) := by
    refine ext_getElem? fun i ↦ ?_
    by_cases hi : i < window.length
    · have hread := h (pre.length + i) (by simp only [length_append]; omega)
      rw [append_assoc, getElem?_append_right (by omega), Nat.add_sub_cancel_left,
        getElem?_append_left hi] at hread
      rw [hread, ← turn_eq_getElem?_rotate (hlen ▸ hi), turn, turn, Nat.add_assoc]
    · rw [getElem?_eq_none (by omega), getElem?_eq_none (by rw [length_rotate]; omega)]
  rw [hrotate]
  exact rotate_perm l _

/-! ## Cutting a list in two -/

/-- A list that starts with the elements that fail a predicate is put in another order by reading it
from the first element that satisfies the predicate on, if that order agrees with the old one within
both parts and puts the second part before the first. -/
theorem pairwise_rotate_findIdx {R S : α → α → Prop} {p : α → Bool} (hl : l.Pairwise R)
    (hmono : ∀ {a b}, R a b → p a = true → p b = true)
    (hwithin : ∀ {a b}, R a b → p a = p b → S a b)
    (hbetween : ∀ {a b}, p a = true → p b = false → S a b) :
    (l.rotate (l.findIdx p)).Pairwise S := by
  have hfails : ∀ a ∈ l.take (l.findIdx p), p a = false := by
    intro a ha
    obtain ⟨i, hi, rfl⟩ := getElem_of_mem ha
    rw [length_take] at hi
    rw [getElem_take]
    simpa using not_of_lt_findIdx (by omega : i < l.findIdx p)
  have hholds : ∀ a ∈ l.drop (l.findIdx p), p a = true := by
    intro a ha
    obtain ⟨i, hi, rfl⟩ := getElem_of_mem ha
    rw [length_drop] at hi
    rw [getElem_drop]
    have hfirst : p l[l.findIdx p] = true := findIdx_getElem
    rcases i.eq_zero_or_pos with rfl | hpos
    · exact hfirst
    · exact hmono (pairwise_iff_getElem.mp hl (l.findIdx p) (l.findIdx p + i) (by omega) (by omega)
        (by omega)) hfirst
  rw [rotate_eq_drop_append_take findIdx_le_length, pairwise_append]
  refine ⟨?_, ?_, fun a ha b hb ↦ hbetween (hholds a ha) (hfails b hb)⟩
  · refine (hl.sublist (drop_sublist ..)).imp_of_mem fun ha hb hab ↦ hwithin hab ?_
    rw [hholds _ ha, hholds _ hb]
  · refine (hl.sublist (take_sublist ..)).imp_of_mem fun ha hb hab ↦ hwithin hab ?_
    rw [hfails _ ha, hfails _ hb]

theorem head?_rotate_findIdx (l : List α) (p : α → Bool) :
    (l.rotate (l.findIdx p)).head?
      = l[if l.length ≤ l.findIdx p then 0 else l.findIdx p]? := by
  split_ifs with h
  · rw [findIdx_le_length.antisymm h, rotate_length, head?_eq_getElem?]
  · exact head?_rotate (Nat.lt_of_not_le h)

end List
