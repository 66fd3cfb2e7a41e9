import Mathlib.Data.List.Sort

/-!
# Binary search

`sort.Search` finds the smallest index below a bound at which a predicate holds, given that the
predicate stays true once it is true. The loop keeps an interval: left of it the predicate is false,
and from its right end on it is true.
-/

namespace Go

variable {f : ℕ → Bool} {i j n : ℕ}

/-- The loop of `sort.Search` on the interval from `i` to `j`. -/
def searchLoop (f : ℕ → Bool) (i j : ℕ) : ℕ :=
  if i < j then
    let h := (i + j) / 2
    if f h then searchLoop f i h else searchLoop f (h + 1) j
  else i
  termination_by j - i

def search (n : ℕ) (f : ℕ → Bool) : ℕ := searchLoop f 0 n

theorem searchLoop_spec (hmono : ∀ a b, a ≤ b → b < n → f a = true → f b = true) (hij : i ≤ j)
    (hj : j ≤ n) (hfalse : ∀ a < i, f a = false) (htrue : ∀ a, j ≤ a → a < n → f a = true) :
    searchLoop f i j ≤ n ∧ (∀ a < searchLoop f i j, f a = false)
      ∧ ∀ a, searchLoop f i j ≤ a → a < n → f a = true := by
  fun_induction searchLoop f i j with
  | case1 i j hlt h hh ih =>
    refine ih (by omega) (by omega) hfalse fun a ha han ↦ ?_
    exact hmono h a ha han hh
  | case2 i j hlt h hh ih =>
    refine ih (by omega) hj (fun a ha ↦ ?_) htrue
    by_contra hfa
    exact hh (hmono a h (by omega) (by omega) (by simpa using hfa))
  | case3 i j hlt =>
    obtain rfl : i = j := by omega
    exact ⟨hj, hfalse, htrue⟩

/-- **Binary search in a list.** It finds the first element that satisfies the predicate, when no
later element fails it. -/
theorem search_eq_findIdx {α : Type*} {l : List α} {p : α → Bool}
    (hmono : l.Pairwise fun a b ↦ p a = true → p b = true) :
    search l.length (fun i ↦ l[i]?.any p) = l.findIdx p := by
  have hup : ∀ a b, a ≤ b → b < l.length → l[a]?.any p = true → l[b]?.any p = true := by
    intro a b hab hb ha
    rw [List.getElem?_eq_getElem (by omega), Option.any_some] at ha ⊢
    rcases hab.eq_or_lt with rfl | hlt
    · exact ha
    · exact List.pairwise_iff_getElem.mp hmono a b (by omega) hb hlt ha
  obtain ⟨hle, hfalse, htrue⟩ := searchLoop_spec hup (Nat.zero_le _) le_rfl (by simp)
    fun a ha han ↦ absurd han (by omega)
  change searchLoop _ 0 l.length = _
  refine le_antisymm ?_ ?_
  · by_contra! hlt
    have hidx : l.findIdx p < l.length := hlt.trans_le hle
    have hfound := List.findIdx_getElem (w := hidx)
    have hnot := hfalse _ hlt
    rw [List.getElem?_eq_getElem hidx, Option.any_some, hfound] at hnot
    simp at hnot
  · by_contra! hlt
    have hlen := hlt.trans_le List.findIdx_le_length
    have hnot := List.not_of_lt_findIdx hlt
    have hfound := htrue _ le_rfl hlen
    rw [List.getElem?_eq_getElem hlen, Option.any_some] at hfound
    exact absurd hfound (by simpa using hnot)

end Go
