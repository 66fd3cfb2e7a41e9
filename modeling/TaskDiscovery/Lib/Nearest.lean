import Mathlib.Data.Finset.Card
import Mathlib.Data.List.Sort

/-!
# The nearest elements of a list

`l.nearest key k` is what a program computes that sorts `l` by a key and takes the first `k`
elements. When the key tells the elements of `l` apart, an element that is left out is strictly
farther than every element that is taken, the order of `l` does not matter, and an element more
moves at most one element out (`nearest_cons`).

`s.nearest key k` is the same selection from a finite set, by what it means: an element is taken if
fewer than `k` others are nearer. The two agree (`mem_nearest_iff`, `Finset.mem_nearest_toList`).
-/

namespace List

variable {α β γ : Type*} [LinearOrder β] {key : α → β} {k : ℕ} {l : List α} {a b : α}

/-- The `k` elements with the smallest keys, nearest first. -/
def nearest (key : α → β) (k : ℕ) (l : List α) : List α :=
  (l.insertionSort fun a b ↦ key a ≤ key b).take k

theorem pairwise_sorted_by (key : α → β) (l : List α) :
    (l.insertionSort fun a b ↦ key a ≤ key b).Pairwise fun a b ↦ key a ≤ key b :=
  haveI : Std.Total fun a b : α ↦ key a ≤ key b := ⟨fun a b ↦ le_total (key a) (key b)⟩
  haveI : IsTrans α fun a b ↦ key a ≤ key b := ⟨fun _ _ _ ↦ le_trans⟩
  pairwise_insertionSort _ l

theorem mem_of_mem_nearest (h : a ∈ l.nearest key k) : a ∈ l :=
  (mem_insertionSort _).mp (mem_of_mem_take h)

theorem length_nearest : (l.nearest key k).length = min k l.length := by
  rw [nearest, length_take, length_insertionSort]

theorem Nodup.nearest (h : l.Nodup) : (l.nearest key k).Nodup :=
  (((perm_insertionSort _ l).nodup_iff).mpr h).sublist (take_sublist ..)

theorem nearest_perm_of_length_le (h : l.length ≤ k) : (l.nearest key k).Perm l := by
  rw [List.nearest, take_of_length_le (by rwa [length_insertionSort])]
  exact perm_insertionSort _ l

theorem key_le_of_mem_nearest (ha : a ∈ l.nearest key k) (hb : b ∈ l)
    (hb' : b ∉ l.nearest key k) : key a ≤ key b := by
  have hsorted := pairwise_sorted_by key l
  rw [← take_append_drop k (l.insertionSort _), pairwise_append] at hsorted
  have hmem : b ∈ l.insertionSort fun a b ↦ key a ≤ key b := (mem_insertionSort _).mpr hb
  rw [← take_append_drop k (l.insertionSort _), mem_append] at hmem
  exact hsorted.2.2 a ha b (hmem.resolve_left hb')

theorem key_lt_of_mem_nearest (hinj : Function.Injective key) (ha : a ∈ l.nearest key k)
    (hb : b ∈ l) (hb' : b ∉ l.nearest key k) : key a < key b := by
  refine lt_of_le_of_ne (key_le_of_mem_nearest ha hb hb') fun heq ↦ hb' ?_
  rwa [← hinj heq]

theorem mem_nearest_of_key_le (hinj : Function.Injective key) (ha : a ∈ l.nearest key k)
    (hb : b ∈ l) (hle : key b ≤ key a) : b ∈ l.nearest key k := by
  by_contra hb'
  exact absurd (key_lt_of_mem_nearest hinj ha hb hb') (not_lt.mpr hle)

/-- **What is taken.** An element is taken if fewer than `k` elements are nearer. -/
theorem mem_nearest_iff (hinj : Function.Injective key) :
    a ∈ l.nearest key k ↔ a ∈ l ∧ l.countP (fun b ↦ key b < key a) < k := by
  have hperm := perm_insertionSort (fun a b ↦ key a ≤ key b) l
  have hsplit : l.countP (fun b ↦ key b < key a) = (l.nearest key k).countP (fun b ↦ key b < key a)
      + ((l.insertionSort fun a b ↦ key a ≤ key b).drop k).countP fun b ↦ key b < key a := by
    rw [List.nearest, ← countP_append, take_append_drop, hperm.countP_eq]
  constructor
  · intro ha
    refine ⟨mem_of_mem_nearest ha, ?_⟩
    -- nothing nearer is left out, and the element itself is not nearer
    have hdrop : ((l.insertionSort fun a b ↦ key a ≤ key b).drop k).countP
        (fun b ↦ key b < key a) = 0 := by
      have hsorted := pairwise_sorted_by key l
      rw [← take_append_drop k (l.insertionSort _), pairwise_append] at hsorted
      simpa [countP_eq_zero] using fun b hb ↦ hsorted.2.2 a ha b hb
    have hlt : (l.nearest key k).countP (fun b ↦ key b < key a) < (l.nearest key k).length :=
      lt_of_le_of_ne countP_le_length fun heq ↦ by
        simpa using countP_eq_length.mp heq a ha
    rw [hsplit, hdrop, Nat.add_zero]
    exact hlt.trans_le (length_nearest.trans_le (min_le_left ..))
  · rintro ⟨ha, hcount⟩
    by_contra hout
    -- all that are taken are nearer
    have hall : (l.nearest key k).countP (fun b ↦ key b < key a) = (l.nearest key k).length :=
      countP_eq_length.mpr fun b hb ↦ by simpa using key_lt_of_mem_nearest hinj hb ha hout
    have hshort : l.length ≤ k := by
      rw [length_nearest] at hall
      omega
    exact hout ((nearest_perm_of_length_le hshort).mem_iff.mpr ha)

/-! ### Keys that tell the elements apart -/

theorem nearest_eq_take (hinj : Function.Injective key) {l' : List α} (hperm : l' ~ l)
    (hsorted : l'.Pairwise fun a b ↦ key a ≤ key b) : l.nearest key k = l'.take k := by
  have hsort : l.insertionSort (fun a b ↦ key a ≤ key b) = l' :=
    ((perm_insertionSort _ l).trans hperm.symm).eq_of_pairwise
      (fun a b _ _ hab hba ↦ hinj (le_antisymm hab hba)) (pairwise_sorted_by key l) hsorted
  rw [List.nearest, hsort]

theorem Perm.nearest_eq (hinj : Function.Injective key) {l' : List α} (h : l ~ l') :
    l.nearest key k = l'.nearest key k :=
  nearest_eq_take hinj ((perm_insertionSort _ l').trans h.symm) (pairwise_sorted_by key l')

theorem take_orderedInsert (r : α → α → Prop) [DecidableRel r] (k : ℕ) (a : α) (l : List α) :
    (l.orderedInsert r a).take k = l.take k
      ∨ ∃ pre post, l.take k = pre ++ post ∧ ((l.take k).length = k → post ≠ [])
          ∧ (l.orderedInsert r a).take k
            = pre ++ a :: if (l.take k).length = k then post.dropLast else post := by
  rw [orderedInsert_eq_take_drop]
  obtain ⟨pre, post, rfl, hpre, hpost⟩ : ∃ pre post, l = pre ++ post
      ∧ l.takeWhile (fun b ↦ ¬r a b) = pre ∧ l.dropWhile (fun b ↦ ¬r a b) = post :=
    ⟨_, _, takeWhile_append_dropWhile.symm, rfl, rfl⟩
  rw [hpre, hpost]
  rcases le_or_gt k pre.length with hk | hk
  · exact .inl (by rw [take_append_of_le_length hk, take_append_of_le_length hk])
  · obtain ⟨m, rfl⟩ : ∃ m, k = pre.length + (m + 1) := ⟨k - pre.length - 1, by omega⟩
    rw [take_length_add_append, take_length_add_append, take_succ_cons, length_append, length_take]
    refine .inr ⟨pre, post.take (m + 1), rfl, fun hfull hnil ↦ ?_, ?_⟩
    · have hlen := congrArg length hnil
      rw [length_take, length_nil] at hlen
      omega
    · congr 2
      split_ifs with hfull
      · rw [dropLast_eq_take, length_take, take_take]
        congr 1
        omega
      · rw [take_of_length_le (by omega), take_of_length_le (by omega)]

/-- **One more element.** Either it is too far away and nothing changes, or it takes its place among
the elements that were taken, whose order stays, and the last of them has to go if there were
`k`. -/
theorem nearest_cons (key : α → β) (k : ℕ) (a : α) (l : List α) :
    (a :: l).nearest key k = l.nearest key k
      ∨ ∃ pre post, l.nearest key k = pre ++ post ∧ ((l.nearest key k).length = k → post ≠ [])
          ∧ (a :: l).nearest key k
            = pre ++ a :: if (l.nearest key k).length = k then post.dropLast else post :=
  take_orderedInsert (fun a b ↦ key a ≤ key b) k a _

theorem nearest_map (f : γ → α) (l : List γ) :
    (l.map f).nearest key k = (l.nearest (key ∘ f) k).map f := by
  have hsort := map_insertionSort (fun a b ↦ (key ∘ f) a ≤ (key ∘ f) b) (fun a b ↦ key a ≤ key b)
    f l fun _ _ _ _ ↦ Iff.rfl
  rw [List.nearest, List.nearest, map_take, hsort]

end List

namespace Finset

variable {α β : Type*} [LinearOrder β] {key : α → β} {k : ℕ} {s t : Finset α} {a : α}

/-- The elements than which fewer than `k` elements are nearer. -/
def nearest (key : α → β) (k : ℕ) (s : Finset α) : Finset α :=
  s.filter fun a ↦ (s.filter fun b ↦ key b < key a).card < k

theorem mem_nearest :
    a ∈ s.nearest key k ↔ a ∈ s ∧ (s.filter fun b ↦ key b < key a).card < k := by
  rw [nearest, mem_filter]

theorem mem_nearest_toList (hinj : Function.Injective key) :
    a ∈ s.toList.nearest key k ↔ a ∈ s.nearest key k := by
  rw [List.mem_nearest_iff hinj, mem_nearest, mem_toList]
  have hcard : s.toList.countP (fun b ↦ key b < key a) = (s.filter fun b ↦ key b < key a).card := by
    rw [card_def, filter_val, ← Multiset.countP_eq_card_filter]
    conv_rhs => rw [← s.coe_toList]
    rfl
  rw [hcard]

theorem card_nearest (hinj : Function.Injective key) :
    (s.nearest key k).card = min k s.card := by
  classical
  have heq : s.nearest key k = (s.toList.nearest key k).toFinset := by
    ext a
    rw [List.mem_toFinset, mem_nearest_toList hinj]
  rw [heq, List.toFinset_card_of_nodup s.nodup_toList.nearest, List.length_nearest, length_toList]

theorem mem_nearest_of_key_le {b : α} (ha : a ∈ s.nearest key k) (hb : b ∈ s)
    (hle : key b ≤ key a) : b ∈ s.nearest key k := by
  refine mem_nearest.mpr ⟨hb, (card_le_card fun c hc ↦ ?_).trans_lt (mem_nearest.mp ha).2⟩
  rw [mem_filter] at hc ⊢
  exact ⟨hc.1, hc.2.trans_le hle⟩

/-- What is taken when one element counts twice: one element less, if both its places are taken. -/
theorem mem_nearest_twice [DecidableEq α] {b : α} (ha : a ∈ s) :
    b ∈ s.nearest key (if a ∈ s.nearest key (k - 1) then k - 1 else k)
      ↔ b ∈ s ∧ (s.filter fun c ↦ key c < key b).card + (if key a < key b then 1 else 0) < k := by
  rw [mem_nearest]
  refine and_congr_right fun hb ↦ ?_
  by_cases hlt : key a < key b
  · -- the element is nearer, and so is what is nearer than it
    have hmore : (s.filter fun c ↦ key c < key a).card < (s.filter fun c ↦ key c < key b).card := by
      refine card_lt_card ((ssubset_iff_of_subset fun c hc ↦ ?_).mpr ⟨a, ?_, ?_⟩)
      · rw [mem_filter] at hc ⊢
        exact ⟨hc.1, hc.2.trans hlt⟩
      · exact mem_filter.mpr ⟨ha, hlt⟩
      · simp
    simp only [hlt, if_true, mem_nearest, ha, true_and]
    split_ifs <;> omega
  · have hless : (s.filter fun c ↦ key c < key b).card ≤ (s.filter fun c ↦ key c < key a).card := by
      refine card_le_card fun c hc ↦ ?_
      rw [mem_filter] at hc ⊢
      exact ⟨hc.1, hc.2.trans_le (not_lt.mp hlt)⟩
    simp only [hlt, if_false, mem_nearest, ha, true_and, Nat.add_zero]
    split_ifs <;> omega

end Finset
