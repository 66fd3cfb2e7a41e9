import Mathlib.Algebra.Ring.Int.Defs
import Mathlib.Algebra.Ring.Nat
import Mathlib.Data.List.AList

/-!
# Finite maps whose iteration order is unspecified

A map is an `AList`: a list of key-value pairs without repeated keys. Looking up, inserting and
erasing do not depend on the order of the list, but a `range` loop visits the pairs in some order
that the language leaves open. A `RangeOrder` is one resolution of that choice. A loop whose order
can be observed takes one as an argument, so that a statement about every `RangeOrder` is a
statement about every iteration order.

A `SyncMap` is a concurrent map. It is used through single-key operations only, so it is its lookup
function.
-/

/-- One way of ordering the elements of a map for a `range` loop. -/
structure RangeOrder (α : Type*) where
  /-- The order in which a list of pairs is visited. -/
  arrange : List α → List α
  /-- Every pair is visited once. -/
  perm : ∀ l : List α, (arrange l).Perm l

namespace RangeOrder

variable {α : Type*}

/-- The order of insertion, most recent first. -/
def asStored : RangeOrder α := ⟨fun l ↦ l, fun _ ↦ List.Perm.refl _⟩

def reversed : RangeOrder α := ⟨List.reverse, fun l ↦ List.reverse_perm l⟩

@[simp] theorem mem_arrange (ord : RangeOrder α) {l : List α} {a : α} :
    a ∈ ord.arrange l ↔ a ∈ l :=
  (ord.perm l).mem_iff

end RangeOrder

namespace List

/-! ### Loops that treat each key by itself -/

section Visit

variable {κ σ ρ : Type*} {β : κ → Type*} {visit : σ → Sigma β → σ}

theorem foldl_visit_of_notMem (read : σ → κ → ρ)
    (hother : ∀ s p k, k ≠ p.1 → read (visit s p) k = read s k)
    {l : List (Sigma β)} {k : κ} (hk : k ∉ l.keys) (s : σ) :
    read (l.foldl visit s) k = read s k := by
  induction l generalizing s with
  | nil => rfl
  | cons p l ih =>
    rw [keys_cons, mem_cons, not_or] at hk
    rw [foldl_cons, ih hk.2, hother _ _ _ hk.1]

/-- A loop over pairs with different keys leaves at each key what its visit made of the key, which
until then was as at the start. -/
theorem foldl_visit_of_mem (read : σ → κ → ρ)
    (hother : ∀ s p k, k ≠ p.1 → read (visit s p) k = read s k)
    {l : List (Sigma β)} (hkeys : l.NodupKeys) {p : Sigma β} (hp : p ∈ l) (s : σ) :
    ∃ s', read s' p.1 = read s p.1 ∧ read (l.foldl visit s) p.1 = read (visit s' p) p.1 := by
  induction l generalizing s with
  | nil => exact absurd hp not_mem_nil
  | cons q l ih =>
    obtain ⟨hnew, hkeys⟩ := nodupKeys_cons.mp hkeys
    rw [foldl_cons]
    rcases mem_cons.mp hp with rfl | hp
    · exact ⟨s, rfl, foldl_visit_of_notMem read hother hnew _⟩
    · obtain ⟨s', hs', heq⟩ := ih hkeys hp (visit s q)
      have hne : p.1 ≠ q.1 := fun h ↦ hnew (h ▸ mem_keys_of_mem hp)
      exact ⟨s', hs'.trans (hother _ _ _ hne), heq⟩

end Visit

/-! ### Tagged blocks -/

variable {κ ν : Type*} [DecidableEq κ]

/-- Among blocks of tagged elements with different tags, one tag selects one block. -/
theorem filter_flatMap_tagged {keys : List κ} (hnodup : keys.Nodup) (block : κ → List ν) (k : κ) :
    (keys.flatMap fun k' ↦ (block k').map fun v ↦ (k', v)).filter (fun p ↦ p.1 = k)
      = if k ∈ keys then (block k).map fun v ↦ (k, v) else [] := by
  have hblock (k' : κ) : ((block k').map fun v ↦ (k', v)).filter (fun p ↦ p.1 = k)
      = if k' = k then (block k').map fun v ↦ (k', v) else [] := by
    by_cases h : k' = k
    · simp [h]
    · simp [h]
  induction keys with
  | nil => simp
  | cons k' keys ih =>
    obtain ⟨hnew, hnodup⟩ := nodup_cons.mp hnodup
    rw [flatMap_cons, filter_append, hblock, ih hnodup]
    by_cases h : k' = k
    · subst h
      simp [hnew]
    · simp [h, Ne.symm h]

end List

namespace AList

variable {κ ν : Type*} [DecidableEq κ]

/-- Indexing a map of slices: a missing key reads as the empty slice. -/
def slice (m : AList fun _ : κ ↦ List ν) (k : κ) : List ν := (m.lookup k).getD []

@[simp] theorem slice_empty (k : κ) : slice (∅ : AList fun _ : κ ↦ List ν) k = [] := rfl

@[simp] theorem slice_insert_self (m : AList fun _ : κ ↦ List ν) (k : κ) (l : List ν) :
    (m.insert k l).slice k = l := by
  rw [slice, lookup_insert, Option.getD_some]

theorem slice_insert_of_ne (m : AList fun _ : κ ↦ List ν) {k k' : κ} (h : k' ≠ k) (l : List ν) :
    (m.insert k l).slice k' = m.slice k' := by
  rw [slice, slice, lookup_insert_ne h]

theorem slice_of_lookup {m : AList fun _ : κ ↦ List ν} {k : κ} {l : List ν}
    (h : m.lookup k = some l) : m.slice k = l := by
  rw [slice, h, Option.getD_some]

theorem slice_foldl_erase {γ : Type*} (key : γ → κ) (l : List γ) (m : AList fun _ : κ ↦ List ν)
    {k : κ} (h : ∀ c ∈ l, key c ≠ k) :
    (l.foldl (fun m c ↦ m.erase (key c)) m).slice k = m.slice k := by
  induction l generalizing m with
  | nil => rfl
  | cons c l ih =>
    rw [List.foldl_cons, ih _ fun c' hc' ↦ h c' (List.mem_cons_of_mem _ hc'), slice, slice,
      lookup_erase_ne (Ne.symm (h c List.mem_cons_self))]

/-- The number of elements of all slices together. -/
def total (m : AList fun _ : κ ↦ List ν) : ℕ := (m.entries.map fun p ↦ p.2.length).sum

theorem total_erase (m : AList fun _ : κ ↦ List ν) (k : κ) :
    (m.erase k).total + (m.slice k).length = m.total := by
  have key : ∀ l : List (Sigma fun _ : κ ↦ List ν),
      ((l.kerase k).map fun p ↦ p.2.length).sum + ((l.dlookup k).getD []).length
        = (l.map fun p ↦ p.2.length).sum := by
    intro l
    induction l with
    | nil => rfl
    | cons p l ih =>
      obtain ⟨k', v⟩ := p
      by_cases h : k = k'
      · subst h
        have hrest : List.kerase k ((⟨k, v⟩ : Sigma fun _ : κ ↦ List ν) :: l) = l :=
          List.kerase_cons_eq rfl
        rw [hrest, List.dlookup_cons_eq, Option.getD_some, List.map_cons, List.sum_cons,
          Nat.add_comm]
      · have hrest : List.kerase k ((⟨k', v⟩ : Sigma fun _ : κ ↦ List ν) :: l)
            = ⟨k', v⟩ :: l.kerase k :=
          List.kerase_cons_ne h
        rw [hrest, List.dlookup_cons_ne _ _ h, List.map_cons, List.map_cons, List.sum_cons,
          List.sum_cons, Nat.add_assoc, ih]
  exact key m.entries

theorem total_insert (m : AList fun _ : κ ↦ List ν) (k : κ) (l : List ν) :
    (m.insert k l).total + (m.slice k).length = m.total + l.length := by
  have hinsert : (m.insert k l).total = l.length + (m.erase k).total := rfl
  rw [hinsert, ← total_erase m k]
  omega

theorem mem_entries_iff {m : AList fun _ : κ ↦ ν} {k : κ} {v : ν} :
    (⟨k, v⟩ : Sigma fun _ : κ ↦ ν) ∈ m.entries ↔ m.lookup k = some v :=
  mem_lookup_iff.symm

/-- **The rule for loops over a map of slices.** If a visit turns the slice of its key into `f` of
it and leaves the other keys, a loop over all pairs, in any order, does this to every slice. -/
theorem slice_foldl_visit {σ : Type*} {visit : σ → (Sigma fun _ : κ ↦ List ν) → σ}
    (read : σ → κ → List ν) (hother : ∀ s p k, k ≠ p.1 → read (visit s p) k = read s k)
    (f : List ν → List ν) (hself : ∀ s p, read (visit s p) p.1 = f p.2)
    (m : AList fun _ : κ ↦ List ν) {l : List (Sigma fun _ : κ ↦ List ν)} (hl : l.Perm m.entries)
    {s : σ} (hs : ∀ k, m.lookup k = none → read s k = f []) (k : κ) :
    read (l.foldl visit s) k = f (m.slice k) := by
  rcases hlookup : m.lookup k with _ | v
  · have hnot : k ∉ l.keys := by
      intro hmem
      have hkey : k ∈ m := (hl.map Sigma.fst).mem_iff.mp hmem
      exact absurd (lookup_isSome.mpr hkey) (by simp [hlookup])
    rw [List.foldl_visit_of_notMem read hother hnot, hs k hlookup, slice, hlookup,
      Option.getD_none]
  · have hmem : (⟨k, v⟩ : Sigma fun _ : κ ↦ List ν) ∈ l :=
      hl.mem_iff.mpr (mem_entries_iff.mpr hlookup)
    obtain ⟨s', -, heq⟩ := List.foldl_visit_of_mem read hother
      ((List.perm_nodupKeys hl).mpr m.nodupKeys) hmem s
    rw [slice_of_lookup hlookup]
    exact heq.trans (hself s' ⟨k, v⟩)

/-- Rewrite every value of a map in place. -/
def mapVal {ν' : Type*} (f : κ → ν → ν') (m : AList fun _ : κ ↦ ν) : AList fun _ : κ ↦ ν' where
  entries := m.entries.map fun p ↦ ⟨p.1, f p.1 p.2⟩
  nodupKeys := by
    have hkeys : (m.entries.map fun p ↦ (⟨p.1, f p.1 p.2⟩ : Sigma fun _ : κ ↦ ν')).keys
        = m.entries.keys := by
      simp [List.keys]
    rw [List.NodupKeys, hkeys]
    exact m.nodupKeys

@[simp] theorem lookup_mapVal {ν' : Type*} (f : κ → ν → ν') (m : AList fun _ : κ ↦ ν) (k : κ) :
    (m.mapVal f).lookup k = (m.lookup k).map (f k) := by
  ext v
  rw [← Option.mem_def, mem_lookup_iff, Option.map_eq_some_iff]
  simp only [mapVal, List.mem_map, ← mem_entries_iff]
  constructor
  · rintro ⟨⟨k', v'⟩, hmem, heq⟩
    obtain ⟨rfl, hval⟩ := Sigma.mk.inj heq
    exact ⟨v', hmem, eq_of_heq hval⟩
  · rintro ⟨v', hmem, rfl⟩
    exact ⟨⟨k, v'⟩, hmem, rfl⟩

/-- Group tagged elements by their tag, in order of appearance: the loop
`result[tag] = append(result[tag], e)`. -/
def group (l : List (κ × ν)) : AList fun _ : κ ↦ List ν :=
  l.foldl (fun m p ↦ m.insert p.1 (m.slice p.1 ++ [p.2])) ∅

private theorem slice_foldl_group (l : List (κ × ν)) (m : AList fun _ : κ ↦ List ν) (k : κ) :
    (l.foldl (fun m p ↦ m.insert p.1 (m.slice p.1 ++ [p.2])) m).slice k
      = m.slice k ++ (l.filter fun p ↦ p.1 = k).map Prod.snd := by
  induction l generalizing m with
  | nil => simp
  | cons p l ih =>
    rw [List.foldl_cons, ih]
    by_cases hp : p.1 = k
    · subst hp
      simp
    · rw [slice_insert_of_ne _ (Ne.symm hp), List.filter_cons_of_neg (by simpa using hp)]

@[simp] theorem slice_group (l : List (κ × ν)) (k : κ) :
    (group l).slice k = (l.filter fun p ↦ p.1 = k).map Prod.snd := by
  rw [group, slice_foldl_group, slice_empty, List.nil_append]

theorem mem_slice_group {l : List (κ × ν)} {k : κ} {v : ν} :
    v ∈ (group l).slice k ↔ (k, v) ∈ l := by
  simp only [slice_group, List.mem_map, List.mem_filter, decide_eq_true_eq]
  constructor
  · rintro ⟨⟨k', v'⟩, ⟨hmem, rfl⟩, rfl⟩
    exact hmem
  · exact fun hmem ↦ ⟨(k, v), ⟨hmem, rfl⟩, rfl⟩

theorem mem_slice_iff {m : AList fun _ : κ ↦ List ν} {k : κ} {v : ν} :
    v ∈ m.slice k ↔ ∃ l, (⟨k, l⟩ : Sigma fun _ : κ ↦ List ν) ∈ m.entries ∧ v ∈ l := by
  simp only [mem_entries_iff]
  rw [slice]
  rcases m.lookup k with _ | l <;> simp

theorem exists_mem_group {l : List (κ × ν)} {P : κ → Prop} {Q : ν → Prop} :
    (∃ p ∈ (group l).entries, P p.1 ∧ ∃ v ∈ p.2, Q v) ↔ ∃ p ∈ l, P p.1 ∧ Q p.2 := by
  constructor
  · rintro ⟨⟨k, vs⟩, hmem, hk, v, hv, hq⟩
    exact ⟨(k, v), mem_slice_group.mp (mem_slice_iff.mpr ⟨vs, hmem, hv⟩), hk, hq⟩
  · rintro ⟨⟨k, v⟩, hmem, hk, hq⟩
    obtain ⟨vs, hvs, hv⟩ := mem_slice_iff.mp (mem_slice_group.mpr hmem)
    exact ⟨⟨k, vs⟩, hvs, hk, v, hv, hq⟩

theorem entries_group_eq_nil_iff {l : List (κ × ν)} : (group l).entries = [] ↔ l = [] := by
  refine ⟨fun h ↦ ?_, fun h ↦ by rw [h]; rfl⟩
  cases l with
  | nil => rfl
  | cons p l =>
    obtain ⟨vs, hvs, -⟩ := mem_slice_iff.mp (mem_slice_group.mpr (List.mem_cons_self (a := p)))
    rw [h] at hvs
    exact absurd hvs (by simp)

end AList

/-- A concurrent map, as its lookup function. -/
abbrev SyncMap (κ ν : Type*) := κ → Option ν

namespace SyncMap

variable {κ ν : Type*} [DecidableEq κ]

def store (m : SyncMap κ ν) (k : κ) (v : ν) : SyncMap κ ν := Function.update m k (some v)

def delete (m : SyncMap κ ν) (k : κ) : SyncMap κ ν := Function.update m k none

/-- `sync.Map.LoadOrStore`, keeping the map. -/
def loadOrStore (m : SyncMap κ ν) (k : κ) (v : ν) : SyncMap κ ν :=
  Function.update m k (some ((m k).getD v))

@[simp] theorem store_self (m : SyncMap κ ν) (k : κ) (v : ν) : m.store k v k = some v :=
  Function.update_self ..

theorem store_of_ne (m : SyncMap κ ν) {k k' : κ} (h : k' ≠ k) (v : ν) :
    m.store k v k' = m k' := Function.update_of_ne h ..

@[simp] theorem delete_self (m : SyncMap κ ν) (k : κ) : m.delete k k = none :=
  Function.update_self ..

theorem delete_of_ne (m : SyncMap κ ν) {k k' : κ} (h : k' ≠ k) : m.delete k k' = m k' :=
  Function.update_of_ne h ..

theorem foldl_delete {γ : Type*} (key : γ → κ) (l : List γ) (m : SyncMap κ ν) (k : κ) :
    l.foldl (fun m c ↦ m.delete (key c)) m k = if ∃ c ∈ l, key c = k then none else m k := by
  induction l generalizing m with
  | nil => simp
  | cons c l ih =>
    rw [List.foldl_cons, ih]
    by_cases hlater : ∃ c' ∈ l, key c' = k
    · obtain ⟨c', hc', hkey⟩ := hlater
      rw [if_pos ⟨c', hc', hkey⟩, if_pos ⟨c', List.mem_cons_of_mem _ hc', hkey⟩]
    · rw [if_neg hlater]
      by_cases hkey : key c = k
      · rw [if_pos ⟨c, List.mem_cons_self, hkey⟩, ← hkey, delete_self]
      · rw [delete_of_ne m (Ne.symm hkey), if_neg]
        rintro ⟨c', hc', hkey'⟩
        rcases List.mem_cons.mp hc' with rfl | hc'
        · exact hkey hkey'
        · exact hlater ⟨c', hc', hkey'⟩

end SyncMap
