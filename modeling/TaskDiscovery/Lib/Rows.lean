import Mathlib.Data.List.AList
import Mathlib.Data.List.Dedup
import Mathlib.Data.List.Nodup
import Mathlib.Data.List.Perm.Basic

/-!
# Rows of a table

A table is a list of rows. A few things about such lists are used again and again.

* An aggregate query groups the rows by a key. The groups of different keys that cover all rows are
  together the rows, each of them once (`List.flatMap_filter_perm`). A group that has enough rows
  is there (`List.mem_having`).
* Two selections of rows with the same keys are the same (`List.filter_eq_of_map_perm`).
* A query for a single row that only one row answers does not depend on the order of the rows
  (`List.Perm.find?_eq`).
* An insert that does nothing on a conflict leaves every key there once (`List.addNew`), and of the
  rows with a new key the first (`List.mem_foldl_addNewBy`).
* A serial column gives out every id once (`Serial`).
* A loop that stops at the first row it cannot convert has converted all rows or none
  (`List.mapM_eq_some_iff`).
* A long list of arguments is worked off in blocks (`List.blocks`).
-/

namespace List

/-! ## Grouping -/

section Grouping

variable {α κ : Type*} [DecidableEq κ] (key : α → κ) {keys : List κ} {l : List α}

theorem flatMap_filter_perm (hnodup : keys.Nodup) (hcover : ∀ a ∈ l, key a ∈ keys) :
    keys.flatMap (fun k ↦ l.filter fun a ↦ key a = k) ~ l := by
  induction keys generalizing l with
  | nil =>
    have hnil : l = [] := eq_nil_iff_forall_not_mem.mpr fun a ha ↦ absurd (hcover a ha) (by simp)
    rw [hnil, flatMap_nil]
  | cons k keys ih =>
    obtain ⟨hk, hnodup⟩ := nodup_cons.mp hnodup
    -- the other groups do not see the rows of the first
    have hrest : keys.flatMap (fun k' ↦ l.filter fun a ↦ key a = k')
        = keys.flatMap fun k' ↦
          (l.filter fun a ↦ !decide (key a = k)).filter fun a ↦ key a = k' := by
      refine flatMap_congr fun k' hk' ↦ ?_
      rw [filter_filter]
      refine filter_congr fun a _ ↦ ?_
      have hne : k' ≠ k := fun heq ↦ hk (heq ▸ hk')
      by_cases ha : key a = k'
      · simp [ha, hne]
      · simp [ha]
    have hothers : ∀ a ∈ l.filter fun a ↦ !decide (key a = k), key a ∈ keys := by
      intro a ha
      obtain ⟨hmem, hne⟩ := mem_filter.mp ha
      exact (mem_cons.mp (hcover a hmem)).resolve_left (by simpa using hne)
    rw [flatMap_cons, hrest]
    exact ((ih hnodup hothers).append_left _).trans (filter_append_perm _ l)

/-- The keys of the groups with at least `n` rows: `GROUP BY` with `HAVING COUNT(*) >= n`. -/
theorem mem_having {q : α → Bool} {n : ℕ} (hn : 0 < n) {k : κ} :
    (k ∈ (((l.filter q).map key).dedup.filter fun k ↦
        n ≤ (l.filter fun a ↦ key a = k && q a).length))
      ↔ n ≤ (l.filter fun a ↦ key a = k && q a).length := by
  rw [mem_filter, decide_eq_true_iff, and_iff_right_iff_imp, mem_dedup]
  intro h
  obtain ⟨a, ha⟩ := exists_mem_of_length_pos (Nat.lt_of_lt_of_le hn h)
  obtain ⟨hmem, ha⟩ := mem_filter.mp ha
  rw [Bool.and_eq_true_iff, decide_eq_true_iff] at ha
  exact mem_map.mpr ⟨a, mem_filter.mpr ⟨hmem, ha.2⟩, ha.1⟩

end Grouping

theorem filter_eq_of_map_perm {α β : Type*} {f : α → β} {l : List α} {p q : α → Bool}
    (hl : (l.map f).Nodup) (h : ((l.filter p).map f).Perm ((l.filter q).map f)) :
    l.filter p = l.filter q := by
  have hmem : ∀ r : α → Bool, ∀ a ∈ l, f a ∈ (l.filter r).map f ↔ r a = true := by
    intro r a ha
    rw [mem_map]
    constructor
    · rintro ⟨b, hb, hab⟩
      obtain ⟨hb, hr⟩ := mem_filter.mp hb
      rwa [← inj_on_of_nodup_map hl hb ha hab]
    · exact fun hr ↦ ⟨a, mem_filter.mpr ⟨ha, hr⟩, rfl⟩
  refine filter_congr fun a ha ↦ ?_
  rw [Bool.eq_iff_iff, ← hmem p a ha, ← hmem q a ha, h.mem_iff]

theorem Perm.find?_eq {α : Type*} {l l' : List α} {q : α → Bool} (h : l.Perm l')
    (hunique : ∀ a ∈ l, ∀ b ∈ l, q a = true → q b = true → a = b) : l.find? q = l'.find? q := by
  cases hfind : l.find? q with
  | none =>
    refine (find?_eq_none.mpr fun a ha ↦ ?_).symm
    exact find?_eq_none.mp hfind a (h.mem_iff.mpr ha)
  | some a =>
    have ha : a ∈ l := mem_of_find?_eq_some hfind
    have hqa : q a = true := find?_some hfind
    cases hfind' : l'.find? q with
    | none => exact absurd hqa (find?_eq_none.mp hfind' a (h.mem_iff.mp ha))
    | some b =>
      have hb : b ∈ l := h.mem_iff.mpr (mem_of_find?_eq_some hfind')
      rw [hunique a ha b hb hqa (find?_some hfind')]

theorem Nodup.eq_nil_or_singleton {α : Type*} {l : List α} (h : l.Nodup) {a : α}
    (ha : ∀ b ∈ l, b = a) : l = [] ∨ l = [a] := by
  match l, h, ha with
  | [], _, _ => exact Or.inl rfl
  | [b], _, ha => exact Or.inr (by rw [ha b mem_cons_self])
  | b :: c :: l, h, ha =>
    have hb := ha b mem_cons_self
    have hc := ha c (mem_cons_of_mem _ mem_cons_self)
    exact absurd (hb.trans hc.symm) (by simpa using (not_or.mp (mem_cons.not.mp h.notMem)).1)

/-! ## Keys -/

section Keys

variable {κ : Type*} [DecidableEq κ] {keys : List κ}

/-- The keys after an insert with `ON CONFLICT DO NOTHING`. -/
def addNew (keys : List κ) (k : κ) : List κ := if k ∈ keys then keys else keys ++ [k]

theorem mem_addNew {k k' : κ} : k' ∈ keys.addNew k ↔ k' ∈ keys ∨ k' = k := by
  rw [addNew]
  split_ifs with h
  · exact ⟨.inl, fun h' ↦ h'.elim id fun heq ↦ heq ▸ h⟩
  · rw [mem_append, mem_singleton]

theorem Nodup.addNew (h : keys.Nodup) (k : κ) : (keys.addNew k).Nodup := by
  rw [List.addNew]
  split_ifs with hk
  · exact h
  · exact h.append (nodup_singleton k) (by simpa using hk)

theorem mem_foldl_addNew {new : List κ} {k : κ} :
    k ∈ new.foldl List.addNew keys ↔ k ∈ keys ∨ k ∈ new := by
  induction new generalizing keys with
  | nil => simp
  | cons k' new ih => rw [foldl_cons, ih, mem_addNew, mem_cons, or_assoc]

theorem Nodup.foldl_addNew (h : keys.Nodup) (new : List κ) :
    (new.foldl List.addNew keys).Nodup := by
  induction new generalizing keys with
  | nil => exact h
  | cons k new ih => exact ih (h.addNew k)

section By

variable {α : Type*} {key : α → κ} {l new : List α} {a b : α}

/-- The rows after an insert with `ON CONFLICT (key) DO NOTHING`. -/
def addNewBy (key : α → κ) (l : List α) (a : α) : List α :=
  if key a ∈ l.map key then l else l ++ [a]

theorem map_addNewBy : (l.addNewBy key a).map key = (l.map key).addNew (key a) := by
  rw [addNewBy, addNew]
  split_ifs
  · rfl
  · rw [map_append, map_singleton]

theorem map_foldl_addNewBy :
    (new.foldl (List.addNewBy key) l).map key = (new.map key).foldl List.addNew (l.map key) := by
  induction new generalizing l with
  | nil => rfl
  | cons b new ih => rw [foldl_cons, ih, map_addNewBy, map_cons, foldl_cons]

theorem mem_addNewBy : b ∈ l.addNewBy key a ↔ b ∈ l ∨ key a ∉ l.map key ∧ b = a := by
  rw [addNewBy]
  split_ifs with h
  · simp [h]
  · simp [h]

/-- The first of the new rows with a key stays. -/
theorem mem_foldl_addNewBy :
    a ∈ new.foldl (List.addNewBy key) l
      ↔ a ∈ l ∨ key a ∉ l.map key ∧ new.find? (fun b ↦ key b = key a) = some a := by
  induction new generalizing l with
  | nil => simp
  | cons b new ih =>
    rw [foldl_cons, ih, mem_addNewBy, map_addNewBy, mem_addNew, not_or, or_assoc]
    refine or_congr_right ?_
    by_cases hkey : key b = key a
    · rw [find?_cons_of_pos (by simpa using hkey), hkey, Option.some.injEq]
      simp [eq_comm]
    · rw [find?_cons_of_neg (by simpa using hkey)]
      have hne : a ≠ b := fun h ↦ hkey (h ▸ rfl)
      simp [hne, Ne.symm hkey]

/-- When the new rows with the key of `a` are all alike, no other one comes before it. -/
theorem mem_foldl_addNewBy_of_alike (ha : a ∈ new) (hkey : key a ∉ l.map key)
    (halike : ∀ b ∈ new, key b = key a → b = a) : a ∈ new.foldl (List.addNewBy key) l := by
  refine mem_foldl_addNewBy.mpr (.inr ⟨hkey, ?_⟩)
  cases hfind : new.find? fun b ↦ key b = key a with
  | none => exact absurd (find?_eq_none.mp hfind a ha) (by simp)
  | some b =>
    rw [halike b (mem_of_find?_eq_some hfind) (by simpa using find?_some hfind)]

theorem eq_of_mem_foldl_addNewBy (ha : a ∈ new.foldl (List.addNewBy key) l)
    (hb : b ∈ new.foldl (List.addNewBy key) l) (hkey : key b = key a) (hnew : key a ∉ l.map key) :
    b = a := by
  have hmem : ∀ c, key c = key a → c ∈ new.foldl (List.addNewBy key) l →
      new.find? (fun c ↦ key c = key a) = some c := by
    intro c hc hmem
    rcases mem_foldl_addNewBy.mp hmem with hold | ⟨-, hfind⟩
    · exact absurd (hc ▸ mem_map_of_mem hold) hnew
    · rwa [hc] at hfind
  exact Option.some.inj ((hmem b hkey hb).symm.trans (hmem a rfl ha))

end By

end Keys

/-! ## Conversions -/

section Conversions

variable {α β γ : Type*} {f : α → Option β} {g : β → Option γ}

theorem mapM_eq_some_iff {l : List α} {l' : List β} :
    l.mapM f = some l' ↔ l.map f = l'.map some := by
  induction l generalizing l' with
  | nil => cases l' <;> simp
  | cons a l ih =>
    rw [mapM_cons, map_cons]
    cases hfa : f a with
    | none => cases l' <;> simp
    | some b =>
      cases hl : l.mapM f with
      | none =>
        cases l' with
        | nil => simp
        | cons b' l' =>
          have hne : l.map f ≠ l'.map some := fun heq ↦ by simpa [hl] using ih.mpr heq
          simp [hne]
      | some l'' =>
        cases l' with
        | nil => simp
        | cons b' l' =>
          have hiff : l.mapM f = some l' ↔ l.map f = l'.map some := ih
          rw [hl, Option.some.injEq] at hiff
          simp [hiff]

theorem isSome_mapM_iff {l : List α} :
    (l.mapM f).isSome = true ↔ ∀ a ∈ l, (f a).isSome = true := by
  induction l with
  | nil => simp
  | cons a l ih =>
    rw [mapM_cons, forall_mem_cons, ← ih]
    cases f a with
    | none => simp
    | some b => cases l.mapM f <;> simp

theorem mapM_bind_mapM (l : List α) :
    (l.mapM f).bind (fun l' ↦ l'.mapM g) = l.mapM fun a ↦ (f a).bind g := by
  induction l with
  | nil => simp
  | cons a l ih =>
    rw [mapM_cons, mapM_cons, ← ih]
    cases f a with
    | none => rfl
    | some b =>
      cases l.mapM f with
      | none => cases hgb : g b <;> simp [hgb]
      | some l' => simp

end Conversions

/-! ## Blocks -/

section Blocks

variable {α : Type*}

/-- The blocks of `n` elements of a list, of which the last may be shorter. -/
def blocks (n : ℕ) (l : List α) : List (List α) :=
  (range ((l.length + (n - 1)) / n)).map fun k ↦ (l.drop (n * k)).take n

theorem flatten_map_range_blocks (n m : ℕ) (l : List α) :
    ((range m).map fun k ↦ (l.drop (n * k)).take n).flatten = l.take (n * m) := by
  induction m with
  | zero => rfl
  | succ m ih =>
    rw [range_succ, map_append, flatten_append, ih, Nat.mul_succ, take_add, map_singleton,
      flatten_singleton]

theorem flatten_blocks {n : ℕ} (hn : 0 < n) (l : List α) : (l.blocks n).flatten = l := by
  rw [blocks, flatten_map_range_blocks]
  refine take_of_length_le ?_
  have hdiv := Nat.div_add_mod (l.length + (n - 1)) n
  have hmod := Nat.mod_lt (l.length + (n - 1)) hn
  omega

end Blocks

end List

/-! ## Maps -/

theorem AList.entries_perm_cons_erase {κ : Type*} {β : κ → Type*} [DecidableEq κ] {m : AList β}
    {k : κ} {v : β k} (h : m.lookup k = some v) :
    m.entries.Perm (⟨k, v⟩ :: (m.erase k).entries) := by
  have hmem : k ∈ m.entries.keys := AList.lookup_isSome.mp (Option.isSome_iff_exists.mpr ⟨v, h⟩)
  obtain ⟨v', front, back, -, hentries, hkerase⟩ := List.exists_of_kerase hmem
  have herase : (m.erase k).entries = front ++ back := hkerase
  have hv : v' = v := by
    have hlookup : m.entries.dlookup k = some v' :=
      List.mem_dlookup m.nodupKeys (hentries ▸ List.mem_append_right _ List.mem_cons_self)
    exact Option.some.inj (hlookup.symm.trans h)
  rw [herase, ← hv, hentries]
  exact List.perm_middle

/-! ## Serial ids -/

/-- Every id has been given out once, and the next one is new. -/
structure Serial (ids : List ℕ) (next : ℕ) : Prop where
  nodup : ids.Nodup
  below : ∀ id ∈ ids, id < next

theorem Serial.append {ids : List ℕ} {next : ℕ} (h : Serial ids next) :
    Serial (ids ++ [next]) (next + 1) := by
  have hnew : next ∉ ids := fun hmem ↦ Nat.lt_irrefl next (h.below next hmem)
  refine ⟨h.nodup.append (List.nodup_singleton _) (by simpa using hnew), fun id hid ↦ ?_⟩
  rcases List.mem_append.mp hid with hid | hid
  · exact Nat.lt_succ_of_lt (h.below id hid)
  · rw [List.mem_singleton.mp hid]
    exact Nat.lt_succ_self _
