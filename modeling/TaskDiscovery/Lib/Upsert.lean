import Mathlib.Data.List.Nodup
import Mathlib.Data.List.Perm.Basic

/-!
# Keyed lists with update-or-append

A slice whose elements carry a key is updated in place when the key occurs and extended at the end
otherwise. The whole scan-then-append loop is one recursion, `List.upsert`, so that every statement
about it is a single induction.

Nothing here assumes that keys are unique. Uniqueness is preserved (`nodup_map_upsert`), and the
position of an element never changes, which is what a cursor into the list relies on.
-/

namespace List

variable {α κ : Type*} [DecidableEq κ]

/-- Apply `f` to the first element with key `k`, or append `new` when there is none. -/
def upsert (key : α → κ) (k : κ) (f : α → α) (new : α) : List α → List α
  | [] => [new]
  | a :: l => if key a = k then f a :: l else a :: upsert key k f new l

variable {key : α → κ} {k : κ} {f : α → α} {new : α}

@[simp] theorem upsert_nil : upsert key k f new [] = [new] := rfl

theorem upsert_cons (a : α) (l : List α) : upsert key k f new (a :: l)
    = if key a = k then f a :: l else a :: upsert key k f new l := rfl

theorem upsert_of_notMem {l : List α} (h : k ∉ l.map key) :
    upsert key k f new l = l ++ [new] := by
  induction l with
  | nil => rfl
  | cons a l ih =>
    rw [map_cons, mem_cons, not_or] at h
    rw [upsert_cons, if_neg (Ne.symm h.1), ih h.2, cons_append]

@[simp] theorem upsert_ne_nil (l : List α) : upsert key k f new l ≠ [] := by
  cases l with
  | nil => simp
  | cons a l => rw [upsert_cons]; split <;> simp

theorem map_upsert (hf : ∀ a, key (f a) = key a) (hn : key new = k) (l : List α) :
    (upsert key k f new l).map key = if k ∈ l.map key then l.map key else l.map key ++ [k] := by
  induction l with
  | nil => simp [hn]
  | cons a l ih =>
    rw [upsert_cons]
    by_cases ha : key a = k
    · simp [ha, hf]
    · rw [if_neg ha, map_cons, map_cons, ih]
      by_cases hk : k ∈ l.map key
      · rw [if_pos hk, if_pos (mem_cons_of_mem _ hk)]
      · rw [if_neg hk, if_neg (by simpa [Ne.symm ha] using hk), cons_append]

theorem mem_map_upsert (hf : ∀ a, key (f a) = key a) (hn : key new = k) {l : List α} {x : κ} :
    x ∈ (upsert key k f new l).map key ↔ x = k ∨ x ∈ l.map key := by
  rw [map_upsert hf hn]
  by_cases hk : k ∈ l.map key
  · rw [if_pos hk]
    constructor
    · exact Or.inr
    · rintro (rfl | h)
      · exact hk
      · exact h
  · rw [if_neg hk, mem_append, mem_singleton, or_comm]

theorem nodup_map_upsert (hf : ∀ a, key (f a) = key a) (hn : key new = k) {l : List α}
    (h : (l.map key).Nodup) : ((upsert key k f new l).map key).Nodup := by
  rw [map_upsert hf hn]
  by_cases hk : k ∈ l.map key
  · rwa [if_pos hk]
  · rw [if_neg hk]
    exact h.append (nodup_singleton k) (by simpa using hk)

theorem mem_upsert {l : List α} {a : α} (h : a ∈ upsert key k f new l) :
    a ∈ l ∨ a = new ∨ ∃ b ∈ l, key b = k ∧ a = f b := by
  induction l with
  | nil => exact Or.inr (Or.inl (mem_singleton.mp h))
  | cons b l ih =>
    rw [upsert_cons] at h
    by_cases hb : key b = k
    · rw [if_pos hb] at h
      rcases mem_cons.mp h with rfl | h
      · exact Or.inr (Or.inr ⟨b, mem_cons_self, hb, rfl⟩)
      · exact Or.inl (mem_cons_of_mem _ h)
    · rw [if_neg hb] at h
      rcases mem_cons.mp h with rfl | h
      · exact Or.inl mem_cons_self
      · rcases ih h with h | h | ⟨c, hc, hck, rfl⟩
        · exact Or.inl (mem_cons_of_mem _ h)
        · exact Or.inr (Or.inl h)
        · exact Or.inr (Or.inr ⟨c, mem_cons_of_mem _ hc, hck, rfl⟩)

theorem mem_upsert_of_key_eq {l : List α} (hnodup : (l.map key).Nodup) {a : α}
    (h : a ∈ upsert key k f new l) (ha : key a = k) : a = new ∨ ∃ b ∈ l, key b = k ∧ a = f b := by
  induction l with
  | nil => exact Or.inl (mem_singleton.mp h)
  | cons b l ih =>
    rw [map_cons, nodup_cons] at hnodup
    rw [upsert_cons] at h
    by_cases hb : key b = k
    · rw [if_pos hb] at h
      rcases mem_cons.mp h with rfl | h
      · exact Or.inr ⟨b, mem_cons_self, hb, rfl⟩
      · exact absurd (mem_map.mpr ⟨a, h, ha.trans hb.symm⟩) hnodup.1
    · rw [if_neg hb] at h
      rcases mem_cons.mp h with rfl | h
      · exact absurd ha hb
      · exact (ih hnodup.2 h).imp_right fun ⟨c, hc, hck, heq⟩ ↦ ⟨c, mem_cons_of_mem _ hc, hck, heq⟩

theorem image_mem_upsert {l : List α} (hnodup : (l.map key).Nodup) {a : α} (ha : a ∈ l)
    (hk : key a = k) : f a ∈ upsert key k f new l := by
  induction l with
  | nil => simp at ha
  | cons b l ih =>
    rw [map_cons, nodup_cons] at hnodup
    rw [upsert_cons]
    rcases mem_cons.mp ha with rfl | ha
    · rw [if_pos hk]
      exact mem_cons_self
    · have hb : key b ≠ k := fun hb ↦ hnodup.1 (mem_map.mpr ⟨a, ha, hk.trans hb.symm⟩)
      rw [if_neg hb]
      exact mem_cons_of_mem _ (ih hnodup.2 ha)

theorem find?_upsert_self (hf : ∀ a, key (f a) = key a) (hn : key new = k) (l : List α) :
    (upsert key k f new l).find? (fun a ↦ key a = k)
      = some (((l.find? fun a ↦ key a = k).map f).getD new) := by
  induction l with
  | nil => simp [hn]
  | cons a l ih =>
    rw [upsert_cons]
    by_cases ha : key a = k
    · simp [ha, hf]
    · rw [if_neg ha, find?_cons_of_neg (by simpa using ha), ih,
        find?_cons_of_neg (by simpa using ha)]

theorem find?_upsert_of_ne (hf : ∀ a, key (f a) = key a) (hn : key new = k) {k' : κ}
    (hk : k' ≠ k) (l : List α) :
    (upsert key k f new l).find? (fun a ↦ key a = k') = l.find? fun a ↦ key a = k' := by
  induction l with
  | nil => simp [hn, Ne.symm hk]
  | cons a l ih =>
    rw [upsert_cons]
    by_cases ha : key a = k
    · have hne : ¬key a = k' := fun h ↦ hk (h.symm.trans ha)
      rw [if_pos ha, find?_cons_of_neg (by simpa [hf] using hne),
        find?_cons_of_neg (by simpa using hne)]
    · rw [if_neg ha, find?_cons, find?_cons, ih]

theorem upsert_eq_self {l : List α} {a : α} (ha : (l.find? fun a ↦ key a = k) = some a)
    (hfix : f a = a) : upsert key k f new l = l := by
  induction l with
  | nil => simp at ha
  | cons b l ih =>
    rw [upsert_cons]
    by_cases hb : key b = k
    · rw [find?_cons_of_pos (by simpa using hb)] at ha
      rw [if_pos hb, Option.some.inj ha, hfix]
    · rw [find?_cons_of_neg (by simpa using hb)] at ha
      rw [if_neg hb, ih ha]

/-- What an update does depends on the elements under its key. -/
theorem upsert_congr {f' : α → α} {l : List α} (hf : ∀ a ∈ l, key a = k → f a = f' a) :
    upsert key k f new l = upsert key k f' new l := by
  induction l with
  | nil => rfl
  | cons a l ih =>
    rw [upsert_cons, upsert_cons, ih fun b hb ↦ hf b (mem_cons_of_mem _ hb)]
    by_cases ha : key a = k
    · rw [if_pos ha, if_pos ha, hf a mem_cons_self ha]
    · rw [if_neg ha, if_neg ha]

/-- An update seen through a projection that keeps the keys. -/
theorem map_upsert_eq_upsert_map {β : Type*} {g : α → β} {key' : β → κ} {f' : β → β}
    (hkey : ∀ a, key' (g a) = key a) {l : List α}
    (hf : ∀ a ∈ l, key a = k → g (f a) = f' (g a)) :
    (upsert key k f new l).map g = upsert key' k f' (g new) (l.map g) := by
  induction l with
  | nil => rfl
  | cons a l ih =>
    rw [upsert_cons, map_cons, upsert_cons, hkey]
    by_cases ha : key a = k
    · rw [if_pos ha, if_pos ha, map_cons, hf a mem_cons_self ha]
    · rw [if_neg ha, if_neg ha, map_cons, ih fun b hb ↦ hf b (mem_cons_of_mem _ hb)]

theorem map_upsert_eq_map {β : Type*} {g : α → β} {l : List α} (hk : k ∈ l.map key)
    (hf : ∀ a ∈ l, key a = k → g (f a) = g a) : (upsert key k f new l).map g = l.map g := by
  induction l with
  | nil => simp at hk
  | cons a l ih =>
    rw [upsert_cons]
    by_cases ha : key a = k
    · rw [if_pos ha, map_cons, map_cons, hf a mem_cons_self ha]
    · rw [map_cons, mem_cons] at hk
      rw [if_neg ha, map_cons, map_cons, ih (hk.resolve_left (Ne.symm ha))
        fun b hb ↦ hf b (mem_cons_of_mem _ hb)]

end List
