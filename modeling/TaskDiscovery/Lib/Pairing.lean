import Mathlib.Data.List.Induction
import Mathlib.Data.List.Nodup
import Mathlib.Data.List.Pairwise
import Mathlib.Data.List.Perm.Basic

/-!
# Pairing off a list

`List.pairOff` takes the elements of a list two by two, and the last of an odd number is left over.
The pairs depend on what is in the list when they are taken. They are those of a longer list exactly
when no element but the last is separated from its partner (`List.pairOff_subset_iff`). If so, the
elements that are not taken pair off as if the others had never been there
(`List.append_pairOff_perm`).
-/

namespace List

variable {α : Type*}

/-- The elements two by two. -/
def pairOff : List α → List (α × α)
  | a :: b :: l => (a, b) :: pairOff l
  | _ => []

/-- What pairing off leaves over. -/
def leftOver : List α → List α
  | _ :: _ :: l => leftOver l
  | l => l

/-- The elements of a pair. -/
def both (p : α × α) : List α := [p.1, p.2]

theorem mem_both {p : α × α} {a : α} : a ∈ both p ↔ a = p.1 ∨ a = p.2 := by
  simp [both]

theorem length_leftOver_le (l : List α) : l.leftOver.length ≤ 1 := by
  induction l using twoStepInduction with
  | nil => exact Nat.zero_le 1
  | singleton a => exact Nat.le_refl 1
  | cons_cons a b l ih _ => exact ih

theorem flatMap_pairOff (l : List α) : l.pairOff.flatMap both ++ l.leftOver = l := by
  induction l using twoStepInduction with
  | nil => rfl
  | singleton a => rfl
  | cons_cons a b l ih _ =>
    rw [pairOff, leftOver, flatMap_cons, append_assoc, ih]
    rfl

theorem length_le_one_of_ne_cons_cons {l : List α} (h : ∀ a b t, l = a :: b :: t → False) :
    l.length ≤ 1 := by
  rcases l with _ | ⟨a, _ | ⟨b, t⟩⟩
  · exact Nat.zero_le 1
  · exact Nat.le_refl 1
  · exact (h a b t rfl).elim

theorem pairOff_of_length_lt {l : List α} (h : l.length < 2) : l.pairOff = [] := by
  match l, h with
  | [], _ => rfl
  | [a], _ => rfl

theorem pairOff_of_ne_cons_cons {l : List α} (h : ∀ a b t, l = a :: b :: t → False) :
    l.pairOff = [] :=
  pairOff_of_length_lt (Nat.lt_succ_of_le (length_le_one_of_ne_cons_cons h))

theorem pairOff_map {β : Type*} (f : α → β) (l : List α) :
    (l.map f).pairOff = l.pairOff.map (Prod.map f f) := by
  induction l using twoStepInduction with
  | nil => rfl
  | singleton a => rfl
  | cons_cons a b l ih _ =>
    rw [map_cons, map_cons, pairOff, pairOff, map_cons, ih]
    rfl

theorem pairOff_unique (pairs : List (α × α)) {rest : List α} (hrest : rest.length ≤ 1) :
    (pairs.flatMap both ++ rest).pairOff = pairs
      ∧ (pairs.flatMap both ++ rest).leftOver = rest := by
  induction pairs with
  | nil =>
    match rest, hrest with
    | [], _ => exact ⟨rfl, rfl⟩
    | [a], _ => exact ⟨rfl, rfl⟩
  | cons p pairs ih =>
    obtain ⟨hpairs, hleft⟩ := ih
    have hcons : (p :: pairs).flatMap both ++ rest
        = p.1 :: p.2 :: (pairs.flatMap both ++ rest) := rfl
    rw [hcons, pairOff, leftOver, hpairs, hleft]
    exact ⟨rfl, rfl⟩

theorem mem_of_mem_pairOff {l : List α} {p : α × α} (h : p ∈ l.pairOff) {a : α} (ha : a ∈ both p) :
    a ∈ l := by
  rw [← flatMap_pairOff l]
  exact mem_append_left _ (mem_flatMap.mpr ⟨p, h, ha⟩)

theorem pairwise_pairOff {l : List α} (hl : l.Nodup) :
    l.pairOff.Pairwise (Function.onFun Disjoint both) := by
  rw [← flatMap_pairOff l] at hl
  exact (nodup_flatMap.mp hl.of_append_left).2

/-- In a list without repetitions a pair is known by any of its elements. -/
theorem pairOff_ext {l : List α} (hl : l.Nodup) {p p' : α × α} (hp : p ∈ l.pairOff)
    (hp' : p' ∈ l.pairOff) {a : α} (ha : a ∈ both p) (ha' : a ∈ both p') : p = p' := by
  by_contra hne
  have hsymm : Std.Symm (Function.onFun Disjoint fun p : α × α ↦ both p) :=
    ⟨fun _ _ h _ ha ha' ↦ h ha' ha⟩
  exact (pairwise_pairOff hl).forall hp hp' hne ha ha'

theorem nodup_of_flatMap_both {pairs : List (α × α)} (h : (pairs.flatMap both).Nodup) :
    pairs.Nodup := by
  refine (nodup_flatMap.mp h).2.imp fun {p p'} hdisjoint heq ↦ ?_
  exact hdisjoint (mem_both.mpr (Or.inl rfl)) (heq ▸ mem_both.mpr (Or.inl rfl))

theorem nodup_pairOff {l : List α} (hl : l.Nodup) : l.pairOff.Nodup := by
  rw [← flatMap_pairOff l] at hl
  exact nodup_of_flatMap_both hl.of_append_left

/-! ## Pairing off a part -/

/-- A selection that does not separate the elements of a pair. -/
theorem pairOff_filter {l : List α} {q : α → Bool} (h : ∀ p ∈ l.pairOff, q p.1 = q p.2) :
    (l.filter q).pairOff = l.pairOff.filter fun p ↦ q p.1 := by
  induction l using twoStepInduction with
  | nil => rfl
  | singleton a => cases ha : q a <;> simp [ha, pairOff]
  | cons_cons a b l ih _ =>
    rw [pairOff, forall_mem_cons] at h
    have hab : q a = q b := h.1
    cases ha : q a with
    | false =>
      have hb : q b = false := hab ▸ ha
      simp [pairOff, ha, hb, ih h.2]
    | true =>
      have hb : q b = true := hab ▸ ha
      simp [pairOff, ha, hb, ih h.2]

/-- **Pairing off in turns.** When some pairs of a list have been taken, pairing off the rest gives
the others. -/
theorem append_pairOff_perm [DecidableEq α] {l : List α} {taken : List (α × α)} (hl : l.Nodup)
    (htaken : ∀ p ∈ taken, p ∈ l.pairOff) (hnodup : taken.Nodup) :
    (taken ++ (l.filter fun a ↦ decide (a ∉ taken.flatMap both)).pairOff).Perm l.pairOff := by
  have hmem : ∀ p ∈ l.pairOff, ∀ a ∈ both p, a ∈ taken.flatMap both ↔ p ∈ taken := by
    intro p hp a ha
    rw [mem_flatMap]
    constructor
    · rintro ⟨p', hp', ha'⟩
      rwa [pairOff_ext hl hp (htaken p' hp') ha ha']
    · exact fun hp ↦ ⟨p, hp, ha⟩
  have hclosed : ∀ p ∈ l.pairOff, decide (p.1 ∉ taken.flatMap both)
      = decide (p.2 ∉ taken.flatMap both) := by
    intro p hp
    simp only [hmem p hp p.1 (mem_both.mpr (Or.inl rfl)),
      hmem p hp p.2 (mem_both.mpr (Or.inr rfl))]
  have hothers : (l.filter fun a ↦ decide (a ∉ taken.flatMap both)).pairOff
      = l.pairOff.filter fun p ↦ !decide (p ∈ taken) := by
    rw [pairOff_filter hclosed]
    refine filter_congr fun p hp ↦ ?_
    simp only [hmem p hp p.1 (mem_both.mpr (Or.inl rfl)), decide_not]
  have hsame : taken.Perm (l.pairOff.filter fun p ↦ decide (p ∈ taken)) := by
    refine (perm_ext_iff_of_nodup hnodup ((nodup_pairOff hl).filter _)).mpr fun p ↦ ?_
    rw [mem_filter, decide_eq_true_iff]
    exact ⟨fun hp ↦ ⟨htaken p hp, hp⟩, And.right⟩
  rw [hothers]
  exact (hsame.append_right _).trans (filter_append_perm _ _)

/-- Two elements that are paired. -/
def Partners (l : List α) (a b : α) : Prop := (a, b) ∈ l.pairOff ∨ (b, a) ∈ l.pairOff

instance [DecidableEq α] (l : List α) (a b : α) : Decidable (l.Partners a b) :=
  inferInstanceAs (Decidable (_ ∨ _))

theorem Partners.mem {l : List α} {a b : α} (h : l.Partners a b) : a ∈ l ∧ b ∈ l := by
  rcases h with h | h
  · exact ⟨mem_of_mem_pairOff h (by simp [both]), mem_of_mem_pairOff h (by simp [both])⟩
  · exact ⟨mem_of_mem_pairOff h (by simp [both]), mem_of_mem_pairOff h (by simp [both])⟩

theorem partners_cons_cons {l : List α} {a b x y : α} :
    (a :: b :: l).Partners x y ↔ x = a ∧ y = b ∨ x = b ∧ y = a ∨ l.Partners x y := by
  simp only [Partners, pairOff, mem_cons, Prod.mk.injEq]
  tauto

theorem exists_partner {l : List α} {a : α} (ha : a ∈ l.dropLast) :
    ∃ p ∈ l.pairOff, a ∈ both p := by
  refine mem_flatMap.mp ?_
  rw [← flatMap_pairOff l] at ha
  match hleft : l.leftOver, l.length_leftOver_le with
  | [], _ =>
    rw [hleft, append_nil] at ha
    exact (dropLast_sublist _).mem ha
  | [b], _ => rwa [hleft, dropLast_concat] at ha

section Partners

variable {l part : List α} {a b x y : α}

theorem partners_first (hl : (a :: b :: l).Nodup) : (a :: b :: l).Partners a y ↔ y = b := by
  obtain ⟨hab, ha⟩ := not_or.mp (mem_cons.not.mp (nodup_cons.mp hl).1)
  rw [partners_cons_cons]
  constructor
  · rintro (⟨-, heq⟩ | ⟨heq, -⟩ | h)
    · exact heq
    · exact absurd heq hab
    · exact absurd h.mem.1 ha
  · exact fun heq ↦ Or.inl ⟨rfl, heq⟩

theorem partners_second (hl : (a :: b :: l).Nodup) : (a :: b :: l).Partners b y ↔ y = a := by
  obtain ⟨hab, -⟩ := not_or.mp (mem_cons.not.mp (nodup_cons.mp hl).1)
  have hb : b ∉ l := (nodup_cons.mp (nodup_cons.mp hl).2).1
  rw [partners_cons_cons]
  constructor
  · rintro (⟨heq, -⟩ | ⟨-, heq⟩ | h)
    · exact absurd heq.symm hab
    · exact heq
    · exact absurd h.mem.1 hb
  · exact fun heq ↦ Or.inr (Or.inl ⟨rfl, heq⟩)

theorem partners_of_mem (hl : (a :: b :: l).Nodup) (hx : x ∈ l) :
    (a :: b :: l).Partners x y ↔ l.Partners x y := by
  have ha : a ∉ l := fun h ↦ (nodup_cons.mp hl).1 (mem_cons_of_mem b h)
  have hb : b ∉ l := (nodup_cons.mp (nodup_cons.mp hl).2).1
  rw [partners_cons_cons]
  constructor
  · rintro (⟨rfl, -⟩ | ⟨rfl, -⟩ | h)
    · exact absurd hx ha
    · exact absurd hx hb
    · exact h
  · exact fun h ↦ Or.inr (Or.inr h)

theorem eq_nil_of_no_partner (h : ∀ z ∈ (x :: part).dropLast, ∃ y ∈ x :: part, l.Partners z y)
    (hx : ∀ y ∈ x :: part, ¬l.Partners x y) : part = [] := by
  cases part with
  | nil => rfl
  | cons c part =>
    obtain ⟨y, hy, hxy⟩ := h x (by simp)
    exact absurd hxy (hx y hy)

theorem exists_partner_tail (hl : (a :: b :: l).Nodup) (hpart : part <+ l)
    (h : ∀ z ∈ (a :: b :: part).dropLast, ∃ y ∈ a :: b :: part, (a :: b :: l).Partners z y) :
    ∀ z ∈ part.dropLast, ∃ y ∈ part, l.Partners z y := by
  intro z hz
  have hdrop : z ∈ (a :: b :: part).dropLast := by
    cases part with
    | nil => simp at hz
    | cons c part => exact mem_cons_of_mem _ (mem_cons_of_mem _ hz)
  obtain ⟨y, hy, hzy⟩ := h z hdrop
  have hinner := (partners_of_mem hl (hpart.mem ((dropLast_sublist _).mem hz))).mp hzy
  have hya : y ≠ a := fun heq ↦ (nodup_cons.mp hl).1 (mem_cons_of_mem b (heq ▸ hinner.mem.2))
  have hyb : y ≠ b := fun heq ↦ (nodup_cons.mp (nodup_cons.mp hl).2).1 (heq ▸ hinner.mem.2)
  exact ⟨y, (mem_cons.mp ((mem_cons.mp hy).resolve_left hya)).resolve_left hyb, hinner⟩

/-- The pairs of a part are pairs of the list if the partners are there. -/
theorem pairOff_subset_of_partners (hl : l.Nodup) (hpart : part <+ l)
    (h : ∀ a ∈ part.dropLast, ∃ b ∈ part, l.Partners a b) : ∀ p ∈ part.pairOff, p ∈ l.pairOff := by
  -- the cases are which elements of the first pair are in the part; one alone is its last element
  induction l using twoStepInduction generalizing part with
  | nil => simp [sublist_nil.mp hpart, pairOff]
  | singleton a =>
    rcases sublist_singleton.mp hpart with rfl | rfl <;> simp [pairOff]
  | cons_cons a b l ih _ =>
    have ha : a ∉ b :: l := (nodup_cons.mp hl).1
    have hbl : (b :: l).Nodup := (nodup_cons.mp hl).2
    have hb : b ∉ l := (nodup_cons.mp hbl).1
    rw [pairOff]
    rcases sublist_cons_iff.mp hpart with htail | ⟨r, rfl, htail⟩
    · rcases sublist_cons_iff.mp htail with hr | ⟨r, rfl, hr⟩
      · refine fun p hp ↦ mem_cons_of_mem _ (ih hbl.of_cons hr (fun x hx ↦ ?_) p hp)
        obtain ⟨y, hy, hxy⟩ := h x hx
        exact ⟨y, hy, (partners_of_mem hl (hr.mem ((dropLast_sublist _).mem hx))).mp hxy⟩
      · have hlast : r = [] := eq_nil_of_no_partner h fun y hy hby ↦ by
          rw [(partners_second hl).mp hby] at hy
          exact ha (htail.mem hy)
        simp [hlast, pairOff]
    · rcases sublist_cons_iff.mp htail with hr | ⟨r, rfl, hr⟩
      · have hlast : r = [] := eq_nil_of_no_partner h fun y hy hay ↦ by
          rw [(partners_first hl).mp hay] at hy
          rcases mem_cons.mp hy with heq | hmem
          · exact ha (heq ▸ mem_cons_self)
          · exact hb (hr.mem hmem)
        simp [hlast, pairOff]
      · rw [pairOff]
        refine forall_mem_cons.mpr ⟨mem_cons_self, fun p hp ↦ mem_cons_of_mem _ ?_⟩
        exact ih hbl.of_cons hr (exists_partner_tail hl hr h) p hp

/-- **When a part pairs off like the whole.** The pairs of a part of a list are pairs of the list if
and only if each element of the part but the last has its partner there. -/
theorem pairOff_subset_iff (hl : l.Nodup) (hpart : part <+ l) :
    (∀ p ∈ part.pairOff, p ∈ l.pairOff)
      ↔ ∀ a ∈ part.dropLast, ∃ b ∈ part, l.Partners a b := by
  refine ⟨fun h a ha ↦ ?_, pairOff_subset_of_partners hl hpart⟩
  obtain ⟨p, hp, hap⟩ := exists_partner ha
  rcases mem_both.mp hap with rfl | rfl
  · exact ⟨p.2, mem_of_mem_pairOff hp (by simp [both]), Or.inl (h p hp)⟩
  · exact ⟨p.1, mem_of_mem_pairOff hp (by simp [both]), Or.inr (h p hp)⟩

end Partners

end List
