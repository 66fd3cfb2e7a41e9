import Mathlib.Data.List.DropRight
import Mathlib.Data.List.Infix

/-!
# The `strings` functions the service uses

Go strings are read here as sequences of code points. The `strings` package is needed only for
trimming, for cutting at a separator, and for substring tests. Each function is given on
`List Char`, where it is a fold or a `takeWhile`, and lifted to `String` where a caller wants it.

`trimSpace` is applied again and again to the same text on its way through the registry, so its
idempotence is the fact most used.
-/

namespace Go

/-- `unicode.IsSpace`: the code points with the property `White_Space`. -/
def isSpace (c : Char) : Bool :=
  let n := c.toNat
  (0x09 ≤ n && n ≤ 0x0D) || n == 0x20 || n == 0x85 || n == 0xA0 || n == 0x1680
    || (0x2000 ≤ n && n ≤ 0x200A) || n == 0x2028 || n == 0x2029 || n == 0x202F || n == 0x205F
    || n == 0x3000

/-- `strings.TrimSpace` on code points. -/
def trimText (s : List Char) : List Char := (s.dropWhile isSpace).rdropWhile isSpace

def trimSpace (s : String) : String := String.ofList (trimText s.toList)

/-- `strings.Cut` at a one-character separator: the text before the first occurrence, and after. -/
def cut (c : Char) (s : List Char) : List Char × List Char :=
  (s.takeWhile (· ≠ c), (s.dropWhile (· ≠ c)).tail)

def contains (s sub : List Char) : Bool := decide (sub <:+: s)

/-- Split at the last occurrence of `c`, as `strings.LastIndex` followed by two slices does. -/
def cutLast (c : Char) : List Char → Option (List Char × List Char)
  | [] => none
  | x :: s =>
    match cutLast c s with
    | some (a, b) => some (x :: a, b)
    | none => if x = c then some ([], s) else none

/-- `unicode.ToLower`, as far as the result is an ASCII letter: beside the capital letters there are
the dotted capital i and the sign for kelvin. -/
def lowerChar (c : Char) : Char :=
  if 'A' ≤ c ∧ c ≤ 'Z' then Char.ofNat (c.toNat + 32)
  else if c = '\u0130' then 'i' else if c = '\u212a' then 'k' else c

/-- The words of a text, given the beginning of the first. -/
def splitFields (word : List Char) : List Char → List (List Char)
  | [] => if word = [] then [] else [word]
  | c :: s =>
    if isSpace c then if word = [] then splitFields [] s else word :: splitFields [] s
    else splitFields (word ++ [c]) s

/-- `strings.Fields`: the words between runs of white space. -/
def fields (s : List Char) : List (List Char) := splitFields [] s

/-! ## Trimming -/

theorem trimText_eq_self {s : List Char} (h : ∀ c ∈ s, isSpace c = false) : trimText s = s := by
  have hd : s.dropWhile isSpace = s := by
    cases s with
    | nil => rfl
    | cons c s => rw [List.dropWhile_cons, if_neg (by simp [h c])]
  rw [trimText, hd, List.rdropWhile_eq_self_iff]
  intro hl
  simp [h _ (List.getLast_mem hl)]

/-- Text that starts and ends inside a block of non-spaces loses only its tail to trimming. -/
theorem trimText_append {a b : List Char} {c d : Char} (hc : isSpace c = false)
    (hd : isSpace d = false) :
    trimText (c :: a ++ d :: b) = c :: a ++ d :: b.rdropWhile isSpace := by
  have hdrop : (c :: a ++ d :: b).dropWhile isSpace = c :: a ++ d :: b := by
    rw [List.cons_append, List.dropWhile_cons, if_neg (by simp [hc])]
  rw [trimText, hdrop]
  induction b using List.reverseRecOn with
  | nil =>
    rw [List.rdropWhile_nil]
    exact List.rdropWhile_concat_neg _ _ _ (by simp [hd])
  | append_singleton b x ih =>
    have hassoc : c :: a ++ d :: (b ++ [x]) = (c :: a ++ d :: b) ++ [x] := by simp
    rw [hassoc]
    by_cases hx : isSpace x = true
    · rw [List.rdropWhile_concat_pos _ _ _ hx, ih, List.rdropWhile_concat_pos _ _ _ hx]
      rw [List.cons_append, List.dropWhile_cons, if_neg (by simp [hc])]
    · rw [List.rdropWhile_concat_neg _ _ _ hx, List.rdropWhile_concat_neg _ _ _ hx, hassoc]

theorem trimText_cons {c : Char} (hc : isSpace c = false) (s : List Char) :
    trimText (c :: s) = c :: s.rdropWhile isSpace := by
  have hdrop : (c :: s).dropWhile isSpace = c :: s := List.dropWhile_cons_of_neg (by simp [hc])
  rw [trimText, hdrop]
  induction s using List.reverseRecOn with
  | nil => exact List.rdropWhile_concat_neg isSpace [] c (by simp [hc])
  | append_singleton s x ih =>
    rw [← List.cons_append]
    by_cases hx : isSpace x = true
    · rw [List.rdropWhile_concat_pos _ _ _ hx, List.rdropWhile_concat_pos _ _ _ hx,
        ih (List.dropWhile_cons_of_neg (by simp [hc]))]
    · rw [List.rdropWhile_concat_neg _ _ _ hx, List.rdropWhile_concat_neg _ _ _ hx,
        List.cons_append]

theorem trimText_idem (s : List Char) : trimText (trimText s) = trimText s := by
  have hhead : (trimText s).dropWhile isSpace = trimText s := by
    rw [trimText]
    rcases hs : s.dropWhile isSpace with _ | ⟨c, t⟩
    · rfl
    · have hc : ¬isSpace c = true := by
        have := List.head_dropWhile_not isSpace (l := s) (by simp [hs])
        simpa [hs] using this
      rcases List.rdropWhile_prefix isSpace (c :: t) with ⟨r, hr⟩
      rcases hp : (c :: t).rdropWhile isSpace with _ | ⟨c', t'⟩
      · rfl
      · rw [hp, List.cons_append, List.cons.injEq] at hr
        rw [List.dropWhile_cons, hr.1, if_neg hc]
  rw [trimText, hhead, trimText, List.rdropWhile_idempotent]

@[simp] theorem trimSpace_idem (s : String) : trimSpace (trimSpace s) = trimSpace s := by
  rw [trimSpace, trimSpace, String.toList_ofList, trimText_idem]

/-- Text that trimming leaves alone and that is not empty: what a name is once it has been
accepted. -/
structure Trimmed (s : String) : Prop where
  trimSpace_eq : trimSpace s = s
  ne_empty : s ≠ ""

theorem trimmed_trimSpace {s : String} (h : trimSpace s ≠ "") : Trimmed (trimSpace s) :=
  ⟨trimSpace_idem s, h⟩

/-! ## Words -/

theorem splitFields_spaces {t : List Char} (ht : ∀ c ∈ t, isSpace c = true) (word : List Char) :
    splitFields word t = if word = [] then [] else [word] := by
  induction t generalizing word with
  | nil => rw [splitFields]
  | cons c t ih =>
    have hrest := ih (fun d hd ↦ ht d (List.mem_cons_of_mem c hd)) []
    rw [if_pos rfl] at hrest
    rw [splitFields, if_pos (ht c List.mem_cons_self), hrest]

theorem splitFields_append_spaces {t : List Char} (ht : ∀ c ∈ t, isSpace c = true)
    (word s : List Char) : splitFields word (s ++ t) = splitFields word s := by
  induction s generalizing word with
  | nil => rw [List.nil_append, splitFields_spaces ht, splitFields]
  | cons c s ih =>
    rw [List.cons_append, splitFields, splitFields]
    simp only [ih]

theorem fields_trimText (s : List Char) : fields (trimText s) = fields s := by
  have hdrop : fields (s.dropWhile isSpace) = fields s := by
    induction s with
    | nil => rfl
    | cons c s ih =>
      by_cases hc : isSpace c = true
      · rw [List.dropWhile_cons_of_pos hc, ih, fields, fields, splitFields, if_pos hc, if_pos rfl]
      · rw [List.dropWhile_cons_of_neg hc]
  have happ : trimText s ++ (s.dropWhile isSpace).rtakeWhile isSpace = s.dropWhile isSpace :=
    List.rdropWhile_append_rtakeWhile
  rw [← hdrop, ← happ]
  exact (splitFields_append_spaces (fun c hc ↦ List.mem_rtakeWhile_imp hc) [] _).symm

theorem exists_splitFields {word : List Char} (hword : word ≠ []) (s : List Char) :
    ∃ u rest, splitFields word s = (word ++ u) :: rest := by
  induction s generalizing word with
  | nil => exact ⟨[], [], by rw [splitFields, if_neg hword, List.append_nil]⟩
  | cons c s ih =>
    rw [splitFields]
    by_cases hc : isSpace c = true
    · exact ⟨[], splitFields [] s, by rw [if_pos hc, if_neg hword, List.append_nil]⟩
    · have hcons : word ++ [c] ≠ [] := by simp
      obtain ⟨u, rest, hsplit⟩ := ih hcons
      exact ⟨c :: u, rest, by rw [if_neg hc, hsplit, List.append_assoc]; rfl⟩

/-! ## Cutting -/

theorem cut_append {c : Char} {a b : List Char} (h : c ∉ a) : cut c (a ++ c :: b) = (a, b) := by
  have ha : ∀ x ∈ a, (decide (x ≠ c)) = true := fun x hx ↦ by
    simpa using fun he : x = c ↦ h (he ▸ hx)
  rw [cut, List.takeWhile_append_of_pos ha, List.dropWhile_append_of_pos ha]
  simp

theorem cut_fst_append {c : Char} {a b : List Char} (h : c ∉ a) :
    (cut c (a ++ b)).1 = a ++ (cut c b).1 := by
  have ha : ∀ x ∈ a, (decide (x ≠ c)) = true := fun x hx ↦ by
    simpa using fun he : x = c ↦ h (he ▸ hx)
  rw [cut, cut, List.takeWhile_append_of_pos ha]

theorem cutLast_eq_none_iff {c : Char} {s : List Char} : cutLast c s = none ↔ c ∉ s := by
  induction s with
  | nil => simp [cutLast]
  | cons x s ih =>
    rw [cutLast, List.mem_cons, not_or]
    rcases hs : cutLast c s with _ | p
    · have hmem := ih.mp hs
      simp [hmem, eq_comm]
    · have hmem : c ∈ s := by
        by_contra hc
        rw [ih.mpr hc] at hs
        exact absurd hs (by simp)
      simp [hmem]

theorem cutLast_append {c : Char} {a b : List Char} (h : c ∉ b) :
    cutLast c (a ++ c :: b) = some (a, b) := by
  induction a with
  | nil => rw [List.nil_append, cutLast, cutLast_eq_none_iff.mpr h, if_pos rfl]
  | cons x a ih => rw [List.cons_append, cutLast, ih]

theorem cutLast_eq_some {c : Char} {s a b : List Char} (h : cutLast c s = some (a, b)) :
    s = a ++ c :: b ∧ c ∉ b := by
  induction s generalizing a b with
  | nil => simp [cutLast] at h
  | cons x s ih =>
    rw [cutLast] at h
    rcases hs : cutLast c s with _ | ⟨a', b'⟩
    · rw [hs] at h
      by_cases hx : x = c
      · rw [if_pos hx, Option.some.injEq, Prod.mk.injEq] at h
        obtain ⟨rfl, rfl⟩ := h
        exact ⟨by rw [hx, List.nil_append], cutLast_eq_none_iff.mp hs⟩
      · rw [if_neg hx] at h
        exact absurd h (by simp)
    · rw [hs, Option.some.injEq, Prod.mk.injEq] at h
      obtain ⟨rfl, rfl⟩ := h
      obtain ⟨rfl, hb⟩ := ih hs
      exact ⟨rfl, hb⟩

end Go
