import TaskDiscovery.Go.Json.Grammar

/-!
# Readers of JSON are local

A reader decides from what it has consumed. Only a number can go on where the text given to it
ends. So a reading of the beginning of a text is a reading of the whole: if more text follows that
does not continue a number, the same value is found and the rest is longer by that text
(`local_scanValue`). For a container the condition is not needed.

The one reader that looks ahead is that of a surrogate, which may be the first of a pair. What it
looks at is read again as the next character, so a string that is read to its end decides it.
-/

namespace Go

namespace Json

/-! ## Local readers -/

/-- A character that a number can go on with. -/
def isNumeric (c : Char) : Bool := c.isDigit || c ∈ ['.', 'e', 'E', '+', '-']

/-- A text that does not continue a number. -/
def Breaks (t : List Char) : Prop := ∀ c, t.head? = some c → isNumeric c = false

/-- A reader that decides from what it consumes, except that a number may go on where the text
ends. -/
def Local {α : Type*} (p : Reader α) : Prop :=
  ∀ ⦃s a r⦄, p s = some (a, r) → ∀ t, (r = [] → Breaks t) → p (s ++ t) = some (a, r ++ t)

theorem Breaks.not_mem {t : List Char} (h : Breaks t) {cs : List Char}
    (hcs : ∀ c ∈ cs, isNumeric c = true) {c : Char} (hc : t.head? = some c) : c ∉ cs := by
  intro hmem
  have hnum := hcs c hmem
  rw [h c hc] at hnum
  exact absurd hnum (by decide)

theorem skipSpace_append {s : List Char} (h : skipSpace s ≠ []) (t : List Char) :
    skipSpace (s ++ t) = skipSpace s ++ t := by
  induction s with
  | nil => exact absurd rfl h
  | cons c s ih =>
    rw [skipSpace, List.dropWhile_cons] at h
    rw [skipSpace, skipSpace, List.cons_append, List.dropWhile_cons, List.dropWhile_cons]
    split_ifs with hc
    · rw [if_pos hc] at h
      exact ih h
    · rfl

/-! ## Numbers -/

theorem Local.andThen {p q : Reader (List Char)} (hp : Local p) (hq : Local q)
    (hend : ∀ b r, q [] = some (b, r) → r = []) : Local (andThen p q) := by
  intro s a r h t ht
  obtain ⟨⟨x, r₁⟩, hx, h⟩ := Option.bind_eq_some_iff.mp h
  obtain ⟨⟨y, r₂⟩, hy, h⟩ := Option.map_eq_some_iff.mp h
  cases h
  have hx' := hp hx t fun hr ↦ ht (hend y r₂ (hr ▸ hy))
  rw [Json.andThen, hx', Option.bind_some, hq hy t ht, Option.map_some]

theorem Breaks.dropWhile_eq {t : List Char} (h : Breaks t) : t.dropWhile Char.isDigit = t := by
  cases t with
  | nil => rfl
  | cons c t =>
    have hc : c.isDigit = false := (Bool.or_eq_false_iff.mp (h c rfl)).1
    rw [List.dropWhile_cons, hc, if_neg Bool.false_ne_true]

theorem dropWhile_isDigit_append {s t : List Char}
    (ht : s.dropWhile Char.isDigit = [] → Breaks t) :
    (s ++ t).dropWhile Char.isDigit = s.dropWhile Char.isDigit ++ t := by
  rw [List.dropWhile_append]
  split_ifs with hempty
  · rw [List.isEmpty_iff] at hempty
    rw [hempty, (ht hempty).dropWhile_eq, List.nil_append]
  · rfl

theorem takeWhile_isDigit_append {s t : List Char}
    (ht : s.dropWhile Char.isDigit = [] → Breaks t) :
    (s ++ t).takeWhile Char.isDigit = s.takeWhile Char.isDigit := by
  have hwhole := List.takeWhile_append_dropWhile (p := Char.isDigit) (l := s ++ t)
  nth_rewrite 3 [← List.takeWhile_append_dropWhile (p := Char.isDigit) (l := s)] at hwhole
  rw [dropWhile_isDigit_append ht, List.append_assoc] at hwhole
  exact List.append_cancel_right hwhole

theorem local_scanDigits : Local scanDigits := by
  intro s a r h t ht
  rw [scanDigits] at h
  split_ifs at h with hnil
  cases h
  rw [scanDigits, takeWhile_isDigit_append ht, dropWhile_isDigit_append ht, if_neg hnil]

theorem local_scanOptional {cs : List Char} (hcs : ∀ c ∈ cs, isNumeric c = true) :
    Local (scanOptional cs) := by
  intro s a r h t ht
  cases s with
  | nil =>
    cases h
    cases t with
    | nil => rfl
    | cons c t => exact if_neg ((ht rfl).not_mem hcs rfl)
  | cons c s =>
    rw [scanOptional] at h
    rw [List.cons_append, scanOptional]
    split_ifs at h ⊢ with hc
    · cases h
      rfl
    · cases h
      rfl

theorem local_scanIntegral : Local scanIntegral := by
  intro s a r h t ht
  cases s with
  | nil => cases h
  | cons c s =>
    rw [scanIntegral] at h
    rw [List.cons_append, scanIntegral]
    split_ifs at h ⊢ with hc
    · cases h
      rfl
    · exact local_scanDigits h t ht

theorem local_scanMarked {marks signs : List Char} (hmarks : ∀ c ∈ marks, isNumeric c = true)
    (hsigns : ∀ c ∈ signs, isNumeric c = true) : Local (scanMarked marks signs) := by
  intro s a r h t ht
  cases s with
  | nil =>
    cases h
    cases t with
    | nil => rfl
    | cons c t => exact if_neg ((ht rfl).not_mem hmarks rfl)
  | cons c s =>
    rw [scanMarked] at h
    rw [List.cons_append, scanMarked]
    split_ifs at h ⊢ with hc
    · obtain ⟨p, hp, h⟩ := Option.map_eq_some_iff.mp h
      cases h
      have hdigits : ∀ b r, scanDigits [] = some (b, r) → r = [] := by
        intro b r hb
        cases hb
      rw [(local_scanOptional hsigns).andThen local_scanDigits hdigits hp t ht, Option.map_some]
    · cases h
      rfl

theorem local_scanNumber : Local scanNumber := by
  have hmarked : ∀ marks signs b r, scanMarked marks signs [] = some (b, r) → r = [] := by
    intro marks signs b r h
    cases h
    rfl
  have hexp : Local (scanMarked ['e', 'E'] ['+', '-']) :=
    local_scanMarked (List.all_eq_true.mp rfl) (List.all_eq_true.mp rfl)
  have hfrac : Local (scanMarked ['.'] []) :=
    local_scanMarked (List.all_eq_true.mp rfl) (List.all_eq_true.mp rfl)
  refine (local_scanOptional (List.all_eq_true.mp rfl)).andThen (local_scanIntegral.andThen
    (hfrac.andThen hexp (hmarked _ _)) ?_) ?_
  · intro b r h
    cases h
    rfl
  · intro b r h
    cases h

/-! ## Strings -/

theorem getu4_of_ne {c : Char} (hc : c ≠ '\\') (s : List Char) : getu4 (c :: s) = none := by
  rw [getu4]
  intro a b c' d s' h
  exact hc (List.cons.inj h).1

theorem getu4_escape {c : Char} (hc : c ≠ 'u') (s : List Char) : getu4 ('\\' :: c :: s) = none := by
  rw [getu4]
  rintro a b c' d s' h
  exact hc (List.cons.inj (List.cons.inj h).2).1

theorem getu4_append {s r : List Char} {n : ℕ} (h : getu4 s = some (n, r)) (t : List Char) :
    getu4 (s ++ t) = some (n, r ++ t) := by
  rw [getu4.eq_def] at h
  split at h
  · rename_i a b c d s
    obtain ⟨a', ha, h⟩ := Option.bind_eq_some_iff.mp h
    obtain ⟨b', hb, h⟩ := Option.bind_eq_some_iff.mp h
    obtain ⟨c', hc, h⟩ := Option.bind_eq_some_iff.mp h
    obtain ⟨d', hd, h⟩ := Option.map_eq_some_iff.mp h
    cases h
    simp only [List.cons_append, getu4, ha, hb, hc, hd, Option.bind_some, Option.map_some]
  · cases h

/-- What has been begun as a code unit must be finished as one. -/
theorem getu4_append_of_scanPlain {s : List Char} (h : getu4 s = none) (hs : scanPlain s ≠ none)
    (t : List Char) : getu4 (s ++ t) = none := by
  cases s with
  | nil => exact absurd rfl hs
  | cons c s =>
    by_cases hc : c = '\\'
    · subst hc
      cases s with
      | nil => exact absurd rfl hs
      | cons c s =>
        have hu : c ≠ 'u' := by
          rintro rfl
          exact hs rfl
        exact getu4_escape hu _
    · exact getu4_of_ne hc _

/-- The text goes on with another character or with the end of the string. -/
def Readable (s : List Char) : Prop := s.head? = some '"' ∨ scanChar s ≠ none

theorem Readable.getu4_append {s : List Char} (hs : Readable s) (t : List Char) :
    getu4 (s ++ t) = (getu4 s).map fun p ↦ (p.1, p.2 ++ t) := by
  rcases h : getu4 s with _ | ⟨n, r⟩
  · rcases hs with hquote | hchar
    · cases s with
      | nil => cases hquote
      | cons c s =>
        cases hquote
        exact getu4_of_ne (by decide) _
    · rw [scanChar, h] at hchar
      exact getu4_append_of_scanPlain h hchar t
  · exact Json.getu4_append h t

theorem decodeUnit_append {n : ℕ} {s : List Char} (hs : Readable (decodeUnit n s).2)
    (t : List Char) :
    decodeUnit n (s ++ t) = ((decodeUnit n s).1, (decodeUnit n s).2 ++ t) := by
  by_cases hsur : 0xD800 ≤ n ∧ n < 0xE000
  · rw [decodeUnit, if_pos hsur] at hs
    rw [decodeUnit, decodeUnit, if_pos hsur, if_pos hsur]
    rcases h : getu4 s with _ | ⟨m, r⟩
    · rw [h] at hs
      have hnone : getu4 (s ++ t) = none := by rw [Readable.getu4_append hs, h, Option.map_none]
      rw [hnone]
    · rw [getu4_append h]
      by_cases hpair : n < 0xDC00 ∧ 0xDC00 ≤ m ∧ m < 0xE000
      · simp only [if_pos hpair]
      · simp only [if_neg hpair]
  · rw [decodeUnit, decodeUnit, if_neg hsur, if_neg hsur]

theorem scanPlain_append {s r : List Char} {c : Char} (h : scanPlain s = some (c, r))
    (t : List Char) : scanPlain (s ++ t) = some (c, r ++ t) := by
  cases s with
  | nil => cases h
  | cons c s =>
    rw [scanPlain] at h
    rw [List.cons_append, scanPlain]
    split_ifs at h ⊢
    · cases s with
      | nil => cases h
      | cons c s =>
        obtain ⟨x, hx, h⟩ := Option.map_eq_some_iff.mp h
        cases h
        rw [List.cons_append, scanEscape, hx, Option.map_some]
    · cases h
      rfl

theorem scanChar_append {s r : List Char} {c : Char} (h : scanChar s = some (c, r))
    (hr : Readable r) (t : List Char) : scanChar (s ++ t) = some (c, r ++ t) := by
  rw [scanChar] at h
  rcases hu : getu4 s with _ | ⟨n, s'⟩
  · rw [hu] at h
    have hplain : scanPlain s = some (c, r) := h
    have hne : scanPlain s ≠ none := by
      rw [hplain]
      exact Option.some_ne_none _
    rw [scanChar, getu4_append_of_scanPlain hu hne]
    exact scanPlain_append hplain t
  · rw [hu] at h
    have hc : decodeUnit n s' = (c, r) := Option.some.inj h
    rw [scanChar, getu4_append hu]
    refine congrArg some ?_
    rw [decodeUnit_append (by rw [hc]; exact hr), hc]

theorem readable_of_scanString {fuel : ℕ} {s : List Char} (h : scanString fuel s ≠ none) :
    Readable s := by
  cases fuel with
  | zero => exact absurd rfl h
  | succ fuel =>
    by_cases hquote : s.head? = some '"'
    · exact .inl hquote
    · rw [scanString, if_neg hquote] at h
      refine .inr fun hnone ↦ h ?_
      rw [hnone, Option.bind_none]

theorem scanString_append {fuel fuel' : ℕ} {s x r : List Char}
    (h : scanString fuel s = some (x, r)) (hfuel : fuel ≤ fuel') (t : List Char) :
    scanString fuel' (s ++ t) = some (x, r ++ t) := by
  induction fuel generalizing fuel' s x with
  | zero => cases h
  | succ fuel ih =>
    obtain ⟨fuel', rfl⟩ : ∃ n, fuel' = n + 1 := ⟨fuel' - 1, by omega⟩
    rw [scanString] at h
    split_ifs at h with hquote
    · cases h
      cases s with
      | nil => cases hquote
      | cons c s => exact if_pos hquote
    · obtain ⟨⟨c, s'⟩, hc, h⟩ := Option.bind_eq_some_iff.mp h
      obtain ⟨⟨y, r'⟩, hy, h⟩ := Option.map_eq_some_iff.mp h
      cases h
      have hreadable : Readable s' :=
        readable_of_scanString (by rw [hy]; exact Option.some_ne_none _)
      have hne : (s ++ t).head? ≠ some '"' := by
        cases s with
        | nil => cases hc
        | cons c s => exact hquote
      rw [scanString, if_neg hne, scanChar_append hc hreadable, Option.bind_some,
        ih hy (by omega), Option.map_some]

/-! ## Values -/

theorem scanWord_append {word s r : List Char} {v v' : Value}
    (h : scanWord word v s = some (v', r)) (t : List Char) :
    scanWord word v (s ++ t) = some (v', r ++ t) := by
  rw [scanWord] at h
  split_ifs at h with hword
  cases h
  rw [scanWord, if_pos (hword.trans (List.prefix_append s t)),
    List.drop_append_of_le_length hword.length_le]

theorem local_scanScalar : Local scanScalar := by
  intro s v r h t ht
  cases s with
  | nil => cases h
  | cons c s =>
    have hhead : (c :: s ++ t).head? = (c :: s).head? := rfl
    rw [scanScalar] at h
    rw [scanScalar, hhead]
    split_ifs at h ⊢
    · obtain ⟨⟨x, r'⟩, hx, h⟩ := Option.map_eq_some_iff.mp h
      cases h
      have hfuel : (c :: s).length ≤ (c :: s ++ t).length := by simp
      have happ : scanString (c :: s ++ t).length ((c :: s).tail ++ t) = some (x, r' ++ t) :=
        scanString_append hx hfuel t
      rw [show (c :: s ++ t).tail = (c :: s).tail ++ t from rfl, happ, Option.map_some]
    · exact scanWord_append h t
    · exact scanWord_append h t
    · exact scanWord_append h t
    · obtain ⟨⟨x, r'⟩, hx, h⟩ := Option.map_eq_some_iff.mp h
      cases h
      rw [local_scanNumber hx t ht, Option.map_some]

section Containers

variable {α : Type*} {close : Char} {item : Reader α}

/-- The text after an item is not empty, so an item is read from it whatever follows. -/
theorem Local.of_skipSpace (h : Local item) {s r : List Char} {a : α} (ha : item s = some (a, r))
    {c : Char} {r' : List Char} (hr : skipSpace r = c :: r') (t : List Char) :
    item (s ++ t) = some (a, r ++ t) ∧ skipSpace (r ++ t) = c :: (r' ++ t) := by
  have hne : skipSpace r ≠ [] := by
    rw [hr]
    exact List.cons_ne_nil _ _
  refine ⟨h ha t ?_, by rw [skipSpace_append hne, hr, List.cons_append]⟩
  rintro rfl
  exact absurd rfl hne

theorem scanMore_append (hitem : Local item) {fuel fuel' : ℕ} {s r : List Char} {xs : List α}
    (h : scanMore close item fuel s = some (xs, r)) (hfuel : fuel ≤ fuel') (t : List Char) :
    scanMore close item fuel' (s ++ t) = some (xs, r ++ t) := by
  induction fuel generalizing fuel' s xs with
  | zero => cases h
  | succ fuel ih =>
    obtain ⟨fuel', rfl⟩ : ∃ n, fuel' = n + 1 := ⟨fuel' - 1, by omega⟩
    obtain ⟨⟨a, r₁⟩, ha, h⟩ := Option.bind_eq_some_iff.mp h
    rcases hr : skipSpace r₁ with _ | ⟨c, r₂⟩
    · rw [hr] at h
      cases h
    · rw [hr] at h
      obtain ⟨ha', hr'⟩ := hitem.of_skipSpace ha hr t
      rw [scanMore, ha', Option.bind_some]
      simp only [hr'] at h ⊢
      split_ifs at h ⊢
      · cases h
        rfl
      · obtain ⟨⟨ys, r₃⟩, hys, h⟩ := Option.map_eq_some_iff.mp h
        cases h
        rw [ih hys (by omega), Option.map_some]

theorem scanItems_append (hitem : Local item) {s r : List Char} {xs : List α}
    (h : scanItems close item s = some (xs, r)) (t : List Char) :
    scanItems close item (s ++ t) = some (xs, r ++ t) := by
  rw [scanItems] at h
  rcases hs : skipSpace s with _ | ⟨c, s'⟩
  · rw [hs] at h
    cases h
  · rw [hs] at h
    have hne : skipSpace s ≠ [] := by
      rw [hs]
      exact List.cons_ne_nil _ _
    rw [scanItems, skipSpace_append hne, hs, List.cons_append]
    simp only at h ⊢
    split_ifs at h ⊢
    · cases h
      rfl
    · exact scanMore_append hitem h (by simp) t

end Containers

theorem skipSpace_head {s : List Char} {c : Char} (h : (skipSpace s).head? = some c)
    (t : List Char) :
    (skipSpace (s ++ t)).head? = some c ∧ (skipSpace (s ++ t)).tail = (skipSpace s).tail ++ t := by
  have hne : skipSpace s ≠ [] := by
    intro hnil
    rw [hnil] at h
    cases h
  rw [skipSpace_append hne, List.head?_append_of_ne_nil _ hne, List.tail_append_of_ne_nil hne]
  exact ⟨h, rfl⟩

theorem Local.scanMember {value : Reader Value} (hvalue : Local value) :
    Local (scanMember value) := by
  intro s m r h t ht
  rw [Json.scanMember] at h
  split_ifs at h with hquote
  obtain ⟨⟨key, r₁⟩, hkey, h⟩ := Option.bind_eq_some_iff.mp h
  split_ifs at h with hcolon
  obtain ⟨⟨v, r₂⟩, hv, h⟩ := Option.map_eq_some_iff.mp h
  cases h
  obtain ⟨hquote', htail⟩ := skipSpace_head hquote t
  obtain ⟨hcolon', htail'⟩ := skipSpace_head hcolon t
  rw [Json.scanMember, if_pos hquote', htail, scanString_append hkey (by simp), Option.bind_some,
    if_pos hcolon', htail', hvalue hv t ht, Option.map_some]

/-- The end of a container is where its bracket is closed, whatever follows. -/
theorem Local.scanContainer {value : Reader Value} (hvalue : Local value) {bracket : Char}
    {s r : List Char} {v : Value} (h : scanContainer value bracket s = some (v, r))
    (t : List Char) : scanContainer value bracket (s ++ t) = some (v, r ++ t) := by
  rw [Json.scanContainer] at h ⊢
  split_ifs at h ⊢
  · obtain ⟨⟨vs, r'⟩, hvs, h⟩ := Option.map_eq_some_iff.mp h
    cases h
    rw [scanItems_append hvalue hvs, Option.map_some]
  · obtain ⟨⟨ms, r'⟩, hms, h⟩ := Option.map_eq_some_iff.mp h
    cases h
    rw [scanItems_append hvalue.scanMember hms, Option.map_some]

theorem scanWith_of_skipSpace {inner : Option (Reader Value)} {s s' : List Char} {c : Char}
    (hs : skipSpace s = c :: s') :
    scanWith inner s = if c = '[' ∨ c = '\x7b' then inner.bind fun value ↦ scanContainer value c s'
      else scanScalar (c :: s') := by
  rw [scanWith, hs]

theorem local_scanWith {inner : Option (Reader Value)} (hinner : ∀ value ∈ inner, Local value) :
    Local (scanWith inner) := by
  intro s v r h t ht
  rcases hs : skipSpace s with _ | ⟨c, s'⟩
  · rw [scanWith, hs] at h
    cases h
  · have hs' : skipSpace (s ++ t) = c :: (s' ++ t) := by
      rw [skipSpace_append (by simp [hs]), hs, List.cons_append]
    rw [scanWith_of_skipSpace hs] at h
    rw [scanWith_of_skipSpace hs']
    split_ifs at h ⊢
    · obtain ⟨value, hvalue, h⟩ := Option.bind_eq_some_iff.mp h
      rw [hvalue, Option.bind_some, (hinner value hvalue).scanContainer h]
    · exact local_scanScalar h t ht

/-- **Locality.** -/
theorem local_scanValue (depth : ℕ) : Local (scanValue depth) := by
  induction depth with
  | zero => exact local_scanWith fun value h ↦ absurd h (Option.not_mem_none value)
  | succ depth ih =>
    refine local_scanWith fun value h ↦ ?_
    rw [← Option.mem_some_iff.mp h]
    exact ih

end Json

end Go
