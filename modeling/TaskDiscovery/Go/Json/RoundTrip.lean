import TaskDiscovery.Go.Json.Locality

/-!
# JSON values are read back

What is written is read back (`parse_encode`), and it has no control character
(`printable_encode`), so it fits on one line.

The induction is on the depth to which a value is nested rather than on the value: the readers of
containers are given a reader for what is inside of them.
-/

namespace Go

namespace Json

/-! ## Strings are read back -/

theorem hexValue_digitChar : ∀ n < 16, hexValue (Nat.digitChar n) = some n := by decide

theorem getu4_unit {a b c d : ℕ} (ha : a < 16) (hb : b < 16) (hc : c < 16) (hd : d < 16)
    (s : List Char) :
    getu4 ('\\' :: 'u' :: Nat.digitChar a :: Nat.digitChar b :: Nat.digitChar c ::
        Nat.digitChar d :: s) = some (((a * 16 + b) * 16 + c) * 16 + d, s) := by
  simp only [getu4, hexValue_digitChar a ha, hexValue_digitChar b hb, hexValue_digitChar c hc,
    hexValue_digitChar d hd, Option.bind_some, Option.map_some]

theorem decodeUnit_of_lt {n : ℕ} (hn : n < 0xD800) (s : List Char) :
    decodeUnit n s = (Char.ofNat n, s) :=
  if_neg (by omega)

theorem scanChar_unit {a b c d : ℕ} (ha : a < 16) (hb : b < 16) (hc : c < 16) (hd : d < 16)
    (hn : ((a * 16 + b) * 16 + c) * 16 + d < 0xD800) (s : List Char) :
    scanChar ('\\' :: 'u' :: Nat.digitChar a :: Nat.digitChar b :: Nat.digitChar c ::
        Nat.digitChar d :: s) = some (Char.ofNat (((a * 16 + b) * 16 + c) * 16 + d), s) := by
  rw [scanChar, getu4_unit ha hb hc hd]
  exact congrArg some (decodeUnit_of_lt hn s)

theorem scanChar_escape {c c' : Char} (h : unescape c = some c') (s : List Char) :
    scanChar ('\\' :: c :: s) = some (c', s) := by
  have hu : c ≠ 'u' := by
    rintro rfl
    cases h
  rw [scanChar, getu4_escape hu]
  simp [scanPlain, scanEscape, h]

theorem scanChar_plain {c : Char} (hc : c ≠ '\\') (hprint : 0x20 ≤ c.toNat) (s : List Char) :
    scanChar (c :: s) = some (c, s) := by
  rw [scanChar, getu4_of_ne hc]
  simp [scanPlain, hc, hprint]

theorem scanChar_encodeChar (c : Char) (s : List Char) :
    scanChar (encodeChar c ++ s) = some (c, s) := by
  rw [encodeChar]
  split_ifs with hquote hb hf hn hr ht hctl hsep
  · refine scanChar_escape ?_ s
    rw [unescape, if_pos (by tauto)]
  · rw [hb]
    exact scanChar_escape rfl s
  · rw [hf]
    exact scanChar_escape rfl s
  · rw [hn]
    exact scanChar_escape rfl s
  · rw [hr]
    exact scanChar_escape rfl s
  · rw [ht]
    exact scanChar_escape rfl s
  · have hsmall : c.toNat < 0x40 := by
      rcases hctl with hctl | rfl | rfl | rfl
      · omega
      all_goals decide
    have h := scanChar_unit (a := 0) (b := 0) (c := c.toNat / 16) (d := c.toNat % 16) (by omega)
      (by omega) (by omega) (by omega) (by omega) s
    have hval : ((0 * 16 + 0) * 16 + c.toNat / 16) * 16 + c.toNat % 16 = c.toNat := by omega
    rw [hval, Char.ofNat_toNat] at h
    exact h
  · rcases hsep with rfl | rfl
    · exact scanChar_unit (a := 2) (b := 0) (c := 2) (d := 8) (by omega) (by omega) (by omega)
        (by omega) (by omega) s
    · exact scanChar_unit (a := 2) (b := 0) (c := 2) (d := 9) (by omega) (by omega) (by omega)
        (by omega) (by omega) s
  · rw [not_or] at hquote hctl
    exact scanChar_plain hquote.2 (by omega) s

theorem head?_encodeChar (c : Char) (s : List Char) : (encodeChar c ++ s).head? ≠ some '"' := by
  rw [encodeChar]
  split_ifs with hquote
  all_goals try simp
  exact (not_or.mp hquote).1

/-- **A string is read back.** -/
theorem scanString_encodeChars {s : List Char} {fuel : ℕ} (hfuel : s.length < fuel)
    (rest : List Char) : scanString fuel (encodeChars s ++ rest) = some (s, rest) := by
  induction s generalizing fuel with
  | nil =>
    obtain ⟨fuel, rfl⟩ := Nat.exists_eq_add_of_lt hfuel
    rfl
  | cons c s ih =>
    obtain ⟨fuel, rfl⟩ : ∃ n, fuel = n + 1 := ⟨fuel - 1, by omega⟩
    have htext : encodeChars (c :: s) ++ rest = encodeChar c ++ (encodeChars s ++ rest) := by
      simp [encodeChars]
    rw [List.length_cons] at hfuel
    rw [htext, scanString, if_neg (head?_encodeChar c _), scanChar_encodeChar, Option.bind_some,
      ih (by omega), Option.map_some]

theorem length_le_encodeChars (s : List Char) : s.length < (encodeChars s).length := by
  induction s with
  | nil => decide
  | cons c s ih =>
    have hc : 1 ≤ (encodeChar c).length := by
      rw [encodeChar]
      split_ifs
      all_goals simp
    have htext : encodeChars (c :: s) = encodeChar c ++ encodeChars s := by simp [encodeChars]
    rw [htext, List.length_cons, List.length_append]
    omega

/-! ## Values are read back -/

/-- The beginning of the text of a value. -/
def StartsItem (close : Char) (s : List Char) : Prop :=
  ∃ c s', s = c :: s' ∧ isBlank c = false ∧ c ≠ close

section Containers

variable {α : Type*} {close : Char} {item : Reader α} {text : α → List Char}

theorem joinItems_cons (close : Char) (x : List Char) {xs : List (List Char)} (hxs : xs ≠ []) :
    joinItems close (x :: xs) = x ++ ',' :: joinItems close xs := by
  cases xs with
  | nil => exact absurd rfl hxs
  | cons y xs => rfl

theorem joinItems_prefix (close : Char) (x : List Char) (xs : List (List Char)) :
    ∃ r, joinItems close (x :: xs) = x ++ r := by
  cases xs with
  | nil => exact ⟨[close], rfl⟩
  | cons y xs => exact ⟨',' :: joinItems close (y :: xs), rfl⟩

theorem breaks_cons {c : Char} (hc : isNumeric c = false) (s : List Char) : Breaks (c :: s) := by
  intro c' h
  cases h
  exact hc

/-- Items are read back if each of them is, up to the comma or the bracket that follows it. -/
theorem scanMore_joinItems (hclose : isBlank close = false) (hnum : isNumeric close = false)
    (hcomma : close ≠ ',') {xs : List α} (hxs : xs ≠ [])
    (hitem : ∀ x ∈ xs, ∀ rest, Breaks rest → item (text x ++ rest) = some (x, rest))
    {fuel : ℕ} (hfuel : xs.length ≤ fuel) (rest : List Char) :
    scanMore close item fuel (joinItems close (xs.map text) ++ rest) = some (xs, rest) := by
  induction xs generalizing fuel with
  | nil => exact absurd rfl hxs
  | cons x xs ih =>
    rw [List.length_cons] at hfuel
    obtain ⟨fuel, rfl⟩ : ∃ n, fuel = n + 1 := ⟨fuel - 1, by omega⟩
    have hx := hitem x List.mem_cons_self
    rcases xs with _ | ⟨y, ys⟩
    · have htext : joinItems close ([x].map text) ++ rest = text x ++ close :: rest := by
        simp [joinItems]
      have hskip : skipSpace (close :: rest) = close :: rest := by
        rw [skipSpace, List.dropWhile_cons, hclose, if_neg Bool.false_ne_true]
      rw [htext, scanMore, hx _ (breaks_cons hnum rest), Option.bind_some]
      simp only [hskip, if_true]
    · have htext : joinItems close ((x :: y :: ys).map text) ++ rest
          = text x ++ ',' :: (joinItems close ((y :: ys).map text) ++ rest) := by
        rw [List.map_cons, joinItems_cons _ _ (by simp), List.append_assoc, List.cons_append]
      have hskip : ∀ r, skipSpace (',' :: r) = ',' :: r := fun r ↦ rfl
      rw [htext, scanMore, hx _ (breaks_cons rfl _), Option.bind_some]
      simp only [hskip, if_neg hcomma.symm, if_true]
      rw [ih (List.cons_ne_nil y ys) (fun z hz ↦ hitem z (List.mem_cons_of_mem x hz)) (by omega),
        Option.map_some]

theorem length_le_joinItems {xs : List (List Char)} (hxs : ∀ x ∈ xs, x ≠ []) :
    xs.length ≤ (joinItems close xs).length := by
  induction xs with
  | nil => simp
  | cons x xs ih =>
    have hx : 1 ≤ x.length := List.length_pos_iff.mpr (hxs x List.mem_cons_self)
    have ih := ih fun y hy ↦ hxs y (List.mem_cons_of_mem x hy)
    rcases xs with _ | ⟨y, ys⟩
    · simp [joinItems]
    · rw [joinItems_cons _ _ (List.cons_ne_nil y ys)]
      simp only [List.length_cons, List.length_append] at ih ⊢
      omega

/-- **Items are read back.** -/
theorem scanItems_joinItems (hclose : isBlank close = false) (hnum : isNumeric close = false)
    (hcomma : close ≠ ',') {xs : List α} (hstart : ∀ x ∈ xs, StartsItem close (text x))
    (hitem : ∀ x ∈ xs, ∀ rest, Breaks rest → item (text x ++ rest) = some (x, rest))
    (rest : List Char) :
    scanItems close item (joinItems close (xs.map text) ++ rest) = some (xs, rest) := by
  rcases xs with _ | ⟨x, xs⟩
  · have hskip : skipSpace (close :: rest) = close :: rest := by
      rw [skipSpace, List.dropWhile_cons, hclose, if_neg Bool.false_ne_true]
    rw [scanItems, List.map_nil, joinItems, List.singleton_append, hskip]
    exact if_pos rfl
  · obtain ⟨c, s', hx, hblank, hne⟩ := hstart x List.mem_cons_self
    obtain ⟨r, hr⟩ : ∃ r, joinItems close ((x :: xs).map text) ++ rest = c :: r := by
      obtain ⟨r, hr⟩ := joinItems_prefix close (text x) (xs.map text)
      rw [List.map_cons, hr, hx]
      exact ⟨s' ++ r ++ rest, rfl⟩
    have hskip : skipSpace (c :: r) = c :: r := by
      rw [skipSpace, List.dropWhile_cons, hblank, if_neg Bool.false_ne_true]
    have hlen : (x :: xs).length ≤ (joinItems close ((x :: xs).map text) ++ rest).length := by
      have hlen : ((x :: xs).map text).length ≤ (joinItems close ((x :: xs).map text)).length := by
        refine length_le_joinItems fun y hy ↦ ?_
        obtain ⟨z, hz, rfl⟩ := List.mem_map.mp hy
        obtain ⟨c', s'', hz', -⟩ := hstart z hz
        rw [hz']
        exact List.cons_ne_nil _ _
      rw [List.length_map] at hlen
      rw [List.length_append]
      omega
    rw [scanItems, hr, hskip]
    simp only [if_neg hne]
    rw [← hr]
    exact scanMore_joinItems hclose hnum hcomma (List.cons_ne_nil x xs) hitem hlen rest

end Containers

theorem scanWord_self (word : List Char) (v : Value) (rest : List Char) :
    scanWord word v (word ++ rest) = some (v, rest) := by
  rw [scanWord, if_pos (List.prefix_append word rest), List.drop_left]

theorem head_of_scanNumber {s : List Char} {p : List Char × List Char}
    (h : scanNumber s = some p) : ∃ c s', s = c :: s' ∧ (c = '-' ∨ c.isDigit = true) := by
  rcases s with _ | ⟨c, s⟩
  · cases h
  · refine ⟨c, s, rfl, ?_⟩
    by_contra hc
    obtain ⟨hsign, hdigit⟩ := not_or.mp hc
    have hopt : scanOptional ['-'] (c :: s) = some ([], c :: s) := if_neg (by simpa using hsign)
    have hzero : c ≠ '0' := by
      rintro rfl
      exact hdigit rfl
    have hint : scanIntegral (c :: s) = none := by
      have hempty : (c :: s).takeWhile Char.isDigit = [] := by
        rw [List.takeWhile_cons, if_neg hdigit]
      rw [scanIntegral, if_neg hzero, scanDigits, if_pos hempty]
    rw [scanNumber, andThen, hopt, Option.bind_some, andThen, hint] at h
    cases h

theorem exists_head_scalar {v : Value} (h : v.Fits 0) :
    ∃ c s, v.encode = c :: s ∧ isBlank c = false ∧ c ∉ ['[', ']', '\x7b', '\x7d'] := by
  rcases v with _ | b | literal | s | vs | ms
  · exact ⟨_, _, rfl, by decide⟩
  · cases b
    · exact ⟨_, _, rfl, by decide⟩
    · exact ⟨_, _, rfl, by decide⟩
  · obtain ⟨c, s, rfl, hc⟩ := head_of_scanNumber h
    refine ⟨c, s, rfl, ?_⟩
    rcases hc with rfl | hc
    · decide
    · have hne : ∀ c', c'.isDigit = false → c ≠ c' := by
        rintro c' hc' rfl
        rw [hc] at hc'
        cases hc'
      simp [isBlank, hne]
  · exact ⟨_, _, by rw [Value.encode], by decide⟩
  · exact h.elim
  · exact h.elim

theorem scanScalar_str (s rest : List Char) :
    scanScalar ('"' :: encodeChars s ++ rest) = some (.str s, rest) := by
  have hfuel : s.length < ('"' :: encodeChars s ++ rest).length := by
    have := length_le_encodeChars s
    simp only [List.length_cons, List.length_append]
    omega
  have hstr := scanString_encodeChars hfuel rest
  rw [List.cons_append] at hstr ⊢
  simp only [scanScalar, List.head?_cons, List.tail_cons, if_true, hstr, Option.map_some]

theorem scanScalar_num {literal rest : List Char} (h : scanNumber literal = some (literal, []))
    (hrest : Breaks rest) : scanScalar (literal ++ rest) = some (.num literal, rest) := by
  obtain ⟨c, s, rfl, hc⟩ := head_of_scanNumber h
  have hne : ∀ c', c' ≠ '-' → c'.isDigit = false → (c :: s ++ rest).head? ≠ some c' := by
    rintro c' hsign hdigit heq
    cases heq
    rcases hc with rfl | hc
    · exact hsign rfl
    · rw [hdigit] at hc
      cases hc
  rw [scanScalar, if_neg (hne _ (by decide) rfl), if_neg (hne _ (by decide) rfl),
    if_neg (hne _ (by decide) rfl), if_neg (hne _ (by decide) rfl),
    local_scanNumber h rest fun _ ↦ hrest, Option.map_some, List.nil_append]

theorem scanScalar_encode {v : Value} (h : v.Fits 0) {rest : List Char} (hrest : Breaks rest) :
    scanScalar (v.encode ++ rest) = some (v, rest) := by
  rcases v with _ | b | literal | s | vs | ms
  · have hhead : (Value.null.encode ++ rest).head? = some 'n' := rfl
    rw [scanScalar, hhead, if_neg (by decide), if_neg (by decide), if_neg (by decide), if_pos rfl]
    exact scanWord_self _ _ rest
  · cases b
    · have hhead : ((Value.bool false).encode ++ rest).head? = some 'f' := rfl
      rw [scanScalar, hhead, if_neg (by decide), if_neg (by decide), if_pos rfl]
      exact scanWord_self _ _ rest
    · have hhead : ((Value.bool true).encode ++ rest).head? = some 't' := rfl
      rw [scanScalar, hhead, if_neg (by decide), if_pos rfl]
      exact scanWord_self _ _ rest
  · exact scanScalar_num h hrest
  · exact scanScalar_str s rest
  · exact h.elim
  · exact h.elim

theorem scanWith_scalar {inner : Option (Reader Value)} {v : Value} (h : v.Fits 0)
    {rest : List Char} (hrest : Breaks rest) :
    scanWith inner (v.encode ++ rest) = some (v, rest) := by
  obtain ⟨c, s, hhead, hblank, hc⟩ := exists_head_scalar h
  have hskip : skipSpace (v.encode ++ rest) = c :: (s ++ rest) := by
    rw [hhead, List.cons_append, skipSpace, List.dropWhile_cons, hblank,
      if_neg Bool.false_ne_true]
  rw [scanWith_of_skipSpace hskip, if_neg (by simp_all), ← List.cons_append, ← hhead,
    scanScalar_encode h hrest]

theorem scanMember_encodeMember {value : Reader Value} {m : List Char × Value}
    (hvalue : ∀ rest, Breaks rest → value (m.2.encode ++ rest) = some (m.2, rest))
    {rest : List Char} (hrest : Breaks rest) :
    scanMember value (encodeMember m ++ rest) = some (m, rest) := by
  have htext : encodeMember m ++ rest
      = '"' :: (encodeChars m.1 ++ ':' :: (m.2.encode ++ rest)) := by
    simp [encodeMember]
  have hskip : ∀ r, skipSpace ('"' :: r) = '"' :: r := fun r ↦ rfl
  have hskip' : ∀ r, skipSpace (':' :: r) = ':' :: r := fun r ↦ rfl
  have hfuel : m.1.length < ('"' :: (encodeChars m.1 ++ ':' :: (m.2.encode ++ rest))).length := by
    have := length_le_encodeChars m.1
    simp only [List.length_cons, List.length_append]
    omega
  simp only [htext, scanMember, hskip, hskip', List.head?_cons, List.tail_cons, if_true,
    scanString_encodeChars hfuel, Option.bind_some, hvalue rest hrest, Option.map_some]

/-- A value that has a text is a scalar or a container of such values. -/
theorem Value.Fits.cases {depth : ℕ} {v : Value} (h : v.Fits depth) :
    v.Fits 0
      ∨ (∃ d vs, depth = d + 1 ∧ v = .arr vs ∧ ∀ x ∈ vs, x.Fits d)
      ∨ ∃ d ms, depth = d + 1 ∧ v = .obj ms ∧ ∀ m ∈ ms, m.2.Fits d := by
  cases depth with
  | zero => exact .inl h
  | succ d =>
    rcases v with _ | b | literal | s | vs | ms
    · exact .inl h
    · exact .inl h
    · exact .inl h
    · exact .inl h
    · exact .inr (.inl ⟨d, vs, rfl, rfl, h⟩)
    · exact .inr (.inr ⟨d, ms, rfl, rfl, h⟩)

theorem startsItem_encode {depth : ℕ} {v : Value} (h : v.Fits depth) : StartsItem ']' v.encode := by
  rcases h.cases with h | ⟨d, vs, -, rfl, -⟩ | ⟨d, ms, -, rfl, -⟩
  · obtain ⟨c, s, hhead, hblank, hc⟩ := exists_head_scalar h
    refine ⟨c, s, hhead, hblank, ?_⟩
    rintro rfl
    exact hc (by decide)
  · exact ⟨_, _, by rw [Value.encode], by decide, by decide⟩
  · exact ⟨_, _, by rw [Value.encode], by decide, by decide⟩

/-- **A value is read back**, up to where its text ends. -/
theorem scanValue_encode {depth : ℕ} {v : Value} (h : v.Fits depth) {rest : List Char}
    (hrest : Breaks rest) : scanValue depth (v.encode ++ rest) = some (v, rest) := by
  -- the induction is on the depth, which bounds that of the elements
  induction depth generalizing v rest with
  | zero => exact scanWith_scalar h hrest
  | succ depth ih =>
    rcases h.cases with h | ⟨d, vs, hd, rfl, hvs⟩ | ⟨d, ms, hd, rfl, hms⟩
    · exact scanWith_scalar h hrest
    · cases hd
      have hitems := scanItems_joinItems (show isBlank ']' = false from rfl) rfl (by decide)
        (fun v hv ↦ startsItem_encode (hvs v hv)) (fun v hv r hr ↦ ih (hvs v hv) hr) rest
      rw [scanValue, Value.encode, encodeElements_eq, List.cons_append,
        scanWith_of_skipSpace rfl, if_pos (.inl rfl), Option.bind_some, scanContainer, if_pos rfl,
        hitems, Option.map_some]
    · cases hd
      have hstart : ∀ m ∈ ms, StartsItem '\x7d' (encodeMember m) :=
        fun m _ ↦ ⟨'"', _, rfl, rfl, by decide⟩
      have hitems := scanItems_joinItems rfl rfl (by decide) hstart
        (fun m hm r hr ↦ scanMember_encodeMember (fun r hr ↦ ih (hms m hm) hr) hr) rest
      rw [scanValue, Value.encode, encodeMembers_eq, List.cons_append,
        scanWith_of_skipSpace rfl, if_pos (.inr rfl), Option.bind_some, scanContainer,
        if_neg (by decide), hitems, Option.map_some]

theorem breaks_nil : Breaks [] := by
  intro c h
  cases h

/-- **What is written is read back**, also when blank text follows. -/
theorem parse_encode {v : Value} (h : v.Fits maxNestingDepth) {rest : List Char}
    (hbreaks : Breaks rest) (hblank : skipSpace rest = []) :
    parse (v.encode ++ rest) = some v := by
  rw [parse, scanValue_encode h hbreaks, Option.bind_some]
  exact if_pos hblank

/-! ## What is written is printable -/

/-- Text without control characters. -/
def Printable (s : List Char) : Prop := ∀ c ∈ s, 0x20 ≤ c.toNat

theorem Printable.append {s t : List Char} (hs : Printable s) (ht : Printable t) :
    Printable (s ++ t) := by
  intro c hc
  rcases List.mem_append.mp hc with hc | hc
  · exact hs c hc
  · exact ht c hc

theorem printable_singleton {c : Char} (hc : 0x20 ≤ c.toNat) : Printable [c] := by
  intro x hx
  rw [List.mem_singleton.mp hx]
  exact hc

theorem printable_digitChar : ∀ n < 16, 0x20 ≤ (Nat.digitChar n).toNat := by decide

theorem printable_encodeChar (c : Char) : Printable (encodeChar c) := by
  intro x hx
  rw [encodeChar] at hx
  split_ifs at hx with hquote hb hf hn hr ht hctl hsep
  case neg =>
    rw [List.mem_singleton.mp hx]
    omega
  all_goals
    simp only [List.mem_cons, List.not_mem_nil, or_false] at hx
  · rcases hx with rfl | rfl
    · decide
    · rcases hquote with rfl | rfl <;> decide
  iterate 5
    · rcases hx with rfl | rfl <;> decide
  · rcases hx with rfl | rfl | rfl | rfl | rfl | rfl
    iterate 4 decide
    · refine printable_digitChar _ ?_
      rcases hctl with hctl | rfl | rfl | rfl
      · omega
      all_goals decide
    · exact printable_digitChar _ (Nat.mod_lt _ (by decide))
  · rcases hx with rfl | rfl | rfl | rfl | rfl | rfl
    iterate 5 decide
    exact printable_digitChar _ (Nat.mod_lt _ (by decide))

theorem printable_encodeChars (s : List Char) : Printable (encodeChars s) := by
  refine Printable.append (fun x hx ↦ ?_) (printable_singleton (by decide))
  obtain ⟨c, -, hx⟩ := List.mem_flatMap.mp hx
  exact printable_encodeChar c x hx

theorem printable_joinItems {close : Char} (hclose : 0x20 ≤ close.toNat) {xs : List (List Char)}
    (hxs : ∀ x ∈ xs, Printable x) : Printable (joinItems close xs) := by
  induction xs with
  | nil => exact printable_singleton hclose
  | cons x xs ih =>
    have hx := hxs x List.mem_cons_self
    rcases xs with _ | ⟨y, ys⟩
    · exact hx.append (printable_singleton hclose)
    · rw [joinItems_cons _ _ (List.cons_ne_nil y ys), ← List.singleton_append]
      exact hx.append ((printable_singleton (by decide)).append
        (ih fun z hz ↦ hxs z (List.mem_cons_of_mem x hz)))

/-- A reader of numbers splits the text. -/
def Splits (p : Reader (List Char)) : Prop :=
  ∀ ⦃s a r⦄, p s = some (a, r) → s = a ++ r ∧ ∀ c ∈ a, isNumeric c = true

theorem Splits.andThen {p q : Reader (List Char)} (hp : Splits p) (hq : Splits q) :
    Splits (andThen p q) := by
  intro s a r h
  obtain ⟨⟨x, r₁⟩, hx, h⟩ := Option.bind_eq_some_iff.mp h
  obtain ⟨⟨y, r₂⟩, hy, h⟩ := Option.map_eq_some_iff.mp h
  cases h
  obtain ⟨rfl, hxnum⟩ := hp hx
  obtain ⟨rfl, hynum⟩ := hq hy
  refine ⟨(List.append_assoc _ _ _).symm, fun c hc ↦ ?_⟩
  rcases List.mem_append.mp hc with hc | hc
  · exact hxnum c hc
  · exact hynum c hc

theorem splits_scanDigits : Splits scanDigits := by
  intro s a r h
  rw [scanDigits] at h
  split_ifs at h
  cases h
  refine ⟨List.takeWhile_append_dropWhile.symm, fun c hc ↦ ?_⟩
  rw [isNumeric, List.all_eq_true.mp List.all_takeWhile c hc, Bool.true_or]

theorem splits_scanOptional {cs : List Char} (hcs : ∀ c ∈ cs, isNumeric c = true) :
    Splits (scanOptional cs) := by
  intro s a r h
  cases s with
  | nil =>
    cases h
    exact ⟨rfl, by simp⟩
  | cons c s =>
    rw [scanOptional] at h
    split_ifs at h with hc
    · cases h
      exact ⟨rfl, by simpa using hcs c hc⟩
    · cases h
      exact ⟨rfl, by simp⟩

theorem splits_scanIntegral : Splits scanIntegral := by
  intro s a r h
  cases s with
  | nil => cases h
  | cons c s =>
    rw [scanIntegral] at h
    split_ifs at h with hc
    · cases h
      refine ⟨rfl, fun x hx ↦ ?_⟩
      rw [List.mem_singleton.mp hx, hc]
      rfl
    · exact splits_scanDigits h

theorem splits_scanMarked {marks signs : List Char} (hmarks : ∀ c ∈ marks, isNumeric c = true)
    (hsigns : ∀ c ∈ signs, isNumeric c = true) : Splits (scanMarked marks signs) := by
  intro s a r h
  cases s with
  | nil =>
    cases h
    exact ⟨rfl, by simp⟩
  | cons c s =>
    rw [scanMarked] at h
    split_ifs at h with hc
    · obtain ⟨⟨x, r'⟩, hx, h⟩ := Option.map_eq_some_iff.mp h
      cases h
      obtain ⟨rfl, hnum⟩ := (splits_scanOptional hsigns).andThen splits_scanDigits hx
      exact ⟨rfl, List.forall_mem_cons.mpr ⟨hmarks c hc, hnum⟩⟩
    · cases h
      exact ⟨rfl, by simp⟩

theorem splits_scanNumber : Splits scanNumber :=
  (splits_scanOptional (List.all_eq_true.mp rfl)).andThen (splits_scanIntegral.andThen
    ((splits_scanMarked (List.all_eq_true.mp rfl) (List.all_eq_true.mp rfl)).andThen
      (splits_scanMarked (List.all_eq_true.mp rfl) (List.all_eq_true.mp rfl))))

theorem printable_of_all {s : List Char} (h : s.all (fun c ↦ decide (0x20 ≤ c.toNat)) = true) :
    Printable s :=
  fun c hc ↦ of_decide_eq_true (List.all_eq_true.mp h c hc)

theorem printable_of_isNumeric {c : Char} (h : isNumeric c = true) : 0x20 ≤ c.toNat := by
  rcases Bool.or_eq_true_iff.mp h with hdigit | hmark
  · have hle : '0'.toNat ≤ c.toNat := by
      rw [Char.isDigit, Bool.and_eq_true, decide_eq_true_iff] at hdigit
      exact hdigit.1
    exact le_trans (by decide) hle
  · have hmem : c ∈ ['.', 'e', 'E', '+', '-'] := of_decide_eq_true hmark
    exact printable_of_all rfl c hmem

theorem printable_scalar {v : Value} (h : v.Fits 0) : Printable v.encode := by
  rcases v with _ | b | literal | s | vs | ms
  · exact printable_of_all (s := "null".toList) rfl
  · cases b
    · exact printable_of_all (s := "false".toList) rfl
    · exact printable_of_all (s := "true".toList) rfl
  · exact fun c hc ↦ printable_of_isNumeric ((splits_scanNumber h).2 c hc)
  · exact (printable_singleton (by decide)).append (printable_encodeChars s)
  · exact h.elim
  · exact h.elim

/-- **No control character is written.** -/
theorem printable_encode {depth : ℕ} {v : Value} (h : v.Fits depth) : Printable v.encode := by
  induction depth generalizing v with
  | zero => exact printable_scalar h
  | succ depth ih =>
    rcases h.cases with h | ⟨d, vs, hd, rfl, hvs⟩ | ⟨d, ms, hd, rfl, hms⟩
    · exact printable_scalar h
    · cases hd
      rw [Value.encode, encodeElements_eq, ← List.singleton_append]
      refine (printable_singleton (by decide)).append (printable_joinItems (by decide) ?_)
      intro x hx
      obtain ⟨v, hv, rfl⟩ := List.mem_map.mp hx
      exact ih (hvs v hv)
    · cases hd
      rw [Value.encode, encodeMembers_eq, ← List.singleton_append]
      refine (printable_singleton (by decide)).append (printable_joinItems (by decide) ?_)
      intro x hx
      obtain ⟨m, hm, rfl⟩ := List.mem_map.mp hx
      rw [encodeMember, ← List.singleton_append, ← List.singleton_append (l := m.2.encode)]
      exact ((printable_singleton (by decide)).append (printable_encodeChars m.1)).append
        ((printable_singleton (by decide)).append (ih (hms m hm)))

end Json

end Go
