import Mathlib.Data.List.TakeWhile
import TaskDiscovery.Go.Json.RoundTrip

/-!
# JSON objects that are cut off

A buffer may be too short for a text, and may end inside of a character. No beginning of an object
is read (`parse_cut`): by locality the object would end there in the whole text as well, which is
read to its last character.
-/

namespace Go

namespace Json

/-- What a reader leaves is the end of what it was given. -/
def Consumes {α : Type*} (p : Reader α) : Prop := ∀ ⦃s a r⦄, p s = some (a, r) → r <:+ s

theorem consumes_getu4 : Consumes getu4 := by
  intro s n r h
  rw [getu4.eq_def] at h
  split at h
  · rename_i a b c d s
    obtain ⟨a', ha, h⟩ := Option.bind_eq_some_iff.mp h
    obtain ⟨b', hb, h⟩ := Option.bind_eq_some_iff.mp h
    obtain ⟨c', hc, h⟩ := Option.bind_eq_some_iff.mp h
    obtain ⟨d', hd, h⟩ := Option.map_eq_some_iff.mp h
    cases h
    exact ⟨['\\', 'u', a, b, c, d], rfl⟩
  · cases h

theorem decodeUnit_suffix (n : ℕ) (s : List Char) : (decodeUnit n s).2 <:+ s := by
  rw [decodeUnit]
  split_ifs
  · rcases h : getu4 s with _ | ⟨m, r⟩
    · exact List.suffix_refl s
    · by_cases hpair : n < 0xDC00 ∧ 0xDC00 ≤ m ∧ m < 0xE000
      · simp only [if_pos hpair]
        exact consumes_getu4 h
      · simp only [if_neg hpair]
        exact List.suffix_refl s
  · exact List.suffix_refl s

theorem consumes_scanPlain : Consumes scanPlain := by
  intro s a r h
  cases s with
  | nil => cases h
  | cons c s =>
    rw [scanPlain] at h
    split_ifs at h
    · cases s with
      | nil => cases h
      | cons c' s =>
        obtain ⟨x, -, h⟩ := Option.map_eq_some_iff.mp h
        cases h
        exact ⟨[c, c'], rfl⟩
    · cases h
      exact List.suffix_cons _ _

theorem consumes_scanChar : Consumes scanChar := by
  intro s a r h
  rw [scanChar] at h
  rcases hu : getu4 s with _ | ⟨n, s'⟩
  · rw [hu] at h
    exact consumes_scanPlain h
  · rw [hu] at h
    have hc : decodeUnit n s' = (a, r) := Option.some.inj h
    have hr := decodeUnit_suffix n s'
    rw [hc] at hr
    exact hr.trans (consumes_getu4 hu)

theorem consumes_scanString (fuel : ℕ) : Consumes (scanString fuel) := by
  induction fuel with
  | zero =>
    intro s a r h
    cases h
  | succ fuel ih =>
    intro s a r h
    rw [scanString] at h
    split_ifs at h
    · cases h
      exact List.tail_suffix s
    · obtain ⟨⟨c, s'⟩, hc, h⟩ := Option.bind_eq_some_iff.mp h
      obtain ⟨⟨x, r'⟩, hx, h⟩ := Option.map_eq_some_iff.mp h
      cases h
      exact (ih hx).trans (consumes_scanChar hc)

theorem consumes_scanWord (word : List Char) (v : Value) : Consumes (scanWord word v) := by
  intro s a r h
  rw [scanWord] at h
  split_ifs at h
  cases h
  exact List.drop_suffix _ s

theorem consumes_scanScalar : Consumes scanScalar := by
  intro s a r h
  rw [scanScalar] at h
  split_ifs at h
  · obtain ⟨⟨x, r'⟩, hx, h⟩ := Option.map_eq_some_iff.mp h
    cases h
    exact (consumes_scanString _ hx).trans (List.tail_suffix s)
  · exact consumes_scanWord _ _ h
  · exact consumes_scanWord _ _ h
  · exact consumes_scanWord _ _ h
  · obtain ⟨⟨x, r'⟩, hx, h⟩ := Option.map_eq_some_iff.mp h
    cases h
    exact ⟨x, ((splits_scanNumber hx).1).symm⟩

theorem skipSpace_suffix (s : List Char) : skipSpace s <:+ s := List.dropWhile_suffix _

section Containers

variable {α : Type*} {close : Char} {item : Reader α}

/-- The last character that is consumed closes the container. -/
theorem scanMore_suffix (hitem : Consumes item) {fuel : ℕ} {s r : List Char} {xs : List α}
    (h : scanMore close item fuel s = some (xs, r)) : close :: r <:+ s := by
  induction fuel generalizing s xs with
  | zero => cases h
  | succ fuel ih =>
    obtain ⟨⟨a, r₁⟩, ha, h⟩ := Option.bind_eq_some_iff.mp h
    rcases hr : skipSpace r₁ with _ | ⟨c, r₂⟩
    · rw [hr] at h
      cases h
    · rw [hr] at h
      have hsuffix : c :: r₂ <:+ s := hr ▸ (skipSpace_suffix r₁).trans (hitem ha)
      simp only at h
      split_ifs at h with hc
      · cases h
        rw [← hc]
        exact hsuffix
      · obtain ⟨⟨ys, r₃⟩, hys, h⟩ := Option.map_eq_some_iff.mp h
        cases h
        exact (ih hys).trans ((List.suffix_cons c r₂).trans hsuffix)

theorem scanItems_suffix (hitem : Consumes item) {s r : List Char} {xs : List α}
    (h : scanItems close item s = some (xs, r)) : close :: r <:+ s := by
  rw [scanItems] at h
  rcases hs : skipSpace s with _ | ⟨c, s'⟩
  · rw [hs] at h
    cases h
  · rw [hs] at h
    simp only at h
    split_ifs at h with hc
    · cases h
      rw [← hc, ← hs]
      exact skipSpace_suffix s
    · exact scanMore_suffix hitem h

end Containers

theorem Consumes.scanMember {value : Reader Value} (hvalue : Consumes value) :
    Consumes (scanMember value) := by
  intro s m r h
  rw [Json.scanMember] at h
  split_ifs at h
  obtain ⟨⟨key, r₁⟩, hkey, h⟩ := Option.bind_eq_some_iff.mp h
  split_ifs at h
  obtain ⟨⟨v, r₂⟩, hv, h⟩ := Option.map_eq_some_iff.mp h
  cases h
  have hkey' : r₁ <:+ s :=
    (consumes_scanString _ hkey).trans ((List.tail_suffix _).trans (skipSpace_suffix s))
  exact (hvalue hv).trans ((List.tail_suffix _).trans ((skipSpace_suffix r₁).trans hkey'))

theorem Consumes.scanContainer {value : Reader Value} (hvalue : Consumes value) {bracket : Char}
    {s r : List Char} {v : Value} (h : scanContainer value bracket s = some (v, r)) :
    ∃ close, (close = ']' ∨ close = '\x7d') ∧ close :: r <:+ s := by
  rw [Json.scanContainer] at h
  split_ifs at h
  · obtain ⟨⟨vs, r'⟩, hvs, h⟩ := Option.map_eq_some_iff.mp h
    cases h
    exact ⟨']', .inl rfl, scanItems_suffix hvalue hvs⟩
  · obtain ⟨⟨ms, r'⟩, hms, h⟩ := Option.map_eq_some_iff.mp h
    cases h
    exact ⟨'\x7d', .inr rfl, scanItems_suffix hvalue.scanMember hms⟩

theorem consumes_scanWith {inner : Option (Reader Value)}
    (hinner : ∀ value ∈ inner, Consumes value) : Consumes (scanWith inner) := by
  intro s v r h
  rcases hs : skipSpace s with _ | ⟨c, s'⟩
  · rw [scanWith, hs] at h
    cases h
  · have hsuffix : c :: s' <:+ s := hs ▸ skipSpace_suffix s
    rw [scanWith_of_skipSpace hs] at h
    split_ifs at h
    · obtain ⟨value, hvalue, h⟩ := Option.bind_eq_some_iff.mp h
      obtain ⟨close, -, hclose⟩ := (hinner value hvalue).scanContainer h
      exact (List.suffix_cons close r).trans
        (hclose.trans ((List.suffix_cons c s').trans hsuffix))
    · exact (consumes_scanScalar h).trans hsuffix

theorem consumes_scanValue (depth : ℕ) : Consumes (scanValue depth) := by
  induction depth with
  | zero => exact consumes_scanWith fun value h ↦ absurd h (Option.not_mem_none value)
  | succ depth ih =>
    refine consumes_scanWith fun value h ↦ ?_
    rw [← Option.mem_some_iff.mp h]
    exact ih

theorem scanValue_object {depth : ℕ} {s r : List Char} {v : Value}
    (h : scanValue depth ('\x7b' :: s) = some (v, r)) :
    (∀ t, scanValue depth ('\x7b' :: s ++ t) = some (v, r ++ t))
      ∧ ∃ close, (close = ']' ∨ close = '\x7d') ∧ close :: r <:+ s := by
  cases depth with
  | zero => cases h
  | succ depth =>
    have hopen : ∀ t, scanValue (depth + 1) ('\x7b' :: t)
        = scanContainer (scanValue depth) '\x7b' t := fun t ↦ rfl
    rw [hopen] at h
    refine ⟨fun t ↦ ?_, (consumes_scanValue depth).scanContainer h⟩
    rw [List.cons_append, hopen]
    exact (local_scanValue depth).scanContainer h t

/-- What is left of a character whose bytes are cut off: each of them is read as U+FFFD. -/
def Broken (s : List Char) : Prop := ∀ c ∈ s, c = '\ufffd'

theorem scanWith_broken {inner : Option (Reader Value)} {s : List Char} (hs : Broken s) :
    scanWith inner s = none := by
  rcases s with _ | ⟨c, s⟩
  · rfl
  · obtain rfl : c = '\ufffd' := hs c List.mem_cons_self
    have hnum : scanNumber ('\ufffd' :: s) = none := by
      by_contra hne
      obtain ⟨p, hp⟩ := Option.ne_none_iff_exists'.mp hne
      obtain ⟨c, s', hc, hsign⟩ := head_of_scanNumber hp
      cases hc
      rcases hsign with hsign | hdigit
      · exact absurd hsign (by decide)
      · cases hdigit
    rw [scanWith_of_skipSpace rfl, if_neg (by decide), scanScalar, List.head?_cons,
      if_neg (by decide), if_neg (by decide), if_neg (by decide), if_neg (by decide), hnum,
      Option.map_none]

theorem scanValue_broken (depth : ℕ) {s : List Char} (hs : Broken s) :
    scanValue depth s = none := by
  cases depth with
  | zero => exact scanWith_broken hs
  | succ depth => exact scanWith_broken hs

theorem not_mem_of_skipSpace {r : List Char} (h : skipSpace r = []) : '\ufffd' ∉ r := by
  intro hmem
  rw [skipSpace, List.dropWhile_eq_nil_iff] at h
  exact absurd (h _ hmem) (by decide)

/-- **An object that is cut off is not read**, even if it is cut inside of a character. -/
theorem parse_cut {ms : List (List Char × Value)} (h : (Value.obj ms).Fits maxNestingDepth)
    {p q broken : List Char} (htext : (Value.obj ms).encode = p ++ q) (hq : q ≠ [])
    (hbroken : Broken broken) : parse (p ++ broken) = none := by
  by_contra hsome
  obtain ⟨v, hv⟩ := Option.ne_none_iff_exists'.mp hsome
  obtain ⟨⟨v, r⟩, hscan, hblank⟩ := Option.bind_eq_some_iff.mp hv
  split_ifs at hblank with hskip
  rcases p with _ | ⟨c, p⟩
  · rw [List.nil_append, scanValue_broken _ hbroken] at hscan
    cases hscan
  obtain rfl : c = '\x7b' := by
    rw [Value.encode, List.cons_append] at htext
    exact (List.cons.inj htext).1.symm
  obtain ⟨happend, close, hclose, x, hx⟩ := scanValue_object hscan
  rcases List.eq_nil_or_concat broken with rfl | ⟨b, z, rfl⟩
  · -- the object would end where the whole text still goes on
    have hwhole := scanValue_encode h breaks_nil
    have hcut : scanValue maxNestingDepth ('\x7b' :: p ++ q) = some (v, r ++ q) := by
      have happend := happend q
      rwa [List.append_eq, List.append_nil] at happend
    rw [List.append_nil, htext, hcut] at hwhole
    exact hq (List.append_eq_nil_iff.mp (Prod.ext_iff.mp (Option.some.inj hwhole)).2).2
  · -- the last character would be the closing bracket or a blank
    have hz : z = '\ufffd' := hbroken z (by simp)
    have hlast : (close :: r).getLast? = some z := by
      have hlast := congrArg List.getLast? hx
      simpa [List.getLast?_append] using hlast
    rcases List.mem_cons.mp (List.mem_of_getLast? hlast) with hzc | hzr
    · rw [hz] at hzc
      rcases hclose with rfl | rfl <;> cases hzc
    · exact not_mem_of_skipSpace hskip (hz ▸ hzr)

end Json

end Go
