import Mathlib.Algebra.Ring.Int.Defs
import TaskDiscovery.Go.Json.Truncation

/-!
# Records as JSON objects

A Go structure with tags describes how its values are written and how they are read. `JsonField` is
such a description of one field: its name, what is written for it, and how a value found under its
name is stored. `marshal` and `unmarshal` go through a list of them.

The reader is more liberal than the writer. Members may come in any order and more than once, names
are compared up to case when no field has the very name, members that belong to no field are
skipped, and `null` leaves a field as it is. What the writer writes is read back field by field
(`unmarshal_marshal`), and a beginning of it is not read at all (`unmarshal_cut`).
-/

namespace Go

namespace Json

/-! ## Integers -/

/-- A number in decimal digits. -/
def parseUint (s : List Char) : Option ℕ :=
  if s ≠ [] ∧ s.all Char.isDigit then some (Nat.ofDigitChars 10 s 0) else none

/-- `strconv.ParseInt`, base 10, for 64 bits. -/
def parseInt (s : List Char) : Option Int64 :=
  if s.head? = some '-' then
    (parseUint s.tail).bind fun n ↦ if n ≤ 2 ^ 63 then some (Int64.ofInt (-n)) else none
  else
    (parseUint (if s.head? = some '+' then s.tail else s)).bind fun n ↦
      if n < 2 ^ 63 then some (Int64.ofInt n) else none

/-- `strconv.AppendInt`, base 10. -/
def formatInt (i : Int64) : List Char :=
  if i.toInt < 0 then '-' :: Nat.toDigits 10 i.toInt.natAbs else Nat.toDigits 10 i.toInt.natAbs

theorem isDigit_of_mem {n : ℕ} {c : Char} (hc : c ∈ Nat.toDigits 10 n) : c.isDigit = true :=
  Nat.isDigit_of_mem_toDigits (by decide) (by decide) hc

theorem parseUint_toDigits (n : ℕ) : parseUint (Nat.toDigits 10 n) = some n := by
  rw [parseUint, if_pos ⟨Nat.toDigits_ne_nil, List.all_eq_true.mpr fun c hc ↦ isDigit_of_mem hc⟩,
    Nat.ofDigitChars_toDigits (by decide) (by decide)]

theorem head?_toDigits {n : ℕ} {c : Char} (hc : c.isDigit = false) :
    (Nat.toDigits 10 n).head? ≠ some c := by
  intro h
  have hdigit := isDigit_of_mem (List.mem_of_head? h)
  rw [hc] at hdigit
  cases hdigit

theorem parseInt_formatInt (i : Int64) : parseInt (formatInt i) = some i := by
  have hlow := i.le_toInt
  have hhigh := i.toInt_lt
  rw [formatInt]
  by_cases hneg : i.toInt < 0
  · have habs : -(i.toInt.natAbs : ℤ) = i.toInt := by omega
    rw [if_pos hneg, parseInt, if_pos (List.head?_cons ..), List.tail_cons, parseUint_toDigits,
      Option.bind_some, if_pos (by omega), habs, Int64.ofInt_toInt]
  · have habs : (i.toInt.natAbs : ℤ) = i.toInt := by omega
    rw [if_neg hneg, parseInt, if_neg (head?_toDigits (by decide)),
      if_neg (head?_toDigits (by decide)), parseUint_toDigits, Option.bind_some,
      if_pos (by omega), habs, Int64.ofInt_toInt]

theorem digitChar_zero : ∀ n < 10, Nat.digitChar n = '0' → n = 0 := by decide

theorem eq_zero_of_head? {n : ℕ} (h : (Nat.toDigits 10 n).head? = some '0') : n = 0 := by
  induction n using Nat.strong_induction_on with
  | _ n ih =>
    rw [Nat.toDigits_eq_if (by decide)] at h
    by_cases hn : n < 10
    · rw [if_pos hn] at h
      have hdigit := Option.some.inj h
      exact digitChar_zero n hn hdigit
    · rw [if_neg hn, List.head?_append_of_ne_nil _ Nat.toDigits_ne_nil] at h
      have hquot := ih (n / 10) (by omega) h
      omega

theorem scanIntegral_toDigits (n : ℕ) :
    scanIntegral (Nat.toDigits 10 n) = some (Nat.toDigits 10 n, []) := by
  rcases hds : Nat.toDigits 10 n with _ | ⟨c, ds⟩
  · exact absurd hds Nat.toDigits_ne_nil
  rw [scanIntegral]
  by_cases hc : c = '0'
  · have hn : n = 0 := by
      apply eq_zero_of_head?
      rw [hds, hc, List.head?_cons]
    rw [hn] at hds
    cases hds
    rfl
  · have hall : ∀ x ∈ c :: ds, x.isDigit = true := by
      intro x hx
      rw [← hds] at hx
      exact isDigit_of_mem hx
    rw [if_neg hc, scanDigits, List.takeWhile_eq_self_iff.mpr hall, if_neg (List.cons_ne_nil _ _),
      List.dropWhile_eq_nil_iff.mpr hall]

theorem scanNumber_of_integral (sign : List Char) {ds : List Char}
    (hsign : scanOptional ['-'] (sign ++ ds) = some (sign, ds))
    (hds : scanIntegral ds = some (ds, [])) :
    scanNumber (sign ++ ds) = some (sign ++ ds, []) := by
  simp only [scanNumber, andThen, hsign, hds, scanMarked, Option.bind_some, Option.map_some,
    List.append_nil]

theorem scanNumber_formatInt (i : Int64) : scanNumber (formatInt i) = some (formatInt i, []) := by
  rw [formatInt]
  split_ifs
  · exact scanNumber_of_integral ['-'] rfl (scanIntegral_toDigits _)
  · have hnone : scanOptional ['-'] (Nat.toDigits 10 i.toInt.natAbs)
        = some ([], Nat.toDigits 10 i.toInt.natAbs) := by
      rcases hds : Nat.toDigits 10 i.toInt.natAbs with _ | ⟨c, ds⟩
      · rfl
      · have hc : c ≠ '-' := by
          rintro rfl
          exact head?_toDigits (n := i.toInt.natAbs) (c := '-') (by decide) (by rw [hds]; rfl)
        rw [scanOptional, if_neg (by simpa using hc)]
    exact scanNumber_of_integral [] hnone (scanIntegral_toDigits _)

/-! ## Fields -/

/-- A field of a record. Nothing is written for an empty field that may be omitted. A value of
another type is not stored. -/
structure JsonField (σ : Type*) where
  name : List Char
  write : σ → Option Value
  store : Value → σ → Option σ

section Fields

variable {σ : Type*}

def stringField (name : String) (omitempty : Bool) (get : σ → String) (set : String → σ → σ) :
    JsonField σ where
  name := name.toList
  write x := if omitempty ∧ get x = "" then none else some (.str (get x).toList)
  store
    | .null, x => some x
    | .str s, x => some (set (String.ofList s) x)
    | _, _ => none

def intField (name : String) (omitempty : Bool) (get : σ → Int64) (set : Int64 → σ → σ) :
    JsonField σ where
  name := name.toList
  write x := if omitempty ∧ get x = 0 then none else some (.num (formatInt (get x)))
  store
    | .null, x => some x
    | .num literal, x => (parseInt literal).map (set · x)
    | _, _ => none

/-- Whether a list can be stored in a field that holds strings. -/
def areStrings : List Value → Bool
  | [] => true
  | .null :: vs => areStrings vs
  | .str _ :: vs => areStrings vs
  | _ :: _ => false

/-- A field for strings that is never filled and never used. It is read all the same. -/
def unusedStrings (name : String) : JsonField σ where
  name := name.toList
  write _ := none
  store
    | .null, x => some x
    | .arr vs, x => if areStrings vs then some x else none
    | _, _ => none

/-- `foldRune`, as far as the result is ASCII: outside ASCII only the long s and the Kelvin sign are
folded to ASCII letters. -/
def foldChar (c : Char) : Char :=
  if 'a' ≤ c ∧ c ≤ 'z' then c.toUpper else if c = '\u017f' then 'S'
  else if c = '\u212a' then 'K' else c

/-- The field for a name: the one that has it, or else the first that has it up to case. -/
def findField (fields : List (JsonField σ)) (name : List Char) : Option (JsonField σ) :=
  (fields.find? fun f ↦ f.name = name).or
    (fields.find? fun f ↦ f.name.map foldChar = name.map foldChar)

/-- A member is stored in its field, if there is one. -/
def storeMember (fields : List (JsonField σ)) (x : σ) (m : List Char × Value) : Option σ :=
  match findField fields m.1 with
  | none => some x
  | some f => f.store m.2 x

/-- `decodeState.value`, into a record. -/
def readRecord (fields : List (JsonField σ)) (x : σ) : Value → Option σ
  | .null => some x
  | .obj members => members.foldlM (storeMember fields) x
  | _ => none

def writeRecord (fields : List (JsonField σ)) (x : σ) : Value :=
  .obj (fields.filterMap fun f ↦ (f.write x).map (f.name, ·))

/-- `json.Unmarshal` into a record. -/
def unmarshal (fields : List (JsonField σ)) (zero : σ) (s : List Char) : Option σ :=
  (parse s).bind (readRecord fields zero)

/-- `json.Marshal` of a record. -/
def marshal (fields : List (JsonField σ)) (x : σ) : List Char := (writeRecord fields x).encode

/-- `Decoder.Decode` on a stream: the first value of what has arrived. -/
def decode (fields : List (JsonField σ)) (zero : σ) (s : List Char) : Option σ :=
  (scanValue maxNestingDepth s).bind fun p ↦ readRecord fields zero p.1

/-! ## Records are read back -/

/-- What is written for a field of one record is stored in another. -/
def JsonField.copy (f : JsonField σ) (x y : σ) : Option σ :=
  match f.write x with
  | none => some y
  | some v => f.store v y

theorem copy_stringField {name : String} {omitempty : Bool} {get : σ → String}
    {set : String → σ → σ} {x y : σ} (hy : set "" y = y) :
    (stringField name omitempty get set).copy x y = some (set (get x) y) := by
  by_cases hempty : omitempty ∧ get x = ""
  · simp only [JsonField.copy, stringField, if_pos hempty]
    rw [hempty.2, hy]
  · simp only [JsonField.copy, stringField, if_neg hempty, String.ofList_toList]

theorem copy_intField {name : String} {omitempty : Bool} {get : σ → Int64} {set : Int64 → σ → σ}
    {x y : σ} (hy : set 0 y = y) :
    (intField name omitempty get set).copy x y = some (set (get x) y) := by
  by_cases hempty : omitempty ∧ get x = 0
  · simp only [JsonField.copy, intField, if_pos hempty]
    rw [hempty.2, hy]
  · simp only [JsonField.copy, intField, if_neg hempty, parseInt_formatInt, Option.map_some]

theorem copy_unusedStrings (name : String) (x y : σ) : (unusedStrings name).copy x y = some y := rfl

theorem findField_self {fields : List (JsonField σ)} (hnodup : (fields.map JsonField.name).Nodup)
    {f : JsonField σ} (hf : f ∈ fields) : findField fields f.name = some f := by
  have hfind : fields.find? (fun g ↦ g.name = f.name) = some f := by
    induction fields with
    | nil => cases hf
    | cons g fields ih =>
      rw [List.map_cons, List.nodup_cons] at hnodup
      rcases List.mem_cons.mp hf with rfl | hf
      · rw [List.find?_cons_of_pos (by simp)]
      · have hne : g.name ≠ f.name := by
          intro hname
          rw [hname] at hnodup
          exact hnodup.1 (List.mem_map_of_mem hf)
        rw [List.find?_cons_of_neg (by simpa using hne), ih hnodup.2 hf]
  rw [findField, hfind, Option.some_or]

theorem foldlM_storeMember {all fields : List (JsonField σ)}
    (hnodup : (all.map JsonField.name).Nodup)
    (hsub : fields ⊆ all) (x y : σ) :
    (fields.filterMap fun f ↦ (f.write x).map (f.name, ·)).foldlM (storeMember all) y
      = fields.foldlM (fun y f ↦ f.copy x y) y := by
  induction fields generalizing y with
  | nil => rfl
  | cons f fields ih =>
    have hrest := ih fun g hg ↦ hsub (List.mem_cons_of_mem f hg)
    rcases hw : f.write x with _ | v
    · have hcopy : f.copy x y = some y := by rw [JsonField.copy, hw]
      rw [List.filterMap_cons_none (by rw [hw]; rfl), hrest, List.foldlM_cons, hcopy]
      rfl
    · have hstore : storeMember all y (f.name, v) = f.copy x y := by
        rw [storeMember, findField_self hnodup (hsub List.mem_cons_self), JsonField.copy, hw]
      rw [List.filterMap_cons_some (by rw [hw]; rfl), List.foldlM_cons, List.foldlM_cons, hstore]
      exact congrArg _ (funext hrest)

/-- Reading what was written copies the record, one field after the other. -/
theorem readRecord_writeRecord {fields : List (JsonField σ)}
    (hnodup : (fields.map JsonField.name).Nodup)
    (x y : σ) :
    readRecord fields y (writeRecord fields x) = fields.foldlM (fun y f ↦ f.copy x y) y :=
  foldlM_storeMember hnodup (List.Subset.refl fields) x y

/-! ## What is written for a record -/

/-- A field for which only values of limited depth are written. -/
def JsonField.Shallow (f : JsonField σ) : Prop := ∀ x, ∀ v ∈ f.write x, v.Fits 1

theorem shallow_stringField (name : String) (omitempty : Bool) (get : σ → String)
    (set : String → σ → σ) : (stringField name omitempty get set).Shallow := by
  intro x v hv
  simp only [stringField] at hv
  split_ifs at hv
  · cases hv
  · cases hv
    trivial

theorem shallow_intField (name : String) (omitempty : Bool) (get : σ → Int64)
    (set : Int64 → σ → σ) : (intField name omitempty get set).Shallow := by
  intro x v hv
  simp only [intField] at hv
  split_ifs at hv
  · cases hv
  · cases hv
    exact scanNumber_formatInt _

theorem shallow_unusedStrings (name : String) : (unusedStrings name : JsonField σ).Shallow := by
  intro x v hv
  cases hv

theorem Value.Fits.mono {depth depth' : ℕ} (hle : depth ≤ depth') {v : Value} (h : v.Fits depth) :
    v.Fits depth' := by
  induction depth' generalizing depth v with
  | zero =>
    obtain rfl : depth = 0 := by omega
    exact h
  | succ depth' ih =>
    cases depth with
    | zero => cases v <;> first | exact h | exact h.elim
    | succ depth =>
      cases v with
      | arr vs => exact fun v hv ↦ ih (by omega) (h v hv)
      | obj ms => exact fun m hm ↦ ih (by omega) (h m hm)
      | null => trivial
      | bool b => trivial
      | num literal => exact h
      | str s => trivial

theorem fits_writeRecord {fields : List (JsonField σ)} (h : ∀ f ∈ fields, f.Shallow) (x : σ) :
    (writeRecord fields x).Fits 2 := by
  intro m hm
  obtain ⟨f, hf, hw⟩ := List.mem_filterMap.mp hm
  obtain ⟨v, hv, rfl⟩ := Option.map_eq_some_iff.mp hw
  exact h f hf x v hv

variable {fields : List (JsonField σ)}

theorem fits_writeRecord_max (h : ∀ f ∈ fields, f.Shallow) (x : σ) :
    (writeRecord fields x).Fits maxNestingDepth :=
  (fits_writeRecord h x).mono (by decide)

theorem printable_marshal (h : ∀ f ∈ fields, f.Shallow) (x : σ) : Printable (marshal fields x) :=
  printable_encode (fits_writeRecord h x)

theorem joinItems_concat (close : Char) (xs : List (List Char)) :
    ∃ body, joinItems close xs = body ++ [close] := by
  induction xs with
  | nil => exact ⟨[], rfl⟩
  | cons x xs ih =>
    by_cases hxs : xs = []
    · exact ⟨x, by rw [hxs]; rfl⟩
    · obtain ⟨body, hbody⟩ := ih
      exact ⟨x ++ ',' :: body, by rw [joinItems_cons close x hxs, hbody]; simp⟩

theorem exists_marshal_eq (fields : List (JsonField σ)) (x : σ) :
    ∃ body, marshal fields x = '\x7b' :: body ++ ['\x7d'] := by
  rw [marshal, writeRecord, Value.encode]
  obtain ⟨body, hbody⟩ := joinItems_concat '\x7d'
    (encodeMembers (fields.filterMap fun f ↦ (f.write x).map (f.name, ·)))
  exact ⟨body, by rw [hbody]; rfl⟩

/-- What is written is copied by `Decode`, whatever comes after the line. -/
theorem decode_marshal (hnodup : (fields.map JsonField.name).Nodup) (h : ∀ f ∈ fields, f.Shallow)
    (x zero : σ) (rest : List Char) :
    decode fields zero (marshal fields x ++ '\n' :: rest)
      = fields.foldlM (fun y f ↦ f.copy x y) zero := by
  rw [decode, marshal, scanValue_encode (fits_writeRecord_max h x) (breaks_cons (by decide) rest),
    Option.bind_some, readRecord_writeRecord hnodup]

/-- What is written is copied by `json.Unmarshal`, with or without the end of the line. -/
theorem unmarshal_marshal (hnodup : (fields.map JsonField.name).Nodup) (h : ∀ f ∈ fields, f.Shallow)
    (x zero : σ) {rest : List Char} (hrest : rest = [] ∨ rest = ['\n']) :
    unmarshal fields zero (marshal fields x ++ rest)
      = fields.foldlM (fun y f ↦ f.copy x y) zero := by
  have hbreaks : Breaks rest := by
    rcases hrest with rfl | rfl
    · exact breaks_nil
    · exact breaks_cons (by decide) []
  have hblank : skipSpace rest = [] := by rcases hrest with rfl | rfl <;> rfl
  rw [unmarshal, marshal, parse_encode (fits_writeRecord_max h x) hbreaks hblank,
    Option.bind_some, readRecord_writeRecord hnodup]

theorem unmarshal_cut (h : ∀ f ∈ fields, f.Shallow) {x zero : σ} {p q broken : List Char}
    (htext : marshal fields x = p ++ q) (hq : q ≠ []) (hbroken : Broken broken) :
    unmarshal fields zero (p ++ broken) = none := by
  rw [unmarshal, parse_cut (fits_writeRecord_max h x) htext hq hbroken, Option.bind_none]

end Fields

end Json

end Go
