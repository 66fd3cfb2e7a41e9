import Mathlib.Algebra.Ring.Int.Defs
import Mathlib.Algebra.Ring.Nat
import Mathlib.Data.Option.Basic
import TaskDiscovery.Go.Cidr

/-!
# Times as text

`time.Parse` and `Format` for the layout `time.RFC3339Nano`, `2006-01-02T15:04:05.999999999Z07:00`.

The parser takes more than RFC 3339 allows: an hour may have one digit, a comma may stand before the
fraction, the fraction may have any number of digits, of which nine are read, and an offset may go
up to 24 hours and 60 minutes. It yields an instant, in nanoseconds since the zero `time.Time`, the
beginning of the year 1. Every time of day in UTC up to the year 9999 is read back from its text
(`parseRFC3339Nano_format`).
-/

namespace Go

/-! ## The calendar -/

def isLeap (year : ℕ) : Bool := decide (year % 4 = 0 ∧ (year % 100 ≠ 0 ∨ year % 400 = 0))

def monthDays (year : ℕ) : List ℕ :=
  [31, if isLeap year then 29 else 28, 31, 30, 31, 30, 31, 31, 30, 31, 30, 31]

def daysIn (month year : ℕ) : ℕ := (monthDays year).getD (month - 1) 0

/-- A date and a time of day in UTC, whose year has four digits. -/
structure DateTime where
  year : ℕ
  month : ℕ
  day : ℕ
  hour : ℕ
  min : ℕ
  sec : ℕ
  nsec : ℕ
  year_le : year ≤ 9999
  month_le : 1 ≤ month ∧ month ≤ 12
  day_le : 1 ≤ day ∧ day ≤ daysIn month year
  hour_lt : hour < 24
  min_lt : min < 60
  sec_lt : sec < 60
  nsec_lt : nsec < 10 ^ 9

/-- The days between the first of January of the year 1 and a date. -/
def daysSinceZero (year month day : ℕ) : Int :=
  let y : Int := year - 1
  365 * y + y / 4 - y / 100 + y / 400 + ((monthDays year).take (month - 1)).sum + (day - 1)

/-- `time.Date` in UTC, in nanoseconds since the zero time. -/
def date (year month day hour min sec nsec : ℕ) : Int :=
  (daysSinceZero year month day * 86400 + hour * 3600 + min * 60 + sec) * 10 ^ 9 + nsec

def DateTime.instant (d : DateTime) : Int :=
  date d.year d.month d.day d.hour d.min d.sec d.nsec

theorem DateTime.instant_pos {d : DateTime} (h : 1 < d.year) : 0 < d.instant := by
  have hday := d.day_le.1
  simp only [instant, date, daysSinceZero]
  omega

/-! ## Numbers -/

def digitValue (c : Char) : ℕ := c.toNat - 48

/-- The value of decimal digits. -/
def decimal (ds : List Char) : ℕ := ds.foldl (fun n c ↦ 10 * n + digitValue c) 0

/-- A number in decimal digits, padded with zeros. -/
def digits : ℕ → ℕ → List Char
  | 0, _ => []
  | width + 1, n => digits width (n / 10) ++ [digitChar (n % 10)]

theorem digitValue_digitChar : ∀ d < 10, digitValue (digitChar d) = d := by decide

theorem decimal_append (ds : List Char) (c : Char) :
    decimal (ds ++ [c]) = 10 * decimal ds + digitValue c := by
  rw [decimal, List.foldl_append]
  rfl

@[simp]
theorem length_digits (width n : ℕ) : (digits width n).length = width := by
  induction width generalizing n with
  | zero => rfl
  | succ width ih => rw [digits, List.length_append, ih, List.length_singleton]

theorem isDigit_of_mem_digits {width n : ℕ} : ∀ c ∈ digits width n, isDigit c = true := by
  induction width generalizing n with
  | zero => simp [digits]
  | succ width ih =>
    intro c hc
    rcases List.mem_append.mp hc with hc | hc
    · exact ih c hc
    · rw [List.mem_singleton.mp hc]
      exact (isDigit_digitChar ⟨n % 10, Nat.mod_lt n (by decide)⟩).1

theorem decimal_digits {width n : ℕ} (h : n < 10 ^ width) : decimal (digits width n) = n := by
  induction width generalizing n with
  | zero =>
    rw [Nat.pow_zero] at h
    rw [digits, decimal, List.foldl_nil]
    omega
  | succ width ih =>
    rw [Nat.pow_succ] at h
    rw [digits, decimal_append, ih (by omega), digitValue_digitChar _ (Nat.mod_lt n (by decide))]
    omega

theorem decimal_rdropWhile (ds : List Char) :
    decimal (ds.rdropWhile (· = '0')) * 10 ^ (ds.length - (ds.rdropWhile (· = '0')).length)
      = decimal ds := by
  induction ds using List.reverseRecOn with
  | nil => rfl
  | append_singleton ds c ih =>
    by_cases hc : c = '0'
    · have hlength : (ds.rdropWhile (· = '0')).length ≤ ds.length :=
        (List.rdropWhile_prefix _ ds).length_le
      rw [List.rdropWhile_concat_pos _ _ _ (by simpa using hc), List.length_append,
        List.length_singleton, Nat.sub_add_comm hlength, Nat.pow_succ, ← Nat.mul_assoc, ih,
        decimal_append, hc]
      simp [digitValue, Nat.mul_comm]
    · rw [List.rdropWhile_concat_neg _ _ _ (by simpa using hc)]
      simp

/-! ## `time.Parse` -/

/-- `getnum`: two digits, or one when the layout leaves that open. -/
def getnum (fixed : Bool) : List Char → Option (ℕ × List Char)
  | c :: c' :: s =>
    if isDigit c then
      if isDigit c' then some (decimal [c, c'], s)
      else if fixed then none else some (decimal [c], c' :: s)
    else none
  | [c] => if isDigit c && !fixed then some (decimal [c], []) else none
  | [] => none

def getYear (s : List Char) : Option (ℕ × List Char) :=
  if (s.take 4).length = 4 ∧ (s.take 4).all isDigit then some (decimal (s.take 4), s.drop 4)
  else none

/-- `skip` at one character of the layout. -/
def skip (c : Char) : List Char → Option (List Char)
  | x :: s => if x = c then some s else none
  | [] => none

/-- `parseNanoseconds`: digits beyond the ninth are dropped. -/
def parseNanoseconds (ds : List Char) : ℕ :=
  decimal (ds.take 9) * 10 ^ (9 - (ds.take 9).length)

/-- The fraction, which may be missing. -/
def getFraction : List Char → ℕ × List Char
  | p :: c :: s =>
    if (p = '.' ∨ p = ',') ∧ isDigit c then
      (parseNanoseconds ((c :: s).takeWhile isDigit), (c :: s).dropWhile isDigit)
    else (0, p :: c :: s)
  | s => (0, s)

/-- The zone, as an offset in seconds. -/
def getZone : List Char → Option (Int × List Char)
  | 'Z' :: s => some (0, s)
  | sign :: h :: h' :: ':' :: m :: m' :: s =>
    if [h, h', m, m'].all isDigit ∧ decimal [h, h'] ≤ 24 ∧ decimal [m, m'] ≤ 60 then
      let offset : Int := (decimal [h, h'] * 60 + decimal [m, m']) * 60
      if sign = '+' then some (offset, s) else if sign = '-' then some (-offset, s) else none
    else none
  | _ => none

/-- `time.Parse(time.RFC3339Nano, s)`. -/
def parseRFC3339Nano (s : List Char) : Option Int := do
  let (year, s) ← getYear s
  let s ← skip '-' s
  let (month, s) ← getnum true s
  guard (1 ≤ month ∧ month ≤ 12)
  let s ← skip '-' s
  let (day, s) ← getnum true s
  let s ← skip 'T' s
  let (hour, s) ← getnum false s
  guard (hour < 24)
  let s ← skip ':' s
  let (min, s) ← getnum true s
  guard (min < 60)
  let s ← skip ':' s
  let (sec, s) ← getnum true s
  guard (sec < 60)
  let (nsec, s) := getFraction s
  let (offset, s) ← getZone s
  guard (s = [])
  guard (1 ≤ day ∧ day ≤ daysIn month year)
  return date year month day hour min sec nsec - offset * 10 ^ 9

/-! ## `Format` -/

/-- The fraction without zeros at its end. -/
def formatFraction (nsec : ℕ) : List Char :=
  if nsec = 0 then [] else '.' :: (digits 9 nsec).rdropWhile (· = '0')

/-- `Format(time.RFC3339Nano)` in UTC. -/
def DateTime.format (d : DateTime) : List Char :=
  digits 4 d.year ++ '-' :: digits 2 d.month ++ '-' :: digits 2 d.day ++ 'T' :: digits 2 d.hour
    ++ ':' :: digits 2 d.min ++ ':' :: digits 2 d.sec ++ formatFraction d.nsec ++ ['Z']

/-! ## Round trip -/

theorem getnum_digits (fixed : Bool) {n : ℕ} (h : n < 100) (s : List Char) :
    getnum fixed (digits 2 n ++ s) = some (n, s) := by
  have hdecimal : decimal (digits 2 n) = n := decimal_digits h
  have hdigit : ∀ c ∈ digits 2 n, isDigit c = true := isDigit_of_mem_digits
  obtain ⟨c, c', hcc⟩ := List.length_eq_two.mp (length_digits 2 n)
  rw [hcc] at hdecimal hdigit ⊢
  simp only [List.cons_append, List.nil_append, getnum]
  rw [if_pos (hdigit c (by simp)), if_pos (hdigit c' (by simp)), hdecimal]

theorem getYear_digits {n : ℕ} (h : n ≤ 9999) (s : List Char) :
    getYear (digits 4 n ++ s) = some (n, s) := by
  have htake : (digits 4 n ++ s).take 4 = digits 4 n := List.take_left' (length_digits 4 n)
  have hall : (digits 4 n).all isDigit = true := List.all_eq_true.mpr isDigit_of_mem_digits
  rw [getYear, htake, List.drop_left' (length_digits 4 n), decimal_digits (by omega),
    if_pos ⟨length_digits 4 n, hall⟩]

theorem parseNanoseconds_digits {n : ℕ} (h : n < 10 ^ 9) :
    parseNanoseconds ((digits 9 n).rdropWhile (· = '0')) = n := by
  have hlength := (List.rdropWhile_prefix (· = '0') (digits 9 n)).length_le
  rw [length_digits] at hlength
  have hvalue := decimal_rdropWhile (digits 9 n)
  rw [length_digits, decimal_digits h] at hvalue
  rw [parseNanoseconds, List.take_of_length_le hlength, hvalue]

theorem getFraction_format {n : ℕ} (h : n < 10 ^ 9) :
    getFraction (formatFraction n ++ ['Z']) = (n, ['Z']) := by
  rw [formatFraction]
  split_ifs with hn
  · rw [hn]
    rfl
  · have hvalue := parseNanoseconds_digits h
    have hdigit : ∀ c ∈ (digits 9 n).rdropWhile (· = '0'), isDigit c = true := fun c hc ↦
      isDigit_of_mem_digits c ((List.rdropWhile_prefix _ _).subset hc)
    rcases hds : (digits 9 n).rdropWhile (· = '0') with _ | ⟨c, ds⟩
    · rw [hds] at hvalue
      exact absurd hvalue.symm hn
    · rw [hds] at hvalue hdigit
      have htake : ((c :: ds) ++ ['Z']).takeWhile isDigit = c :: ds := by
        rw [List.takeWhile_append_of_pos hdigit, List.takeWhile_cons_of_neg (by decide),
          List.append_nil]
      have hdrop : ((c :: ds) ++ ['Z']).dropWhile isDigit = ['Z'] := by
        rw [List.dropWhile_append_of_pos hdigit]
        rfl
      simp only [List.cons_append, getFraction] at htake hdrop ⊢
      rw [if_pos ⟨.inl trivial, hdigit c (by simp)⟩, htake, hdrop, hvalue]

theorem daysIn_lt_hundred (month year : ℕ) : daysIn month year < 100 := by
  have hdays : ∀ days ∈ monthDays year, days < 100 := by
    rw [monthDays]
    cases isLeap year <;> decide
  rw [daysIn, List.getD_eq_getElem?_getD]
  rcases h : (monthDays year)[month - 1]? with _ | days
  · decide
  · exact hdays days (List.mem_of_getElem? h)

theorem skip_self (c : Char) (s : List Char) : skip c (c :: s) = some s := if_pos rfl

theorem getZone_utc (s : List Char) : getZone ('Z' :: s) = some (0, s) := rfl

/-- **A time is read back from its text.** -/
theorem parseRFC3339Nano_format (d : DateTime) : parseRFC3339Nano d.format = some d.instant := by
  have hday : d.day < 100 := d.day_le.2.trans_lt (daysIn_lt_hundred ..)
  have hmonth : d.month < 100 := d.month_le.2.trans_lt (by decide)
  have hhour : d.hour < 100 := d.hour_lt.trans (by decide)
  have hmin : d.min < 100 := d.min_lt.trans (by decide)
  have hsec : d.sec < 100 := d.sec_lt.trans (by decide)
  simp only [DateTime.format, List.append_assoc, List.cons_append]
  -- the parser goes over the text field by field
  refine Option.bind_eq_some_iff.mpr ⟨_, getYear_digits d.year_le _, ?_⟩
  refine Option.bind_eq_some_iff.mpr ⟨_, skip_self '-' _, ?_⟩
  refine Option.bind_eq_some_iff.mpr ⟨_, getnum_digits _ hmonth _, ?_⟩
  refine Option.bind_eq_some_iff.mpr ⟨(), if_pos d.month_le, ?_⟩
  refine Option.bind_eq_some_iff.mpr ⟨_, skip_self '-' _, ?_⟩
  refine Option.bind_eq_some_iff.mpr ⟨_, getnum_digits _ hday _, ?_⟩
  refine Option.bind_eq_some_iff.mpr ⟨_, skip_self 'T' _, ?_⟩
  refine Option.bind_eq_some_iff.mpr ⟨_, getnum_digits _ hhour _, ?_⟩
  refine Option.bind_eq_some_iff.mpr ⟨(), if_pos d.hour_lt, ?_⟩
  refine Option.bind_eq_some_iff.mpr ⟨_, skip_self ':' _, ?_⟩
  refine Option.bind_eq_some_iff.mpr ⟨_, getnum_digits _ hmin _, ?_⟩
  refine Option.bind_eq_some_iff.mpr ⟨(), if_pos d.min_lt, ?_⟩
  refine Option.bind_eq_some_iff.mpr ⟨_, skip_self ':' _, ?_⟩
  refine Option.bind_eq_some_iff.mpr ⟨_, getnum_digits _ hsec _, ?_⟩
  refine Option.bind_eq_some_iff.mpr ⟨(), if_pos d.sec_lt, ?_⟩
  simp only [getFraction_format d.nsec_lt]
  refine Option.bind_eq_some_iff.mpr ⟨_, getZone_utc [], ?_⟩
  refine Option.bind_eq_some_iff.mpr ⟨(), if_pos rfl, ?_⟩
  refine Option.bind_eq_some_iff.mpr ⟨(), if_pos d.day_le, ?_⟩
  simp [DateTime.instant]

/-- The text of a time is not changed by trimming. -/
theorem isSpace_of_mem_format (d : DateTime) : ∀ c ∈ d.format, isSpace c = false := by
  have hdigits : ∀ {width n : ℕ}, ∀ c ∈ digits width n, isSpace c = false := fun c hc ↦
    isSpace_of_isAddrChar (isAddrChar_of_isDigit (isDigit_of_mem_digits c hc))
  have hfraction : ∀ c ∈ formatFraction d.nsec, isSpace c = false := by
    rw [formatFraction]
    split_ifs
    · simp
    · refine List.forall_mem_cons.mpr ⟨by decide, fun c hc ↦ ?_⟩
      exact hdigits c ((List.rdropWhile_prefix _ _).subset hc)
  have hdash : isSpace '-' = false := by decide
  have hcolon : isSpace ':' = false := by decide
  have ht : isSpace 'T' = false := by decide
  have hz : isSpace 'Z' = false := by decide
  simp only [DateTime.format, List.forall_mem_append, List.forall_mem_cons, hdash, hcolon, ht, hz]
  simp only [true_and, List.not_mem_nil, false_imp_iff, implies_true, and_true]
  exact ⟨⟨⟨⟨⟨⟨hdigits, hdigits⟩, hdigits⟩, hdigits⟩, hdigits⟩, hdigits⟩, hfraction⟩

end Go
