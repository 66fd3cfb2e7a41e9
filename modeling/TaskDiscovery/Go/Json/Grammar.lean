import Mathlib.Algebra.Ring.Nat
import Mathlib.Data.List.Infix

/-!
# JSON texts

What `encoding/json` writes and reads, on code points. A number is kept as it is written.

`Value.encode` is `json.Marshal`: no spaces, and in strings the characters that end a line, a string
or an HTML element are escaped. `parse` is the reader under `json.Unmarshal`: it takes any JSON text
whose containers are nested at most 10000 deep. A reader of a part of the grammar returns what it
found and the text after it.
-/

namespace Go

namespace Json

inductive Value
  | null
  | bool (b : Bool)
  | num (literal : List Char)
  | str (s : List Char)
  | arr (elements : List Value)
  | obj (members : List (List Char × Value))

/-! ## Writing -/

/-- `appendString`: one character of a string, with HTML escaping. -/
def encodeChar (c : Char) : List Char :=
  if c = '"' ∨ c = '\\' then ['\\', c]
  else if c = '\x08' then ['\\', 'b']
  else if c = '\x0c' then ['\\', 'f']
  else if c = '\n' then ['\\', 'n']
  else if c = '\r' then ['\\', 'r']
  else if c = '\t' then ['\\', 't']
  else if c.toNat < 0x20 ∨ c = '<' ∨ c = '>' ∨ c = '&' then
    ['\\', 'u', '0', '0', Nat.digitChar (c.toNat / 16), Nat.digitChar (c.toNat % 16)]
  else if c = '\u2028' ∨ c = '\u2029' then
    ['\\', 'u', '2', '0', '2', Nat.digitChar (c.toNat % 16)]
  else [c]

/-- A string literal after its opening quote. -/
def encodeChars (s : List Char) : List Char := s.flatMap encodeChar ++ ['"']

/-- Items, separated by commas, and the bracket that closes them. -/
def joinItems (close : Char) : List (List Char) → List Char
  | [] => [close]
  | [x] => x ++ [close]
  | x :: xs => x ++ ',' :: joinItems close xs

mutual

/-- `json.Marshal`. -/
def Value.encode : Value → List Char
  | .null => "null".toList
  | .bool true => "true".toList
  | .bool false => "false".toList
  | .num literal => literal
  | .str s => '"' :: encodeChars s
  | .arr elements => '[' :: joinItems ']' (encodeElements elements)
  | .obj members => '\x7b' :: joinItems '\x7d' (encodeMembers members)

def encodeElements : List Value → List (List Char)
  | [] => []
  | v :: vs => v.encode :: encodeElements vs

def encodeMembers : List (List Char × Value) → List (List Char)
  | [] => []
  | (key, v) :: ms => ('"' :: encodeChars key ++ ':' :: v.encode) :: encodeMembers ms

end

def encodeMember (m : List Char × Value) : List Char :=
  '"' :: encodeChars m.1 ++ ':' :: m.2.encode

theorem encodeElements_eq (vs : List Value) : encodeElements vs = vs.map Value.encode := by
  induction vs with
  | nil => rfl
  | cons v vs ih => rw [encodeElements, ih, List.map_cons]

theorem encodeMembers_eq (ms : List (List Char × Value)) :
    encodeMembers ms = ms.map encodeMember := by
  induction ms with
  | nil => rfl
  | cons m ms ih => rw [encodeMembers, ih, List.map_cons, encodeMember]

/-! ## Reading strings -/

/-- What a reader of text finds: a result and the text after it. -/
abbrev Reader (α : Type*) := List Char → Option (α × List Char)

/-- `isSpace` of the scanner. -/
def isBlank (c : Char) : Bool := c == ' ' || c == '\t' || c == '\r' || c == '\n'

def skipSpace (s : List Char) : List Char := s.dropWhile isBlank

def hexValue (c : Char) : Option ℕ :=
  if c.isDigit then some (c.toNat - 48)
  else if 'a' ≤ c ∧ c ≤ 'f' then some (c.toNat - 87)
  else if 'A' ≤ c ∧ c ≤ 'F' then some (c.toNat - 55)
  else none

/-- `getu4`: a code unit, written as a backslash, `u` and four hexadecimal digits. -/
def getu4 : Reader ℕ
  | '\\' :: 'u' :: a :: b :: c :: d :: s =>
    (hexValue a).bind fun a ↦ (hexValue b).bind fun b ↦ (hexValue c).bind fun c ↦
      (hexValue d).map fun d ↦ (((a * 16 + b) * 16 + c) * 16 + d, s)
  | _ => none

/-- The character of a code unit. A pair of surrogates is one character, and a single surrogate is
replaced. -/
def decodeUnit (n : ℕ) (s : List Char) : Char × List Char :=
  if 0xD800 ≤ n ∧ n < 0xE000 then
    match getu4 s with
    | some (m, s') =>
      if n < 0xDC00 ∧ 0xDC00 ≤ m ∧ m < 0xE000 then
        (Char.ofNat (0x10000 + (n - 0xD800) * 0x400 + (m - 0xDC00)), s')
      else ('\ufffd', s)
    | none => ('\ufffd', s)
  else (Char.ofNat n, s)

/-- The escapes of one character. -/
def unescape (c : Char) : Option Char :=
  if c = '"' ∨ c = '\\' ∨ c = '/' then some c
  else if c = 'b' then some '\x08'
  else if c = 'f' then some '\x0c'
  else if c = 'n' then some '\n'
  else if c = 'r' then some '\r'
  else if c = 't' then some '\t'
  else none

def scanEscape : Reader Char
  | [] => none
  | c :: s => (unescape c).map (·, s)

/-- A character that is not written as a code unit. -/
def scanPlain : Reader Char
  | [] => none
  | c :: s =>
    if c = '\\' then scanEscape s else if c.toNat < 0x20 then none else some (c, s)

def scanChar (s : List Char) : Option (Char × List Char) :=
  match getu4 s with
  | some p => some (decodeUnit p.1 p.2)
  | none => scanPlain s

/-- A string literal after its opening quote. It has less characters than its text. -/
def scanString : ℕ → Reader (List Char)
  | 0, _ => none
  | fuel + 1, s =>
    if s.head? = some '"' then some ([], s.tail)
    else (scanChar s).bind fun p ↦ (scanString fuel p.2).map fun q ↦ (p.1 :: q.1, q.2)

/-! ## Reading numbers and literals -/

/-- One reader after the other, for texts that are kept. -/
def andThen (p q : Reader (List Char)) : Reader (List Char) := fun s ↦
  (p s).bind fun a ↦ (q a.2).map fun b ↦ (a.1 ++ b.1, b.2)

def scanDigits : Reader (List Char) := fun s ↦
  if s.takeWhile Char.isDigit = [] then none
  else some (s.takeWhile Char.isDigit, s.dropWhile Char.isDigit)

/-- One of the given characters, if the text starts with it. -/
def scanOptional (cs : List Char) : Reader (List Char)
  | [] => some ([], [])
  | c :: s => if c ∈ cs then some ([c], s) else some ([], c :: s)

/-- The integral part: no leading zeros. -/
def scanIntegral : Reader (List Char)
  | [] => none
  | c :: s => if c = '0' then some ([c], s) else scanDigits (c :: s)

/-- Digits after a mark, or nothing when the mark is missing. -/
def scanMarked (marks signs : List Char) : Reader (List Char)
  | [] => some ([], [])
  | c :: s =>
    if c ∈ marks then (andThen (scanOptional signs) scanDigits s).map fun p ↦ (c :: p.1, p.2)
    else some ([], c :: s)

def scanNumber : Reader (List Char) :=
  andThen (scanOptional ['-'])
    (andThen scanIntegral (andThen (scanMarked ['.'] []) (scanMarked ['e', 'E'] ['+', '-'])))

/-- A word that stands for a value. -/
def scanWord (word : List Char) (v : Value) : Reader Value := fun s ↦
  if word <+: s then some (v, s.drop word.length) else none

/-- A value that is not a container. -/
def scanScalar (s : List Char) : Option (Value × List Char) :=
  if s.head? = some '"' then (scanString s.length s.tail).map fun p ↦ (.str p.1, p.2)
  else if s.head? = some 't' then scanWord "true".toList (.bool true) s
  else if s.head? = some 'f' then scanWord "false".toList (.bool false) s
  else if s.head? = some 'n' then scanWord "null".toList .null s
  else (scanNumber s).map fun p ↦ (.num p.1, p.2)

/-! ## Reading containers -/

section Containers

variable {α : Type*} (close : Char) (item : Reader α)

/-- Items of a container, at least one. -/
def scanMore : ℕ → Reader (List α)
  | 0, _ => none
  | fuel + 1, s =>
    (item s).bind fun p ↦
      match skipSpace p.2 with
      | [] => none
      | c :: r =>
        if c = close then some ([p.1], r)
        else if c = ',' then (scanMore fuel r).map fun q ↦ (p.1 :: q.1, q.2)
        else none

def scanItems (s : List Char) : Option (List α × List Char) :=
  match skipSpace s with
  | [] => none
  | c :: r => if c = close then some ([], r) else scanMore close item s.length s

end Containers

def scanMember (value : Reader Value) : Reader (List Char × Value) := fun s ↦
  if (skipSpace s).head? = some '"' then
    (scanString s.length (skipSpace s).tail).bind fun p ↦
      if (skipSpace p.2).head? = some ':' then
        (value (skipSpace p.2).tail).map fun q ↦ ((p.1, q.1), q.2)
      else none
  else none

def scanContainer (value : Reader Value) (bracket : Char) : Reader Value := fun s ↦
  if bracket = '[' then (scanItems ']' value s).map fun p ↦ (.arr p.1, p.2)
  else (scanItems '\x7d' (scanMember value) s).map fun p ↦ (.obj p.1, p.2)

/-- A value, given how the values inside a container are read. Containers may be ruled out. -/
def scanWith (inner : Option (Reader Value)) : Reader Value := fun s ↦
  match skipSpace s with
  | [] => none
  | c :: s =>
    if c = '[' ∨ c = '\x7b' then inner.bind fun value ↦ scanContainer value c s
    else scanScalar (c :: s)

/-- A value whose containers are nested at most so deep. -/
def scanValue : ℕ → Reader Value
  | 0 => scanWith none
  | depth + 1 => scanWith (some (scanValue depth))

def maxNestingDepth : ℕ := 10000

/-- A text that is one value. -/
def parse (s : List Char) : Option Value :=
  (scanValue maxNestingDepth s).bind fun p ↦ if skipSpace p.2 = [] then some p.1 else none

/-! ## Values that can be written -/

/-- The values that have a text: numbers are written as numbers, and containers are not nested
deeper than given. -/
def Value.Fits : ℕ → Value → Prop
  | _, .null => True
  | _, .bool _ => True
  | _, .num literal => scanNumber literal = some (literal, [])
  | _, .str _ => True
  | 0, .arr _ => False
  | 0, .obj _ => False
  | depth + 1, .arr elements => ∀ v ∈ elements, v.Fits depth
  | depth + 1, .obj members => ∀ m ∈ members, m.2.Fits depth

end Json

end Go
