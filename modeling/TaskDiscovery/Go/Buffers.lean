import Mathlib.Algebra.Ring.Nat
import Mathlib.Data.List.TakeWhile

/-!
# Text on its way through a connection

A datagram is read into a buffer and a stream is read line by line. Sizes are counted in bytes, and
text in code points, so a buffer may end inside of a character. Each byte of the part that is left
is then read as a character of its own, the replacement character.
-/

namespace Go

/-- The bytes that a text takes. -/
def byteLength (s : List Char) : ℕ := (s.map Char.utf8Size).sum

/-! ## Datagrams -/

/-- What is read of a text into a buffer of so many bytes. -/
def readBuffer : ℕ → List Char → List Char
  | _, [] => []
  | n, c :: s =>
    if c.utf8Size ≤ n then c :: readBuffer (n - c.utf8Size) s else List.replicate n '\ufffd'

theorem byteLength_cons (c : Char) (s : List Char) :
    byteLength (c :: s) = c.utf8Size + byteLength s := rfl

theorem readBuffer_of_le {n : ℕ} {s : List Char} (h : byteLength s ≤ n) : readBuffer n s = s := by
  induction s generalizing n with
  | nil => rfl
  | cons c s ih =>
    rw [byteLength_cons] at h
    rw [readBuffer, if_pos (by omega), ih (by omega)]

/-- Of a text that does not fit, a beginning is read, and then at most some replacement
characters. -/
theorem exists_readBuffer {n : ℕ} {s : List Char} (h : n < byteLength s) :
    ∃ p q k, s = p ++ q ∧ q ≠ [] ∧ readBuffer n s = p ++ List.replicate k '\ufffd' := by
  induction s generalizing n with
  | nil => cases h
  | cons c s ih =>
    rw [byteLength_cons] at h
    rw [readBuffer]
    by_cases hc : c.utf8Size ≤ n
    · obtain ⟨p, q, k, rfl, hq, hread⟩ := ih (n := n - c.utf8Size) (by omega)
      exact ⟨c :: p, q, k, rfl, hq, by rw [if_pos hc, hread, List.cons_append]⟩
    · exact ⟨[], c :: s, n, rfl, List.cons_ne_nil c s, by rw [if_neg hc, List.nil_append]⟩

/-! ## Streams -/

/-- The lines of a stream, given the beginning of the first. The last need not be terminated. -/
def splitLines (line : List Char) : List Char → List (List Char)
  | [] => if line = [] then [] else [line]
  | c :: s => if c = '\n' then line :: splitLines [] s else splitLines (line ++ [c]) s

def dropCR (line : List Char) : List Char :=
  if line.getLast? = some '\r' then line.dropLast else line

def maxScanTokenSize : ℕ := 64 * 1024

/-- The lines that a `bufio.Scanner` finds. It stops at a line that fills its buffer. -/
def scanLines (s : List Char) : List (List Char) :=
  ((splitLines [] s).takeWhile fun line ↦ byteLength line < maxScanTokenSize).map dropCR

/-- `ReadBytes('\n')`: a line with its end, if that has arrived. -/
def readLine (s : List Char) : Option (List Char) :=
  if '\n' ∈ s then some (s.takeWhile (· ≠ '\n') ++ ['\n']) else none

/-- What is read with `ReadBytes('\n')` until a line does not end, without the line ends. -/
def readLines (line : List Char) : List Char → List (List Char)
  | [] => []
  | c :: s => if c = '\n' then line :: readLines [] s else readLines (line ++ [c]) s

/-- Texts on lines of their own. -/
def onLines (xs : List (List Char)) : List Char := xs.flatMap (· ++ ['\n'])

theorem onLines_cons (x : List Char) (xs : List (List Char)) :
    onLines (x :: xs) = x ++ '\n' :: onLines xs := by
  rw [onLines, List.flatMap_cons, List.append_assoc]
  rfl

theorem onLines_append (xs ys : List (List Char)) :
    onLines (xs ++ ys) = onLines xs ++ onLines ys :=
  List.flatMap_append

theorem splitLines_append {x : List Char} (hx : '\n' ∉ x) (line s : List Char) :
    splitLines line (x ++ '\n' :: s) = (line ++ x) :: splitLines [] s := by
  induction x generalizing line with
  | nil => rw [List.nil_append, splitLines, if_pos rfl, List.append_nil]
  | cons c x ih =>
    rw [List.mem_cons, not_or] at hx
    rw [List.cons_append, splitLines, if_neg (Ne.symm hx.1), ih hx.2, List.append_assoc]
    rfl

theorem dropCR_of_not_mem {x : List Char} (hx : '\r' ∉ x) : dropCR x = x := by
  rw [dropCR, if_neg]
  intro h
  exact hx (List.mem_of_getLast? h)

theorem scanLines_onLines {xs : List (List Char)} (hn : ∀ x ∈ xs, '\n' ∉ x)
    (hr : ∀ x ∈ xs, '\r' ∉ x) (hshort : ∀ x ∈ xs, byteLength x < maxScanTokenSize) :
    scanLines (onLines xs) = xs := by
  have hsplit : splitLines [] (onLines xs) = xs := by
    clear hr hshort
    induction xs with
    | nil => rfl
    | cons x xs ih =>
      rw [onLines_cons, splitLines_append (hn x List.mem_cons_self), List.nil_append,
        ih fun y hy ↦ hn y (List.mem_cons_of_mem x hy)]
  rw [scanLines, hsplit, List.takeWhile_eq_self_iff.mpr fun x hx ↦ decide_eq_true (hshort x hx),
    List.map_congr_left fun x hx ↦ dropCR_of_not_mem (hr x hx), List.map_id']

theorem readLines_append {x : List Char} (hx : '\n' ∉ x) (line s : List Char) :
    readLines line (x ++ '\n' :: s) = (line ++ x) :: readLines [] s := by
  induction x generalizing line with
  | nil => rw [List.nil_append, readLines, if_pos rfl, List.append_nil]
  | cons c x ih =>
    rw [List.mem_cons, not_or] at hx
    rw [List.cons_append, readLines, if_neg (Ne.symm hx.1), ih hx.2, List.append_assoc]
    rfl

theorem readLines_of_not_mem {x : List Char} (hx : '\n' ∉ x) (line : List Char) :
    readLines line x = [] := by
  induction x generalizing line with
  | nil => rfl
  | cons c x ih =>
    rw [List.mem_cons, not_or] at hx
    rw [readLines, if_neg (Ne.symm hx.1), ih hx.2]

/-- What comes after the last line end is not read. -/
theorem readLines_onLines {xs : List (List Char)} (hn : ∀ x ∈ xs, '\n' ∉ x) {p : List Char}
    (hp : '\n' ∉ p) : readLines [] (onLines xs ++ p) = xs := by
  induction xs with
  | nil => exact readLines_of_not_mem hp []
  | cons x xs ih =>
    rw [onLines_cons, List.append_assoc, List.cons_append,
      readLines_append (hn x List.mem_cons_self), List.nil_append,
      ih fun y hy ↦ hn y (List.mem_cons_of_mem x hy)]

theorem readLine_append {x : List Char} (hx : '\n' ∉ x) (s : List Char) :
    readLine (x ++ '\n' :: s) = some (x ++ ['\n']) := by
  have hall : ∀ c ∈ x, decide (c ≠ '\n') = true := by
    intro c hc
    rw [decide_eq_true_eq]
    rintro rfl
    exact hx hc
  rw [readLine, if_pos (by simp), List.takeWhile_append_of_pos hall,
    List.takeWhile_cons_of_neg (by simp), List.append_nil]

end Go
