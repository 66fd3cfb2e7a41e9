import Mathlib.Algebra.Ring.Nat

/-!
# SHA-256

The hash function of FIPS 180-4 on lists of bytes. Words are natural numbers below `2 ^ 32`, and
every addition is reduced. The definitions are meant to be evaluated, so the schedule is a sliding
window of sixteen words and all recursion is structural.
-/

namespace Sha256

/-- Keep the low 32 bits. -/
def word (n : ℕ) : ℕ := n % 2 ^ 32

def rotr (x n : ℕ) : ℕ := (x >>> n) ||| word (x <<< (32 - n))

def roundConstants : List ℕ :=
  [0x428a2f98, 0x71374491, 0xb5c0fbcf, 0xe9b5dba5, 0x3956c25b, 0x59f111f1, 0x923f82a4, 0xab1c5ed5,
    0xd807aa98, 0x12835b01, 0x243185be, 0x550c7dc3, 0x72be5d74, 0x80deb1fe, 0x9bdc06a7, 0xc19bf174,
    0xe49b69c1, 0xefbe4786, 0x0fc19dc6, 0x240ca1cc, 0x2de92c6f, 0x4a7484aa, 0x5cb0a9dc, 0x76f988da,
    0x983e5152, 0xa831c66d, 0xb00327c8, 0xbf597fc7, 0xc6e00bf3, 0xd5a79147, 0x06ca6351, 0x14292967,
    0x27b70a85, 0x2e1b2138, 0x4d2c6dfc, 0x53380d13, 0x650a7354, 0x766a0abb, 0x81c2c92e, 0x92722c85,
    0xa2bfe8a1, 0xa81a664b, 0xc24b8b70, 0xc76c51a3, 0xd192e819, 0xd6990624, 0xf40e3585, 0x106aa070,
    0x19a4c116, 0x1e376c08, 0x2748774c, 0x34b0bcb5, 0x391c0cb3, 0x4ed8aa4a, 0x5b9cca4f, 0x682e6ff3,
    0x748f82ee, 0x78a5636f, 0x84c87814, 0x8cc70208, 0x90befffa, 0xa4506ceb, 0xbef9a3f7, 0xc67178f2]

/-- The eight working variables. -/
structure State where
  (a b c d e f g h : ℕ)

/-- The initial hash value. -/
def State.initial : State :=
  ⟨0x6a09e667, 0xbb67ae85, 0x3c6ef372, 0xa54ff53a, 0x510e527f, 0x9b05688c, 0x1f83d9ab, 0x5be0cd19⟩

/-- The word that follows a window of sixteen words of the schedule. -/
def nextWord : List ℕ → ℕ
  | [w0, w1, _, _, _, _, _, _, _, w9, _, _, _, _, w14, _] =>
    word (w0 + (rotr w1 7 ^^^ rotr w1 18 ^^^ (w1 >>> 3)) + w9
      + (rotr w14 17 ^^^ rotr w14 19 ^^^ (w14 >>> 10)))
  | _ => 0

/-- One round, with its constant and its word of the schedule. -/
def round (s : State) (k w : ℕ) : State :=
  let t1 := word (s.h + (rotr s.e 6 ^^^ rotr s.e 11 ^^^ rotr s.e 25)
    + ((s.e &&& s.f) ^^^ ((0xffffffff ^^^ s.e) &&& s.g)) + k + w)
  let t2 := word ((rotr s.a 2 ^^^ rotr s.a 13 ^^^ rotr s.a 22)
    + ((s.a &&& s.b) ^^^ (s.a &&& s.c) ^^^ (s.b &&& s.c)))
  ⟨word (t1 + t2), s.a, s.b, s.c, word (s.d + t1), s.e, s.f, s.g⟩

/-- The rounds for the given constants, over a window of the schedule. -/
def rounds : List ℕ → List ℕ → State → State
  | [], _, s => s
  | k :: ks, window, s =>
    rounds ks (window.tail ++ [nextWord window]) (round s k (window.headD 0))

/-- Absorb a block of sixteen words. -/
def compress (s : State) (block : List ℕ) : State :=
  let r := rounds roundConstants block s
  ⟨word (s.a + r.a), word (s.b + r.b), word (s.c + r.c), word (s.d + r.d), word (s.e + r.e),
    word (s.f + r.f), word (s.g + r.g), word (s.h + r.h)⟩

/-- Bytes as big-endian words. -/
def words : List ℕ → List ℕ
  | a :: b :: c :: d :: bytes => (a <<< 24 + b <<< 16 + c <<< 8 + d) :: words bytes
  | _ => []

/-- The message followed by a one bit, zeros and its length in bits, in whole blocks of 64 bytes. -/
def pad (bytes : List ℕ) : List ℕ :=
  bytes ++ [0x80] ++ List.replicate ((119 - bytes.length % 64) % 64) 0
    ++ (List.range 8).map fun i ↦ ((bytes.length * 8) >>> (8 * (7 - i))) % 256

/-- Absorb the given number of blocks. -/
def compressAll : ℕ → List ℕ → State → State
  | 0, _, s => s
  | n + 1, ws, s => compressAll n (ws.drop 16) (compress s (ws.take 16))

/-- The digest of a list of bytes, as a number. -/
def digest (bytes : List ℕ) : ℕ :=
  let padded := pad bytes
  let s := compressAll (padded.length / 64) (words padded) State.initial
  [s.a, s.b, s.c, s.d, s.e, s.f, s.g, s.h].foldl (fun acc w ↦ acc <<< 32 + w) 0

/-- The digest of the UTF-8 encoding of a string. -/
def sum256 (s : String) : BitVec 256 :=
  .ofNat 256 (digest (s.toList.flatMap fun c ↦ (String.utf8EncodeChar c).map UInt8.toNat))

/-- The test vector of the standard for a message of one block. -/
example :
    sum256 "abc" = 0xba7816bf8f01cfea414140de5dae2223b00361a396177a9cb410ff61f20015ad#256 := by
  decide +kernel

/-- The test vector for a message of two blocks. -/
example : sum256 "abcdbcdecdefdefgefghfghighijhijkijkljklmklmnlmnomnopnopq"
    = 0x248d6a61d20638b8e5c026930c3e6039a33ce45964ff2167f6ecedd419db06c1#256 := by
  decide +kernel

end Sha256
