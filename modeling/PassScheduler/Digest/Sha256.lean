/-!
Contract: the SHA-256 digest of a row of bytes.

The bytes are padded to whole blocks of sixteen words; each block is worked into eight state
words by sixty-four rounds, each of which uses up the first word of a window of sixteen and
appends a new one to it.

Owns: the constants, the padding, the rounds and the text form in hexadecimal digits.

Does not own: what is digested.
-/

namespace PassScheduler.Digest

/-- The words that the rounds add, from the cube roots of the first sixty-four primes. -/
def roundConstants : List UInt32 := [
  0x428a2f98, 0x71374491, 0xb5c0fbcf, 0xe9b5dba5, 0x3956c25b, 0x59f111f1, 0x923f82a4, 0xab1c5ed5,
  0xd807aa98, 0x12835b01, 0x243185be, 0x550c7dc3, 0x72be5d74, 0x80deb1fe, 0x9bdc06a7, 0xc19bf174,
  0xe49b69c1, 0xefbe4786, 0x0fc19dc6, 0x240ca1cc, 0x2de92c6f, 0x4a7484aa, 0x5cb0a9dc, 0x76f988da,
  0x983e5152, 0xa831c66d, 0xb00327c8, 0xbf597fc7, 0xc6e00bf3, 0xd5a79147, 0x06ca6351, 0x14292967,
  0x27b70a85, 0x2e1b2138, 0x4d2c6dfc, 0x53380d13, 0x650a7354, 0x766a0abb, 0x81c2c92e, 0x92722c85,
  0xa2bfe8a1, 0xa81a664b, 0xc24b8b70, 0xc76c51a3, 0xd192e819, 0xd6990624, 0xf40e3585, 0x106aa070,
  0x19a4c116, 0x1e376c08, 0x2748774c, 0x34b0bcb5, 0x391c0cb3, 0x4ed8aa4a, 0x5b9cca4f, 0x682e6ff3,
  0x748f82ee, 0x78a5636f, 0x84c87814, 0x8cc70208, 0x90befffa, 0xa4506ceb, 0xbef9a3f7, 0xc67178f2]

/-- The eight words that are carried from block to block. -/
structure State where
  a : UInt32
  b : UInt32
  c : UInt32
  d : UInt32
  e : UInt32
  f : UInt32
  g : UInt32
  h : UInt32
deriving DecidableEq, Repr

/-- The words before the first block, from the square roots of the first eight primes. -/
def State.start : State :=
  ⟨0x6a09e667, 0xbb67ae85, 0x3c6ef372, 0xa54ff53a,
    0x510e527f, 0x9b05688c, 0x1f83d9ab, 0x5be0cd19⟩

namespace State

/-- Adds two states word by word. -/
def add (first second : State) : State :=
  ⟨first.a + second.a, first.b + second.b, first.c + second.c, first.d + second.d,
    first.e + second.e, first.f + second.f, first.g + second.g, first.h + second.h⟩

def words (state : State) : List UInt32 :=
  [state.a, state.b, state.c, state.d, state.e, state.f, state.g, state.h]

end State

def rotateRight (x n : UInt32) : UInt32 :=
  (x >>> n) ||| (x <<< (32 - n))

/-- One round with a constant and a word of the window. -/
def round (state : State) (constant word : UInt32) : State :=
  let e := state.e
  let a := state.a
  let mixE := rotateRight e 6 ^^^ rotateRight e 11 ^^^ rotateRight e 25
  let choice := (e &&& state.f) ^^^ (~~~e &&& state.g)
  let first := state.h + mixE + choice + constant + word
  let mixA := rotateRight a 2 ^^^ rotateRight a 13 ^^^ rotateRight a 22
  let majority := (a &&& state.b) ^^^ (a &&& state.c) ^^^ (state.b &&& state.c)
  ⟨first + (mixA + majority), a, state.b, state.c, state.d + first, e, state.f, state.g⟩

/-- The word that follows a window of sixteen. -/
def nextWord (window : List UInt32) : UInt32 :=
  let early := window.getD 1 0
  let late := window.getD 14 0
  let mixEarly := rotateRight early 7 ^^^ rotateRight early 18 ^^^ (early >>> 3)
  let mixLate := rotateRight late 17 ^^^ rotateRight late 19 ^^^ (late >>> 10)
  mixLate + window.getD 9 0 + mixEarly + window.getD 0 0

/-- Rounds with the given constants, each with the first word of the window, which then moves on
by one. -/
def rounds : List UInt32 → State → List UInt32 → State
  | [], state, _ => state
  | constant :: rest, state, window =>
      rounds rest (round state constant (window.getD 0 0)) (window.tail ++ [nextWord window])

/-- Works blocks of sixteen words into a state. -/
def absorb (state : State) (words : List UInt32) : State :=
  if words = [] then
    state
  else
    absorb (state.add (rounds roundConstants state (words.take 16))) (words.drop 16)
termination_by words.length
decreasing_by
  rename_i present
  have positive := List.length_pos_iff.2 present
  simp only [List.length_drop]
  omega

/-- The low bytes of a number, the highest of them first. -/
def bigEndian (n : Nat) : (count : Nat) → List UInt8
  | 0 => []
  | count + 1 => bigEndian (n / 256) count ++ [UInt8.ofNat n]

/-- The bytes with a one bit, zeros and the number of bits after them, up to whole blocks. -/
def pad (bytes : List UInt8) : List UInt8 :=
  bytes ++ 0x80 :: List.replicate ((119 - bytes.length % 64) % 64) 0 ++
    bigEndian (8 * bytes.length) 8

/-- Words of four bytes each. -/
def wordsOf : List UInt8 → List UInt32
  | a :: b :: c :: d :: rest =>
      UInt32.ofNat (((a.toNat * 256 + b.toNat) * 256 + c.toNat) * 256 + d.toNat) :: wordsOf rest
  | _ => []

/-- The digest of some bytes. -/
def sha256 (bytes : List UInt8) : List UInt8 :=
  (absorb .start (wordsOf (pad bytes))).words.flatMap fun word => bigEndian word.toNat 4

/-- Bytes as pairs of lower-case hexadecimal digits. -/
def hex (bytes : List UInt8) : String :=
  String.ofList (bytes.flatMap fun byte =>
    [Nat.digitChar (byte.toNat / 16), Nat.digitChar (byte.toNat % 16)])

/-- The digest of the UTF-8 form of a text, in hexadecimal digits. -/
def ofText (text : String) : String :=
  hex (sha256 text.toUTF8.toList)

end PassScheduler.Digest
