import PassScheduler.Decimal.Shortest

/-!
Contract: numbers in JavaScript object notation, as a reader of texts takes them.

A number without fraction and exponent is an integer if it fits into 64 bits, without a sign or
with one; every other number is taken as a 64-bit binary one, and one that is too large for that
is refused.

Owns: the numbers, their making from digits, and the text that shows one in a message.

Does not own: where in a text a number stands.
-/

namespace PassScheduler.Json

inductive Number where
  | natural (n : Nat)
  | negative (n : Nat)
  | float (x : Float)

/-- The largest number that is kept digit by digit. -/
def largestExact : Nat := UInt64.size - 1

/-- Appends digits to a number for as long as it stays exact. The answer holds the number, how
many digits went into it, and how many are left over. -/
def appendDigits (n : Nat) : List Char → Nat × Nat × Nat
  | [] => (n, 0, 0)
  | digit :: rest =>
      let next := 10 * n + (digit.toNat - '0'.toNat)
      if next ≤ largestExact then
        let (last, used, left) := appendDigits next rest
        (last, used + 1, left)
      else
        (n, 0, rest.length + 1)

/-- The binary number nearest to `significand * 10 ^ exponent`, up to the rounding of one
multiplication or of at most two divisions; `none` if it is too large. -/
def floatOf? (significand : Nat) (exponent : Int) : Option Float :=
  let float := (UInt64.ofNat significand).toFloat
  let size := exponent.natAbs
  if exponent < 0 then
    if size ≤ 308 then
      some (float / Float.ofScientific 1 false size)
    else if size ≤ 616 then
      some (float / Float.ofScientific 1 false 308 / Float.ofScientific 1 false (size - 308))
    else
      some 0
  else if size ≤ 308 then
    let product := float * Float.ofScientific 1 false size
    if product.isInf then none else some product
  else if significand = 0 then
    some 0
  else
    none

/-- The number written by an optional sign, digits, digits after a point and an exponent; `none`
if it is too large. -/
def Number.ofParts? (signed : Bool) (digits : List Char)
    (fraction : Option (List Char)) (exponent : Option Int) : Option Number :=
  let (whole, _, left) := appendDigits 0 digits
  match fraction, exponent with
  | none, none =>
      if left = 0 ∧ signed = false then
        some (.natural whole)
      else if left = 0 ∧ 0 < whole ∧ whole ≤ UInt64.size / 2 then
        some (.negative whole)
      else
        (floatOf? whole left).map fun x => .float (if signed then -x else x)
  | fraction, exponent =>
      let (significand, used, _) := appendDigits whole (fraction.getD [])
      let place := exponent.getD 0 + left - used
      (floatOf? significand place).map fun x => .float (if signed then -x else x)

/-- The exponent that follows a number's digits, always with its sign. -/
def exponentText (exponent : Int) : String :=
  if 0 ≤ exponent then "e+" ++ exponent.repr else "e" ++ exponent.repr

/-- Digits and a decimal exponent, with a point after at most sixteen places and after at most
four zeros, and in the form with an exponent otherwise. -/
def layOut (digits : String) (exponent : Int) : String :=
  let zeros := fun count : Int => String.ofList (List.replicate count.toNat '0')
  let point := digits.length + exponent
  let head := fun count : Int => String.ofList (digits.toList.take count.toNat)
  let tail := fun count : Int => String.ofList (digits.toList.drop count.toNat)
  if 0 ≤ exponent ∧ point ≤ 16 then
    digits ++ zeros exponent ++ ".0"
  else if 0 < point ∧ point ≤ 16 then
    head point ++ "." ++ tail point
  else if -5 < point ∧ point ≤ 0 then
    "0." ++ zeros (-point) ++ digits
  else if digits.length = 1 then
    digits ++ exponentText (point - 1)
  else
    head 1 ++ "." ++ tail 1 ++ exponentText (point - 1)

/-- The shortest text of a finite number that reads back as it. -/
def floatText (x : Float) : String :=
  let bits := x.toBits.toNat
  let magnitude := bits % (UInt64.size / 2)
  let sign := if magnitude = bits then "" else "-"
  if magnitude = 0 then
    sign ++ "0.0"
  else
    let decimal := (Decimal.Binary.ofBits bits).shortest.trim
    sign ++ layOut decimal.digits.repr decimal.exponent

/-- A number as messages show it. -/
def Number.describe : Number → String
  | .natural n => "integer `" ++ n.repr ++ "`"
  | .negative n => "integer `-" ++ n.repr ++ "`"
  | .float x => "floating point `" ++ floatText x ++ "`"

end PassScheduler.Json
