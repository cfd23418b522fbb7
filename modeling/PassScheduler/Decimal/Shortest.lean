/-!
Contract: the shortest decimal that reads back as a given binary number.

A positive binary number is `mantissa * 2 ^ exponent`. The reals that round to it form an
interval around it, whose ends belong to it iff the mantissa is even. For one digit, two digits,
and so on, the two neighbours of the number among the decimals of that many digits are tested;
the first hit wins, the nearer of two, and of two equally near ones the even one. All arithmetic
is on natural numbers.

Owns: the decoding of 64-bit numbers, the interval and the search.

Does not own: how the digits are laid out.
-/

namespace PassScheduler.Decimal

/-- A positive binary number. It is `narrow` if its lower neighbour is only half as far away as
its upper one. -/
structure Binary where
  mantissa : Nat
  exponent : Int
  narrow : Bool
deriving DecidableEq, Repr

/-- The number `digits * 10 ^ exponent`. -/
structure Scaled where
  digits : Nat
  exponent : Int
deriving DecidableEq, Repr

/-- The absolute value of a 64-bit number that is finite and not zero, from its bits. -/
def Binary.ofBits (bits : Nat) : Binary :=
  let hidden : Nat := 0x10000000000000
  let fraction : Nat := bits % hidden
  let biased : Nat := bits / hidden % 2048
  if biased = 0 then
    ⟨fraction, -1074, false⟩
  else
    ⟨hidden + fraction, (biased : Int) - 1075, fraction = 0 && biased > 1⟩

namespace Binary

/-- The factors by which a count of quarters of the last binary place, and a count of units at a
decimal place, are to be multiplied to make them comparable. -/
def factors (number : Binary) (place : Int) : Nat × Nat :=
  let quarter := number.exponent - 2
  (Nat.pow 2 quarter.toNat * Nat.pow 10 (-place).toNat,
    Nat.pow 10 place.toNat * Nat.pow 2 (-quarter).toNat)

/-- Whether a decimal with its last digit at a place rounds to the number. -/
def admits (number : Binary) (place : Int) (digits : Nat) : Bool :=
  let (binaryUnit, decimalUnit) := number.factors place
  let low := (4 * number.mantissa - if number.narrow then 1 else 2) * binaryUnit
  let high := (4 * number.mantissa + 2) * binaryUnit
  let decimal := digits * decimalUnit
  if number.mantissa % 2 = 0 then
    low ≤ decimal && decimal ≤ high
  else
    low < decimal && decimal < high

/-- The decimal with its last digit at a place that rounds to the number and is nearest to it. -/
def nearest? (number : Binary) (place : Int) : Option Scaled :=
  let (binaryUnit, decimalUnit) := number.factors place
  let value := 4 * number.mantissa * binaryUnit
  let below := value / decimalUnit
  let distances := compare (value - below * decimalUnit) ((below + 1) * decimalUnit - value)
  let preferred := match distances with
    | .lt => below
    | .gt => below + 1
    | .eq => if below % 2 = 0 then below else below + 1
  let candidates := [preferred, if preferred = below then below + 1 else below]
  (candidates.find? (number.admits place)).map fun digits => ⟨digits, place⟩

/-- The place of the first digit, counted so that one is the place before the point. No 64-bit
number is so small that its first 400 places are all zero. -/
def leadingPlace (number : Binary) : Int :=
  let (binaryUnit, decimalUnit) := number.factors (-400)
  let digits := Nat.toDigits 10 (4 * number.mantissa * binaryUnit / decimalUnit)
  (digits.length : Int) - 400

/-- The shortest decimal that rounds to the number. Seventeen digits are always enough. -/
def shortest (number : Binary) : Scaled :=
  let leading := number.leadingPlace
  ((List.range 17).findSome? fun (count : Nat) =>
    number.nearest? (leading - ((count : Int) + 1))).getD ⟨0, 0⟩

end Binary

/-- The same number without zeros at the end of its digits. -/
def Scaled.trim (number : Scaled) : Scaled :=
  let zeros := ((Nat.toDigits 10 number.digits).reverse.takeWhile (· = '0')).length
  ⟨number.digits / Nat.pow 10 zeros, number.exponent + zeros⟩

end PassScheduler.Decimal
