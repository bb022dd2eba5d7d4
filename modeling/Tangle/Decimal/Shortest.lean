import Tangle.Decimal.Binary
import Tangle.Text.Basic

/-!
Contract: the fewest decimal digits that read back as a given number, and two ways
to lay them out.

Owns: `shortest`, `scientific` and `positional`.

Does **not** own: the numbers themselves (`Tangle.Decimal.Binary`).

Every real number between the midpoints to the neighbours of a binary number reads
back as that number; the midpoints do so too when the mantissa is even. On the grid
of decimals with a given number of digits, only the two neighbours of the value
have to be tested.
-/

set_option autoImplicit false

namespace Tangle.Decimal

/-- The value and the distances to the midpoints below and above it, all over one
common denominator. -/
structure Interval where
  value : Nat
  below : Nat
  above : Nat
  den : Nat
  closed : Bool
  deriving Repr, Inhabited

def Binary.interval (number : Binary) : Interval :=
  -- The gap below a power of two is half as wide.
  let narrow := number.mantissa = Nat.pow 2 (precision - 1) ∧ number.exponent > leastExponent
  let value := 4 * number.mantissa
  let below := if narrow then 1 else 2
  let shift := number.exponent - 2
  if shift ≥ 0 then
    let unit := Nat.pow 2 shift.toNat
    ⟨value * unit, below * unit, 2 * unit, 1, number.mantissa % 2 = 0⟩
  else ⟨value, below, 2, Nat.pow 2 (-shift).toNat, number.mantissa % 2 = 0⟩

/-- Whether `digits · 10 ^ power` reads back as the number of the interval. -/
def Interval.contains (interval : Interval) (digits : Nat) (power : Int) : Bool :=
  let (candidate, unit) :=
    if power ≥ 0 then (digits * Nat.pow 10 power.toNat * interval.den, 1)
    else (digits * interval.den, Nat.pow 10 (-power).toNat)
  let value := interval.value * unit
  let low := value - interval.below * unit
  let high := value + interval.above * unit
  if interval.closed then low ≤ candidate && candidate ≤ high
  else low < candidate && candidate < high

/-- The floor of `value / 10 ^ power`, and twice the remainder against the step. -/
def Interval.onGrid (interval : Interval) (power : Int) : Nat × Bool :=
  let (num, den) :=
    if power ≥ 0 then (interval.value, interval.den * Nat.pow 10 power.toNat)
    else (interval.value * Nat.pow 10 (-power).toNat, interval.den)
  let floor := num / den
  let twice := 2 * (num % den)
  (floor, twice < den || (twice = den && floor % 2 = 0))

/-- The neighbour of the value on the grid `10 ^ power` that reads back, the nearer
one if both do. -/
def Interval.neighbour? (interval : Interval) (power : Int) : Option Nat :=
  let (floor, floorNearer) := interval.onGrid power
  let first := if floorNearer then floor else floor + 1
  let second := if floorNearer then floor + 1 else floor
  if interval.contains first power then some first
  else if interval.contains second power then some second
  else none

/-- The exponent of ten of the leading digit. -/
def Interval.leading (interval : Interval) : Int :=
  let digits (n : Nat) : Int := (Nat.toDigits 10 n).length
  let guess := digits interval.value - digits interval.den
  -- The quotient has `guess` or `guess + 1` digits ahead of the point.
  if (interval.onGrid guess).1 ≥ 1 then guess else guess - 1

/-- Tries coarser grids first; seventeen digits always suffice. -/
def Interval.search (interval : Interval) (leading : Int) : Nat → Nat → Nat × Int
  | 0, count => ((interval.onGrid (leading - count)).1, leading - count)
  | fuel + 1, count =>
      let power := leading - count
      match interval.neighbour? power with
      | some digits => (digits, power)
      | none => interval.search leading fuel (count + 1)

/-- Removes zeros at the end of the digits. -/
def stripZeros : Nat → Nat → Int → Nat × Int
  | 0, digits, power => (digits, power)
  | fuel + 1, digits, power =>
      if digits % 10 = 0 && digits ≠ 0 then stripZeros fuel (digits / 10) (power + 1)
      else (digits, power)

/-- Digits and power of ten of the shortest decimal that reads back. -/
def Binary.shortest (number : Binary) : Nat × Int :=
  if number.mantissa = 0 then (0, 0)
  else
    let interval := number.interval
    let (digits, power) := interval.search interval.leading 17 0
    stripZeros 20 digits power

/-- Places a point into digits: before digit `point`, with zeros where digits are
missing. A number without a fraction has none. -/
def pointed (digits : List Char) (point : Int) : List Char × List Char :=
  if point ≤ 0 then (['0'], List.replicate (-point).toNat '0' ++ digits)
  else if (digits.length : Int) ≤ point then
    (digits ++ List.replicate (point.toNat - digits.length) '0', [])
  else (digits.take point.toNat, digits.drop point.toNat)

/-- The number without an exponent and with at least one digit after the point. -/
def Binary.positional (number : Binary) : String :=
  let (digits, power) := number.shortest
  let chars := Nat.toDigits 10 digits
  let (whole, fraction) :=
    if digits = 0 then (['0'], []) else pointed chars (chars.length + power)
  String.ofList ((if number.negative then ['-'] else []) ++ whole ++ ['.']
    ++ (if fraction.isEmpty then ['0'] else fraction))

/-- The number without an exponent when its leading digit is at `10 ^ -5` to
`10 ^ 15`, and with one otherwise. -/
def Binary.scientific (number : Binary) : String :=
  let (digits, power) := number.shortest
  let chars := Nat.toDigits 10 digits
  let point : Int := chars.length + power
  if digits = 0 || (-5 < point && point ≤ 16) then number.positional
  else
    let fraction := if chars.length ≤ 1 then [] else '.' :: chars.drop 1
    let exponent := point - 1
    let exponentText :=
      (if exponent < 0 then "-" else "") ++ Text.ofNat exponent.natAbs
    String.ofList ((if number.negative then ['-'] else []) ++ chars.take 1 ++ fraction)
      ++ "e" ++ exponentText

/-- A number, or one of the values beside the numbers. -/
inductive Real where
  | finite (value : Binary)
  | infinite (negative : Bool)
  | notANumber
  deriving DecidableEq, Repr, Inhabited

/-- Equality by value: both zeros are the same. -/
def Real.same : Real → Real → Bool
  | finite a, finite b => a == b || (a.mantissa == 0 && b.mantissa == 0)
  | a, b => a == b

/-- A real as a message spells it. -/
def Real.spelled : Real → String
  | finite value => value.positional
  | infinite negative => if negative then "-inf" else "inf"
  | notANumber => "NaN"

end Tangle.Decimal
