/-!
Contract: binary floating-point numbers of 53 significant bits, in exact integer
arithmetic.

Owns: `Binary`, and the nearest such number to a decimal fraction, ties to even.

Does **not** own: how numbers are written (`Tangle.Decimal.Shortest`).
-/

set_option autoImplicit false

namespace Tangle.Decimal

/-- The number `±mantissa · 2 ^ exponent`. -/
structure Binary where
  negative : Bool
  mantissa : Nat
  exponent : Int
  deriving DecidableEq, Repr, Inhabited

/-- Least exponent: that of the smallest positive number. -/
def leastExponent : Int := -1074

/-- Largest exponent of a finite number. -/
def greatestExponent : Int := 971

/-- Significant bits. -/
def precision : Nat := 53

/-- The quotient rounded to the nearest integer, ties to even. -/
def roundDiv (num den : Nat) : Nat :=
  let quotient := num / den
  let twice := 2 * (num % den)
  if twice < den then quotient
  else if twice > den then quotient + 1
  else if quotient % 2 = 0 then quotient else quotient + 1

/-- The two sides of a fraction scaled by `2 ^ -shift`. -/
def scaled (num den : Nat) (shift : Int) : Nat × Nat :=
  if shift ≥ 0 then (num, den * Nat.pow 2 shift.toNat)
  else (num * Nat.pow 2 (-shift).toNat, den)

/-- The nearest number to the positive fraction `num / den`; none when it is too
large. -/
def ofFraction? (negative : Bool) (num den : Nat) : Option Binary :=
  if num = 0 then some ⟨negative, 0, leastExponent⟩
  else
    let magnitude : Int := (Nat.log2 num : Int) - (Nat.log2 den : Int)
    let low := max (magnitude - precision) leastExponent
    let (lowNum, lowDen) := scaled num den low
    let exponent := if lowNum / lowDen < Nat.pow 2 precision then low else low + 1
    let (scaledNum, scaledDen) := scaled num den exponent
    let mantissa := roundDiv scaledNum scaledDen
    let (mantissa, exponent) :=
      if mantissa = Nat.pow 2 precision then (Nat.pow 2 (precision - 1), exponent + 1)
      else (mantissa, exponent)
    if exponent > greatestExponent then none else some ⟨negative, mantissa, exponent⟩

/-- Powers of ten beyond this bound give zero or too large a number. -/
def powerBound : Int := 400

/-- The nearest number to `digits · 10 ^ power`, where `digits` has `count` decimal
digits; none when it is too large. -/
def ofDecimal? (negative : Bool) (digits count : Nat) (power : Int) : Option Binary :=
  if digits = 0 then some ⟨negative, 0, leastExponent⟩
  else if (count : Int) + power < -powerBound then some ⟨negative, 0, leastExponent⟩
  else if power > powerBound then none
  else if power ≥ 0 then ofFraction? negative (digits * Nat.pow 10 power.toNat) 1
  else ofFraction? negative digits (Nat.pow 10 (-power).toNat)

/-- Decimal digits with their value. -/
def digitsValue (digits : List Char) : Nat :=
  digits.foldl (fun value c => value * 10 + (c.toNat - 48)) 0

/-- The sign in front of a number and the rest. -/
def splitSign : List Char → Bool × List Char
  | '-' :: rest => (true, rest)
  | '+' :: rest => (false, rest)
  | rest => (false, rest)

/-- The exponent behind a fraction: absent, or `e` with an optional sign and digits. -/
def exponent? (text : List Char) : Option Int :=
  match text with
  | [] => some 0
  | c :: rest =>
      if c == 'e' || c == 'E' then
        let (negative, digits) := splitSign rest
        if digits.isEmpty || !digits.all Char.isDigit then none
        else
          let value : Int := digitsValue digits
          some (if negative then -value else value)
      else none

/-- Reads a decimal number: digits with an optional point among, before or after
them, and an optional exponent. The outer answer says whether the text is such a
number, the inner one whether it is in range. -/
def ofText? (text : List Char) : Option (Option Binary) :=
  let (negative, body) := splitSign text
  let whole := body.takeWhile Char.isDigit
  let rest := body.dropWhile Char.isDigit
  let (fraction, tail) :=
    match rest with
    | '.' :: after => (after.takeWhile Char.isDigit, after.dropWhile Char.isDigit)
    | _ => ([], rest)
  if whole.isEmpty && fraction.isEmpty then none
  else
    match exponent? tail with
    | none => none
    | some power =>
        let digits := whole ++ fraction
        let significant := digits.dropWhile (· == '0')
        some (ofDecimal? negative (digitsValue digits) significant.length
          (power - fraction.length))

end Tangle.Decimal
