import Tangle.Decimal.Shortest
import Tangle.Toml.Strings

/-!
Contract: the numbers and moments of a TOML text.

Owns: integers in four radices, reals, dates and times.

Does **not** own: the choice between them (`Tangle.Toml.Value`).

Digits may be grouped by single underscores. Integers have 64 bits. Dates and
times are only checked: nothing here asks for their value.
-/

set_option autoImplicit false

namespace Tangle.Toml

/-- Digits after the first, without the underscores between them. -/
def moreDigits (isDigit : Char → Bool) : Nat → Cursor → Reading (List Char × Cursor)
  | 0, cursor => .ok ([], cursor)
  | fuel + 1, cursor =>
      match cursor.rest with
      | [] => .ok ([], cursor)
      | c :: _ =>
          if isDigit c then do
            let (more, after) ← moreDigits isDigit fuel cursor.next
            return (c :: more, after)
          else if c = '_' then
            match cursor.next.rest with
            | d :: _ =>
                if isDigit d then moreDigits isDigit fuel cursor.next
                else expecting ["digit"] (committed (failAt cursor.next))
            | [] => expecting ["digit"] (committed (failAt cursor.next))
          else .ok ([], cursor)

/-- At least one digit. -/
def digitRun (isDigit : Char → Bool) (cursor : Cursor) : Reading (List Char × Cursor) :=
  match cursor.rest with
  | [] => failAt cursor
  | c :: _ =>
      if isDigit c then do
        let (more, after) ← moreDigits isDigit cursor.rest.length cursor.next
        return (c :: more, after)
      else failAt cursor

/-- A sign, if one stands here. -/
def sign (cursor : Cursor) : List Char × Cursor :=
  match cursor.rest with
  | '-' :: _ => (['-'], cursor.next)
  | '+' :: _ => (['+'], cursor.next)
  | _ => ([], cursor)

/-- Sign and digits of a decimal integer; a leading zero stands alone. -/
def decimalDigits (cursor : Cursor) : Reading (List Char × Cursor) :=
  labelled "integer" do
    let (signed, after) := sign cursor
    match after.rest with
    | '0' :: _ => return (signed ++ ['0'], after.next)
    | _ =>
        let (digits, last) ← digitRun Char.isDigit after
        return (signed ++ digits, last)

/-- An integer that fits in 64 bits. -/
def fitting (start after : Cursor) (value : Int) : Reading (Int × Cursor) :=
  if value > Int.pow 2 63 - 1 then refuseAt start "number too large to fit in target type"
  else if value < -(Int.pow 2 63) then refuseAt start "number too small to fit in target type"
  else .ok (value, after)

def decimalInteger (cursor : Cursor) : Reading (Int × Cursor) := do
  let (digits, after) ← decimalDigits cursor
  let (negative, magnitude) := Decimal.splitSign digits
  let value : Int := Decimal.digitsValue magnitude
  fitting cursor after (if negative then -value else value)

/-- An integer behind the two characters that announce its radix. -/
def radixInteger (label : String) (radix : Nat) (cursor : Cursor) : Reading (Int × Cursor) := do
  let inRadix (c : Char) : Bool :=
    match hexDigit? c with
    | some digit => digit < radix
    | none => false
  let (digits, after) ← labelled label (committed (digitRun inRadix (cursor.skip 2)))
  let value := digits.foldl (fun total c => total * radix + (hexDigit? c).getD 0) 0
  fitting cursor after value

def integer (cursor : Cursor) : Reading (Int × Cursor) :=
  match cursor.rest with
  | '0' :: 'x' :: _ => radixInteger "hexadecimal integer" 16 cursor
  | '0' :: 'o' :: _ => radixInteger "octal integer" 8 cursor
  | '0' :: 'b' :: _ => radixInteger "binary integer" 2 cursor
  | _ => decimalInteger cursor

/-- An exponent with its mark. -/
def exponent (cursor : Cursor) : Reading (List Char × Cursor) :=
  match cursor.rest with
  | c :: _ =>
      if c = 'e' || c = 'E' then do
        let (signed, after) := sign cursor.next
        let (digits, last) ← committed (digitRun Char.isDigit after)
        return ('e' :: signed ++ digits, last)
      else failAt cursor
  | [] => failAt cursor

/-- A fraction with its point. -/
def fraction (cursor : Cursor) : Reading (List Char × Cursor) :=
  match cursor.rest with
  | '.' :: _ => do
      let (digits, after) ←
        expecting ["digit"] (committed (digitRun Char.isDigit cursor.next))
      return ('.' :: digits, after)
  | _ => failAt cursor

/-- The text of a real that is written in digits. -/
def realDigits (cursor : Cursor) : Reading (List Char × Cursor) := do
  let (whole, after) ← decimalDigits cursor
  let (tail, last) ← orElse (exponent after) fun _ => do
    let (decimals, behind) ← fraction after
    let (power, last) ← optional behind (exponent behind)
    return (decimals ++ power.getD [], last)
  return (whole ++ tail, last)

/-- A real too large to be one is refused unless it is negative. -/
def digitReal (cursor : Cursor) : Reading (Decimal.Real × Cursor) := do
  let (text, after) ← realDigits cursor
  match Decimal.ofText? text with
  | some (some value) => return (.finite value, after)
  | _ =>
      if text.head? = some '-' then return (.infinite true, after)
      else committed (failAt cursor)

def specialReal (cursor : Cursor) : Reading (Decimal.Real × Cursor) :=
  let (signed, after) := sign cursor
  match after.rest with
  | 'i' :: 'n' :: 'f' :: _ => .ok (.infinite (signed == ['-']), after.skip 3)
  | 'n' :: 'a' :: 'n' :: _ => .ok (.notANumber, after.skip 3)
  | _ => failAt after

def real (cursor : Cursor) : Reading (Decimal.Real × Cursor) :=
  labelled "floating-point number" (orElse (digitReal cursor) fun _ => specialReal cursor)

/-- Exactly `count` digits, with their value. -/
def fixedDigits (count : Nat) (cursor : Cursor) : Reading (Nat × Cursor) :=
  let digits := cursor.rest.take count
  if digits.length = count && digits.all Char.isDigit then
    .ok (Decimal.digitsValue digits, cursor.skip count)
  else failAt cursor

/-- Two digits between bounds. -/
def boundedPair (low high : Nat) (cursor : Cursor) : Reading (Nat × Cursor) := do
  let (value, after) ← fixedDigits 2 cursor
  if low ≤ value && value ≤ high then return (value, after)
  else .error { offset := cursor.offset, cause := some outOfRange }

def daysInMonth (year month : Nat) : Nat :=
  let isLeap := year % 4 == 0 && (year % 100 != 0 || year % 400 == 0)
  if month == 2 then (if isLeap then 29 else 28)
  else if [4, 6, 9, 11].contains month then 30
  else 31

def date (cursor : Cursor) : Reading (Unit × Cursor) := do
  let (year, cursor) ← fixedDigits 4 cursor
  let ((), cursor) ← literal ['-'] cursor
  let (month, cursor) ← committed (boundedPair 1 12 cursor)
  let ((), cursor) ← committed (literal ['-'] cursor)
  let (day, after) ← committed (boundedPair 1 31 cursor)
  if day ≤ daysInMonth year month then return ((), after)
  else refuseAt cursor outOfRange

/-- A point and digits, if they stand here. -/
def secondFraction (cursor : Cursor) : Cursor :=
  match cursor.rest with
  | '.' :: d :: _ => if d.isDigit then (cursor.next.run Char.isDigit).2 else cursor
  | _ => cursor

def time (cursor : Cursor) : Reading (Unit × Cursor) := do
  let (_, cursor) ← boundedPair 0 23 cursor
  let ((), cursor) ← literal [':'] cursor
  committed do
    let (_, cursor) ← boundedPair 0 59 cursor
    let ((), cursor) ← literal [':'] cursor
    let (_, cursor) ← boundedPair 0 60 cursor
    return ((), secondFraction cursor)

def timeOffset (cursor : Cursor) : Reading (Unit × Cursor) :=
  labelled "time offset" <|
    match cursor.rest with
    | c :: _ =>
        if c = 'Z' || c = 'z' then .ok ((), cursor.next)
        else if c = '+' || c = '-' then
          committed do
            let (_, after) ← boundedPair 0 23 cursor.next
            let ((), after) ← literal [':'] after
            let (_, after) ← boundedPair 0 59 after
            return ((), after)
        else failAt cursor
    | [] => failAt cursor

/-- A time with an optional offset, behind a date. -/
def timeOfDay (cursor : Cursor) : Reading (Unit × Cursor) :=
  match cursor.rest with
  | c :: _ =>
      if c = 'T' || c = 't' || c = ' ' then do
        let ((), after) ← time cursor.next
        let (_, last) ← optional after (timeOffset after)
        return ((), last)
      else failAt cursor
  | [] => failAt cursor

/-- A date with an optional time, or a time. -/
def moment (cursor : Cursor) : Reading (Unit × Cursor) :=
  orElse
    (labelled "date-time" do
      let ((), after) ← date cursor
      let (_, last) ← optional after (timeOfDay after)
      return ((), last))
    fun _ => labelled "time" (time cursor)

end Tangle.Toml
