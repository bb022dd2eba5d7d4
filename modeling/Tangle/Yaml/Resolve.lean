import Tangle.Decimal.Shortest
import Tangle.Yaml.Node

/-!
Contract: what a plain scalar stands for.

Owns: the spellings of null, booleans, integers and reals, and their values.

Does **not** own: which type a place asks for (`Tangle.Yaml.Decode`).

Integers of more than 64 bits are a class of their own: they are numbers that no
place accepts. Digits with a leading zero are text.
-/

set_option autoImplicit false

namespace Tangle.Yaml

inductive Resolved where
  | null
  | boolean (value : Bool)
  | integer (value : Int)
  | wideUnsigned (value : Nat)
  | wideSigned (value : Int)
  | real (value : Decimal.Real)
  | text
  deriving DecidableEq, Repr, Inhabited

namespace Resolve

def isNull (text : String) : Bool :=
  text == "null" || text == "Null" || text == "NULL" || text == "~"

def boolean? (text : String) : Option Bool :=
  if text == "true" || text == "True" || text == "TRUE" then some true
  else if text == "false" || text == "False" || text == "FALSE" then some false
  else none

/-- Digits of a radix, at least one. -/
def digits? (radix : Nat) (text : List Char) : Option Nat :=
  if text.isEmpty then none
  else
    text.foldl (fun value c =>
      match value, hexValue? c with
      | some total, some digit => if digit < radix then some (total * radix + digit) else none
      | _, _ => none) (some 0)

/-- Digits alone of which the first of several is zero. -/
def zeroLed (text : List Char) : Bool :=
  let body := (Decimal.splitSign text).2
  match body with
  | '0' :: rest => !rest.isEmpty && rest.all Char.isDigit
  | _ => false

/-- The radix that two characters announce. -/
def radix? (text : List Char) : Option (Nat × List Char) :=
  match text with
  | '0' :: 'x' :: rest => some (16, rest)
  | '0' :: 'o' :: rest => some (8, rest)
  | '0' :: 'b' :: rest => some (2, rest)
  | _ => none

/-- An integer without a minus sign. -/
def natural? (text : List Char) : Option Nat :=
  let body :=
    match text with
    | '+' :: rest => rest
    | _ => text
  match radix? body with
  | some (radix, digits) => digits? radix digits
  | none => if zeroLed text then none else digits? 10 body

/-- The absolute value of an integer with a minus sign. -/
def negated? (text : List Char) : Option Nat :=
  match text with
  | '-' :: body =>
      match radix? body with
      | some (radix, digits) => digits? radix digits
      | none => if zeroLed text then none else digits? 10 body
  | _ => none

/-- Integers, by the width they need. -/
def integer? (text : List Char) : Option Resolved :=
  match natural? text with
  | some value =>
      if value < Nat.pow 2 64 then some (.integer value)
      else if value < Nat.pow 2 128 then some (.wideUnsigned value)
      else none
  | none =>
      match negated? text with
      | some value =>
          if value ≤ Nat.pow 2 63 then some (.integer (-(value : Int)))
          else if value ≤ Nat.pow 2 127 then some (.wideSigned (-(value : Int)))
          else none
      | none => none

def isInfinity (text : List Char) : Bool :=
  text == ".inf".toList || text == ".Inf".toList || text == ".INF".toList

/-- Reals; one that is out of range is none. -/
def real? (text : List Char) : Option Decimal.Real :=
  let unsigned? :=
    match text with
    | '+' :: '+' :: _ => none
    | '+' :: '-' :: _ => none
    | '+' :: rest => some rest
    | _ => some text
  match unsigned? with
  | none => none
  | some body =>
      if isInfinity body then some (.infinite false)
      else if text.head? == some '-' && isInfinity (text.drop 1) then some (.infinite true)
      else if text == ".nan".toList || text == ".NaN".toList || text == ".NAN".toList then
        some .notANumber
      else
        match Decimal.ofText? body with
        | some (some value) => some (.finite value)
        | _ => none

/-- What a plain scalar without a tag stands for. -/
def plain (text : String) : Resolved :=
  if text.isEmpty || isNull text then .null
  else
    match boolean? text with
    | some value => .boolean value
    | none =>
        match integer? text.toList with
        | some resolved => resolved
        | none =>
            if zeroLed text.toList then .text
            else
              match real? text.toList with
              | some value => .real value
              | none => .text

end Resolve

/-- The text of a real as a value. -/
def realText : Decimal.Real → String
  | .finite value => value.scientific
  | .infinite negative => if negative then "-.inf" else ".inf"
  | .notANumber => ".nan"

end Tangle.Yaml
