import Tangle.Decimal.Shortest
import Tangle.Text.Quoted

/-!
Contract: how messages name a value that stands in the wrong place.

Owns: the classes of values that structured texts can hold, and their wording.

Does **not** own: which class a place asks for.
-/

set_option autoImplicit false

namespace Tangle.Data

/-- What stands where something else was expected. -/
inductive Found where
  | null
  | boolean (value : Bool)
  | integer (value : Int)
  | wideInteger (value : Int) (signed : Bool)
  | real (value : Decimal.Real)
  | text (value : String)
  | sequence
  | mapping
  deriving DecidableEq, Repr, Inhabited

def intText (value : Int) : String :=
  if value < 0 then "-" ++ Text.ofNat value.natAbs else Text.ofNat value.natAbs

def ticked (text : String) : String :=
  "`" ++ text ++ "`"

def Found.describe : Found → String
  | null => "unit value"
  | boolean value => "boolean " ++ ticked (if value then "true" else "false")
  | integer value => "integer " ++ ticked (intText value)
  | wideInteger value signed =>
      "integer " ++ ticked (intText value) ++ (if signed then " as i128" else " as u128")
  | real value => "floating point " ++ ticked value.spelled
  | text value => "string " ++ Text.quoted value
  | sequence => "sequence"
  | mapping => "map"

end Tangle.Data
