import Tangle.Source.Position

/-!
Contract: positions looked up in a table of the lines of a text.

Owns: the table of line starts, the search in it by halving, and `lookUp?`.

Does **not** own: what a position is (`Tangle.Source.Position`).
-/

set_option autoImplicit false

namespace Tangle.Source

/-- Where lines start in characters that stand from byte `offset` on, their own start left out. -/
def startsFrom : Nat → List Char → List Nat
  | _, [] => []
  | offset, c :: rest =>
      if c = '\n' then (offset + c.utf8Size) :: startsFrom (offset + c.utf8Size) rest
      else startsFrom (offset + c.utf8Size) rest

/-- The offsets at which the lines of a text start. -/
def lineStarts (text : String) : List Nat :=
  0 :: startsFrom 0 text.toList

/-- What a search in a table ends with: the place of an entry, or the place where it is missing. -/
inductive Search where
  | found (index : Nat)
  | missing (index : Nat)
  deriving DecidableEq, Repr

/-- Searches the entries from `low` up to `high` by halving. -/
def bisect (table : List Nat) (sought low high : Nat) : Search :=
  if low < high then
    let middle := low + (high - low) / 2
    let entry := table.getD middle 0
    if entry = sought then .found middle
    else if entry < sought then bisect table sought (middle + 1) high
    else bisect table sought low middle
  else .missing low
termination_by high - low

/-- The line that has started at the offset sought. -/
def Search.line : Search → Nat
  | found index => index
  | missing index => index - 1

/-- The line of an offset is searched in the table, and the characters from its start are counted.
There is no answer where the text cannot be cut. -/
def lookUp? (text : String) (offset : Nat) : Option Position := do
  let within := min offset text.utf8ByteSize
  let starts := lineStarts text
  let line := (bisect starts within 0 starts.length).line
  let start ← starts[line]?
  let passage ← (⟨start, within⟩ : Span).cut? text
  return ⟨line + 1, passage.toList.length + 1⟩

end Tangle.Source
