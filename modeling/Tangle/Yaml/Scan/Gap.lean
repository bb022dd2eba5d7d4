import Tangle.Yaml.Token

/-!
Contract: the space between the words of a scalar that may run over several lines.

Owns: `Gap`, how it is read, and how it folds into the value.

Does **not** own: the words (`Tangle.Yaml.Scan.Plain`, `Tangle.Yaml.Scan.Quoted`).

A gap within a line is kept as it stands. A gap with line breaks loses its pads;
its first break becomes a space, or disappears when more breaks follow, unless it
is a separator, which stays.
-/

set_option autoImplicit false

namespace Tangle.Yaml

structure Gap where
  cursor : Cursor
  pads : List Char := []
  lead : List Char := []
  trail : List Char := []
  broken : Bool := false
  deriving Repr, Inhabited

namespace Gap

/-- What the gap contributes to the value. -/
def folded (gap : Gap) : List Char :=
  if !gap.broken then gap.pads
  else if gap.lead.head? == some '\n' then
    if gap.trail.isEmpty then [' '] else gap.trail
  else gap.lead ++ gap.trail

/-- A tab before column `limit` on a line that the gap has opened. -/
def tabViolates (gap : Gap) (limit : Int) : Bool :=
  gap.broken && gap.cursor.atChar '\t' && (gap.cursor.mark.column : Int) < limit

/-- Takes in one pad or break; the cursor must be at one. -/
def step (gap : Gap) : Gap :=
  match gap.cursor.peek? with
  | none => gap
  | some c =>
      if isPad c then
        { gap with
          cursor := gap.cursor.skip
          pads := if gap.broken then gap.pads else gap.pads ++ [c] }
      else if gap.broken then
        { gap with cursor := gap.cursor.skipLine, trail := gap.trail ++ gap.cursor.breakText }
      else
        { gap with
          cursor := gap.cursor.skipLine, pads := [], lead := gap.cursor.breakText
          broken := true }

/-- Reads pads and breaks to the next word. The answer is `none` at a tab that
violates the indentation `limit`, together with the gap up to it. -/
def read (limit : Option Int) : Nat → Gap → Gap × Bool
  | 0, gap => (gap, true)
  | fuel + 1, gap =>
      match gap.cursor.peek? with
      | none => (gap, true)
      | some c =>
          if isPad c || isBreak c then
            match limit with
            | some column => if gap.tabViolates column then (gap, false) else read limit fuel gap.step
            | none => read limit fuel gap.step
          else (gap, true)

end Gap

end Tangle.Yaml
