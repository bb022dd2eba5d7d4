import Tangle.Text.Symbol
import Tangle.Yaml.Scan.Gap

/-!
Contract: plain scalars, which have no delimiters of their own.

Owns: where a plain scalar ends and the value it has.

Does **not** own: which plain values stand for something other than text
(`Tangle.Yaml.Resolve`).
-/

set_option autoImplicit false

namespace Tangle.Yaml

/-- The brackets and the comma, which end a plain scalar inside a flow collection. -/
def isFlowMark (c : Char) : Bool :=
  c == ',' || c == '[' || c == ']' || c == Text.Symbol.openBrace || c == Text.Symbol.closeBrace

namespace Plain

/-- A colon that a flow mark or a question mark follows has no reading. -/
def strayColon (flow : Bool) (c : Char) (next : Option Char) : Bool :=
  flow && c == ':' &&
    match next with
    | some d => isFlowMark d || d == '?'
    | none => false

/-- Whether `c`, with `next` after it, ends a word. -/
def endsWord (flow : Bool) (c : Char) (next : Option Char) : Bool :=
  isPad c || isBreak c || strayColon flow c next
    || (c == ':' && Cursor.blankOrEnd next) || (flow && isFlowMark c)

/-- The characters up to the end of the word. -/
def word (flow : Bool) : List Char → List Char
  | [] => []
  | c :: rest => if endsWord flow c rest.head? then [] else c :: word flow rest

/-- What has been read of a scalar: its value, the mark after its last word, and
the gap that follows. -/
structure Progress where
  value : List Char := []
  stop : Mark
  gap : Gap
  deriving Repr, Inhabited

/-- Reads words and gaps. `limit` is the least column of a continuation line. -/
def read (flow : Bool) (limit : Int) (start : Mark) :
    Nat → Progress → Except SyntaxError Progress
  | 0, progress => .ok progress
  | fuel + 1, progress =>
      let cursor := progress.gap.cursor
      if cursor.atAnyDocumentMarker || cursor.atChar '#' then .ok progress
      else
        let run := word flow cursor.rest
        let after := Cursor.skipMany run.length cursor
        let stray :=
          match after.peek? with
          | some c => strayColon flow c (after.ahead? 1)
          | none => false
        if stray then
          .error { problem := .unexpectedColon, mark := after.mark,
                   activity := some (.plainScalar, start) }
        else
          let progress : Progress :=
            if run.isEmpty then progress
            else
              { value := progress.value ++ progress.gap.folded ++ run, stop := after.mark
                gap := { cursor := after } }
          match after.peek? with
          | none => .ok progress
          | some c =>
              if isPad c || isBreak c then
                match Gap.read (some limit) (after.rest.length + 1) progress.gap with
                | (gap, false) =>
                    .error { problem := .tabViolatesIndentation, mark := gap.cursor.mark,
                             activity := some (.plainScalar, start) }
                | (gap, true) =>
                    let progress := { progress with gap := gap }
                    if !flow && (gap.cursor.mark.column : Int) < limit then .ok progress
                    else read flow limit start fuel progress
              else .ok progress

/-- A plain scalar at the cursor, the cursor after the gap behind it, and whether
that gap opened a new line. -/
def scan (flow : Bool) (indent : Int) (cursor : Cursor) :
    Except SyntaxError (Token × Cursor × Bool) := do
  let progress ← read flow (indent + 1) cursor.mark (cursor.rest.length + 1)
    { stop := cursor.mark, gap := { cursor := cursor } }
  return (⟨.scalar (String.ofList progress.value) .plain, cursor.mark, progress.stop⟩,
    progress.gap.cursor, progress.gap.broken)

end Plain

end Tangle.Yaml
