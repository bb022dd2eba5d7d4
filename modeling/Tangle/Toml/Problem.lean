import Tangle.Source.Position
import Tangle.Toml.Cursor

/-!
Contract: what is wrong with a TOML text, and how that is shown.

Owns: the wording of failures and the excerpt with the place marked.
-/

set_option autoImplicit false

namespace Tangle.Toml

open Tangle.Source

/-- A message about a place in a text. -/
structure Problem where
  message : String
  span : Option Span
  deriving DecidableEq, Repr, Inhabited

/-- Label, expectations and cause, each on a line of its own. -/
def Failure.message (failure : Failure) : String :=
  let label := (failure.label.map fun label => "invalid " ++ label).toList
  let expected :=
    if failure.expected.isEmpty then [] else ["expected " ++ Text.join ", " failure.expected]
  Text.join "\n" (label ++ expected ++ failure.cause.toList)

/-- A failure points at one character. -/
def Failure.problem (failure : Failure) (text : String) : Problem :=
  let width := ((Text.dropBytes failure.offset text.toList).head?.map Char.utf8Size).getD 0
  ⟨failure.message, some ⟨failure.offset, failure.offset + width⟩⟩

/-- Line and column of a byte, both counted from zero. A column counts characters,
except that one in front of a character of several bytes counts bytes. -/
def locate (text : String) (offset : Nat) : Nat × Nat :=
  let size := text.utf8ByteSize
  if size = 0 then (0, offset)
  else
    let inside := min offset (size - 1)
    let before := Text.takeBytes inside text.toList
    let line := before.count '\n'
    let lineChars := (before.reverse.takeWhile (· != '\n')).reverse
    let startsWide :=
      match (Text.dropBytes inside text.toList).head? with
      | some c => offset < size && 1 < c.utf8Size
      | none => false
    let column := if startsWide then Text.byteSize lineChars else lineChars.length
    (line, column + (offset - inside))

/-- The message below an excerpt of the line it is about. -/
def Problem.render (problem : Problem) (text : String) : String :=
  match problem.span with
  | none => problem.message ++ "\n"
  | some span =>
      let (line, column) := locate text span.start
      let number := Text.ofNat (line + 1)
      let content := ((Text.splitLines text)[line]?).getD ""
      let gutter := Text.repeated (number.length + 1) ' '
      let width := min (span.stop - span.start) (content.utf8ByteSize - column)
      "TOML parse error at line " ++ number ++ ", column " ++ Text.ofNat (column + 1) ++ "\n"
        ++ gutter ++ "|\n"
        ++ number ++ " | " ++ content ++ "\n"
        ++ gutter ++ "|" ++ Text.repeated (column + 1) ' ' ++ Text.repeated (max 1 width) '^' ++ "\n"
        ++ problem.message ++ "\n"

end Tangle.Toml
