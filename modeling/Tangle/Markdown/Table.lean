import Tangle.Markdown.Opener

/-!
Contract: where a table starts, and how many cells a row has.

Owns: the delimiter row, the cells of header and body rows, the test that header and
delimiters agree, and the limit on cells that are missing.

Does **not** own: the rows below (`Tangle.Markdown.Block`).
-/

set_option autoImplicit false

namespace Tangle.Markdown.Table

/-- Columns of a delimiter row while it is being read. -/
structure Delimiters where
  columns : Nat := 0
  fresh : Bool := true
  pipe : Bool := false
  hyphen : Bool := false
  hyphenHere : Bool := false
  deriving Repr, Inhabited

/-- Takes in one character of a delimiter row. -/
def Delimiters.step? (row : Delimiters) (c : Char) : Option Delimiters :=
  if c == ' ' then some row
  else if c == ':' then some { row with fresh := false }
  else if c == '-' then some { row with fresh := false, hyphen := true, hyphenHere := true }
  else if c == '|' then
    if row.hyphenHere then
      some { row with columns := row.columns + 1, fresh := true, pipe := true, hyphenHere := false }
    else none
  else none

def Delimiters.read : Delimiters → List Char → Option Delimiters
  | row, [] => some row
  | row, c :: rest =>
      match row.step? c with
      | some next => Delimiters.read next rest
      | none => none

/-- Columns of white space at the start of a line, up to `limit`, with the number of
characters they take. -/
def indentation (limit : Nat) (text : List Char) : Nat × Nat :=
  let (lead, width) := Lead.spaceUpTo { rest := text } limit
  (lead.taken, width)

/-- The number of columns of a delimiter row and its length with the line end. -/
def delimiterRow? (text : List Char) : Option (Nat × Nat) :=
  let (skipped, width) := indentation 4 text
  let body := text.drop skipped
  if width > 3 || body.isEmpty then none
  else
    let opening := body.head? == some '|'
    let cells := if opening then body.drop 1 else body
    let line := cells.takeWhile fun c => c != '\n' && c != '\r'
    match Delimiters.read { pipe := opening } line with
    | none => none
    | some row =>
        let columns := if row.fresh then row.columns else row.columns + 1
        let hyphen := if row.fresh then row.hyphen else row.hyphen && row.hyphenHere
        if row.pipe && hyphen then
          let length := skipped + (if opening then 1 else 0) + line.length
          some (columns, length + (lineEnd? (text.drop length)).getD 0)
        else none

/-- Pipes that divide cells, and the text behind the last one. -/
structure Pipes where
  count : Nat := 0
  behind : List Char
  deriving Repr, Inhabited

/-- Pipes of a line; one that directly follows a backslash does not count. -/
def pipesFrom : Bool → List Char → Pipes → Pipes
  | _, [], found => found
  | escaped, c :: rest, found =>
      if c == '\n' || c == '\r' then found
      else if c == '|' && !escaped then pipesFrom false rest ⟨found.count + 1, rest⟩
      else pipesFrom (c == Text.Symbol.backslash) rest found

def pipes (text : List Char) : Pipes :=
  pipesFrom false text { behind := text }

/-- Cells of a row: a pipe at its end, or one that stands first, divides nothing. -/
def cells (leading : Bool) (found : Pipes) : Nat :=
  let count := if leading then found.count - 1 else found.count
  if (blankLine? found.behind).isSome then count else count + 1

/-- Cells of a header row, which may be indented. -/
def headerCells (text : List Char) : Nat :=
  cells ((text.drop (countWhile isPad text)).head? == some '|') (pipes text)

/-- Cells of a row below the header, given from its first visible character on. -/
def rowCells (text : List Char) : Nat :=
  cells (text.head? == some '|') (pipes text)

/-- A table ends where the cells missing from its rows come to more than this. -/
def missingLimit : Nat :=
  Nat.pow 2 18

/-- Length of the text through its first line end. -/
def firstLine (text : List Char) : Nat :=
  let line := countWhile (fun c => c != '\n' && c != '\r') text
  line + (lineEnd? (text.drop line)).getD 0

/-- The header and the delimiter row of a table. -/
structure Head where
  columns : Nat
  length : Nat
  deriving DecidableEq, Repr, Inhabited

/-- The first two rows of a table: a line that has as many cells as the delimiter row
on the next line, which must continue the same containers. -/
def head? (spine : Spine) (text : List Char) : Option Head :=
  let first := firstLine text
  match spine.continue? (text.drop first) with
  | none => none
  | some lead =>
      match delimiterRow? lead.rest with
      | none => none
      | some (columns, length) =>
          if columns = headerCells text then some ⟨columns, first + lead.taken + length⟩
          else none

/-- The head of a table that starts a paragraph. -/
def start? (spine : Spine) (text : List Char) : Option Head :=
  if (pipes text).count = 0 then none else head? spine text

/-- Whether a later line of a paragraph is the head of a table. It must start with a
pipe. -/
def interrupts (spine : Spine) (text : List Char) : Bool :=
  text.head? == some '|' && (head? spine text).isSome

end Tangle.Markdown.Table
