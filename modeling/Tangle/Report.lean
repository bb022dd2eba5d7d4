import Tangle.Document.Diagnostic
import Tangle.Text.Width

/-!
Contract: a diagnostic as a reader at a terminal sees it.

Owns: the excerpt of the source around a span, with the span marked in it.

Does **not** own: the wording of the problem (`Tangle.Document.Diagnostic`).

A span within one line is underlined. A span over several lines is embraced from
the left; of a long one only the first four and the last two lines are shown.
-/

set_option autoImplicit false

namespace Tangle.Report

open Tangle.Source
open Tangle.Document

/-- Columns from one tab stop to the next. -/
def tabWidth : Nat := 4

/-- Lines shown after the first line of a long span. -/
def leadingContext : Nat := 3

/-- Lines shown ahead of the last line of a long span. -/
def trailingContext : Nat := 1

/-- A character of a shown line: the bytes before it and the columns it takes. -/
structure Cell where
  offset : Nat
  width : Nat
  char : Char
  deriving DecidableEq, Repr, Inhabited

def cellsFrom (offset column : Nat) : List Char → List Cell
  | [] => []
  | c :: rest =>
      let width := if c = '\t' then tabWidth - column % tabWidth else Text.columnWidth c
      ⟨offset, width, c⟩ :: cellsFrom (offset + c.utf8Size) (column + width) rest

/-- A line without the line break and null characters at its end. -/
def shownLine (line : List Char) : List Char :=
  Text.dropTailWhile (fun c => c == '\n' || c == '\r' || c == '\x00') line

/-- A line of the source, counted from zero. -/
structure SourceLine where
  number : Nat
  start : Nat
  chars : List Char
  deriving DecidableEq, Repr, Inhabited

def linesFrom (number start : Nat) : List (List Char) → List SourceLine
  | [] => []
  | line :: rest =>
      ⟨number, start, shownLine line⟩
        :: linesFrom (number + 1) (start + Text.byteSize line + 1) rest

def sourceLines (source : String) : List SourceLine :=
  linesFrom 0 0 (Text.splitChars '\n' source.toList)

def SourceLine.cells (line : SourceLine) : List Cell :=
  cellsFrom 0 0 line.chars

/-- The text of a line with tabs as spaces. -/
def SourceLine.text (line : SourceLine) : String :=
  String.ofList (line.cells.flatMap fun cell =>
    if cell.char = '\t' then List.replicate cell.width ' ' else [cell.char])

/-- Bytes of the blanks a line starts with. -/
def SourceLine.indentation (line : SourceLine) : Nat :=
  Text.byteSize (line.chars.takeWhile Text.isBlank)

/-- Columns of the characters that start ahead of a byte. -/
def SourceLine.columnsBefore (line : SourceLine) (offset : Nat) : Nat :=
  (line.cells.filter fun cell => cell.offset < offset).foldl (fun sum cell => sum + cell.width) 0

/-- What stands left of the border on a line without a number. -/
def blankGutter (padding : Nat) : String :=
  Text.repeated (padding + 1) ' '

def numberGutter (padding number : Nat) : String :=
  let digits := Text.ofNat number
  Text.repeated (padding - digits.length) ' ' ++ digits ++ " "

/-- Carets below the part of a line from one byte to another; one stands behind the
line if the part reaches that far. -/
def carets (line : SourceLine) (start stop : Nat) : String :=
  let last : Cell := ⟨Text.byteSize line.chars, 1, '\x00'⟩
  String.ofList ((line.cells ++ [last]).flatMap fun cell =>
    let behind := cell.offset + cell.char.utf8Size
    if max start cell.offset < min stop behind then List.replicate cell.width '^'
    else if cell.offset < stop then List.replicate cell.width ' '
    else [])

/-- A span within one line: the line and the carets below it. -/
def singleLine (padding : Nat) (line : SourceLine) (span : Span) : List String :=
  let start := span.start - line.start
  let stop := max (span.stop - line.start) (start + 1)
  [ numberGutter padding (line.number + 1) ++ "│ " ++ line.text
  , blankGutter padding ++ "│ " ++ carets line start stop ]

/-- The line a long span starts on. Where something other than blanks stands ahead
of the span, its start is marked on a line of its own. -/
def firstLine (padding : Nat) (line : SourceLine) (start : Nat) : List String :=
  let number := numberGutter padding (line.number + 1)
  if start ≤ line.indentation then [number ++ "│ ╭ " ++ line.text]
  else
    [ number ++ "│   " ++ line.text
    , blankGutter padding ++ "│ ╭" ++ Text.repeated (line.columnsBefore (start + 1)) '─' ++ "^" ]

def innerLine (padding : Nat) (line : SourceLine) : String :=
  numberGutter padding (line.number + 1) ++ "│ │ " ++ line.text

/-- The line a long span ends on, and the mark of its end. -/
def lastLine (padding : Nat) (line : SourceLine) (stop : Nat) : List String :=
  [ innerLine padding line
  , blankGutter padding ++ "│ ╰" ++ Text.repeated (line.columnsBefore stop) '─' ++ "^" ]

/-- The lines between the first and the last. A single line that would be left out
is shown after all. -/
def innerLines (padding : Nat) (lines : List SourceLine) : List String :=
  if lines.length ≤ leadingContext + trailingContext + 1 then lines.map (innerLine padding)
  else
    (lines.take leadingContext).map (innerLine padding)
      ++ [blankGutter padding ++ "· │"]
      ++ (lines.drop (lines.length - trailingContext)).map (innerLine padding)

/-- Digits of the largest line number shown. -/
def paddingFor (lines : List SourceLine) : Nat :=
  lines.foldl (fun widest line => max widest (Text.ofNat (line.number + 1)).length) 0

/-- The excerpt between its two empty border lines. -/
def excerpt (padding : Nat) (span : Span) (lines : List SourceLine) : List String :=
  match lines with
  | [] => []
  | [line] =>
      let border := blankGutter padding ++ "│"
      [border] ++ singleLine padding line span ++ [border]
  | first :: rest =>
      let border := blankGutter padding ++ "│  "
      let last := rest.getLast?.getD first
      [border] ++ firstLine padding first (span.start - first.start)
        ++ innerLines padding rest.dropLast
        ++ lastLine padding last (span.stop - last.start) ++ [border]

def severityName : Severity → String
  | .error => "error"
  | .warning => "warning"

/-- The first line of a note carries a mark, the others line up with it. -/
def noteLines (padding : Nat) (note : String) : List String :=
  match Text.terminatedLines note.toList with
  | [] => []
  | first :: rest =>
      (blankGutter padding ++ "= " ++ String.ofList first)
        :: rest.map fun line => blankGutter padding ++ "  " ++ String.ofList line

/-- The lines of a report on a diagnostic in a source with a name. -/
def lines (name source : String) (diagnostic : Diagnostic) : List String :=
  let span := diagnostic.span
  let first := lineAt source span.start - 1
  let last := lineAt source span.stop - 1
  let shown := (sourceLines source).filter fun line => first ≤ line.number && line.number ≤ last
  let padding := paddingFor shown
  let problem := diagnostic.problem
  [ severityName problem.severity ++ "[" ++ problem.code ++ "]: " ++ problem.message
  , blankGutter padding ++ "┌─ " ++ name ++ ":" ++ (positionAt source span.start).text ]
    ++ excerpt padding span shown
    ++ problem.notes.flatMap (noteLines padding)
    ++ [""]

end Tangle.Report
