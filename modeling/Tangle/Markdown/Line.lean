import Tangle.Source.Position

/-!
Contract: walking a Markdown text line by line.

Owns: the blank classes of the format, line ends, and `Cursor`, which knows the
byte offset of the text still to be read.

Does **not** own: block structure (`Tangle.Markdown.Block`).

Functions on `List Char` answer with a number of characters, so that a caller can
move a cursor by it. A lone carriage return ends a line for the questions asked
here; moving on to the next line looks for a line feed only.
-/

set_option autoImplicit false

namespace Tangle.Markdown

/-- Space, tab, vertical tab or form feed. -/
def isPad (c : Char) : Bool :=
  c == ' ' || c == '\t' || c == '\x0b' || c == '\x0c'

/-- A pad or a line end. -/
def isSpace (c : Char) : Bool :=
  isPad c || c == '\n' || c == '\r'

def isPunctuation (c : Char) : Bool :=
  let code := c.toNat
  (0x21 ≤ code && code ≤ 0x2F) || (0x3A ≤ code && code ≤ 0x40)
    || (0x5B ≤ code && code ≤ 0x60) || (0x7B ≤ code && code ≤ 0x7E)

/-- Length of the initial run of characters that satisfy `keep`. -/
def countWhile (keep : Char → Bool) (text : List Char) : Nat :=
  (text.takeWhile keep).length

/-- Length of the line end at the start of `text`; the end of the text counts as an
empty one. -/
def lineEnd? : List Char → Option Nat
  | [] => some 0
  | '\n' :: _ => some 1
  | '\r' :: '\n' :: _ => some 2
  | '\r' :: _ => some 1
  | _ => none

/-- Length of a line of pads with its line end. -/
def blankLine? (text : List Char) : Option Nat :=
  let pads := countWhile isPad text
  (lineEnd? (text.drop pads)).map (pads + ·)

/-- Length of the text through the next line feed. -/
def lineLength : List Char → Nat
  | [] => 0
  | c :: rest => if c = '\n' then 1 else 1 + lineLength rest

/-- The text still to be read and the byte offset where it starts. -/
structure Cursor where
  offset : Nat
  rest : List Char
  deriving DecidableEq, Repr, Inhabited

namespace Cursor

def start (text : String) : Cursor :=
  ⟨0, text.toList⟩

/-- Moves on by a number of characters. -/
def advance (cursor : Cursor) (count : Nat) : Cursor :=
  ⟨cursor.offset + Text.byteSize (cursor.rest.take count), cursor.rest.drop count⟩

def isEnd (cursor : Cursor) : Bool :=
  cursor.rest.isEmpty

/-- Moves on to the next line. -/
def nextLine (cursor : Cursor) : Cursor :=
  cursor.advance (lineLength cursor.rest)

/-- Moves over a blank line, if there is one. -/
def skipBlankLine (cursor : Cursor) : Cursor :=
  cursor.advance ((blankLine? cursor.rest).getD 0)

end Cursor

end Tangle.Markdown
