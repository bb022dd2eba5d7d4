import Tangle.Text.Basic

/-!
Contract: places in a YAML text and the cursor that walks through it.

Owns: `Mark`, the character classes of the format, and `Cursor` with its two
steps: over a character and over a line break.

Does **not** own: what the characters mean.

Line feed, carriage return, next line, line separator and paragraph separator
all end a line; a carriage return and a line feed in a row end one line together.
-/

set_option autoImplicit false

namespace Tangle.Yaml

/-- A place in the text, counted from zero: `index` counts bytes, `column` characters. -/
structure Mark where
  index : Nat := 0
  line : Nat := 0
  column : Nat := 0
  deriving DecidableEq, Repr, Inhabited

/-- The very start of the text, which messages leave out. -/
def Mark.isOrigin (mark : Mark) : Bool :=
  mark.line == 0 && mark.column == 0

def Mark.sameSpot (mark other : Mark) : Bool :=
  mark.line == other.line && mark.column == other.column

/-- Lines and columns are written counted from one. -/
def Mark.text (mark : Mark) : String :=
  "line " ++ Text.ofNat (mark.line + 1) ++ " column " ++ Text.ofNat (mark.column + 1)

def isBreak (c : Char) : Bool :=
  c == '\n' || c == '\r' || c == '\u0085' || c == '\u2028' || c == '\u2029'

/-- A space or a tab. -/
def isPad (c : Char) : Bool :=
  c == ' ' || c == '\t'

/-- Letters, digits, underscore and hyphen: the characters of anchors and handles. -/
def isWord (c : Char) : Bool :=
  c.isAlphanum || c == '_' || c == '-'

/-- The rest of the text and where it starts. -/
structure Cursor where
  rest : List Char
  mark : Mark := {}
  deriving Repr, Inhabited

namespace Cursor

def peek? (cursor : Cursor) : Option Char :=
  cursor.rest.head?

/-- The character `distance` places ahead. -/
def ahead? (cursor : Cursor) (distance : Nat) : Option Char :=
  cursor.rest[distance]?

/-- Whether the next character is `c`. -/
def atChar (cursor : Cursor) (c : Char) : Bool :=
  cursor.peek? == some c

def isEnd (cursor : Cursor) : Bool :=
  cursor.rest.isEmpty

/-- Whether a place holds a pad, a break, or nothing. -/
def blankOrEnd : Option Char → Bool
  | none => true
  | some c => isPad c || isBreak c

def breakOrEnd : Option Char → Bool
  | none => true
  | some c => isBreak c

/-- Steps over one character. -/
def skip (cursor : Cursor) : Cursor :=
  match cursor.rest with
  | [] => cursor
  | c :: rest =>
      { rest := rest
        mark := { cursor.mark with
                  index := cursor.mark.index + c.utf8Size, column := cursor.mark.column + 1 } }

def skipMany : Nat → Cursor → Cursor
  | 0, cursor => cursor
  | count + 1, cursor => skipMany count cursor.skip

/-- Steps over one line break. -/
def skipLine (cursor : Cursor) : Cursor :=
  match cursor.rest with
  | '\r' :: '\n' :: rest => ⟨rest, ⟨cursor.mark.index + 2, cursor.mark.line + 1, 0⟩⟩
  | c :: rest =>
      if isBreak c then ⟨rest, ⟨cursor.mark.index + c.utf8Size, cursor.mark.line + 1, 0⟩⟩
      else cursor
  | [] => cursor

/-- The break at the cursor as it enters a value: separators are kept, every other
break becomes a line feed. -/
def breakText (cursor : Cursor) : List Char :=
  match cursor.peek? with
  | some c =>
      if c == '\u2028' || c == '\u2029' then [c] else if isBreak c then ['\n'] else []
  | none => []

/-- Steps over characters while they satisfy `keep`; none of them may be a break. -/
def skipWhile (keep : Char → Bool) (cursor : Cursor) : Cursor :=
  skipMany (cursor.rest.takeWhile keep).length cursor

/-- A document marker made of three times `c`, alone in the first column. -/
def atDocumentMarker (cursor : Cursor) (c : Char) : Bool :=
  cursor.mark.column == 0 && [c, c, c].isPrefixOf cursor.rest
    && blankOrEnd (cursor.ahead? 3)

def atAnyDocumentMarker (cursor : Cursor) : Bool :=
  cursor.atDocumentMarker '-' || cursor.atDocumentMarker '.'

end Cursor

end Tangle.Yaml
