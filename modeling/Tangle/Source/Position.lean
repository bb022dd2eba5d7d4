import Tangle.Text.Basic

/-!
Contract: places in a text, once as byte offsets and once as lines and columns.

Owns: `Span`, `Position`, `SourceRange`, the map from offsets to positions, and the
characters of a span.

Does **not** own: which spans a document has.

Lines and columns count from one, lines end at line feeds only, and a column
counts characters. An offset past the end stands for the end.

What a text has fits into machine words. A position that is asked for need not lie in
any text, so only what is added to its column can outgrow them.
-/

set_option autoImplicit false

namespace Tangle.Source

/-- A half-open interval of byte offsets. -/
structure Span where
  start : Nat
  stop : Nat
  deriving DecidableEq, Repr, Inhabited

/-- A line and a column, both counted from one. -/
structure Position where
  line : Nat
  column : Nat
  deriving DecidableEq, Repr, Inhabited

/-- How many columns a machine word tells apart. -/
def columnBound : Nat := UInt64.size

/-- A column moved to the right. A sum that no machine word holds starts over. -/
def addColumns (column columns : Nat) : Nat :=
  (column + columns) % columnBound

/-- Text order: by line, then by column. -/
def Position.before (p q : Position) : Bool :=
  p.line < q.line || (p.line == q.line && p.column < q.column)

def Position.text (p : Position) : String :=
  Text.ofNat p.line ++ ":" ++ Text.ofNat p.column

/-- A half-open interval of positions. -/
structure SourceRange where
  start : Position
  stop : Position
  deriving DecidableEq, Repr, Inhabited

def SourceRange.contains (range : SourceRange) (p : Position) : Bool :=
  !p.before range.start && p.before range.stop

/-- The position after one more character. -/
def Position.advance (p : Position) (c : Char) : Position :=
  if c = '\n' then ⟨p.line + 1, 1⟩ else ⟨p.line, p.column + 1⟩

/-- The position reached by reading `chars` from the start of a text. -/
def Position.after (chars : List Char) : Position :=
  chars.foldl Position.advance ⟨1, 1⟩

/-- The position of the character that starts at byte `offset`. -/
def positionAt (text : String) (offset : Nat) : Position :=
  Position.after (Text.takeBytes offset text.toList)

def lineAt (text : String) (offset : Nat) : Nat :=
  (positionAt text offset).line

/-- The positions that bound a span. -/
def rangeOf (text : String) (span : Span) : SourceRange :=
  ⟨positionAt text span.start, positionAt text span.stop⟩

/-- The characters of a span. -/
def Span.chars (span : Span) (text : String) : List Char :=
  Text.takeBytes (span.stop - span.start) (Text.dropBytes span.start text.toList)

def Span.slice (span : Span) (text : String) : String :=
  String.ofList (span.chars text)

/-- An offset that splits no character: the size of some initial part of the text. -/
def IsBoundary (text : String) (offset : Nat) : Prop :=
  Text.byteSize (Text.takeBytes offset text.toList) = offset

instance (text : String) (offset : Nat) : Decidable (IsBoundary text offset) :=
  inferInstanceAs (Decidable (_ = _))

/-- The text of a span. A span that ends before it starts, or that splits a character at
one of its ends, cannot be cut out. -/
def Span.cut? (span : Span) (text : String) : Option String :=
  if span.start ≤ span.stop ∧ IsBoundary text span.start ∧ IsBoundary text span.stop then
    some (span.slice text)
  else none

end Tangle.Source
