import Tangle.Text.Basic
import Tangle.Text.Symbol

/-!
Contract: a place in a TOML text, and what stopped reading there.

Owns: `Cursor`, `Failure`, the ways failures gain context, blanks, line breaks and
comments.

Does **not** own: the grammar of values and tables.

A failure that is not committed lets the reader try another alternative from
where it stood; a committed one ends the reading. Context is added from the
inside outwards: the innermost label stays, expectations pile up.
-/

set_option autoImplicit false

namespace Tangle.Toml

/-- The characters left and the bytes before them. -/
structure Cursor where
  rest : List Char
  offset : Nat
  deriving DecidableEq, Repr, Inhabited

structure Failure where
  offset : Nat
  committed : Bool := false
  label : Option String := none
  expected : List String := []
  cause : Option String := none
  deriving DecidableEq, Repr, Inhabited

/-- A result, or what stopped the reading. -/
abbrev Reading := Except Failure

namespace Cursor

def ofText (text : String) : Cursor :=
  ⟨text.toList, 0⟩

def next (cursor : Cursor) : Cursor :=
  match cursor.rest with
  | [] => cursor
  | c :: rest => ⟨rest, cursor.offset + c.utf8Size⟩

def skip (cursor : Cursor) (count : Nat) : Cursor :=
  ⟨cursor.rest.drop count, cursor.offset + Text.byteSize (cursor.rest.take count)⟩

def peek? (cursor : Cursor) : Option Char :=
  cursor.rest.head?

/-- The longest run of characters of a class, and the place behind it. -/
def run (cursor : Cursor) (inClass : Char → Bool) : List Char × Cursor :=
  let taken := cursor.rest.takeWhile inClass
  (taken, ⟨cursor.rest.dropWhile inClass, cursor.offset + Text.byteSize taken⟩)

/-- The place behind a fixed text, if it stands here. -/
def after? (cursor : Cursor) (text : List Char) : Option Cursor :=
  if text.isPrefixOf cursor.rest then some (cursor.skip text.length) else none

end Cursor

section Context

variable {α : Type}

def failAt (cursor : Cursor) : Reading (α × Cursor) :=
  .error { offset := cursor.offset }

/-- A failure, at the place where reading began, that a rule of the format caused. -/
def refuseAt (cursor : Cursor) (cause : String) : Reading (α × Cursor) :=
  .error { offset := cursor.offset, committed := true, cause := some cause }

def labelled (label : String) (parsed : Reading (α × Cursor)) : Reading (α × Cursor) :=
  parsed.mapError fun failure => { failure with label := failure.label.or (some label) }

def expecting (expected : List String) (parsed : Reading (α × Cursor)) : Reading (α × Cursor) :=
  parsed.mapError fun failure => { failure with expected := failure.expected ++ expected }

def committed (parsed : Reading (α × Cursor)) : Reading (α × Cursor) :=
  parsed.mapError fun failure => { failure with committed := true }

/-- Another reading, unless the first one succeeded or was committed. -/
def orElse (first : Reading (α × Cursor)) (second : Unit → Reading (α × Cursor)) : Reading (α × Cursor) :=
  match first with
  | .ok found => .ok found
  | .error failure => if failure.committed then .error failure else second ()

/-- A reading that may be absent: then the place does not change. -/
def optional (cursor : Cursor) (parsed : Reading (α × Cursor)) : Reading (Option α × Cursor) :=
  match parsed with
  | .ok (value, after) => .ok (some value, after)
  | .error failure => if failure.committed then .error failure else .ok (none, cursor)

end Context

/-- Reads a fixed text. -/
def literal (text : List Char) (cursor : Cursor) : Reading (Unit × Cursor) :=
  match cursor.after? text with
  | some after => .ok ((), after)
  | none => failAt cursor

def isBlank (c : Char) : Bool :=
  c == ' ' || c == '\t'

def skipBlanks (cursor : Cursor) : Cursor :=
  (cursor.run isBlank).2

/-- The place behind a line break. -/
def afterNewline? (cursor : Cursor) : Option Cursor :=
  match cursor.rest with
  | '\n' :: _ => some cursor.next
  | '\r' :: '\n' :: _ => some (cursor.skip 2)
  | _ => none

/-- Characters that a comment may hold. -/
def isCommentChar (c : Char) : Bool :=
  c == '\t' || (0x20 ≤ c.toNat && c.toNat ≤ 0x7E) || 0x80 ≤ c.toNat

/-- Skips a comment, if one starts here. -/
def skipComment (cursor : Cursor) : Cursor :=
  match cursor.rest with
  | '#' :: _ => (cursor.next.run isCommentChar).2
  | _ => cursor

/-- A line break or the end of the text. -/
def lineEnd (cursor : Cursor) : Reading (Unit × Cursor) :=
  match afterNewline? cursor with
  | some after => .ok ((), after)
  | none => if cursor.rest.isEmpty then .ok ((), cursor) else failAt cursor

/-- What may follow on a line that is complete. -/
def lineTail (cursor : Cursor) : Reading (Unit × Cursor) :=
  lineEnd (skipComment (skipBlanks cursor))

/-- Skips blanks, line breaks and comments; at most `fuel` of them. -/
def skipGapWithin : Nat → Cursor → Cursor
  | 0, cursor => cursor
  | fuel + 1, cursor =>
      let cursor := skipBlanks cursor
      match afterNewline? cursor with
      | some after => skipGapWithin fuel after
      | none =>
          if cursor.peek? = some '#' then skipGapWithin fuel (skipComment cursor) else cursor

def skipGap (cursor : Cursor) : Cursor :=
  skipGapWithin (cursor.rest.length + 1) cursor

end Tangle.Toml
