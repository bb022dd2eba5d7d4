import Tangle.Toml.Cursor

/-!
Contract: the four kinds of TOML strings.

Owns: escapes, delimiters, and which characters each kind may hold.
-/

set_option autoImplicit false

namespace Tangle.Toml

open Tangle.Text.Symbol

/-- Characters that stand for themselves between quotation marks. -/
def isBasicChar (c : Char) : Bool :=
  isCommentChar c && c != quote && c != backslash

/-- Characters that stand for themselves between apostrophes. -/
def isLiteralChar (c : Char) : Bool :=
  isCommentChar c && c != apostrophe

def hexDigit? (c : Char) : Option Nat :=
  if c.isDigit then some (c.toNat - 48)
  else if 'a' ≤ c && c ≤ 'f' then some (c.toNat - 87)
  else if 'A' ≤ c && c ≤ 'F' then some (c.toNat - 55)
  else none

def outOfRange : String := "value is out of range"

/-- A character by its code in exactly `count` digits. -/
def codeEscape (count : Nat) (cursor : Cursor) : Reading (Char × Cursor) :=
  let digits := (cursor.rest.take count).filterMap hexDigit?
  if digits.length = count then
    let code := digits.foldl (fun value digit => value * 16 + digit) 0
    if code.isValidChar then .ok (Char.ofNat code, cursor.skip count)
    else refuseAt cursor outOfRange
  else failAt cursor

/-- The letters that may follow a backslash, as messages list them. -/
def escapeLetters : List String :=
  ["`b`", "`f`", "`n`", "`r`", "`t`", "`u`", "`U`", "`\\`", "`\"`"]

/-- What follows a backslash. -/
def escape (cursor : Cursor) : Reading (Char × Cursor) :=
  match cursor.rest with
  | [] => failAt cursor
  | c :: _ =>
      let after := cursor.next
      if c = 'b' then .ok ('\x08', after)
      else if c = 'f' then .ok ('\x0c', after)
      else if c = 'n' then .ok ('\n', after)
      else if c = 'r' then .ok ('\r', after)
      else if c = 't' then .ok ('\t', after)
      else if c = backslash || c = quote then .ok (c, after)
      else if c = 'u' then labelled "unicode 4-digit hex code" (committed (codeEscape 4 after))
      else if c = 'U' then labelled "unicode 8-digit hex code" (committed (codeEscape 8 after))
      else
        -- A character of several bytes is pointed at itself.
        let place := if c.utf8Size = 1 then after else cursor
        expecting escapeLetters (labelled "escape sequence" (committed (failAt place)))

/-- Characters and escapes up to anything else. -/
def basicChars : Nat → Cursor → Reading (List Char × Cursor)
  | 0, cursor => .ok ([], cursor)
  | fuel + 1, cursor =>
      match cursor.rest with
      | [] => .ok ([], cursor)
      | c :: _ =>
          if isBasicChar c then do
            let (more, after) ← basicChars fuel cursor.next
            return (c :: more, after)
          else if c = backslash then do
            let (found, after) ← optional cursor (escape cursor.next)
            match found with
            | none => return ([], cursor)
            | some escaped =>
                let (more, last) ← basicChars fuel after
                return (escaped :: more, last)
          else .ok ([], cursor)

def basicString (cursor : Cursor) : Reading (List Char × Cursor) := do
  let ((), inside) ← literal [quote] cursor
  let (text, after) ← basicChars (inside.rest.length + 1) inside
  let ((), last) ← labelled "basic string" (committed (literal [quote] after))
  return (text, last)

def literalString (cursor : Cursor) : Reading (List Char × Cursor) :=
  labelled "literal string" do
    let ((), inside) ← literal [apostrophe] cursor
    let (text, after) := inside.run isLiteralChar
    let ((), last) ← committed (literal [apostrophe] after)
    return (text, last)

/-- Skips a backslash at the end of a line with all blanks and line breaks after
it, if one stands here. -/
def skipLineJoin? (cursor : Cursor) : Option Cursor :=
  if cursor.peek? = some backslash then
    (afterNewline? (skipBlanks cursor.next)).map fun after =>
      let rec skip : Nat → Cursor → Cursor
        | 0, cursor => cursor
        | fuel + 1, cursor =>
            let cursor := skipBlanks cursor
            match afterNewline? cursor with
            | some after => skip fuel after
            | none => cursor
      skip after.rest.length after
  else none

/-- One piece of a multiline basic string that is no quotation mark. -/
def multilinePiece (cursor : Cursor) : Reading (List Char × Cursor) :=
  match cursor.rest with
  | [] => failAt cursor
  | c :: _ =>
      if isBasicChar c then .ok ([c], cursor.next)
      else
        match skipLineJoin? cursor with
        | some after => .ok ([], after)
        | none =>
            if c = backslash then do
              let (escaped, after) ← escape cursor.next
              return ([escaped], after)
            else
              match afterNewline? cursor with
              | some after => .ok (['\n'], after)
              | none => failAt cursor

/-- One piece of a multiline literal string that is no apostrophe. -/
def multilineLiteralPiece (cursor : Cursor) : Reading (List Char × Cursor) :=
  match cursor.rest with
  | [] => failAt cursor
  | c :: _ =>
      if isLiteralChar c then .ok ([c], cursor.next)
      else
        match afterNewline? cursor with
        | some after => .ok (['\n'], after)
        | none => failAt cursor

/-- The body of a multiline string: pieces, one or two marks between pieces, and
up to two marks ahead of the three that close it. -/
def multilineBody (mark : Char) (piece : Cursor → Reading (List Char × Cursor)) :
    Nat → Cursor → Reading (List Char × Cursor)
  | 0, cursor => .ok ([], cursor)
  | fuel + 1, cursor => do
      let (found, after) ← optional cursor (piece cursor)
      match found with
      | some text =>
          let (more, last) ← multilineBody mark piece fuel after
          return (text ++ more, last)
      | none =>
          let marks := (cursor.rest.takeWhile (· == mark)).length
          if marks = 0 then return ([], cursor)
          else if marks ≤ 2 then
            let behind := cursor.skip marks
            let (next, _) ← optional behind (piece behind)
            match next with
            | some _ =>
                let (more, last) ← multilineBody mark piece fuel behind
                return (List.replicate marks mark ++ more, last)
            | none => return ([], cursor)
          else
            let own := min (marks - 3) 2
            return (List.replicate own mark, cursor.skip own)

def multilineString (label : String) (mark : Char) (piece : Cursor → Reading (List Char × Cursor))
    (cursor : Cursor) : Reading (List Char × Cursor) :=
  labelled label do
    let delimiter := [mark, mark, mark]
    let ((), inside) ← literal delimiter cursor
    let inside := (afterNewline? inside).getD inside
    let (text, after) ← committed (multilineBody mark piece (inside.rest.length + 1) inside)
    let ((), last) ← committed (literal delimiter after)
    return (text, last)

def string (cursor : Cursor) : Reading (List Char × Cursor) :=
  orElse (multilineString "multiline basic string" quote multilinePiece cursor) fun _ =>
    orElse (basicString cursor) fun _ =>
      orElse
        (multilineString "multiline literal string" apostrophe multilineLiteralPiece cursor)
        fun _ => literalString cursor

end Tangle.Toml
