import Tangle.Text.Symbol
import Tangle.Yaml.Scan.Quoted

/-!
Contract: anchors, references, tags and directives.

Owns: the tokens that start with `&`, `*`, `!` and `%`.

Does **not** own: what a tag handle stands for (`Tangle.Yaml.Event`).
-/

set_option autoImplicit false

namespace Tangle.Yaml

/-- An anchor or a reference: a mark character, then a word. -/
def scanAnchor (isReference : Bool) (cursor : Cursor) : Except SyntaxError (Token × Cursor) :=
  let body := cursor.skip
  let name := body.rest.takeWhile isWord
  let after := body.skipMany name.length
  let ended :=
    Cursor.blankOrEnd after.peek? ||
      match after.peek? with
      | some c =>
          c == '?' || c == ':' || c == ',' || c == ']' || c == Text.Symbol.closeBrace
            || c == '%' || c == '@' || c == Text.Symbol.backtick
      | none => true
  if name.isEmpty || !ended then
    .error { problem := .expectedAnchorCharacter, mark := after.mark,
             activity := some (if isReference then .reference else .anchor, cursor.mark) }
  else
    let text := String.ofList name
    .ok (⟨if isReference then .reference text else .anchor text, cursor.mark, after.mark⟩, after)

namespace Tag

/-- Whether a tag is read for its own sake or inside a directive. -/
inductive Place where
  | node
  | directive
  deriving DecidableEq, Repr, Inhabited

def uriActivity : Place → Activity
  | .node => .tagParse
  | .directive => .tagDirectiveUri

/-- A handle: `!`, `!!`, `!word!`, or the start of a local tag. -/
def handle (place : Place) (start : Mark) (cursor : Cursor) :
    Except SyntaxError (List Char × Cursor) :=
  if !cursor.atChar '!' then
    .error { problem := .expectedBang, mark := cursor.mark,
             activity := some (match place with
               | .node => .tag
               | .directive => .tagDirectiveHandle, start) }
  else
    let body := cursor.skip
    let word := body.rest.takeWhile isWord
    let after := body.skipMany word.length
    if after.atChar '!' then .ok ('!' :: word ++ ['!'], after.skip)
    else if place == .directive && !word.isEmpty then
      .error { problem := .expectedBang, mark := after.mark,
               activity := some (.tagDirectiveParse, start) }
    else .ok ('!' :: word, after)

/-- Characters of a tag URI; a verbatim one may also hold flow marks. -/
def isUri (verbatim : Bool) (c : Char) : Bool :=
  isWord c || ";/?:@&=+$.%!~*()".toList.contains c || c == Text.Symbol.apostrophe
    || (verbatim && (c == ',' || c == '[' || c == ']'))

/-- Number of octets that an octet announces; zero when it cannot lead. -/
def octetWidth (octet : Nat) : Nat :=
  if octet < 0x80 then 1
  else if octet < 0xC0 then 0
  else if octet < 0xE0 then 2
  else if octet < 0xF0 then 3
  else if octet < 0xF8 then 4
  else 0

/-- One percent-encoded octet at the cursor. -/
def octet? (cursor : Cursor) : Option Nat :=
  match cursor.rest with
  | '%' :: rest => hexNumber? 2 0 rest
  | _ => none

/-- Octets that continue a character. -/
def trailingOctets (place : Place) (start : Mark) :
    Nat → Nat → Cursor → Except SyntaxError (Nat × Cursor)
  | 0, code, cursor => .ok (code, cursor)
  | count + 1, code, cursor =>
      match octet? cursor with
      | none =>
          .error { problem := .expectedUriOctet, mark := cursor.mark,
                   activity := some (uriActivity place, start) }
      | some octet =>
          if octet / 64 == 2 then
            trailingOctets place start count (code * 64 + octet % 64) (cursor.skipMany 3)
          else
            .error { problem := .badTrailingOctet, mark := cursor.mark,
                     activity := some (uriActivity place, start) }

/-- A percent-encoded character at the cursor. -/
def encoded (place : Place) (start : Mark) (cursor : Cursor) :
    Except SyntaxError (Char × Cursor) :=
  match octet? cursor with
  | none =>
      .error { problem := .expectedUriOctet, mark := cursor.mark,
               activity := some (uriActivity place, start) }
  | some octet =>
      match octetWidth octet with
      | 0 =>
          .error { problem := .badLeadingOctet, mark := cursor.mark,
                   activity := some (uriActivity place, start) }
      | 1 => .ok (Char.ofNat octet, cursor.skipMany 3)
      | width + 1 => do
          let (code, after) ← trailingOctets place start width
            (octet % Nat.pow 2 (6 - width)) (cursor.skipMany 3)
          return (Char.ofNat code, after)

def uriChars (place : Place) (verbatim : Bool) (start : Mark) :
    Nat → List Char → Cursor → Except SyntaxError (List Char × Cursor)
  | 0, value, cursor => .ok (value, cursor)
  | fuel + 1, value, cursor =>
      match cursor.peek? with
      | none => .ok (value, cursor)
      | some c =>
          if !isUri verbatim c then .ok (value, cursor)
          else if c == '%' then
            match encoded place start cursor with
            | .error error => .error error
            | .ok (decoded, after) =>
                uriChars place verbatim start fuel (value ++ [decoded]) after
          else uriChars place verbatim start fuel (value ++ [c]) cursor.skip

/-- A tag URI that continues `head`, which may not stay empty. -/
def uri (place : Place) (verbatim : Bool) (head : List Char) (start : Mark) (cursor : Cursor) :
    Except SyntaxError (List Char × Cursor) := do
  let (value, after) ← uriChars place verbatim start (cursor.rest.length + 1) [] cursor
  if head.isEmpty && value.isEmpty then
    throw { problem := .expectedTagUri, mark := after.mark,
            activity := some (uriActivity place, start) }
  return (head.drop 1 ++ value, after)

/-- Handle and suffix of a tag. -/
def parts (start : Mark) (cursor : Cursor) :
    Except SyntaxError (List Char × List Char × Cursor) := do
  if cursor.ahead? 1 == some '<' then
    let (suffix, after) ← uri .node true [] start cursor.skip.skip
    if !after.atChar '>' then
      throw { problem := .expectedTagClose, mark := after.mark, activity := some (.tag, start) }
    return ([], suffix, after.skip)
  let (lead, after) ← handle .node start cursor
  if lead.length > 1 && lead.getLast? == some '!' then
    let (suffix, after) ← uri .node false [] start after
    return (lead, suffix, after)
  let (suffix, after) ← uri .node false lead start after
  if suffix.isEmpty then return ([], ['!'], after)
  return (['!'], suffix, after)

/-- A tag whose `!` is at the cursor. -/
def scan (flow : Bool) (cursor : Cursor) : Except SyntaxError (Token × Cursor) := do
  let (handle, suffix, after) ← parts cursor.mark cursor
  if !Cursor.blankOrEnd after.peek? && !(flow && after.atChar ',') then
    throw { problem := .expectedWhitespaceOrBreak, mark := after.mark,
            activity := some (.tag, cursor.mark) }
  return (⟨.tag (String.ofList handle) (String.ofList suffix), cursor.mark, after.mark⟩, after)

end Tag

namespace DirectiveLine

/-- One of the two numbers of a version. -/
def versionNumber (start : Mark) (cursor : Cursor) : Except SyntaxError (Nat × Cursor) :=
  let digits := cursor.rest.takeWhile Char.isDigit
  if digits.length > 9 then
    .error { problem := .longVersion, mark := (cursor.skipMany 9).mark,
             activity := some (.versionDirective, start) }
  else if digits.isEmpty then
    .error { problem := .expectedVersion, mark := cursor.mark,
             activity := some (.versionDirective, start) }
  else
    .ok (digits.foldl (fun value c => value * 10 + (c.toNat - 48)) 0,
      cursor.skipMany digits.length)

def version (start : Mark) (cursor : Cursor) : Except SyntaxError (TokenKind × Cursor) := do
  let (major, after) ← versionNumber start (cursor.skipWhile isPad)
  if !after.atChar '.' then
    throw { problem := .expectedVersionDot, mark := after.mark,
            activity := some (.versionDirective, start) }
  let (minor, after) ← versionNumber start after.skip
  return (.versionDirective major minor, after)

def tagHandle (start : Mark) (cursor : Cursor) : Except SyntaxError (TokenKind × Cursor) := do
  let (handle, after) ← Tag.handle .directive start (cursor.skipWhile isPad)
  if !(after.peek?.any isPad) then
    throw { problem := .expectedWhitespace, mark := after.mark,
            activity := some (.tagDirectiveScan, start) }
  let (lead, after) ← Tag.uri .directive true [] start (after.skipWhile isPad)
  if !Cursor.blankOrEnd after.peek? then
    throw { problem := .expectedWhitespaceOrBreak, mark := after.mark,
            activity := some (.tagDirectiveScan, start) }
  return (.tagDirective (String.ofList handle) (String.ofList lead), after)

/-- A directive whose `%` is at the cursor. -/
def scan (cursor : Cursor) : Except SyntaxError (Token × Cursor) := do
  let start := cursor.mark
  let body := cursor.skip
  let name := body.rest.takeWhile isWord
  let after := body.skipMany name.length
  let fail (problem : Problem) (mark : Mark) : SyntaxError :=
    { problem := problem, mark := mark, activity := some (.directive, start) }
  if name.isEmpty then throw (fail .expectedDirectiveName after.mark)
  if !Cursor.blankOrEnd after.peek? then throw (fail .unexpectedDirectiveCharacter after.mark)
  let (kind, after) ←
    if name == "YAML".toList then version start after
    else if name == "TAG".toList then tagHandle start after
    else throw (fail .unknownDirective after.mark)
  let stop := after.mark
  let rest := after.skipWhile isPad
  let rest := if rest.atChar '#' then rest.skipWhile (fun c => !isBreak c) else rest
  if !Cursor.breakOrEnd rest.peek? then throw (fail .expectedCommentOrBreak rest.mark)
  return (⟨kind, start, stop⟩, rest.skipLine)

end DirectiveLine

end Tangle.Yaml
