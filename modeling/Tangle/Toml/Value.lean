import Tangle.Toml.Item
import Tangle.Toml.Numbers

/-!
Contract: keys and values of a TOML text.

Owns: dotted keys, the choice of a value by its first character, arrays and inline
tables.

Does **not** own: headers and lines (`Tangle.Toml.Document`).

Arrays and inline tables nest up to a fixed depth, and reading recurses on what is
left of it.
-/

set_option autoImplicit false

namespace Tangle.Toml

open Tangle.Source
open Tangle.Text.Symbol

/-- Nesting from which on a text is refused. -/
def nestingLimit : Nat := 80

def tooDeep : String := "recursion limit exceeded"

def spanFrom (start stop : Cursor) : Span :=
  ⟨start.offset, stop.offset⟩

/-- Characters of a key without quotes. -/
def isBareKeyChar (c : Char) : Bool :=
  ('a' ≤ c && c ≤ 'z') || ('A' ≤ c && c ≤ 'Z') || c.isDigit || c == '-' || c == '_'

def simpleKey (cursor : Cursor) : Reading (Key × Cursor) := do
  let (text, after) ←
    match cursor.peek? with
    | none => failAt cursor
    | some c =>
        if c = quote then basicString cursor
        else if c = apostrophe then literalString cursor
        else
          let (bare, after) := cursor.run isBareKeyChar
          if bare.isEmpty then failAt cursor else .ok (bare, after)
  return (⟨String.ofList text, spanFrom cursor after⟩, after)

/-- One part of a key with the blanks around it. -/
def keyPart (cursor : Cursor) : Reading (Key × Cursor) := do
  let (key, after) ← simpleKey (skipBlanks cursor)
  return (key, skipBlanks after)

/-- The parts behind the first, each behind a dot. -/
def moreKeyParts : Nat → Cursor → Reading (List Key × Cursor)
  | 0, cursor => .ok ([], cursor)
  | fuel + 1, cursor =>
      if cursor.peek? = some '.' then do
        let (found, after) ← optional cursor (keyPart cursor.next)
        match found with
        | none => return ([], cursor)
        | some key =>
            let (more, last) ← moreKeyParts fuel after
            return (key :: more, last)
      else .ok ([], cursor)

/-- A dotted key: the parts ahead of the last one, and the last one. -/
structure KeyPath where
  above : List Key
  last : Key
  deriving DecidableEq, Repr, Inhabited

def KeyPath.parts (path : KeyPath) : List Key :=
  path.above ++ [path.last]

def KeyPath.ofParts (first : Key) : List Key → KeyPath
  | [] => ⟨[], first⟩
  | second :: rest =>
      let tail := KeyPath.ofParts second rest
      ⟨first :: tail.above, tail.last⟩

def keyPath (cursor : Cursor) : Reading (KeyPath × Cursor) := do
  let (parts, after) ← labelled "key" do
    let (first, after) ← keyPart cursor
    let (more, last) ← moreKeyParts after.rest.length after
    return ((first, more), last)
  if nestingLimit ≤ parts.2.length + 1 then
    .error { offset := cursor.offset, cause := some tooDeep }
  else return (KeyPath.ofParts parts.1 parts.2, after)

/-- Why two parts of a document do not fit together. -/
inductive Conflict where
  | duplicateKey (key : String) (table : Option (List String))
  | extendsValue (path : List String) (typeName : String)
  deriving DecidableEq, Repr, Inhabited

def Conflict.message : Conflict → String
  | duplicateKey key none => "duplicate key `" ++ key ++ "`"
  | duplicateKey key (some []) => "duplicate key `" ++ key ++ "` in document root"
  | duplicateKey key (some path) =>
      "duplicate key `" ++ key ++ "` in table `" ++ Text.join "." path ++ "`"
  | extendsValue path typeName =>
      "dotted key `" ++ Text.join "." path ++ "` attempted to extend non-table type ("
        ++ typeName ++ ")"

/-- Puts a value into an inline table; tables on the way are made as needed. -/
def insertInline (done : List String) (value : Item) :
    List Key → Key → Table Item → Except Conflict (Table Item)
  | [], key, table =>
      if table.isDotted = done.isEmpty then .error (.duplicateKey key.text none)
      else if (table.find? key.text).isSome then .error (.duplicateKey key.text none)
      else .ok (table.add key value)
  | part :: rest, key, table => do
      let path := done ++ [part.text]
      match table.find? part.text with
      | none =>
          let child ←
            insertInline path value rest key { isImplicit := true, isDotted := true }
          return table.add part (.inlineTable none child)
      | some (.inlineTable span child) =>
          if !child.isImplicit then .error (.duplicateKey part.text none)
          else
            let after ← insertInline path value rest key child
            return table.set part.text (.inlineTable span after)
      | some other => .error (.extendsValue path other.typeName)

def inlineEntries (entries : List (KeyPath × Item)) : Except Conflict (Table Item) :=
  entries.foldlM (fun table entry => insertInline [] entry.2 entry.1.above entry.1.last table) {}

def charExpected (c : Char) : String :=
  String.ofList [backtick, c, backtick]

/-- What a line expects at its end. -/
def lineEndExpected : List String := ["newline", charExpected '#']

section Collections

variable (value : Cursor → Reading (Item × Cursor))

/-- A value with the gaps around it. -/
def arrayElement (cursor : Cursor) : Reading (Item × Cursor) := do
  let (item, after) ← value (skipGap cursor)
  return (item, skipGap after)

/-- Elements behind the first, each behind a comma. -/
def moreElements : Nat → Cursor → Reading (List Item × Cursor)
  | 0, cursor => .ok ([], cursor)
  | fuel + 1, cursor =>
      if cursor.peek? = some ',' then do
        let (found, after) ← optional cursor (arrayElement value cursor.next)
        match found with
        | none => return ([], cursor)
        | some item =>
            let (more, last) ← moreElements fuel after
            return (item :: more, last)
      else .ok ([], cursor)

/-- The elements of an array, a comma after the last of them included. -/
def elements (cursor : Cursor) : Reading (List Item × Cursor) := do
  let (first, after) ← optional cursor (arrayElement value cursor)
  match first with
  | none => return ([], skipGap cursor)
  | some item =>
      let (more, last) ← moreElements value after.rest.length after
      let last := if last.peek? = some ',' then last.next else last
      return (item :: more, skipGap last)

/-- An array, its opening bracket at the cursor. -/
def array (cursor : Cursor) : Reading (List Item × Cursor) := do
  let (items, after) ← committed (elements value cursor.next)
  let ((), last) ←
    expecting [charExpected ']'] (labelled "array" (committed (literal [']'] after)))
  return (items, last)

/-- A key, an equals sign and a value. -/
def keyValue (cursor : Cursor) : Reading ((KeyPath × Item) × Cursor) := do
  let (path, after) ← keyPath cursor
  committed do
    let ((), behind) ←
      expecting [charExpected '.', charExpected '='] (literal ['='] after)
    let (item, last) ← value (skipBlanks behind)
    return ((path, item), last)

/-- An entry of an inline table with blanks after it. -/
def inlineEntry (cursor : Cursor) : Reading ((KeyPath × Item) × Cursor) := do
  let (entry, after) ← keyValue value cursor
  return (entry, skipBlanks after)

def moreInlineEntries : Nat → Cursor → Reading ((List (KeyPath × Item)) × Cursor)
  | 0, cursor => .ok ([], cursor)
  | fuel + 1, cursor =>
      if cursor.peek? = some ',' then do
        let (found, after) ← optional cursor (inlineEntry value cursor.next)
        match found with
        | none => return ([], cursor)
        | some entry =>
            let (more, last) ← moreInlineEntries fuel after
            return (entry :: more, last)
      else .ok ([], cursor)

def inlineEntriesOf (cursor : Cursor) : Reading ((List (KeyPath × Item)) × Cursor) := do
  let (first, after) ← optional cursor (inlineEntry value cursor)
  match first with
  | none => return ([], skipBlanks cursor)
  | some entry =>
      let (more, last) ← moreInlineEntries value after.rest.length after
      return (entry :: more, skipBlanks last)

/-- An inline table, its opening brace at the cursor. -/
def inlineTable (cursor : Cursor) : Reading (Table Item × Cursor) := do
  let inside := cursor.next
  let (entries, after) ← committed (inlineEntriesOf value inside)
  match inlineEntries entries with
  | .error conflict => refuseAt inside conflict.message
  | .ok table =>
      let ((), last) ←
        expecting [charExpected closeBrace]
          (labelled "inline table" (committed (literal [closeBrace] after)))
      return (table, last)

end Collections

/-- Something that looks like a string without quotes. -/
def unquoted {α : Type} (parsed : Reading (α × Cursor)) : Reading (α × Cursor) :=
  expecting [charExpected quote, charExpected apostrophe] (labelled "string" parsed)

/-- The words that are values. -/
def word (text : String) (item : Span → Item) (isCommitted : Bool) (cursor : Cursor) :
    Reading (Item × Cursor) :=
  unquoted <|
    match cursor.after? text.toList with
    | some after => .ok (item (spanFrom cursor after), after)
    | none => if isCommitted then committed (failAt cursor) else failAt cursor

/-- A date or time, a real, or an integer. -/
def number (cursor : Cursor) : Reading (Item × Cursor) :=
  orElse (do
    let ((), after) ← moment cursor
    return (Item.moment (spanFrom cursor after), after)) fun _ =>
  orElse (do
    let (value, after) ← real cursor
    return (Item.real (spanFrom cursor after) value, after)) fun _ => do
  let (value, after) ← integer cursor
  return (Item.integer (spanFrom cursor after) value, after)

/-- A value that is no collection. -/
def atom (cursor : Cursor) : Reading (Item × Cursor) :=
  match cursor.peek? with
  | none => failAt cursor
  | some c =>
      if c = quote || c = apostrophe then do
        let (text, after) ← string cursor
        return (.string (spanFrom cursor after) (String.ofList text), after)
      else if c = '+' || c = '-' || c.isDigit then number cursor
      else if c = '_' then expecting ["leading digit"] do
        let (value, after) ← integer cursor
        return (.integer (spanFrom cursor after) value, after)
      else if c = '.' then expecting ["leading digit"] do
        let (value, after) ← real cursor
        return (.real (spanFrom cursor after) value, after)
      else if c = 't' then word "true" (fun span => .boolean span true) true cursor
      else if c = 'f' then word "false" (fun span => .boolean span false) true cursor
      else if c = 'i' then word "inf" (fun span => .real span (.infinite false)) false cursor
      else if c = 'n' then word "nan" (fun span => .real span .notANumber) false cursor
      else unquoted (failAt cursor)

/-- A value with at most `depth` collections around each other. -/
def valueWithin : Nat → Cursor → Reading (Item × Cursor)
  | 0, cursor =>
      if cursor.peek? = some '[' || cursor.peek? = some openBrace then refuseAt cursor tooDeep
      else atom cursor
  | depth + 1, cursor =>
      if cursor.peek? = some '[' then do
        let (items, after) ← array (valueWithin depth) cursor
        return (.array (spanFrom cursor after) items, after)
      else if cursor.peek? = some openBrace then do
        let (table, after) ← inlineTable (valueWithin depth) cursor
        return (.inlineTable (some (spanFrom cursor after)) table, after)
      else atom cursor

def value (cursor : Cursor) : Reading (Item × Cursor) :=
  valueWithin (nestingLimit - 1) cursor

end Tangle.Toml
