import Tangle.Toml.Problem
import Tangle.Toml.Value

/-!
Contract: a TOML text as one table.

Owns: lines, headers, and how entries and tables combine.

Does **not** own: values (`Tangle.Toml.Value`).

A header opens a table whose entries are collected until the next header; only
then does the table take its place in the document.
-/

set_option autoImplicit false

namespace Tangle.Toml

open Tangle.Source
open Tangle.Text.Symbol

/-- The document so far, and the table that entries go to. -/
structure Builder where
  root : Table Item := {}
  current : Table Item := { span := some ⟨0, 0⟩ }
  path : List Key := []
  isArray : Bool := false
  deriving Inhabited

def names (path : List Key) : List String :=
  path.map Key.text

/-- Changes the table at the end of a path; tables on the way are made as needed,
and of an array of tables the last one is meant. -/
def changeAt (dotted : Bool) (f : Table Item → Except Conflict (Table Item)) :
    List String → List Key → Table Item → Except Conflict (Table Item)
  | _, [], table => f table
  | done, key :: rest, table => do
      let path := done ++ [key.text]
      match table.find? key.text with
      | none =>
          let child ← changeAt dotted f path rest { isImplicit := true, isDotted := dotted }
          return table.add key (.table child)
      | some (.table child) =>
          if dotted && !child.isImplicit then .error (.duplicateKey key.text none)
          else
            let after ← changeAt dotted f path rest child
            return table.set key.text (.table after)
      | some (.tables items) =>
          match items.getLast? with
          | none => return table
          | some last =>
              let after ← changeAt dotted f path rest last
              return table.set key.text (.tables (items.dropLast ++ [after]))
      | some other => .error (.extendsValue path other.typeName)

/-- Puts an entry into the current table. -/
def insertEntry (tablePath : List Key) (path : KeyPath) (item : Item) (table : Table Item) :
    Except Conflict (Table Item) :=
  changeAt true (fun target =>
    if target.isDotted = path.above.isEmpty then .error (.duplicateKey path.last.text none)
    else if (target.find? path.last.text).isSome then
      .error (.duplicateKey path.last.text (some (names tablePath)))
    else .ok (target.add path.last item)) [] path.above table

/-- The span of a table grows with its entries. -/
def extendSpan (table : Table Item) (item : Item) : Table Item :=
  match table.span, item.span? with
  | some existing, some added => { table with span := some ⟨existing.start, added.stop⟩ }
  | _, _ => table

def Builder.addEntry (builder : Builder) (path : KeyPath) (item : Item) :
    Except Conflict Builder := do
  let current ← insertEntry builder.path path item (extendSpan builder.current item)
  return { builder with current := current }

/-- A key as a header spells it. -/
def Key.written (key : Key) : String :=
  if !key.text.isEmpty && key.text.toList.all isBareKeyChar then key.text
  else String.ofList (quote :: key.text.toList ++ [quote])

def headerConflict (path : KeyPath) : Conflict :=
  .duplicateKey path.last.written (some (names path.above))

/-- Puts the current table in its place. -/
def Builder.close (builder : Builder) : Except Conflict Builder := do
  match builder.path with
  | [] => return { builder with root := builder.current }
  | first :: more =>
      let path := KeyPath.ofParts first more
      let root ← changeAt false (fun parent =>
        if builder.isArray then
          match parent.find? path.last.text with
          | some (.tables items) =>
              .ok (parent.set path.last.text (.tables (items ++ [builder.current])))
          | some _ => .error (headerConflict path)
          | none => .ok (parent.add path.last (.tables [builder.current]))
        else
          match parent.find? path.last.text with
          | some _ => .error (headerConflict path)
          | none => .ok (parent.add path.last (.table builder.current))) [] path.above builder.root
      return { builder with root := root }

/-- The table that a header opens: a new one, or one that is implicit so far. -/
def Builder.openTable (builder : Builder) (path : KeyPath) (span : Span) :
    Except Conflict Builder := do
  let builder ← builder.close
  let reopened ← changeAt false (fun parent =>
    match parent.find? path.last.text with
    | none => .ok parent
    | some (.table existing) =>
        if existing.isImplicit && !existing.isDotted then .ok (parent.erase path.last.text)
        else .error (headerConflict path)
    | some _ => .error (headerConflict path)) [] path.above builder.root
  let kept := (tableAt? path.parts builder.root).getD []
  return { root := reopened, path := path.parts
           current := { span := some span, entries := kept } }
where
  /-- The entries of the table at the end of a path of tables. -/
  tableAt? : List Key → Table Item → Option (List (Key × Item))
    | [], table => some table.entries
    | key :: rest, table =>
        match table.find? key.text with
        | some (.table child) => tableAt? rest child
        | some (.tables items) => items.getLast?.bind fun last => tableAt? rest last
        | _ => none

/-- A header in double brackets adds a table to an array. -/
def Builder.openArray (builder : Builder) (path : KeyPath) (span : Span) :
    Except Conflict Builder := do
  let builder ← builder.close
  let root ← changeAt false (fun parent =>
    match parent.find? path.last.text with
    | none => .ok (parent.add path.last (.tables []))
    | some (.tables _) => .ok parent
    | some _ => .error (headerConflict path)) [] path.above builder.root
  return { root := root, path := path.parts, current := { span := some span }, isArray := true }

/-- The line of an entry. -/
def entryLine (builder : Builder) (cursor : Cursor) : Reading (Builder × Cursor) := do
  let ((path, item), after) ← keyValue value cursor
  let ((), last) ← committed (expecting lineEndExpected (lineTail after))
  match builder.addEntry path item with
  | .ok builder => return (builder, last)
  | .error conflict => refuseAt cursor conflict.message

/-- A header between the given brackets, with the span from bracket to bracket. -/
def header (opening closing : List Char) (cursor : Cursor) : Reading ((KeyPath × Span) × Cursor) := do
  let ((), inside) ← literal opening cursor
  let (path, after) ← committed (keyPath inside)
  let ((), behind) ←
    expecting [charExpected '.', String.ofList (backtick :: closing ++ [backtick])]
      (committed (literal closing after))
  let ((), last) ← expecting lineEndExpected (committed (lineTail behind))
  return ((path, spanFrom cursor behind), last)

def headerLine (builder : Builder) (cursor : Cursor) : Reading (Builder × Cursor) :=
  labelled "table header" do
    let isArray := "[[".toList.isPrefixOf cursor.rest
    if cursor.rest.length < 2 then failAt cursor
    else
      let ((path, span), last) ←
        if isArray then header ['[', '['] [']', ']'] cursor else header ['['] [']'] cursor
      let opened :=
        if isArray then builder.openArray path span else builder.openTable path span
      match opened with
      | .ok builder => return (builder, last)
      | .error conflict => refuseAt cursor conflict.message

/-- Reads lines to the end of the text. -/
def documentLines : Nat → Builder → Cursor → Except Failure Builder
  | 0, builder, _ => .ok builder
  | fuel + 1, builder, cursor =>
      let cursor := skipBlanks cursor
      match cursor.peek? with
      | none => .ok builder
      | some c =>
          if c = '#' then do
            let ((), after) ← lineEnd (skipComment cursor)
            documentLines fuel builder after
          else if c = '[' then do
            let (builder, after) ← headerLine builder cursor
            documentLines fuel builder after
          else if c = '\n' || c = '\r' then
            match afterNewline? cursor with
            | some after => documentLines fuel builder after
            | none => .error { offset := cursor.offset }
          else do
            let (builder, after) ← entryLine builder cursor
            documentLines fuel builder after

/-- Skips a byte order mark. -/
def skipMark (cursor : Cursor) : Cursor :=
  if cursor.peek? = some '\ufeff' then cursor.next else cursor

/-- The table that a text stands for. -/
def parse (text : String) : Except Problem (Table Item) :=
  let start := skipMark (Cursor.ofText text)
  match documentLines (start.rest.length + 1) {} start with
  | .error failure => .error (failure.problem text)
  | .ok builder =>
      match builder.close with
      | .ok builder => .ok builder.root
      | .error conflict => .error ⟨conflict.message, none⟩

end Tangle.Toml
