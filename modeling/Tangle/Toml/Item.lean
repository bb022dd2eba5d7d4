import Tangle.Data.Found
import Tangle.Source.Position

/-!
Contract: the contents of a TOML document.

Owns: keys, tables and values, each with its place in the text.

Does **not** own: how they are read (`Tangle.Toml.Value`, `Tangle.Toml.Document`).
-/

set_option autoImplicit false

namespace Tangle.Toml

open Tangle.Source

structure Key where
  text : String
  span : Span
  deriving DecidableEq, Repr, Inhabited

/-- Entries in order of appearance, no key twice. A table that only came about
because something was put into it is implicit; one that came about through a
dotted key is dotted as well. -/
structure Table (α : Type) where
  span : Option Span := none
  isImplicit : Bool := false
  isDotted : Bool := false
  entries : List (Key × α) := []
  deriving Repr, Inhabited

/-- A value, a table with a header, or an array of such tables. -/
inductive Item where
  | string (span : Span) (text : String)
  | integer (span : Span) (value : Int)
  | real (span : Span) (value : Decimal.Real)
  | boolean (span : Span) (value : Bool)
  | moment (span : Span)
  | array (span : Span) (items : List Item)
  | inlineTable (span : Option Span) (table : Table Item)
  | table (table : Table Item)
  | tables (items : List (Table Item))

instance : Inhabited Item := ⟨.tables []⟩

namespace Table

variable {α : Type}

def find? (table : Table α) (name : String) : Option α :=
  (table.entries.find? fun entry => entry.1.text == name).map Prod.snd

def add (table : Table α) (key : Key) (value : α) : Table α :=
  { table with entries := table.entries ++ [(key, value)] }

/-- Changes the value of a key that is there. -/
def set (table : Table α) (name : String) (value : α) : Table α :=
  { table with
    entries := table.entries.map fun entry =>
      if entry.1.text == name then (entry.1, value) else entry }

def erase (table : Table α) (name : String) : Table α :=
  { table with entries := table.entries.filter fun entry => entry.1.text != name }

end Table

namespace Item

/-- From the start of the first table to the end of the last. -/
def tablesSpan (items : List (Table Item)) : Option Span :=
  match items.head?.bind Table.span, items.getLast?.bind Table.span with
  | some first, some last => some ⟨first.start, last.stop⟩
  | _, _ => none

def span? : Item → Option Span
  | string span _ => some span
  | integer span _ => some span
  | real span _ => some span
  | boolean span _ => some span
  | moment span => some span
  | array span _ => some span
  | inlineTable span _ => span
  | .table header => header.span
  | tables items => tablesSpan items

/-- The name of the type of a value. -/
def typeName : Item → String
  | string _ _ => "string"
  | integer _ _ => "integer"
  | real _ _ => "float"
  | boolean _ _ => "boolean"
  | moment _ => "datetime"
  | array _ _ => "array"
  | inlineTable _ _ => "inline table"
  | table _ => "table"
  | tables _ => "array of tables"

def found : Item → Data.Found
  | string _ text => .text text
  | integer _ value => .integer value
  | real _ value => .real value
  | boolean _ value => .boolean value
  | moment _ => .mapping
  | array _ _ => .sequence
  | inlineTable _ _ => .mapping
  | table _ => .mapping
  | tables _ => .sequence

end Item

end Tangle.Toml
