import Tangle.Toml.Document

/-!
Contract: typed values out of a TOML document.

Owns: the conversions of items to texts, booleans, counts, sequences and
structures, and the wording of their failures.

Does **not** own: any particular structure.

A failure without a place takes the place of the nearest item around it that has
one. Structures are read from tables by name and from arrays by position.
-/

set_option autoImplicit false

namespace Tangle.Toml

open Tangle.Source

/-- A value, or why there is none. -/
abbrev Decoded := Except Problem

variable {α : Type}

/-- Gives a failure a place if it has none. -/
def located (span : Option Span) (decoded : Decoded α) : Decoded α :=
  decoded.mapError fun problem => { problem with span := problem.span.or span }

def wrongType (item : Item) (expected : String) : Decoded α :=
  .error ⟨"invalid type: " ++ item.found.describe ++ ", expected " ++ expected, item.span?⟩

namespace Item

def toText : Item → Decoded String
  | string _ text => .ok text
  | item => wrongType item "a string"

def toBool : Item → Decoded Bool
  | boolean _ value => .ok value
  | item => wrongType item "a boolean"

def toCount : Item → Decoded Nat
  | integer span value =>
      if value < 0 then
        .error ⟨"invalid value: " ++ (Data.Found.integer value).describe ++ ", expected usize",
          some span⟩
      else .ok value.toNat
  | item => wrongType item "usize"

/-- The items of an array of either kind. -/
def elements? : Item → Option (List Item)
  | array _ items => some items
  | tables items => some (items.map Item.table)
  | _ => none

def toList (decode : Item → Decoded α) (item : Item) : Decoded (List α) :=
  match item.elements? with
  | some items => located item.span? (items.mapM decode)
  | none => wrongType item "a sequence"

/-- The first two elements. -/
def toPair (decode : Item → Decoded α) (item : Item) : Decoded (α × α) :=
  let expected := "an array of length 2"
  match item.elements? with
  | none => wrongType item expected
  | some items =>
      located item.span? do
        match ← (items.take 2).mapM decode with
        | [first, second] => .ok (first, second)
        | found =>
            .error ⟨"invalid length " ++ Text.ofNat found.length ++ ", expected " ++ expected, none⟩

end Item

/-- A field of a structure as it was found. -/
structure Field where
  name : String
  span : Option Span
  item : Item

/-- The fields of a structure, and what to say about one that is not there. -/
structure Fields where
  present : List Field
  absent : String → Problem

def tableFields (table : Table Item) : Fields :=
  { present := table.entries.map fun entry =>
      ⟨entry.1.text, entry.2.span?.or (some entry.1.span), entry.2⟩
    absent := fun name => ⟨"missing field `" ++ name ++ "`", none⟩ }

/-- The fields of the structure `typeName`, whose fields have the given names. -/
def Item.toFields (typeName : String) (names : List String) (item : Item) : Decoded Fields :=
  match item with
  | .table found => .ok (tableFields found)
  | .inlineTable _ found => .ok (tableFields found)
  | .moment _ => .ok (tableFields {})
  | _ =>
      match item.elements? with
      | some items =>
          .ok
            { present := (names.zip items).map fun (name, element) =>
                ⟨name, element.span?, element⟩
              absent := fun _ =>
                ⟨"invalid length " ++ Text.ofNat items.length ++ ", expected struct " ++ typeName
                  ++ " with " ++ Text.ofNat names.length ++ " elements", none⟩ }
      | none => wrongType item ("struct " ++ typeName)

/-- Reads the fields in order into a record that starts out empty. -/
def Fields.foldInto (fields : Fields) (record : α) (read : α → Field → Decoded α) : Decoded α :=
  fields.present.foldlM (fun record field => located field.span (read record field)) record

/-- A field that has to be there. -/
def Fields.require (fields : Fields) (name : String) (value : Option α) : Decoded α :=
  match value with
  | some found => .ok found
  | none => .error (fields.absent name)

end Tangle.Toml
