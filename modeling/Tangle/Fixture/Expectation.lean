import Tangle.Toml.Decode

/-!
Contract: what a fixture expects of the extraction of its body.

Owns: the expectations and how they are read from a TOML table.

Does **not** own: whether they are met (`Tangle.Fixture.Verdict`).
-/

set_option autoImplicit false

namespace Tangle.Fixture

open Tangle.Source
open Tangle.Toml

/-- A file that has to be generated, with this content if one is given. -/
structure ExpectedFile where
  path : String
  content : Option String
  deriving DecidableEq, Repr, Inhabited

/-- A report of this kind, on this line if one is given. -/
structure ExpectedDiagnostic where
  kind : String
  line : Option Nat
  deriving DecidableEq, Repr, Inhabited

/-- A position in the body and the generated position that belongs to it. -/
structure ExpectedPosition where
  source : Position
  file : String
  generated : Position
  deriving DecidableEq, Repr, Inhabited

/-- Reports are only looked at if they are mentioned, be it as none. -/
structure Expectation where
  description : Option String := none
  outDir : Option String := none
  files : List ExpectedFile := []
  exactFiles : Bool := false
  diagnostics : Option (List ExpectedDiagnostic) := none
  positions : List ExpectedPosition := []
  deriving DecidableEq, Repr, Inhabited

def toPosition (item : Item) : Decoded Position := do
  let (line, column) ← item.toPair Item.toCount
  return ⟨line, column⟩

/-- An expected file while it is read. -/
structure FileDraft where
  path : Option String := none
  content : Option String := none

def ExpectedFile.decode (item : Item) : Decoded ExpectedFile :=
  located item.span? do
    let fields ← item.toFields "ExpectedFile" ["path", "content"]
    let draft ← fields.foldInto ({} : FileDraft) fun draft field =>
      match field.name with
      | "path" => return { draft with path := some (← field.item.toText) }
      | "content" => return { draft with content := some (← field.item.toText) }
      | _ => return draft
    return ⟨← fields.require "path" draft.path, draft.content⟩

/-- An expected report while it is read. -/
structure DiagnosticDraft where
  kind : Option String := none
  line : Option Nat := none

def ExpectedDiagnostic.decode (item : Item) : Decoded ExpectedDiagnostic :=
  located item.span? do
    let fields ← item.toFields "ExpectedDiagnostic" ["kind", "line"]
    let draft ← fields.foldInto ({} : DiagnosticDraft) fun draft field =>
      match field.name with
      | "kind" => return { draft with kind := some (← field.item.toText) }
      | "line" => return { draft with line := some (← field.item.toCount) }
      | _ => return draft
    return ⟨← fields.require "kind" draft.kind, draft.line⟩

/-- An expected position while it is read. -/
structure PositionDraft where
  source : Option Position := none
  file : Option String := none
  generated : Option Position := none

def ExpectedPosition.decode (item : Item) : Decoded ExpectedPosition :=
  located item.span? do
    let fields ← item.toFields "ExpectedPosition" ["source", "file", "generated"]
    let draft ← fields.foldInto ({} : PositionDraft) fun draft field =>
      match field.name with
      | "source" => return { draft with source := some (← toPosition field.item) }
      | "file" => return { draft with file := some (← field.item.toText) }
      | "generated" => return { draft with generated := some (← toPosition field.item) }
      | _ => return draft
    return ⟨← fields.require "source" draft.source, ← fields.require "file" draft.file,
      ← fields.require "generated" draft.generated⟩

/-- Reads one entry of the table; an entry without a meaning is passed over. -/
def Expectation.readField (expectation : Expectation) (field : Field) : Decoded Expectation :=
  match field.name with
  | "description" => return { expectation with description := some (← field.item.toText) }
  | "out_dir" => return { expectation with outDir := some (← field.item.toText) }
  | "expect_file" =>
      return { expectation with files := ← field.item.toList ExpectedFile.decode }
  | "exact_files" => return { expectation with exactFiles := ← field.item.toBool }
  | "expect_diagnostics" =>
      return { expectation with
        diagnostics := some (← field.item.toList ExpectedDiagnostic.decode) }
  | "expect_position" =>
      return { expectation with positions := ← field.item.toList ExpectedPosition.decode }
  | _ => return expectation

def Expectation.ofTable (table : Table Item) : Decoded Expectation :=
  located table.span ((tableFields table).foldInto {} Expectation.readField)

/-- Reads the header of a fixture; a failure is shown with its excerpt. -/
def Expectation.parse (header : String) : Except String Expectation :=
  (do Expectation.ofTable (← Toml.parse header) : Decoded Expectation).mapError fun problem =>
    problem.render header

end Tangle.Fixture
