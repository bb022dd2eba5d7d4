import Tangle.Extraction
import Tangle.Fixture.Expectation
import Tangle.Text.Replace

/-!
Contract: whether an extraction meets the expectations of a fixture.

Owns: the order of the checks, and the wording of the first that fails.
-/

set_option autoImplicit false

namespace Tangle.Fixture

open Tangle.Source
open Tangle.Document
open Tangle.Generate

/-- The name that the body of a fixture is extracted under. -/
def bodyName : String := "README.md"

/-- Outputs by name, in order of names, no name twice. -/
abbrev Outputs := List (String × String)

/-- Adds an output in its place; a later one of the same name wins. -/
def insertOutput (name content : String) : Outputs → Outputs
  | [] => [(name, content)]
  | first :: rest =>
      if Text.before name first.1 then (name, content) :: first :: rest
      else if Text.before first.1 name then first :: insertOutput name content rest
      else (name, content) :: rest

/-- The name of an output: its path below the top output directory, if it is below
it, with slashes for backslashes. -/
def outputName (root path : String) : String :=
  Text.replace "\\" "/" ((Path.below? root path).getD path)

def namedOutputs (extraction : Extraction) : Outputs :=
  extraction.allOutputs.foldl
    (fun outputs output =>
      insertOutput (outputName extraction.stage.outputDir output.1) output.2 outputs)
    []

def listOrNone (names : List String) : String :=
  if names.isEmpty then "(none)" else Text.join ", " names

/-- What is wrong with one expected file. -/
def fileReason? (outputs : Outputs) (expected : ExpectedFile) : Option String :=
  match outputs.find? fun output => output.1 == expected.path with
  | none =>
      some ("expected file " ++ expected.path ++ " was not generated\n  generated: "
        ++ listOrNone (outputs.map Prod.fst))
  | some (_, actual) =>
      match expected.content with
      | none => none
      | some content =>
          if actual = content then none
          else
            some ("content mismatch in " ++ expected.path ++ "\n  expected: "
              ++ Text.quoted content ++ "\n  actual:   " ++ Text.quoted actual)

/-- Outputs that nothing expects. -/
def unexpectedNames (outputs : Outputs) (expected : List ExpectedFile) : List String :=
  (outputs.map Prod.fst).filter fun name => !expected.any fun file => file.path == name

def filesReason? (outputs : Outputs) (expectation : Expectation) : Option String :=
  (expectation.files.findSome? (fileReason? outputs)).or <|
    let unexpected := unexpectedNames outputs expectation.files
    if expectation.exactFiles && !unexpected.isEmpty then
      some ("unexpected generated file(s): " ++ listOrNone unexpected)
    else none

/-- What is wrong with one report. -/
def diagnosticReason? (index : Nat) (actual : Diagnostic) (expected : ExpectedDiagnostic) :
    Option String :=
  let subject := "diagnostic[" ++ Text.ofNat index ++ "]: "
  if actual.problem.code != expected.kind then
    some (subject ++ "expected kind " ++ expected.kind ++ ", got: " ++ actual.text)
  else
    match expected.line with
    | none => none
    | some line =>
        if actual.range.start.line = line then none
        else
          some (subject ++ "expected on line " ++ Text.ofNat line ++ ", but it starts on line "
            ++ Text.ofNat actual.range.start.line)

def diagnosticsReasonFrom? (index : Nat) : List (Diagnostic × ExpectedDiagnostic) → Option String
  | [] => none
  | (actual, expected) :: rest =>
      (diagnosticReason? index actual expected).or (diagnosticsReasonFrom? (index + 1) rest)

def diagnosticsReason? (actual : List Diagnostic) (expected : List ExpectedDiagnostic) :
    Option String :=
  if actual.length = expected.length then diagnosticsReasonFrom? 0 (actual.zip expected)
  else
    let listed :=
      if actual.isEmpty then "    (none)"
      else Text.join "\n" (actual.map fun diagnostic => "  - " ++ diagnostic.text)
    some ("expected " ++ Text.ofNat expected.length ++ " diagnostic(s), got "
      ++ Text.ofNat actual.length ++ "\n  actual diagnostics:\n" ++ listed)

/-- A position that may be absent, as messages spell it. -/
def positionText : Option Position → String
  | none => "None"
  | some p =>
      "Some(Position \x7b line: " ++ Text.ofNat p.line ++ ", column: " ++ Text.ofNat p.column
        ++ " \x7d)"

/-- A position has to lead to its generated position and back. -/
def positionReason? (extraction : Extraction) (index : Nat) (expected : ExpectedPosition) :
    Option String :=
  let subject := "position[" ++ Text.ofNat index ++ "]: "
  let path := Path.join extraction.stage.outputDir expected.file
  match extraction.toLeafGenerated? expected.source with
  | none => some (subject ++ expected.source.text ++ " is not inside extracted code")
  | some hit =>
      if Path.same hit.path path && hit.position == expected.generated then
        let back := extraction.toRootSource? path expected.generated
        if back = some expected.source then none
        else
          some (subject ++ expected.file ++ ":" ++ expected.generated.text ++ " maps back to "
            ++ positionText back ++ ", expected " ++ expected.source.text)
      else
        some (subject ++ expected.source.text ++ " maps to " ++ hit.path ++ ":"
          ++ hit.position.text ++ ", expected " ++ expected.file ++ ":" ++ expected.generated.text)

def positionsReasonFrom? (extraction : Extraction) (index : Nat) :
    List ExpectedPosition → Option String
  | [] => none
  | expected :: rest =>
      (positionReason? extraction index expected).or
        (positionsReasonFrom? extraction (index + 1) rest)

/-- The extraction that a fixture is about. -/
def bodyExtraction (expectation : Expectation) (body : String) : Extraction :=
  Extraction.build body bodyName ⟨expectation.outDir⟩

/-- The first expectation that is not met: files, then reports, then positions. -/
def reason? (expectation : Expectation) (extraction : Extraction) : Option String :=
  ((filesReason? (namedOutputs extraction) expectation).or
    (expectation.diagnostics.bind (diagnosticsReason? extraction.diagnostics))).or
    (positionsReasonFrom? extraction 0 expectation.positions)

end Tangle.Fixture
