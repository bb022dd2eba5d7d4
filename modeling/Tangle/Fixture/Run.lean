import Tangle.Fixture.Discovery
import Tangle.Fixture.FrontMatter
import Tangle.Fixture.Verdict
import Tangle.Log
import Tangle.Outcome

/-!
Contract: running fixtures and reporting on them.

Owns: the verdict on a fixture file, the report on a run, and its exit code.
-/

set_option autoImplicit false

namespace Tangle.Fixture

open Tangle.Files

/-- A fixture that was run; it passed unless there is a failure. -/
structure Result where
  path : String
  description : Option String := none
  failure : Option String := none
  events : List Log.Event := []
  deriving DecidableEq, Repr, Inhabited

namespace Result

def passed (result : Result) : Bool :=
  result.failure.isNone

/-- The description, or else the file name without its extension. -/
def label (result : Result) : String :=
  result.description.getD ((Path.fileStem? result.path).getD "?")

end Result

/-- The expectations and the body of a fixture file, or what is wrong with its front matter. -/
def parseFixture (content : String) : Except String (Expectation × String) :=
  match split content with
  | .error missing => .error missing.message
  | .ok parts =>
      match Expectation.parse parts.header with
      | .error message => .error ("TOML parse error: " ++ message)
      | .ok expectation => .ok (expectation, parts.body)

/-- The verdict on the text of a fixture file. -/
def judge (path content : String) : Result :=
  match parseFixture content with
  | .error reason => { path := path, failure := some ("frontmatter error: " ++ reason) }
  | .ok (expectation, body) =>
      let extraction := bodyExtraction expectation body
      { path := path
        description := expectation.description
        failure := reason? expectation extraction
        events := extraction.events Extraction.maxNestingDepth }

/-- How a run is shown. -/
structure Style where
  isColoured : Bool
  log : Option Log.Style
  deriving DecidableEq, Repr, Inhabited

def bold : String := "1"
def red : String := "31"
def green : String := "32"

def Style.paint (style : Style) (effect text : String) : String :=
  Log.paint style.isColoured effect text

/-- The commentary on a fixture and the line with its verdict. -/
def resultLines (style : Style) (result : Result) : List String :=
  let mark := if result.passed then style.paint green "PASS" else style.paint red "FAIL"
  ((style.log.map fun log => log.lines result.events).getD [])
    ++ ["  " ++ mark ++ "  " ++ result.label]

/-- The details on a fixture that failed. -/
def failureLines (result : Result) : List String :=
  match result.failure with
  | none => []
  | some reason =>
      ["", "  --- " ++ result.path ++ " ---"]
        ++ (Text.terminatedLines reason.toList).map fun line => "  " ++ String.ofList line

/-- The last lines of a run. -/
def summaryLines (style : Style) (results : List Result) : List String :=
  let failures := results.filter fun result => !result.passed
  let passed := (results.filter Result.passed).length
  let details :=
    if failures.isEmpty then [] else ["", "failures:"] ++ failures.flatMap failureLines
  details ++ [""] ++
    if failures.isEmpty then
      ["test result: " ++ style.paint green "ok" ++ ". " ++ Text.ofNat passed
        ++ " passed, 0 failed"]
    else
      ["test result: " ++ style.paint red "FAILED" ++ ". " ++ Text.ofNat passed ++ " passed, "
        ++ Text.ofNat failures.length ++ " failed (of "
        ++ Text.ofNat (passed + failures.length) ++ ")"]

/-- Categories with the results of their fixtures; `hasTitles` asks for headings. -/
def runOutcome (style : Style) (hasTitles : Bool) (groups : List (Category × List Result)) :
    Outcome :=
  let results := groups.flatMap Prod.snd
  let body := groups.flatMap fun (category, members) =>
    (if hasTitles then ["", style.paint bold category.title] else [])
      ++ members.flatMap (resultLines style)
  { exitCode := if results.all Result.passed then 0 else 1
    lines := body ++ summaryLines style results }

section Running

variable {m : Type → Type} [Monad m] [FileAccess m]

def runFile (file : FoundPath) : m Result := do
  match ← FileAccess.readText file.path with
  | .error failure =>
      return { path := file.shown, failure := some ("cannot read file: " ++ failure.message) }
  | .ok content => return judge file.shown content

def runFiles : List FoundPath → m (List Result)
  | [] => return []
  | file :: rest => do
      let result ← runFile file
      return result :: (← runFiles rest)

def runCategories : List Category → m (List (Category × List Result))
  | [] => return []
  | category :: rest => do
      let results ← runFiles category.files
      return (category, results) :: (← runCategories rest)

def noneFound (path : String) : String :=
  "no .test.md files found in " ++ path

/-- Runs one fixture file, or the fixtures of the wanted categories below a
directory. -/
def run (style : Style) (path : String) (wanted : List String) : m Outcome := do
  if ← isFile path then
    return runOutcome style false (← runCategories [⟨"", [.ofText path]⟩])
  else
    let categories ← discover path
    if categories.isEmpty then return ⟨1, [noneFound path]⟩
    else
      let choice := select categories wanted
      if choice.categories.isEmpty then
        return ⟨1, choice.warnings ++ ["no matching categories found"]⟩
      else
        let outcome := runOutcome style (← isDirectory path) (← runCategories choice.categories)
        return { outcome with lines := choice.warnings ++ outcome.lines }

/-- The categories below a directory with the number of their fixtures. -/
def listCategories (path : String) : m (List String) := do
  if ← isFile path then return ["(single file, no categories)"]
  else
    let categories ← discover path
    if categories.isEmpty then return [noneFound path]
    else
      return "available categories:" :: categories.map fun category =>
        "  " ++ category.title ++ " (" ++ Text.ofNat category.files.length ++ " tests)"

end Running

end Tangle.Fixture
