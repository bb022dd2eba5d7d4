import Tangle.Files.Outputs
import Tangle.Fixture.Run
import Tangle.Report

/-!
Contract: the commands of the program.

Owns: the command line, and what each command does and says.

Does **not** own: the file system it works on (`Tangle.Files.Access`).
-/

set_option autoImplicit false

namespace Tangle

open Tangle.Files
open Tangle.Generate

/-- What the user asks for. -/
inductive Command where
  | extract (file : String) (outDir : Option String) (isNested isQuiet : Bool)
  | check (file : String) (outDir : Option String)
  | test (path : String) (categories : List String)
  | listCategories (path : String)
  deriving DecidableEq, Repr, Inhabited

structure Invocation where
  command : Command
  isColoured : Bool := true
  isVerbose : Bool := false
  deriving DecidableEq, Repr, Inhabited

namespace Invocation

/-! ### The command line -/

/-- A word of the command line by its role. -/
inductive Word where
  | flag (name : String)
  | setting (name value : String)
  | operand (text : String)
  deriving DecidableEq, Repr, Inhabited

/-- The words of one argument; the last of them may want the next argument for its
value. -/
structure Argument where
  words : List Word
  wanting : Option String := none
  deriving DecidableEq, Repr, Inhabited

def takesValue (name : String) : Bool :=
  name == "outdir" || name == "category"

/-- An option that is spelled out. -/
def longOption (body : List Char) : Argument :=
  let name := String.ofList (body.takeWhile (· != '='))
  match body.dropWhile (· != '=') with
  | _ :: value => { words := [.setting name (String.ofList value)] }
  | [] => if takesValue name then { words := [], wanting := some name } else { words := [.flag name] }

/-- The name of an option that has a letter. -/
def letterName (c : Char) : String :=
  if c = 'v' then "verbose"
  else if c = 'q' then "quiet"
  else if c = 'c' then "category"
  else String.ofList [c]

/-- Options by letter; one that takes a value takes the rest of the argument. -/
def shortOptions : List Char → Argument
  | [] => { words := [] }
  | c :: rest =>
      let name := letterName c
      if takesValue name then
        match rest with
        | [] => { words := [], wanting := some name }
        | '=' :: value => { words := [.setting name (String.ofList value)] }
        | value => { words := [.setting name (String.ofList value)] }
      else
        let more := shortOptions rest
        { more with words := .flag name :: more.words }

def readArgument (text : String) : Argument :=
  match text.toList with
  | '-' :: '-' :: body => longOption body
  | '-' :: c :: rest => shortOptions (c :: rest)
  | _ => { words := [.operand text] }

/-- The words of a command line; none if a value is missing. Behind `--` everything
is an operand. -/
def readWords : List String → Option (List Word)
  | [] => some []
  | text :: rest =>
      if text = "--" then some (rest.map Word.operand)
      else
        let argument := readArgument text
        match argument.wanting with
        | none => (readWords rest).map (argument.words ++ ·)
        | some name =>
            match rest with
            | [] => none
            | value :: more =>
                (readWords more).map fun words => argument.words ++ .setting name value :: words

def operands (words : List Word) : List String :=
  words.filterMap fun word =>
    match word with
    | .operand text => some text
    | _ => none

def settings (name : String) (words : List Word) : List String :=
  words.filterMap fun word =>
    match word with
    | .setting key value => if key = name then some value else none
    | _ => none

/-- Whether every option is one of those that are known. -/
def onlyOptions (flags names : List String) (words : List Word) : Bool :=
  words.all fun word =>
    match word with
    | .flag name => flags.contains name
    | .setting name _ => names.contains name
    | .operand _ => true

/-- Flags that every command takes. -/
def commonFlags : List String := ["no-color", "verbose"]

def command? (words : List Word) : Option Command :=
  match operands words with
  | ["extract", file] =>
      if onlyOptions (commonFlags ++ ["no-nested", "quiet"]) ["outdir"] words then
        some (.extract file (settings "outdir" words).head?
          (!words.contains (.flag "no-nested")) (words.contains (.flag "quiet")))
      else none
  | ["check", file] =>
      if onlyOptions commonFlags ["outdir"] words then
        some (.check file (settings "outdir" words).head?)
      else none
  | ["test", path] =>
      if onlyOptions (commonFlags ++ ["list-categories"]) ["category"] words then
        if words.contains (.flag "list-categories") then some (.listCategories path)
        else some (.test path (settings "category" words))
      else none
  | _ => none

/-- What a command line asks for, if it asks for anything. -/
def parse (arguments : List String) : Option Invocation := do
  let words ← readWords arguments
  let command ← command? words
  return {
    command := command
    isColoured := !words.contains (.flag "no-color")
    isVerbose := words.contains (.flag "verbose") }

/-! ### The commands -/

def logStyle (invocation : Invocation) : Log.Style :=
  ⟨invocation.isVerbose, invocation.isColoured⟩

/-- The reports on every stage. -/
def diagnosticLines (extraction : Extraction) : List String :=
  extraction.stages.flatMap fun stage =>
    stage.diagnostics.flatMap (Report.lines stage.sourcePath stage.text)

/-- The commentary on an extraction, then the reports on it. -/
def openingLines (invocation : Invocation) (limit : Nat) (extraction : Extraction) : List String :=
  invocation.logStyle.lines (extraction.events limit) ++ diagnosticLines extraction

/-- What is said about outputs that were written. -/
def summaryLines (file : String) (report : WriteReport) : List String :=
  report.written.map (fun path => "wrote " ++ path)
    ++ [file ++ ": " ++ Text.ofNat report.written.length ++ " written, "
      ++ Text.ofNat report.unchanged.length ++ " unchanged"]

def unreadable (file : String) (failure : FileError) : Outcome :=
  ⟨1, ["error: cannot read '" ++ file ++ "': " ++ failure.message]⟩

section Running

variable {m : Type → Type} [Monad m] [FileAccess m]

def runExtract (invocation : Invocation) (file : String) (options : Options)
    (isNested isQuiet : Bool) : m Outcome := do
  match ← FileAccess.readText file with
  | .error failure => return unreadable file failure
  | .ok source =>
      let limit := if isNested then Extraction.maxNestingDepth else 0
      let extraction := Extraction.buildWithin limit source file options
      let report ← writeOutputs extraction.allOutputs
      let opening :=
        invocation.openingLines limit extraction
          ++ invocation.logStyle.lines (report.written.map Log.writeEvent)
      match report.failure with
      | some failure =>
          return ⟨1, opening
            ++ ["error: cannot write outputs of '" ++ file ++ "': " ++ failure.message]⟩
      | none =>
          return ⟨if extraction.hasErrors then 1 else 0,
            opening ++ if isQuiet then [] else summaryLines file report⟩

def runCheck (invocation : Invocation) (file : String) (options : Options) : m Outcome := do
  match ← FileAccess.readText file with
  | .error failure => return unreadable file failure
  | .ok source =>
      let extraction := Extraction.build source file options
      let opening := invocation.openingLines Extraction.maxNestingDepth extraction
      match ← checkOutputs extraction with
      | .error failure =>
          return ⟨1, opening
            ++ ["error: cannot check outputs of '" ++ file ++ "': " ++ failure.message]⟩
      | .ok mismatches =>
          if mismatches.isEmpty && !extraction.hasErrors then
            return ⟨0, opening ++ ["ok: " ++ file ++ " is up to date"]⟩
          else return ⟨1, opening ++ mismatches.map Mismatch.text⟩

def run (invocation : Invocation) : m Outcome :=
  match invocation.command with
  | .extract file outDir isNested isQuiet =>
      invocation.runExtract file ⟨outDir⟩ isNested isQuiet
  | .check file outDir => invocation.runCheck file ⟨outDir⟩
  | .test path categories =>
      Fixture.run ⟨invocation.isColoured, some invocation.logStyle⟩ path categories
  | .listCategories path => do return ⟨0, ← Fixture.listCategories path⟩

end Running

end Invocation

end Tangle
