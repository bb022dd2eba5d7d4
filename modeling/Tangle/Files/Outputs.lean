import Tangle.Extraction
import Tangle.Files.Walk

/-!
Contract: the outputs of an extraction on a file system.

Owns: writing outputs, comparing them with what is there, and which directories
belong to an extraction alone.

Does **not** own: the file system (`Tangle.Files.Access`).

Both directions ask the same question of an output: does its path read back
exactly its content?
-/

set_option autoImplicit false

namespace Tangle.Files

/-- What became of the outputs, in order; a failure ends the work. -/
structure WriteReport where
  written : List String := []
  unchanged : List String := []
  failure : Option FileError := none
  deriving DecidableEq, Repr, Inhabited

/-- A difference between an extraction and the file system. -/
inductive Mismatch where
  | missing (path : String)
  | outdated (path : String)
  | stale (path : String)
  deriving DecidableEq, Repr, Inhabited

namespace Mismatch

def path : Mismatch → String
  | missing path => path
  | outdated path => path
  | stale path => path

def label : Mismatch → String
  | missing _ => "missing"
  | outdated _ => "outdated"
  | stale _ => "stale"

def text (mismatch : Mismatch) : String :=
  mismatch.label ++ ": " ++ mismatch.path

end Mismatch

/-- A path that was read and gave exactly `content`. -/
def readsBack (reading : Except FileError String) (content : String) : Bool :=
  match reading with
  | .ok existing => existing == content
  | .error _ => false

section Writing

variable {m : Type → Type} [Monad m] [FileAccess m]

/-- Makes the directory that a file goes to. -/
def makeParent (path : String) : m (Except FileError Unit) :=
  makeDirectories ((Path.parent? path).getD "")

/-- Writes one file and the directories above it. -/
def placeFile (path content : String) : m (Except FileError Unit) := do
  match ← makeParent path with
  | .error failure => return .error failure
  | .ok () => FileAccess.writeText path content

/-- Writes the outputs that do not read back their content, one after another. -/
def writeOutputs : List (String × String) → m WriteReport
  | [] => return {}
  | (path, content) :: rest => do
      if readsBack (← FileAccess.readText path) content then
        let report ← writeOutputs rest
        return { report with unchanged := path :: report.unchanged }
      else
        match ← placeFile path content with
        | .error failure => return { failure := some failure }
        | .ok () =>
            let report ← writeOutputs rest
            return { report with written := path :: report.written }

/-- Compares outputs with what their paths read; anything that cannot be read, for
another reason than that it is missing, ends the work. -/
def compareOutputs : List (String × String) → m (Except FileError (List Mismatch))
  | [] => return .ok []
  | (path, content) :: rest => do
      match ← FileAccess.readText path with
      | .ok existing =>
          let found := if existing = content then [] else [Mismatch.outdated path]
          return (← compareOutputs rest).map (found ++ ·)
      | .error .notFound => return (← compareOutputs rest).map (Mismatch.missing path :: ·)
      | .error failure => return .error failure

end Writing

/-- Whether steps end strictly below where they start without ever leaving it;
`depth` names have been entered so far. -/
def staysBelow : Nat → List Path.Step → Bool
  | depth, [] => 0 < depth
  | depth, .name _ :: rest => staysBelow (depth + 1) rest
  | 0, .up :: _ => false
  | depth + 1, .up :: rest => staysBelow depth rest
  | depth, .here :: rest => staysBelow depth rest
  | _, .root :: _ => false

/-- An output directory strictly below the directory of the source holds nothing
but outputs. -/
def ownsDirectory (outDir : String) : Bool :=
  staysBelow 0 (Path.steps outDir)

/-- The directories in which every file should be an output. -/
def ownedDirectories (extraction : Extraction) : List String :=
  (extraction.stages.filter fun stage => ownsDirectory stage.generation.outDir).map Stage.outputDir

/-- Of paths that were found, those of no outputs. -/
def staleFiles (outputs : List (String × String)) (found : List String) : List String :=
  found.filter fun path => !outputs.any fun output => Path.same output.1 path

section Checking

variable {m : Type → Type} [Monad m] [FileAccess m]

/-- The files below several directories, in order, none in two spellings. -/
def collectFiles (directories : List String) : m (List String) :=
  directories.foldlM (takeFiles fun files found => Path.insert found.path files) []

/-- What differs between the outputs of an extraction and the file system. -/
def checkOutputs (extraction : Extraction) : m (Except FileError (List Mismatch)) := do
  let outputs := extraction.allOutputs
  match ← compareOutputs outputs with
  | .error failure => return .error failure
  | .ok differences =>
      let found ← collectFiles (ownedDirectories extraction)
      return .ok (differences ++ (staleFiles outputs found).map Mismatch.stale)

end Checking

end Tangle.Files
