import Tangle.Document.Build
import Tangle.Generate.Mapping

/-!
Contract: a document, the files it generates, and the documents among them.

Owns: the tree of stages, its output paths, and position maps through stages.

Does **not** own: the outputs on disk (`Tangle.Files.Outputs`).

A generated Markdown file may carry directives of its own and becomes a stage
below the stage that generated it. The depth of the tree is bounded by the
caller, and building recurses on what is left of that bound.
-/

set_option autoImplicit false

namespace Tangle

open Tangle.Source
open Tangle.Document
open Tangle.Generate

/-- One source text with everything read and generated from it. `origin` is the
path of the file, within the stage above, that the text came from. -/
structure Stage where
  sourcePath : String
  text : String
  origin : Option String
  document : Document
  parseDiagnostics : List Diagnostic
  generation : Generation
  deriving Repr, Inhabited

/-- A stage and the stages that its Markdown outputs give rise to. -/
inductive Extraction where
  | node (stage : Stage) (nested : List Extraction)
  deriving Repr

namespace Stage

def build (text sourcePath : String) (origin : Option String) (options : Options) : Stage :=
  let parsed := Document.parse text sourcePath
  { sourcePath := sourcePath
    text := text
    origin := origin
    document := parsed.document
    parseDiagnostics := parsed.diagnostics
    generation := generate parsed.document options }

/-- The output directory, relative to where `sourcePath` is relative to. -/
def outputDir (stage : Stage) : String :=
  Path.join ((Path.parent? stage.sourcePath).getD "") stage.generation.outDir

def outputPath (stage : Stage) (file : GeneratedFile) : String :=
  Path.join stage.outputDir file.path

/-- Path and content of the files of this stage alone. -/
def outputs (stage : Stage) : List (String × String) :=
  stage.generation.files.map fun file => (stage.outputPath file, file.content)

def diagnostics (stage : Stage) : List Diagnostic :=
  stage.parseDiagnostics ++ stage.generation.diagnostics

def hasErrors (stage : Stage) : Bool :=
  stage.diagnostics.any Diagnostic.isError

def toGenerated? (stage : Stage) (p : Position) : Option GeneratedPosition :=
  Generate.toGenerated? stage.document stage.generation.files p

def toSource? (stage : Stage) (path : String) (p : Position) : Option Position :=
  Generate.toSource? stage.document stage.generation.files path p

end Stage

/-- A path whose extension is that of a Markdown file, in either letter case. -/
def isMarkdown (path : String) : Bool :=
  match Path.extension? path with
  | some ending => ending.toLower == "md" || ending.toLower == "markdown"
  | none => false

/-- The generated files that are documents themselves. -/
def Stage.markdownFiles (stage : Stage) : List GeneratedFile :=
  stage.generation.files.filter fun file => isMarkdown file.path

namespace Extraction

instance : Inhabited Extraction := ⟨node default []⟩

def stage : Extraction → Stage
  | node stage _ => stage

def nested : Extraction → List Extraction
  | node _ nested => nested

/-- Deepest chain of documents within documents that is followed by default. -/
def maxNestingDepth : Nat := 8

/-- Builds a stage and follows its Markdown outputs for at most `depth` levels.
Stages below the top use their own configuration only. -/
def buildFrom : Nat → String → String → Option String → Options → Extraction
  | 0, text, sourcePath, origin, options =>
      node (Stage.build text sourcePath origin options) []
  | depth + 1, text, sourcePath, origin, options =>
      let stage := Stage.build text sourcePath origin options
      node stage (stage.markdownFiles.map fun file =>
        buildFrom depth file.content (stage.outputPath file) (some file.path) {})

/-- Follows at most `depth` levels of nesting; zero extracts the text alone. -/
def buildWithin (depth : Nat) (text sourcePath : String) (options : Options) : Extraction :=
  buildFrom depth text sourcePath none options

def build (text sourcePath : String) (options : Options) : Extraction :=
  buildWithin maxNestingDepth text sourcePath options

mutual

/-- Every stage, each ahead of those below it. -/
def stages : Extraction → List Stage
  | node stage nested => stage :: stagesOfAll nested

def stagesOfAll : List Extraction → List Stage
  | [] => []
  | child :: rest => stages child ++ stagesOfAll rest

end

mutual

/-- Path and content of every file, a stage's own ahead of those below it. -/
def allOutputs : Extraction → List (String × String)
  | node stage nested => stage.outputs ++ allOutputsOf nested

def allOutputsOf : List Extraction → List (String × String)
  | [] => []
  | child :: rest => allOutputs child ++ allOutputsOf rest

end

def hasErrors (extraction : Extraction) : Bool :=
  extraction.stages.any Stage.hasErrors

/-- Every report of every stage. -/
def diagnostics (extraction : Extraction) : List Diagnostic :=
  extraction.stages.flatMap Stage.diagnostics

mutual

/-- The position in the top text that a position in an output file comes from. -/
def toRootSource? (outputPath : String) (p : Position) : Extraction → Option Position
  | node stage nested =>
      match stage.generation.files.find? fun file => Path.same (stage.outputPath file) outputPath with
      | some file => stage.toSource? file.path p
      | none => toRootSourceOf? outputPath p stage nested

/-- The first child that leads back into the text of `parent`. -/
def toRootSourceOf? (outputPath : String) (p : Position) (parent : Stage) :
    List Extraction → Option Position
  | [] => none
  | child :: rest =>
      let found := do
        let inner ← toRootSource? outputPath p child
        let origin ← child.stage.origin
        parent.toSource? origin inner
      found.or (toRootSourceOf? outputPath p parent rest)

end

mutual

/-- The output position furthest down that a position in the top text leads to. -/
def toLeafGenerated? : Extraction → Position → Option GeneratedPosition
  | node stage nested, p =>
      match stage.toGenerated? p with
      | none => none
      | some hit =>
          (toLeafGeneratedOf? nested hit).or
            (some ⟨Path.join stage.outputDir hit.path, hit.position⟩)

/-- Continues a hit in the child that was read from the file it lies in. -/
def toLeafGeneratedOf? : List Extraction → GeneratedPosition → Option GeneratedPosition
  | [], _ => none
  | child :: rest, hit =>
      if child.stage.origin = some hit.path then
        (toLeafGenerated? child hit.position).or (toLeafGeneratedOf? rest hit)
      else toLeafGeneratedOf? rest hit

end

end Extraction

end Tangle
