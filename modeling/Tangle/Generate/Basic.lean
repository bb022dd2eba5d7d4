import Tangle.Generate.Group
import Tangle.Generate.Render
import Tangle.Path

/-!
Contract: the files that a document generates.

Owns: `GeneratedFile`, `Generation`, the choice of the output directory, and the
rule that each path is generated once.

Does **not** own: writing files (`Tangle.Files.Outputs`) or following generated
Markdown (`Tangle.Extraction`).
-/

set_option autoImplicit false

namespace Tangle.Generate

open Tangle.Directive
open Tangle.Document

/-- A file relative to the output directory. An additional file has no source
blocks. -/
structure GeneratedFile where
  path : String
  content : String
  sourceBlocks : List CodeBlock
  deriving DecidableEq, Repr, Inhabited

/-- What the caller decides; an output directory given here wins over the
document's own. -/
structure Options where
  outDir : Option String := none
  deriving DecidableEq, Repr, Inhabited

structure Generation where
  files : List GeneratedFile
  outDir : String
  diagnostics : List Diagnostic
  deriving DecidableEq, Repr, Inhabited

def defaultOutDir : String := ".examples"

def chooseOutDir (options : Options) (config : Option Config) : String :=
  (options.outDir.or (config.bind Config.outDir)).getD defaultOutDir

/-- An additional file: the suffix follows the path of the group as it stands, and
the content is not transformed. -/
def additionalFile (groupPath : String) (extra : AdditionalFile) : GeneratedFile :=
  ⟨groupPath ++ extra.suffix, extra.content, []⟩

/-- The file of a group. -/
def groupFile (config : Option Config) (group : FileGroup) : GeneratedFile :=
  ⟨group.path, renderFile config (group.blocks.map renderBlock), group.blocks⟩

/-- A file that would be generated, and the block that asks for it. -/
structure Candidate where
  file : GeneratedFile
  requester : CodeBlock
  deriving DecidableEq, Repr, Inhabited

/-- The additional files that a block asks for. -/
def blockCandidates (groupPath : String) (block : CodeBlock) : List Candidate :=
  (block.settings.getD {}).additionalFiles.map fun extra =>
    ⟨additionalFile groupPath extra, block⟩

/-- The file of a group, then the additional files of its blocks. -/
def groupCandidates (config : Option Config) (group : FileGroup) : List Candidate :=
  ⟨groupFile config group, group.first⟩
    :: group.blocks.flatMap (blockCandidates group.path)

def candidates (document : Document) : List Candidate :=
  (fileGroups document).flatMap (groupCandidates document.config?)

/-- Files kept so far and reports on files turned away. -/
structure Selection where
  files : List GeneratedFile := []
  diagnostics : List Diagnostic := []
  deriving DecidableEq, Repr, Inhabited

def Selection.takes (selection : Selection) (path : String) : Bool :=
  selection.files.any fun file => file.path == path

/-- The first candidate for a path is kept, each later one is reported. -/
def Selection.add (selection : Selection) (candidate : Candidate) : Selection :=
  if selection.takes candidate.file.path then
    { selection with
      diagnostics :=
        selection.diagnostics ++ [report candidate.requester (.duplicateOutput candidate.file.path)] }
  else { selection with files := selection.files ++ [candidate.file] }

def select (candidates : List Candidate) : Selection :=
  candidates.foldl Selection.add {}

def generate (document : Document) (options : Options) : Generation :=
  let selection := select (candidates document)
  { files := selection.files
    outDir := chooseOutDir options document.config?
    diagnostics := unresolvedReports document ++ selection.diagnostics }

namespace Generation

def file? (generation : Generation) (path : String) : Option GeneratedFile :=
  generation.files.find? fun file => file.path == path

/-- Where a file goes, relative to the directory of the source. -/
def outputPath (generation : Generation) (file : GeneratedFile) : String :=
  Path.join generation.outDir file.path

/-- Path and content of each file, and the directory they go to. -/
def sameOutputs (left right : Generation) : Bool :=
  left.outDir == right.outDir
    && left.files.map (fun file => (file.path, file.content))
      == right.files.map (fun file => (file.path, file.content))

end Generation

end Tangle.Generate
