import Tangle.Generate.Basic

/-!
Contract: positions in a document and positions in the files it generates.

Owns: the map from a code line to its generated line and the map back.

Does **not** own: positions across nested documents (`Tangle.Extraction`).

Headers and footers are whole lines, so a column only loses the indentation that
the fence content had in the source. Substitutions may change the number of
lines of a block; both maps then stay on the last line that exists.
-/

set_option autoImplicit false

namespace Tangle.Generate

open Tangle.Source
open Tangle.Document

/-- A position inside a generated file. -/
structure GeneratedPosition where
  path : String
  position : Position
  deriving DecidableEq, Repr, Inhabited

/-- Where each source block of a file has its code. -/
def fileLayout (document : Document) (file : GeneratedFile) : List BlockLayout :=
  layout document.config? (file.sourceBlocks.map renderBlock)

/-- The place of a block within one file. -/
def placeInFile? (document : Document) (block : CodeBlock) (file : GeneratedFile) :
    Option BlockLayout :=
  ((fileLayout document file).zip file.sourceBlocks).findSome? fun (placed, candidate) =>
    if candidate.span = block.span then some placed else none

/-- The first file that holds a block, and the block's place in it. -/
def placeOf? (document : Document) (files : List GeneratedFile) (block : CodeBlock) :
    Option (String × BlockLayout) :=
  files.findSome? fun file =>
    (placeInFile? document block file).map fun placed => (file.path, placed)

/-- The generated position of `p`, which lies on a code line of `block`. -/
def placePosition (block : CodeBlock) (placed : BlockLayout) (p : Position) : Position :=
  let offset := min (p.line - block.codeRange.start.line) (placed.codeLines - 1)
  ⟨placed.codeStart + offset, max 1 (p.column - block.indentAt p.line)⟩

/-- Only code lines of generated blocks have a generated position. -/
def toGenerated? (document : Document) (files : List GeneratedFile) (p : Position) :
    Option GeneratedPosition := do
  let block ← document.blockAt? p
  let (path, placed) ← placeOf? document files block
  if placed.codeLines = 0 then none
  else some ⟨path, placePosition block placed p⟩

def BlockLayout.containsLine (placed : BlockLayout) (line : Nat) : Bool :=
  placed.codeStart ≤ line && line < placed.codeStart + placed.codeLines

/-- The source position of `p`, which lies on a generated code line of `block`. -/
def sourcePosition (block : CodeBlock) (placed : BlockLayout) (p : Position) : Position :=
  let line :=
    block.codeRange.start.line + min (p.line - placed.codeStart) (block.codeLineCount - 1)
  ⟨line, addColumns p.column (block.indentAt line)⟩

/-- Lines that no block's code produced have no source position. -/
def toSource? (document : Document) (files : List GeneratedFile) (path : String) (p : Position) :
    Option Position := do
  let file ← files.find? fun file => file.path == path && !file.sourceBlocks.isEmpty
  let (placed, block) ←
    ((fileLayout document file).zip file.sourceBlocks).find? fun (placed, _) =>
      placed.containsLine p.line
  some (sourcePosition block placed p)

end Tangle.Generate
