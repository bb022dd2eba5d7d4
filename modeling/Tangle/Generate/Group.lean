import Tangle.Document.Diagnostic
import Tangle.Document.Basic

/-!
Contract: which blocks of a document form one generated file.

Owns: the path a block resolves to, the groups of blocks with one path, and the
report about a block without a path.

Does **not** own: the text of a file (`Tangle.Generate.Render`).

A block that names no file continues the file of the nearest block before it
that has one. Skipped blocks and plain fences take no part.
-/

set_option autoImplicit false

namespace Tangle.Generate

open Tangle.Directive
open Tangle.Document

/-- A block with the path it resolves to. -/
structure ResolvedBlock where
  block : CodeBlock
  path : Option String
  deriving DecidableEq, Repr, Inhabited

/-- Blocks of one path, in document order; there is always a first one. -/
structure FileGroup where
  path : String
  first : CodeBlock
  rest : List CodeBlock
  deriving DecidableEq, Repr, Inhabited

def FileGroup.blocks (group : FileGroup) : List CodeBlock :=
  group.first :: group.rest

/-- The blocks that take part in generation. -/
def participants (document : Document) : List CodeBlock :=
  document.annotatedBlocks.filter fun block => !block.isSkipped

/-- The file that a block names itself. -/
def namedFile (block : CodeBlock) : Option String :=
  block.settings.bind Settings.file

/-- Resolves each block, `current` being the path of the nearest one before. -/
def resolveFrom (current : Option String) : List CodeBlock → List ResolvedBlock
  | [] => []
  | block :: rest =>
      let path := (namedFile block).or current
      ⟨block, path⟩ :: resolveFrom path rest

def resolvedBlocks (document : Document) : List ResolvedBlock :=
  resolveFrom none (participants document)

/-- Adds a block at the end of the group of its path. -/
def addToGroup (path : String) (block : CodeBlock) : List FileGroup → List FileGroup
  | [] => [⟨path, block, []⟩]
  | group :: others =>
      if group.path = path then { group with rest := group.rest ++ [block] } :: others
      else group :: addToGroup path block others

def addResolved (groups : List FileGroup) (resolved : ResolvedBlock) : List FileGroup :=
  match resolved.path with
  | some path => addToGroup path resolved.block groups
  | none => groups

/-- Groups in order of first appearance. -/
def fileGroups (document : Document) : List FileGroup :=
  (resolvedBlocks document).foldl addResolved []

/-- A report about `block`. -/
def report (block : CodeBlock) (problem : Problem) : Diagnostic :=
  ⟨problem, block.span, block.reportRange⟩

/-- One report for each block without a path. -/
def unresolvedReports (document : Document) : List Diagnostic :=
  (resolvedBlocks document).filterMap fun resolved =>
    match resolved.path with
    | some _ => none
    | none => some (report resolved.block .unresolvedFileName)

end Tangle.Generate
