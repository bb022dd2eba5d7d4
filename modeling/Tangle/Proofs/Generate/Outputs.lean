import Tangle.Generate.Basic
import Tangle.Proofs.Document.Nodes

/-!
Contract: outputs depend on what the nodes say, not on where they stand.

Owns: `CodeBlock.unplaced`, a block without its place; that grouping and rendering
commute with it; and that documents with the same effects have the same outputs.

Does **not** own: which documents have the same effects
(`Tangle.Proofs.Document.Reprint`).
-/

set_option autoImplicit false

namespace Tangle.Document

/-- A block with all that says where it stands left out. -/
def CodeBlock.unplaced (block : CodeBlock) : CodeBlock :=
  { (default : CodeBlock) with code := block.code, settings := block.settings }

def Effect.block? : Effect → Option CodeBlock
  | .config _ => none
  | .block settings code => some { (default : CodeBlock) with code := code, settings := settings }

def Effect.config? : Effect → Option Directive.Config
  | .config found => some found
  | .block _ _ => none

private theorem codeBlocks_unplaced (document : Document) :
    document.codeBlocks.map CodeBlock.unplaced
      = (effects document.nodes).filterMap Effect.block? := by
  rw [codeBlocks, effects, List.map_filterMap, List.filterMap_filterMap]
  refine List.filterMap_congr ?_
  intro node _
  cases node <;> rfl

private theorem config?_effects (document : Document) :
    document.config? = (effects document.nodes).findSome? Effect.config? := by
  rw [config?, effects]
  induction document.nodes with
  | nil => rfl
  | cons node rest inductionHypothesis =>
      cases node with
      | text node => exact inductionHypothesis
      | config node => rfl
      | code block => exact inductionHypothesis

end Tangle.Document

namespace Tangle.Generate

open Tangle.Directive
open Tangle.Document

/-! ## Groups -/

def ResolvedBlock.unplaced (resolved : ResolvedBlock) : ResolvedBlock :=
  ⟨resolved.block.unplaced, resolved.path⟩

def FileGroup.unplaced (group : FileGroup) : FileGroup :=
  ⟨group.path, group.first.unplaced, group.rest.map CodeBlock.unplaced⟩

private theorem participants_unplaced (document : Document) :
    (participants document).map CodeBlock.unplaced
      = ((document.codeBlocks.map CodeBlock.unplaced).filter fun block =>
          block.settings.isSome).filter fun block => !block.isSkipped := by
  rw [List.filter_map, List.filter_map]
  rfl

private theorem resolveFrom_unplaced (current : Option String) (blocks : List CodeBlock) :
    resolveFrom current (blocks.map CodeBlock.unplaced)
      = (resolveFrom current blocks).map ResolvedBlock.unplaced := by
  induction blocks generalizing current with
  | nil => rfl
  | cons block rest inductionHypothesis =>
      rw [List.map_cons, resolveFrom, resolveFrom, List.map_cons, inductionHypothesis]
      rfl

private theorem addToGroup_unplaced (path : String) (block : CodeBlock) (groups : List FileGroup) :
    addToGroup path block.unplaced (groups.map FileGroup.unplaced)
      = (addToGroup path block groups).map FileGroup.unplaced := by
  induction groups with
  | nil => rfl
  | cons group others inductionHypothesis =>
      rw [List.map_cons, addToGroup, addToGroup]
      show (if group.path = path then _ else _) = _
      split
      · simp [FileGroup.unplaced]
      · rw [List.map_cons, inductionHypothesis]

private theorem addResolved_unplaced (groups : List FileGroup) (resolved : ResolvedBlock) :
    addResolved (groups.map FileGroup.unplaced) resolved.unplaced
      = (addResolved groups resolved).map FileGroup.unplaced := by
  obtain ⟨block, path⟩ := resolved
  cases path with
  | none => rfl
  | some path => exact addToGroup_unplaced path block groups

/-- **Groups do not depend on places.** -/
theorem fileGroups_unplaced (document : Document) :
    (fileGroups document).map FileGroup.unplaced
      = (resolveFrom none ((participants document).map CodeBlock.unplaced)).foldl addResolved [] := by
  have folded : ∀ (resolved : List ResolvedBlock) (groups : List FileGroup),
      (resolved.foldl addResolved groups).map FileGroup.unplaced
        = (resolved.map ResolvedBlock.unplaced).foldl addResolved
            (groups.map FileGroup.unplaced) := by
    intro resolved
    induction resolved with
    | nil => exact fun _ => rfl
    | cons first rest inductionHypothesis =>
        intro groups
        rw [List.foldl_cons, List.map_cons, List.foldl_cons, inductionHypothesis,
          addResolved_unplaced]
  rw [resolveFrom_unplaced]
  exact folded _ []

/-! ## Files -/

def GeneratedFile.output (file : GeneratedFile) : String × String :=
  (file.path, file.content)

private theorem groupCandidates_unplaced (config : Option Config) (group : FileGroup) :
    (groupCandidates config group.unplaced).map (fun candidate => candidate.file.output)
      = (groupCandidates config group).map fun candidate => candidate.file.output := by
  have isBlocks : group.unplaced.blocks = group.blocks.map CodeBlock.unplaced := rfl
  have rendered : (group.blocks.map CodeBlock.unplaced).map renderBlock
      = group.blocks.map renderBlock := by
    rw [List.map_map]
    rfl
  have content : (groupFile config group.unplaced).output = (groupFile config group).output := by
    show (group.path, renderFile config (group.unplaced.blocks.map renderBlock)) = _
    rw [isBlocks, rendered]
    rfl
  rw [groupCandidates, groupCandidates, List.map_cons, List.map_cons, content, isBlocks,
    List.flatMap_map, List.map_flatMap, List.map_flatMap]
  congr 1
  refine List.flatMap_congr ?_
  intro block _
  rw [blockCandidates, blockCandidates, List.map_map, List.map_map]
  rfl

def firstOutputs (kept : List (String × String)) (output : String × String) :
    List (String × String) :=
  if kept.any fun earlier => earlier.1 == output.1 then kept else kept ++ [output]

private theorem select_outputs (candidates : List Candidate) :
    (select candidates).files.map GeneratedFile.output
      = (candidates.map fun candidate => candidate.file.output).foldl firstOutputs [] := by
  have added : ∀ (selection : Selection) (candidate : Candidate),
      (selection.add candidate).files.map GeneratedFile.output
        = firstOutputs (selection.files.map GeneratedFile.output) candidate.file.output := by
    intro selection candidate
    have taken : ((selection.files.map GeneratedFile.output).any fun earlier =>
        earlier.1 == candidate.file.output.1) = selection.takes candidate.file.path := by
      rw [List.any_map]
      rfl
    rw [Selection.add, firstOutputs, taken]
    split
    · rfl
    · exact List.map_append
  have folded : ∀ (candidates : List Candidate) (selection : Selection),
      (candidates.foldl Selection.add selection).files.map GeneratedFile.output
        = (candidates.map fun candidate => candidate.file.output).foldl firstOutputs
            (selection.files.map GeneratedFile.output) := by
    intro candidates
    induction candidates with
    | nil => exact fun _ => rfl
    | cons first rest inductionHypothesis =>
        intro selection
        rw [List.foldl_cons, List.map_cons, List.foldl_cons, inductionHypothesis, added]
  exact folded candidates {}

private theorem candidates_outputs (document : Document) :
    (candidates document).map (fun candidate => candidate.file.output)
      = ((fileGroups document).map FileGroup.unplaced).flatMap fun group =>
          (groupCandidates document.config? group).map fun candidate => candidate.file.output := by
  rw [candidates, List.map_flatMap, List.flatMap_map]
  refine List.flatMap_congr ?_
  intro group _
  exact (groupCandidates_unplaced document.config? group).symm

/-- **Outputs follow from effects.** -/
theorem sameOutputs_of_effects {left right : Document}
    (same : effects left.nodes = effects right.nodes) (options : Options) :
    (generate left options).sameOutputs (generate right options) = true := by
  have sameConfig : left.config? = right.config? := by
    rw [config?_effects, config?_effects, same]
  have sameGroups : (fileGroups left).map FileGroup.unplaced
      = (fileGroups right).map FileGroup.unplaced := by
    rw [fileGroups_unplaced, fileGroups_unplaced, participants_unplaced, participants_unplaced,
      codeBlocks_unplaced, codeBlocks_unplaced, same]
  have sameFiles : (generate left options).files.map GeneratedFile.output
      = (generate right options).files.map GeneratedFile.output := by
    show (select (candidates left)).files.map GeneratedFile.output
      = (select (candidates right)).files.map GeneratedFile.output
    rw [select_outputs, select_outputs, candidates_outputs, candidates_outputs, sameConfig,
      sameGroups]
  have sameDir : (generate left options).outDir = (generate right options).outDir := by
    show chooseOutDir options left.config? = chooseOutDir options right.config?
    rw [sameConfig]
  rw [Generation.sameOutputs, Bool.and_eq_true, beq_iff_eq, beq_iff_eq]
  exact ⟨sameDir, sameFiles⟩

end Tangle.Generate
