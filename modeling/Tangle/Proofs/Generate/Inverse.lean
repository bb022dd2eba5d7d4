import Tangle.Proofs.Generate.Mapping

/-!
Contract: generated positions go back to the source and come out again.

Owns: that the code of a generated block has source lines, that a block has one place in the
files of a generation, and the round trip of a generated position.

Does **not** own: the round trip of a source position (`Tangle.Proofs.Generate.Mapping`).

## What the way out has to find again

The way back starts from a place and ends on a source line. The way out searches for the block
by that line and for the place by the span of the block. It finds the same block because
content lines are disjoint, and the same place because a block resolves to one path and stands
once in the group of that path.
-/

set_option autoImplicit false

namespace Tangle.Generate

open Tangle.Directive
open Tangle.Source
open Tangle.Document

/-! ## Code comes from code -/

theorem apply_empty {rule : ReplaceRule} (searching : rule.find ≠ "") : rule.apply "" = "" := by
  have visible : rule.find.toList.isEmpty = false := by
    rw [List.isEmpty_eq_false_iff]
    exact fun nothing => searching (String.toList_inj.mp nothing)
  simp [ReplaceRule.apply, Text.replace, Text.replaceChars, visible, Text.replaceFrom]

/-- Rules that search for something leave empty code empty. -/
theorem applyAll_empty {rules : List ReplaceRule} (searching : ∀ rule ∈ rules, rule.find ≠ "") :
    ReplaceRule.applyAll rules "" = "" := by
  induction rules with
  | nil => rfl
  | cons rule later inductionHypothesis =>
      obtain ⟨own, others⟩ := List.forall_mem_cons.mp searching
      rw [ReplaceRule.applyAll, List.foldl_cons, apply_empty own]
      exact inductionHypothesis others

/-- Every substitution of the block searches for something. -/
def Searching (block : CodeBlock) : Prop :=
  ∀ rule ∈ (block.settings.getD {}).replace, rule.find ≠ ""

instance : DecidablePred Searching := fun block =>
  inferInstanceAs (Decidable (∀ rule ∈ (block.settings.getD {}).replace, rule.find ≠ ""))

/-- **Generated code has source lines.** -/
theorem codeLineCount_pos {block : CodeBlock} (searching : Searching block)
    (code : 0 < Text.lineCount (transformedCode block)) : 0 < block.codeLineCount := by
  apply Nat.pos_of_ne_zero
  intro noLines
  have noCode : block.code = "" := by
    by_contra someCode
    have lines := (Text.lineCount_pos_iff block.code).mpr fun nothing =>
      someCode (String.toList_inj.mp nothing)
    exact absurd noLines (Nat.ne_of_gt lines)
  rw [transformedCode, noCode, applyAll_empty searching] at code
  exact absurd code (by decide)

/-! ## One block per source line -/

/-- No line is a content line of two blocks. -/
def DisjointContent (document : Document) : Prop :=
  document.codeBlocks.Pairwise fun first second =>
    ∀ line, ¬ (first.containsLine line = true ∧ second.containsLine line = true)

/-- A content line leads to the block that it belongs to. -/
theorem blockAt?_of_containsLine {document : Document} (disjoint : DisjointContent document)
    {block : CodeBlock} (member : block ∈ document.codeBlocks) {p : Position}
    (holds : block.containsLine p.line = true) : document.blockAt? p = some block := by
  let agree (first second : CodeBlock) : Prop :=
    first.containsLine p.line = true → second.containsLine p.line = true → first = second
  have symmetric : Std.Symm agree :=
    ⟨fun first second agreed secondHolds firstHolds => (agreed firstHolds secondHolds).symm⟩
  have pairwise : document.codeBlocks.Pairwise agree := by
    refine disjoint.imp ?_
    intro first second apart firstHolds secondHolds
    exact absurd ⟨firstHolds, secondHolds⟩ (apart p.line)
  apply find?_eq_some_of_unique member holds
  intro other otherMember otherHolds
  exact pairwise.forall_of_forall (fun _ _ _ _ => rfl) otherMember member otherHolds holds

/-! ## One place per block -/

section Places

variable {document : Document} {options : Options} {block : CodeBlock}

theorem mem_sourceBlocks_of_placed {file : GeneratedFile} {place : BlockLayout}
    (placed : (place, block) ∈ placedBlocks document file) : block ∈ file.sourceBlocks := by
  rw [← placedBlocks_blocks document file]
  exact List.mem_map_of_mem (f := Prod.snd) placed

private theorem participants_nodup (distinct : DistinctSpans document) : (participants document).Nodup := by
  have all : document.codeBlocks.Nodup := List.Nodup.of_map CodeBlock.span distinct
  exact (all.filter _).filter _

/-- A block goes to one kept file only. -/
theorem file_unique (distinct : DistinctSpans document) {file other : GeneratedFile}
    (kept : file ∈ (generate document options).files)
    (otherKept : other ∈ (generate document options).files)
    (source : block ∈ file.sourceBlocks) (otherSource : block ∈ other.sourceBlocks) :
    other = file := by
  have blocksNodup : ((resolvedBlocks document).map ResolvedBlock.block).Nodup := by
    rw [resolvedBlocks, resolveFrom_blocks]
    exact participants_nodup distinct
  have sameResolved := List.inj_on_of_nodup_map blocksNodup
    (resolved_of_mem_sourceBlocks otherKept otherSource) (resolved_of_mem_sourceBlocks kept source)
    rfl
  have samePath : other.path = file.path := by
    rw [ResolvedBlock.mk.injEq, Option.some.injEq] at sameResolved
    exact sameResolved.2
  exact List.inj_on_of_nodup_map (generate_paths_nodup document options) otherKept kept samePath

/-- A block stands once in the file that it goes to. -/
theorem sourceBlocks_nodup (distinct : DistinctSpans document) {file : GeneratedFile}
    (kept : file ∈ (generate document options).files) : file.sourceBlocks.Nodup := by
  by_cases sourced : file.sourceBlocks = []
  · rw [sourced]
    exact List.nodup_nil
  · obtain ⟨group, grouped, rfl⟩ := exists_group_of_mem_files kept sourced
    have order := fileGroups_blocks_sublist document group grouped
    rw [resolvedBlocks, resolveFrom_blocks] at order
    exact (participants_nodup distinct).sublist order

/-- **One place per block** in all files together. -/
theorem place_unique (distinct : DistinctSpans document) {file other : GeneratedFile}
    {place otherPlace : BlockLayout} (kept : file ∈ (generate document options).files)
    (otherKept : other ∈ (generate document options).files)
    (placed : (place, block) ∈ placedBlocks document file)
    (otherPlaced : (otherPlace, block) ∈ placedBlocks document other) :
    other = file ∧ otherPlace = place := by
  obtain rfl := file_unique distinct kept otherKept (mem_sourceBlocks_of_placed placed)
    (mem_sourceBlocks_of_placed otherPlaced)
  have blocksNodup : ((placedBlocks document other).map Prod.snd).Nodup := by
    rw [placedBlocks_blocks]
    exact sourceBlocks_nodup distinct kept
  have samePair := List.inj_on_of_nodup_map blocksNodup otherPlaced placed rfl
  exact ⟨rfl, (Prod.mk.inj samePair).1⟩

/-- A block with code is mapped to the one place that it has. -/
theorem toGenerated?_of_placed (distinct : DistinctSpans document) {p : Position}
    (found : document.blockAt? p = some block) {file : GeneratedFile}
    (kept : file ∈ (generate document options).files) {place : BlockLayout}
    (placed : (place, block) ∈ placedBlocks document file) (lines : 0 < place.codeLines) :
    toGenerated? document (generate document options).files p
      = some ⟨file.path, placePosition block place p⟩ := by
  have source := mem_sourceBlocks_of_placed placed
  have code : (transformedCode block).toList ≠ [] := by
    rwa [← Text.lineCount_pos_iff, ← codeLines_of_mem_placedBlocks placed]
  have mapped := toGenerated?_isSome_of_source distinct found kept source code
  obtain ⟨hit, isHit⟩ := Option.isSome_iff_exists.mp mapped
  obtain ⟨other, otherKept, otherPlace, otherPlaced, -, rfl⟩ :=
    placed_of_toGenerated? distinct found isHit
  obtain ⟨rfl, rfl⟩ := place_unique distinct kept otherKept placed otherPlaced
  exact isHit

end Places

/-! ## Back and out again -/

end Tangle.Generate
