import Mathlib.Data.List.Nodup
import Tangle.Generate.Basic

/-!
Contract: which files a generation holds and which blocks they are made from.

Owns: that paths are distinct, that groups partition the resolved blocks by path,
and that a file with source blocks is the file of a group.

Does **not** own: the text of the files (`Tangle.Proofs.Generate.Layout`).

Both results about a whole document are folds: one over the resolved blocks, which
forms the groups, and one over the candidates, which keeps the files. Each is proved
for one step first, with the list folded so far as the state.
-/

set_option autoImplicit false

namespace Tangle.Generate

open Tangle.Document

/-- A search that only one member can satisfy finds that member. -/
theorem find?_eq_some_of_unique {α : Type} {holds : α → Bool} {items : List α} {wanted : α}
    (member : wanted ∈ items) (satisfied : holds wanted = true)
    (unique : ∀ other ∈ items, holds other = true → other = wanted) :
    items.find? holds = some wanted := by
  have exists_one : (items.find? holds).isSome = true :=
    List.find?_isSome.mpr ⟨wanted, member, satisfied⟩
  obtain ⟨found, isFound⟩ := Option.isSome_iff_exists.mp exists_one
  rw [isFound, unique found (List.mem_of_find?_eq_some isFound) (List.find?_some isFound)]

/-! ## Groups -/

theorem FileGroup.mem_blocks_append (group : FileGroup) (block other : CodeBlock) :
    other ∈ ({ group with rest := group.rest ++ [block] } : FileGroup).blocks
      ↔ other ∈ group.blocks ∨ other = block := by
  simp only [FileGroup.blocks, List.mem_cons, List.mem_append, List.not_mem_nil, or_false]
  tauto

/-- One step adds one block, under its path, and nothing else. -/
theorem exists_group_addToGroup_iff (path : String) (block : CodeBlock) (groups : List FileGroup)
    (wanted : String) (other : CodeBlock) :
    (∃ group ∈ addToGroup path block groups, group.path = wanted ∧ other ∈ group.blocks)
      ↔ (wanted = path ∧ other = block)
        ∨ ∃ group ∈ groups, group.path = wanted ∧ other ∈ group.blocks := by
  induction groups with
  | nil => simp [addToGroup, FileGroup.blocks, eq_comm]
  | cons group others inductionHypothesis =>
      rw [addToGroup]
      by_cases same : group.path = path
      · subst same
        rw [if_pos rfl]
        simp only [List.exists_mem_cons_iff, FileGroup.mem_blocks_append]
        constructor
        · rintro (⟨rfl, member | rfl⟩ | later)
          · exact Or.inr (Or.inl ⟨rfl, member⟩)
          · exact Or.inl ⟨rfl, rfl⟩
          · exact Or.inr (Or.inr later)
        · rintro (⟨rfl, rfl⟩ | ⟨rfl, member⟩ | later)
          · exact Or.inl ⟨rfl, Or.inr rfl⟩
          · exact Or.inl ⟨rfl, Or.inl member⟩
          · exact Or.inr later
      · rw [if_neg same]
        simp only [List.exists_mem_cons_iff, inductionHypothesis]
        tauto

theorem addToGroup_paths (path : String) (block : CodeBlock) (groups : List FileGroup) :
    (addToGroup path block groups).map FileGroup.path
      = if path ∈ groups.map FileGroup.path then groups.map FileGroup.path
        else groups.map FileGroup.path ++ [path] := by
  induction groups with
  | nil => rfl
  | cons group others inductionHypothesis =>
      rw [addToGroup]
      by_cases same : group.path = path
      · simp [same]
      · rw [if_neg same, List.map_cons, inductionHypothesis, List.map_cons]
        by_cases known : path ∈ others.map FileGroup.path
        · rw [if_pos known, if_pos (List.mem_cons_of_mem _ known)]
        · have unknown : path ∉ group.path :: others.map FileGroup.path := by
            rw [List.mem_cons, not_or]
            exact ⟨fun isFirst => same isFirst.symm, known⟩
          rw [if_neg known, if_neg unknown, List.cons_append]

theorem addResolved_paths_nodup {groups : List FileGroup}
    (distinct : (groups.map FileGroup.path).Nodup) (resolved : ResolvedBlock) :
    ((addResolved groups resolved).map FileGroup.path).Nodup := by
  unfold addResolved
  cases resolved.path with
  | none => exact distinct
  | some path =>
      show ((addToGroup path resolved.block groups).map FileGroup.path).Nodup
      rw [addToGroup_paths]
      by_cases known : path ∈ groups.map FileGroup.path
      · rwa [if_pos known]
      · rw [if_neg known, List.nodup_append]
        refine ⟨distinct, List.nodup_singleton _, ?_⟩
        intro earlier member later memberLater
        rw [List.mem_singleton] at memberLater
        rintro rfl
        exact known (memberLater ▸ member)

private theorem exists_group_addResolved_iff (groups : List FileGroup) (resolved : ResolvedBlock)
    (path : String) (block : CodeBlock) :
    (∃ group ∈ addResolved groups resolved, group.path = path ∧ block ∈ group.blocks)
      ↔ resolved = ⟨block, some path⟩
        ∨ ∃ group ∈ groups, group.path = path ∧ block ∈ group.blocks := by
  obtain ⟨resolvedBlock, resolvedPath⟩ := resolved
  cases resolvedPath with
  | none => simp [addResolved]
  | some ownPath =>
      rw [show addResolved groups ⟨resolvedBlock, some ownPath⟩
        = addToGroup ownPath resolvedBlock groups from rfl, exists_group_addToGroup_iff]
      simp only [ResolvedBlock.mk.injEq, Option.some.injEq]
      tauto

/-- **Groups are made of the resolved blocks.** A block is in the group of a path
exactly when it resolves to that path. -/
theorem exists_fileGroup_iff (document : Document) (path : String) (block : CodeBlock) :
    (∃ group ∈ fileGroups document, group.path = path ∧ block ∈ group.blocks)
      ↔ ⟨block, some path⟩ ∈ resolvedBlocks document := by
  have whole : ∀ (resolved : List ResolvedBlock) (groups : List FileGroup),
      (∃ group ∈ resolved.foldl addResolved groups, group.path = path ∧ block ∈ group.blocks)
        ↔ ⟨block, some path⟩ ∈ resolved
          ∨ ∃ group ∈ groups, group.path = path ∧ block ∈ group.blocks := by
    intro resolved
    induction resolved with
    | nil => simp
    | cons first rest inductionHypothesis =>
        intro groups
        rw [List.foldl_cons, inductionHypothesis, exists_group_addResolved_iff, List.mem_cons]
        constructor
        · rintro (later | rfl | earlier)
          · exact Or.inl (Or.inr later)
          · exact Or.inl (Or.inl rfl)
          · exact Or.inr earlier
        · rintro ((rfl | later) | earlier)
          · exact Or.inr (Or.inl rfl)
          · exact Or.inl later
          · exact Or.inr (Or.inr earlier)
  have result := whole (resolvedBlocks document) []
  simpa [fileGroups] using result

/-- One step adds a block to one group at most, behind the blocks that it has. -/
theorem blocks_sublist_addToGroup {path : String} {block : CodeBlock} {groups : List FileGroup}
    {seen : List CodeBlock} (within : ∀ group ∈ groups, group.blocks.Sublist seen) :
    ∀ group ∈ addToGroup path block groups, group.blocks.Sublist (seen ++ [block]) := by
  induction groups with
  | nil =>
      intro group member
      rw [List.mem_singleton.mp member]
      exact List.sublist_append_right seen [block]
  | cons first others inductionHypothesis =>
      obtain ⟨firstWithin, othersWithin⟩ := List.forall_mem_cons.mp within
      have kept : ∀ group ∈ others, group.blocks.Sublist (seen ++ [block]) := fun group member =>
        (othersWithin group member).trans (List.sublist_append_left seen [block])
      rw [addToGroup]
      by_cases same : first.path = path
      · rw [if_pos same]
        exact List.forall_mem_cons.mpr ⟨firstWithin.append (List.Sublist.refl [block]), kept⟩
      · rw [if_neg same]
        exact List.forall_mem_cons.mpr
          ⟨firstWithin.trans (List.sublist_append_left seen [block]),
            inductionHypothesis othersWithin⟩

/-- **A group keeps the order of the document** and takes no block twice. -/
theorem fileGroups_blocks_sublist (document : Document) :
    ∀ group ∈ fileGroups document,
      group.blocks.Sublist ((resolvedBlocks document).map ResolvedBlock.block) := by
  have whole : ∀ (resolved : List ResolvedBlock) (groups : List FileGroup) (seen : List CodeBlock),
      (∀ group ∈ groups, group.blocks.Sublist seen) →
        ∀ group ∈ resolved.foldl addResolved groups,
          group.blocks.Sublist (seen ++ resolved.map ResolvedBlock.block) := by
    intro resolved
    induction resolved with
    | nil =>
        intro groups seen within
        rwa [List.map_nil, List.append_nil]
    | cons first rest inductionHypothesis =>
        intro groups seen within
        rw [List.foldl_cons, List.map_cons, List.append_cons]
        apply inductionHypothesis
        unfold addResolved
        cases first.path with
        | none =>
            exact fun group member =>
              (within group member).trans (List.sublist_append_left seen [first.block])
        | some path => exact blocks_sublist_addToGroup within
  exact whole _ [] [] fun group member => absurd member List.not_mem_nil

/-! ## Resolved blocks -/

theorem resolveFrom_blocks (current : Option String) (blocks : List CodeBlock) :
    (resolveFrom current blocks).map ResolvedBlock.block = blocks := by
  induction blocks generalizing current with
  | nil => rfl
  | cons block rest inductionHypothesis =>
      rw [resolveFrom, List.map_cons, inductionHypothesis]

/-- A block that resolves takes part in generation. -/
theorem mem_participants_of_resolved {document : Document} {block : CodeBlock}
    {path : Option String} (resolved : ⟨block, path⟩ ∈ resolvedBlocks document) :
    block ∈ participants document := by
  have member := List.mem_map_of_mem (f := ResolvedBlock.block) resolved
  rwa [resolvedBlocks, resolveFrom_blocks] at member

theorem mem_participants_iff (document : Document) (block : CodeBlock) :
    block ∈ participants document
      ↔ block ∈ document.codeBlocks ∧ block.settings.isSome = true ∧ block.isSkipped = false := by
  simp only [participants, Document.annotatedBlocks, List.mem_filter, Bool.not_eq_true', and_assoc]

/-! ## Files -/

theorem Selection.add_paths_nodup {selection : Selection}
    (distinct : (selection.files.map GeneratedFile.path).Nodup) (candidate : Candidate) :
    ((selection.add candidate).files.map GeneratedFile.path).Nodup := by
  unfold Selection.add
  by_cases taken : selection.takes candidate.file.path = true
  · rw [if_pos taken]
    exact distinct
  · rw [if_neg taken, List.map_append, List.nodup_append]
    refine ⟨distinct, List.nodup_singleton _, ?_⟩
    intro earlier member later memberLater
    rw [List.map_singleton, List.mem_singleton] at memberLater
    rintro rfl
    obtain ⟨file, kept, samePath⟩ := List.mem_map.mp member
    apply taken
    rw [Selection.takes, List.any_eq_true]
    exact ⟨file, kept, beq_iff_eq.mpr (samePath.trans memberLater)⟩

private theorem Selection.mem_add {selection : Selection} {candidate : Candidate} {file : GeneratedFile}
    (member : file ∈ (selection.add candidate).files) :
    file ∈ selection.files ∨ file = candidate.file := by
  unfold Selection.add at member
  split at member
  · exact Or.inl member
  · simpa using member

/-- **Distinct paths.** Every path is generated once. -/
theorem generate_paths_nodup (document : Document) (options : Options) :
    ((generate document options).files.map GeneratedFile.path).Nodup := by
  have whole : ∀ (candidates : List Candidate) (selection : Selection),
      (selection.files.map GeneratedFile.path).Nodup →
        ((candidates.foldl Selection.add selection).files.map GeneratedFile.path).Nodup := by
    intro candidates
    induction candidates with
    | nil => exact fun _ distinct => distinct
    | cons first rest inductionHypothesis =>
        intro selection distinct
        exact inductionHypothesis _ (Selection.add_paths_nodup distinct first)
  exact whole _ {} List.nodup_nil

/-- A file is kept only if some candidate asks for it. -/
theorem exists_candidate_of_mem_files {document : Document} {options : Options}
    {file : GeneratedFile} (member : file ∈ (generate document options).files) :
    ∃ candidate ∈ candidates document, candidate.file = file := by
  have whole : ∀ (candidates : List Candidate) (selection : Selection),
      file ∈ (candidates.foldl Selection.add selection).files →
        file ∈ selection.files ∨ ∃ candidate ∈ candidates, candidate.file = file := by
    intro candidates
    induction candidates with
    | nil => exact fun _ kept => Or.inl kept
    | cons first rest inductionHypothesis =>
        intro selection kept
        rcases inductionHypothesis _ kept with earlier | ⟨candidate, later, isFile⟩
        · rcases Selection.mem_add earlier with before | rfl
          · exact Or.inl before
          · exact Or.inr ⟨first, List.mem_cons_self, rfl⟩
        · exact Or.inr ⟨candidate, List.mem_cons_of_mem _ later, isFile⟩
  exact (whole _ {} member).resolve_left List.not_mem_nil

/-- **A file with source blocks is the file of a group.** Additional files have none. -/
theorem exists_group_of_mem_files {document : Document} {options : Options}
    {file : GeneratedFile} (member : file ∈ (generate document options).files)
    (sourced : file.sourceBlocks ≠ []) :
    ∃ group ∈ fileGroups document, groupFile document.config? group = file := by
  obtain ⟨candidate, asked, rfl⟩ := exists_candidate_of_mem_files member
  rw [candidates, List.mem_flatMap] at asked
  obtain ⟨group, grouped, asked⟩ := asked
  rw [groupCandidates, List.mem_cons] at asked
  rcases asked with rfl | additional
  · exact ⟨group, grouped, rfl⟩
  · rw [List.mem_flatMap] at additional
    obtain ⟨block, -, additional⟩ := additional
    rw [blockCandidates, List.mem_map] at additional
    obtain ⟨extra, -, rfl⟩ := additional
    exact absurd rfl sourced

/-- Source blocks of kept files are code blocks of the document that resolve to the
path of their file. -/
theorem resolved_of_mem_sourceBlocks {document : Document} {options : Options}
    {file : GeneratedFile} (member : file ∈ (generate document options).files)
    {block : CodeBlock} (source : block ∈ file.sourceBlocks) :
    ⟨block, some file.path⟩ ∈ resolvedBlocks document := by
  obtain ⟨group, grouped, rfl⟩ :=
    exists_group_of_mem_files member (List.ne_nil_of_mem source)
  exact (exists_fileGroup_iff document group.path block).mp ⟨group, grouped, rfl, source⟩

theorem mem_codeBlocks_of_mem_sourceBlocks {document : Document} {options : Options}
    {file : GeneratedFile} (member : file ∈ (generate document options).files)
    {block : CodeBlock} (source : block ∈ file.sourceBlocks) :
    block ∈ document.codeBlocks :=
  ((mem_participants_iff document block).mp
    (mem_participants_of_resolved (resolved_of_mem_sourceBlocks member source))).1

end Tangle.Generate
