import Mathlib.Data.List.Induction
import Tangle.Document.Build
import Tangle.Proofs.Generate.Files

/-!
Contract: which blocks form one file, told without the walk that forms the groups.

Owns: `nearestName`, which reads the path of a block off the blocks up to it; `placedAt`,
the blocks of one path; and that groups and reports are just these.

Does **not** own: the files made from the groups (`Tangle.Proofs.Generate.Claimants`).

## Two tellings of one rule

The walk carries a path from block to block and adds each block to the end of a group that
it looks up. The rule looks back from a block to the nearest name, and collects the blocks
of a path in one sweep. Blocks are told apart by where they stand, so the two agree on
documents in which one block occurs twice as well.
-/

set_option autoImplicit false

namespace Tangle.Generate

open Tangle.Document

/-! ## Names looked up backwards -/

/-- The path named nearest to the block at `index`: by the block itself, or else by the
last one ahead of it that names any. -/
def nearestName (blocks : List CodeBlock) (index : Nat) : Option String :=
  (blocks.take (index + 1)).reverse.findSome? namedFile

def placements (blocks : List CodeBlock) : List ResolvedBlock :=
  blocks.mapIdx fun index block => ⟨block, nearestName blocks index⟩

/-- The blocks placed at a path, in order; `none` asks for those without one. -/
def placedAt (placed : List ResolvedBlock) (path : Option String) : List CodeBlock :=
  (placed.filter fun entry => entry.path = path).map ResolvedBlock.block

private theorem nearestName_succ (block : CodeBlock) (rest : List CodeBlock) (index : Nat) :
    nearestName (block :: rest) (index + 1) = (nearestName rest index).or (namedFile block) := by
  rw [nearestName, List.take_succ_cons, List.reverse_cons, List.findSome?_append,
    List.findSome?_singleton]
  rfl

/-- A walk that starts with a path falls back on it where no block names one. -/
theorem resolveFrom_eq (current : Option String) (blocks : List CodeBlock) :
    resolveFrom current blocks
      = blocks.mapIdx fun index block => ⟨block, (nearestName blocks index).or current⟩ := by
  induction blocks generalizing current with
  | nil => rfl
  | cons block rest inductionHypothesis =>
      have own : nearestName (block :: rest) 0 = namedFile block := List.findSome?_singleton
      rw [resolveFrom, inductionHypothesis, List.mapIdx_cons, own]
      simp only [nearestName_succ, Option.or_assoc]

/-- **Paths are the nearest names.** -/
theorem resolvedBlocks_eq (document : Document) :
    resolvedBlocks document = placements (participants document) := by
  rw [resolvedBlocks, resolveFrom_eq, placements]
  simp only [Option.or_none]

private theorem placedAt_concat (placed : List ResolvedBlock) (entry : ResolvedBlock)
    (path : Option String) :
    placedAt (placed ++ [entry]) path
      = placedAt placed path ++ if entry.path = path then [entry.block] else [] := by
  rw [placedAt, List.filter_append, List.map_append, ← placedAt]
  by_cases same : entry.path = path <;> simp [same]

private theorem placedAt_eq_nil {placed : List ResolvedBlock} {path : String}
    (unused : path ∉ placed.filterMap ResolvedBlock.path) : placedAt placed (some path) = [] := by
  rw [placedAt, List.map_eq_nil_iff, List.filter_eq_nil_iff]
  intro entry member isPath
  exact unused (List.mem_filterMap.mpr ⟨entry, member, of_decide_eq_true isPath⟩)

/-! ## Groups -/

theorem placedAt_of_ne {path other : String} (apart : path ≠ other) (placed : List ResolvedBlock)
    (block : CodeBlock) :
    placedAt (placed ++ [⟨block, some path⟩]) (some other) = placedAt placed (some other) := by
  rw [placedAt_concat, if_neg fun same => apart (Option.some.inj same), List.append_nil]

/-- One step keeps every group complete: the block goes to the group of its path. -/
theorem addToGroup_blocks {path : String} {groups : List FileGroup} {placed : List ResolvedBlock}
    (distinct : (groups.map FileGroup.path).Nodup)
    (complete : ∀ group ∈ groups, group.blocks = placedAt placed (some group.path))
    (fresh : path ∉ groups.map FileGroup.path → placedAt placed (some path) = [])
    (block : CodeBlock) :
    ∀ group ∈ addToGroup path block groups,
      group.blocks = placedAt (placed ++ [⟨block, some path⟩]) (some group.path) := by
  induction groups with
  | nil =>
      intro group member
      rw [List.mem_singleton.mp member, placedAt_concat, if_pos rfl, fresh List.not_mem_nil]
      rfl
  | cons group others inductionHypothesis =>
      rw [List.map_cons, List.nodup_cons] at distinct
      obtain ⟨own, rest⟩ := List.forall_mem_cons.mp complete
      rw [addToGroup]
      by_cases same : group.path = path
      · subst same
        rw [if_pos rfl, List.forall_mem_cons]
        refine ⟨?_, ?_⟩
        · rw [placedAt_concat, if_pos rfl, ← own]
          rfl
        · intro other member
          have apart : group.path ≠ other.path := fun same =>
            distinct.1 (same ▸ List.mem_map_of_mem member)
          rw [placedAt_of_ne apart, rest other member]
      · rw [if_neg same, List.forall_mem_cons]
        refine ⟨?_, inductionHypothesis distinct.2 rest ?_⟩
        · rw [placedAt_of_ne (Ne.symm same), own]
        · intro unknown
          apply fresh
          rw [List.map_cons, List.mem_cons, not_or]
          exact ⟨Ne.symm same, unknown⟩

theorem eraseDups_concat (paths : List String) (path : String) :
    (paths ++ [path]).eraseDups
      = if path ∈ paths then paths.eraseDups else paths.eraseDups ++ [path] := by
  rw [List.eraseDups_append, List.removeAll, List.filter_cons]
  by_cases known : path ∈ paths <;> simp [known, List.eraseDups_cons]

/-- **Paths in order of first appearance.** -/
theorem foldl_addResolved_paths (placed : List ResolvedBlock) :
    (placed.foldl addResolved []).map FileGroup.path
      = (placed.filterMap ResolvedBlock.path).eraseDups := by
  induction placed using List.reverseRecOn with
  | nil => rfl
  | append_singleton front entry inductionHypothesis =>
      obtain ⟨block, path⟩ := entry
      rw [List.foldl_concat, List.filterMap_append]
      cases path with
      | none =>
          rw [List.filterMap_cons_none rfl, List.filterMap_nil, List.append_nil]
          exact inductionHypothesis
      | some path =>
          show (addToGroup path block _).map FileGroup.path = (_ ++ [path]).eraseDups
          simp only [addToGroup_paths, inductionHypothesis, eraseDups_concat, List.mem_eraseDups]

private theorem foldl_addResolved_paths_nodup (placed : List ResolvedBlock) :
    ((placed.foldl addResolved []).map FileGroup.path).Nodup := by
  induction placed using List.reverseRecOn with
  | nil => exact List.nodup_nil
  | append_singleton front entry inductionHypothesis =>
      rw [List.foldl_concat]
      exact addResolved_paths_nodup inductionHypothesis entry

/-- **A group collects the blocks of its path.** -/
theorem foldl_addResolved_blocks (placed : List ResolvedBlock) :
    ∀ group ∈ placed.foldl addResolved [], group.blocks = placedAt placed (some group.path) := by
  induction placed using List.reverseRecOn with
  | nil => exact fun _ member => absurd member List.not_mem_nil
  | append_singleton front entry inductionHypothesis =>
      obtain ⟨block, path⟩ := entry
      rw [List.foldl_concat]
      cases path with
      | none =>
          intro group member
          rw [placedAt_concat, if_neg (by simp), List.append_nil]
          exact inductionHypothesis group member
      | some path =>
          refine addToGroup_blocks (foldl_addResolved_paths_nodup front) inductionHypothesis ?_ block
          intro unknown
          rw [foldl_addResolved_paths, List.mem_eraseDups] at unknown
          exact placedAt_eq_nil unknown

private theorem addToGroup_blocks_perm (path : String) (block : CodeBlock) (groups : List FileGroup) :
    ((addToGroup path block groups).flatMap FileGroup.blocks).Perm
      (groups.flatMap FileGroup.blocks ++ [block]) := by
  induction groups with
  | nil => exact List.Perm.refl _
  | cons group others inductionHypothesis =>
      rw [addToGroup]
      by_cases same : group.path = path
      · rw [if_pos same, List.flatMap_cons, List.flatMap_cons, List.append_assoc]
        have isLonger : ({ group with rest := group.rest ++ [block] } : FileGroup).blocks
            = group.blocks ++ [block] := rfl
        rw [isLonger, List.append_assoc]
        exact (List.perm_append_comm).append_left group.blocks
      · rw [if_neg same, List.flatMap_cons, List.flatMap_cons, List.append_assoc]
        exact inductionHypothesis.append_left group.blocks

/-- **No block is lost or doubled.** Each block with a path stands in one group. -/
theorem foldl_addResolved_blocks_perm (placed : List ResolvedBlock) :
    ((placed.foldl addResolved []).flatMap FileGroup.blocks).Perm
      ((placed.filter fun entry => entry.path.isSome).map ResolvedBlock.block) := by
  induction placed using List.reverseRecOn with
  | nil => exact List.Perm.refl _
  | append_singleton front entry inductionHypothesis =>
      obtain ⟨block, path⟩ := entry
      rw [List.foldl_concat, List.filter_append, List.map_append]
      cases path with
      | none => simpa [addResolved] using inductionHypothesis
      | some path =>
          exact (addToGroup_blocks_perm path block _).trans
            (inductionHypothesis.append_right [block])

/-! ## Blocks without a path -/

/-- Behind a named block every block has a path. -/
theorem placedAt_none_resolveFrom_some (path : String) (blocks : List CodeBlock) :
    placedAt (resolveFrom (some path) blocks) none = [] := by
  rw [placedAt, List.map_eq_nil_iff, List.filter_eq_nil_iff, resolveFrom_eq]
  intro entry member
  obtain ⟨index, bound, rfl⟩ := List.mem_mapIdx.mp member
  rw [decide_eq_true_eq, Option.or_eq_none_iff]
  simp

/-- The blocks without a path are those ahead of the first name. -/
theorem placedAt_none_resolveFrom (blocks : List CodeBlock) :
    placedAt (resolveFrom none blocks) none
      = blocks.takeWhile fun block => (namedFile block).isNone := by
  induction blocks with
  | nil => rfl
  | cons block rest inductionHypothesis =>
      rw [resolveFrom, List.takeWhile_cons]
      cases named : namedFile block with
      | none =>
          rw [Option.isNone_none, if_pos rfl, ← inductionHypothesis]
          rfl
      | some path =>
          rw [Option.isNone_some, if_neg Bool.false_ne_true]
          exact placedAt_none_resolveFrom_some path rest

theorem unresolvedReports_eq (document : Document) :
    unresolvedReports document
      = (placedAt (resolvedBlocks document) none).map (report · .unresolvedFileName) := by
  rw [unresolvedReports, placedAt, List.map_map, ← List.filterMap_eq_map, List.filterMap_filter]
  refine List.filterMap_congr ?_
  intro entry _
  cases entry.path <;> rfl

/-! ## Nodes that take no part -/

/-- Nodes that generation looks at: annotated blocks that are not skipped. -/
def takesPart : Node → Bool
  | .code block => block.settings.isSome && !block.isSkipped
  | _ => false

def withoutBystanders (document : Document) : Document :=
  { document with nodes := document.nodes.filter takesPart }

private theorem participants_withoutBystanders (document : Document) :
    participants (withoutBystanders document) = participants document := by
  have whole : ∀ nodes : List Node,
      participants ⟨document.sourcePath, nodes.filter takesPart⟩
        = participants ⟨document.sourcePath, nodes⟩ := by
    intro nodes
    simp only [participants, Document.annotatedBlocks, Document.codeBlocks,
      List.filter_filterMap, List.filterMap_filter]
    refine List.filterMap_congr ?_
    intro node _
    cases node with
    | code block =>
        cases annotated : block.settings.isSome <;> cases skipped : block.isSkipped <;>
          simp [takesPart, Node.code?, Option.filter, annotated, skipped]
    | _ => rfl
  exact whole document.nodes

/-- **Groups follow the nearest name.** There is one group for each path that some block has, in
order of first appearance, made of the blocks whose nearest name is that path; together the
groups hold each block with a path once. Reports go to the blocks ahead of the first name.
Nodes that take no part change nothing. -/
theorem groups_follow_nearest_name (document : Document) :
    (fileGroups document).map (fun group => (group.path, group.blocks))
        = ((placements (participants document)).filterMap ResolvedBlock.path).eraseDups.map
            (fun path => (path, placedAt (placements (participants document)) (some path)))
      ∧ [] ∉ (fileGroups document).map FileGroup.blocks
      ∧ ((fileGroups document).flatMap FileGroup.blocks).Perm
          (((placements (participants document)).filter fun entry => entry.path.isSome).map
            ResolvedBlock.block)
      ∧ unresolvedReports document
          = (placedAt (placements (participants document)) none).map (report · .unresolvedFileName)
      ∧ placedAt (placements (participants document)) none
          = (participants document).takeWhile (fun block => (namedFile block).isNone)
      ∧ fileGroups (withoutBystanders document) = fileGroups document
      ∧ unresolvedReports (withoutBystanders document) = unresolvedReports document := by
  have same := participants_withoutBystanders document
  rw [← resolvedBlocks_eq]
  refine ⟨?_, ?_, foldl_addResolved_blocks_perm _, unresolvedReports_eq document,
    placedAt_none_resolveFrom _, ?_, ?_⟩
  · rw [← foldl_addResolved_paths, List.map_map]
    refine List.map_congr_left ?_
    intro group member
    rw [foldl_addResolved_blocks _ group member]
    rfl
  · rw [List.mem_map]
    rintro ⟨group, -, isEmpty⟩
    cases isEmpty
  · rw [fileGroups, resolvedBlocks, same]
    rfl
  · rw [unresolvedReports, resolvedBlocks, same]
    rfl

/-- Two files in turn, behind a block without a name and with one between them. -/
def turnsText : String :=
  "<!-- @codeblock -->\n```\n0\n```\n<!-- @codeblock a -->\n```\n1\n```\n"
    ++ "<!-- @codeblock b -->\n```\n2\n```\n<!-- @codeblock -->\n```\n3\n```\n"
    ++ "<!-- @codeblock a -->\n```\n4\n```\n"

example :
    let document := (Document.parse turnsText "doc.md").document
    (fileGroups document).map (fun group => (group.path, group.blocks.map CodeBlock.code))
        = [("a", ["1", "4"]), ("b", ["2", "3"])]
      ∧ (unresolvedReports document).map (fun diagnostic => diagnostic.range.start.line) = [1] := by
  decide +kernel

end Tangle.Generate
