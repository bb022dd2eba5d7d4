import Mathlib.Data.List.Pairwise
import Tangle.Extraction
import Tangle.Proofs.Document.Blocks
import Tangle.Proofs.Generate.Mapping

/-!
Contract: positions go through nested documents and come back.

Owns: `descent`, the stages that a position passes on its way down, and the round
trip through all of them.

Does **not** own: the round trip through one stage (`Tangle.Proofs.Generate.Mapping`).

## Two walks that must meet

The way down picks a child by the file that its text came from; the way up searches
all children for the path of an output. They meet because distinct output paths
leave only one child that knows the path, and because a hit in one stage names the
file that the next stage was read from. Trees have any shape, so every fact about
them is one proof on a tree and one on a list of trees.
-/

set_option autoImplicit false

namespace Tangle

open Tangle.Source
open Tangle.Document
open Tangle.Generate

/-! ## One stage -/

/-- One stage that a position passes: the position in its text, and where it leads
among its files. -/
structure Passage where
  stage : Stage
  position : Position
  hit : GeneratedPosition

/-- The position is neither inside the indentation of its line nor on a line that
substitution removed. -/
def Passage.Unclamped (passage : Passage) : Prop :=
  ∀ block ∈ passage.stage.document.blockAt? passage.position,
    block.indentAt passage.position.line < passage.position.column
      ∧ passage.position.line - block.codeRange.start.line
        < Text.lineCount (transformedCode block)

instance : DecidablePred Passage.Unclamped := fun passage =>
  inferInstanceAs (Decidable (∀ block ∈ passage.stage.document.blockAt? passage.position, _ ∧ _))

def Passage.output (passage : Passage) : GeneratedPosition :=
  ⟨Path.join passage.stage.outputDir passage.hit.path, passage.hit.position⟩

namespace Stage

/-- A stage whose files are those of its document, and whose blocks can be told apart. -/
def Faithful (stage : Stage) : Prop :=
  DistinctSpans stage.document
    ∧ ∃ options, stage.generation = generate stage.document options

private theorem build_faithful (text sourcePath : String) (origin : Option String) (options : Options) :
    (Stage.build text sourcePath origin options).Faithful :=
  ⟨parse_spans_nodup text sourcePath, options, rfl⟩

/-- A hit lies in a file of the stage. -/
theorem exists_file_of_toGenerated? {stage : Stage} {p : Position} {hit : GeneratedPosition}
    (mapped : stage.toGenerated? p = some hit) :
    ∃ file ∈ stage.generation.files, file.path = hit.path := by
  simp only [toGenerated?, Generate.toGenerated?, Option.bind_eq_bind, Option.bind_eq_some_iff]
    at mapped
  obtain ⟨block, -, ⟨path, place⟩, placed, rest⟩ := mapped
  obtain ⟨file, kept, inFile⟩ := List.exists_of_findSome?_eq_some placed
  obtain ⟨_, -, samePath⟩ := Option.map_eq_some_iff.mp inFile
  refine ⟨file, kept, ?_⟩
  split at rest
  · exact absurd rest (by simp)
  · rw [← Option.some.inj rest]
    exact congrArg Prod.fst samePath

/-- On the way down columns only lose, so a machine word holds them as it held the first. -/
theorem column_lt_of_toGenerated? {stage : Stage} {p : Position} {hit : GeneratedPosition}
    (mapped : stage.toGenerated? p = some hit) (word : p.column < columnBound) :
    hit.position.column < columnBound := by
  simp only [toGenerated?, Generate.toGenerated?, Option.bind_eq_bind, Option.bind_eq_some_iff]
    at mapped
  obtain ⟨block, -, ⟨path, place⟩, -, rest⟩ := mapped
  split at rest
  · exact absurd rest (by simp)
  · rw [← Option.some.inj rest]
    show max 1 (p.column - block.indentAt p.line) < columnBound
    exact Nat.max_lt.mpr ⟨by decide, (Nat.sub_le _ _).trans_lt word⟩

/-- Without clamps the way back through one stage ends where it began. -/
theorem toSource?_of_unclamped {stage : Stage} (faithful : stage.Faithful) {p : Position}
    {hit : GeneratedPosition} (mapped : stage.toGenerated? p = some hit)
    (unclamped : Passage.Unclamped ⟨stage, p, hit⟩) (word : p.column < columnBound) :
    stage.toSource? hit.path hit.position = some p := by
  obtain ⟨distinct, options, generated⟩ := faithful
  rw [toGenerated?, generated] at mapped
  obtain ⟨block, found, -⟩ := Option.bind_eq_some_iff.mp mapped
  obtain ⟨column, line⟩ := unclamped block found
  rw [toSource?, generated, toSource?_toGenerated? distinct found mapped,
    returned_eq_self (containsLine_of_blockAt? found).1 line column word]

end Stage

namespace Extraction

/-! ## Trees of faithful stages -/

mutual

def Faithful : Extraction → Prop
  | node stage nested => stage.Faithful ∧ FaithfulAll nested

def FaithfulAll : List Extraction → Prop
  | [] => True
  | child :: rest => Faithful child ∧ FaithfulAll rest

end

private theorem faithfulAll_map {α : Type} {tree : α → Extraction} {items : List α}
    (each : ∀ item ∈ items, (tree item).Faithful) : FaithfulAll (items.map tree) := by
  induction items with
  | nil => trivial
  | cons first rest inductionHypothesis =>
      exact ⟨each first List.mem_cons_self,
        inductionHypothesis fun item member => each item (List.mem_cons_of_mem _ member)⟩

theorem buildFrom_faithful (depth : Nat) :
    ∀ (text sourcePath : String) (origin : Option String) (options : Options),
      (buildFrom depth text sourcePath origin options).Faithful := by
  induction depth with
  | zero =>
      intro text sourcePath origin options
      exact ⟨Stage.build_faithful text sourcePath origin options, trivial⟩
  | succ depth inductionHypothesis =>
      intro text sourcePath origin options
      refine ⟨Stage.build_faithful text sourcePath origin options, ?_⟩
      exact faithfulAll_map fun file _ => inductionHypothesis _ _ _ _

/-! ## The way down -/

mutual

/-- The stages that a position passes, the top one first. -/
def descent : Extraction → Position → List Passage
  | node stage nested, p =>
      match stage.toGenerated? p with
      | none => []
      | some hit => ⟨stage, p, hit⟩ :: descentBelow nested hit

/-- The stages passed below a hit: those of the first child that was read from the
file of the hit and has something to pass. -/
def descentBelow : List Extraction → GeneratedPosition → List Passage
  | [], _ => []
  | child :: rest, hit =>
      if child.stage.origin = some hit.path ∧ descent child hit.position ≠ [] then
        descent child hit.position
      else descentBelow rest hit

end

mutual

/-- The leaf is where the last passage leads. -/
theorem toLeafGenerated?_eq_descent (p : Position) :
    ∀ extraction, toLeafGenerated? extraction p = (descent extraction p).getLast?.map Passage.output
  | node stage nested => by
      rw [toLeafGenerated?, descent]
      cases stage.toGenerated? p with
      | none => rfl
      | some hit =>
          dsimp only
          rw [toLeafGeneratedOf?_eq_descentBelow hit nested, List.getLast?_cons]
          cases (descentBelow nested hit).getLast? <;> rfl

private theorem toLeafGeneratedOf?_eq_descentBelow (hit : GeneratedPosition) :
    ∀ nested, toLeafGeneratedOf? nested hit = (descentBelow nested hit).getLast?.map Passage.output
  | [] => rfl
  | child :: rest => by
      rw [toLeafGeneratedOf?, descentBelow, toLeafGenerated?_eq_descent hit.position child,
        toLeafGeneratedOf?_eq_descentBelow hit rest]
      by_cases readHere : child.stage.origin = some hit.path
      · by_cases passes : descent child hit.position = []
        · simp [readHere, passes]
        · obtain ⟨last, isLast⟩ := Option.isSome_iff_exists.mp (List.getLast?_isSome.mpr passes)
          simp [readHere, passes, isLast]
      · simp [readHere]

end

mutual

/-- The stages passed are stages of the tree, and each hit lies in a file of its stage. -/
theorem passage_of_mem_descent {passage : Passage} (p : Position) :
    ∀ extraction, passage ∈ descent extraction p →
      passage.stage ∈ stages extraction
        ∧ ∃ file ∈ passage.stage.generation.files, file.path = passage.hit.path
  | node stage nested, member => by
      rw [descent] at member
      rw [stages]
      cases mapped : stage.toGenerated? p with
      | none => simp [mapped] at member
      | some hit =>
          simp only [mapped, List.mem_cons] at member
          rcases member with rfl | below
          · exact ⟨List.mem_cons_self, Stage.exists_file_of_toGenerated? mapped⟩
          · obtain ⟨inTree, inFile⟩ := passage_of_mem_descentBelow hit nested below
            exact ⟨List.mem_cons_of_mem _ inTree, inFile⟩

private theorem passage_of_mem_descentBelow {passage : Passage} (hit : GeneratedPosition) :
    ∀ nested, passage ∈ descentBelow nested hit →
      passage.stage ∈ stagesOfAll nested
        ∧ ∃ file ∈ passage.stage.generation.files, file.path = passage.hit.path
  | [], member => absurd member List.not_mem_nil
  | child :: rest, member => by
      rw [descentBelow] at member
      rw [stagesOfAll]
      split at member
      · obtain ⟨inTree, inFile⟩ := passage_of_mem_descent hit.position child member
        exact ⟨List.mem_append_left _ inTree, inFile⟩
      · obtain ⟨inTree, inFile⟩ := passage_of_mem_descentBelow hit rest member
        exact ⟨List.mem_append_right _ inTree, inFile⟩

end

/-! ## Outputs -/

mutual

/-- The outputs of a tree are those of its stages, in order. -/
theorem allOutputs_eq_flatMap :
    ∀ extraction, allOutputs extraction = (stages extraction).flatMap Stage.outputs
  | node stage nested => by
      rw [allOutputs, stages, List.flatMap_cons, allOutputsOf_eq_flatMap nested]

private theorem allOutputsOf_eq_flatMap :
    ∀ nested, allOutputsOf nested = (stagesOfAll nested).flatMap Stage.outputs
  | [] => rfl
  | child :: rest => by
      rw [allOutputsOf, stagesOfAll, List.flatMap_append, allOutputs_eq_flatMap child,
        allOutputsOf_eq_flatMap rest]

end

def DistinctOutputs (outputs : List (String × String)) : Prop :=
  outputs.Pairwise fun first second => Path.same first.1 second.1 = false

instance : DecidablePred DistinctOutputs := fun outputs =>
  inferInstanceAs (Decidable (outputs.Pairwise _))

def Unknown (path : String) (outputs : List (String × String)) : Prop :=
  ∀ output ∈ outputs, Path.same output.1 path = false

private theorem exists_output_of_passage {stages : List Stage} {passage : Passage}
    (inTree : passage.stage ∈ stages)
    (inFile : ∃ file ∈ passage.stage.generation.files, file.path = passage.hit.path) :
    ∃ output ∈ stages.flatMap Stage.outputs, output.1 = passage.output.path := by
  obtain ⟨file, kept, samePath⟩ := inFile
  refine ⟨(passage.stage.outputPath file, file.content), ?_, ?_⟩
  · exact List.mem_flatMap.mpr ⟨passage.stage, inTree, List.mem_map_of_mem kept⟩
  · simp only [Stage.outputPath, Passage.output, samePath]

/-- What lies ahead of the outputs that hold a leaf does not know its path. -/
theorem unknown_of_distinct {ahead behind : List (String × String)}
    (distinct : DistinctOutputs (ahead ++ behind)) {path : String}
    (known : ∃ output ∈ behind, output.1 = path) : Unknown path ahead := by
  obtain ⟨output, member, rfl⟩ := known
  intro earlier earlierMember
  exact (List.pairwise_append.mp distinct).2.2 earlier earlierMember output member

private theorem leaf_known {nested : List Extraction} {hit leaf : GeneratedPosition}
    (isLeaf : toLeafGeneratedOf? nested hit = some leaf) :
    ∃ output ∈ allOutputsOf nested, output.1 = leaf.path := by
  rw [toLeafGeneratedOf?_eq_descentBelow, Option.map_eq_some_iff] at isLeaf
  obtain ⟨last, isLast, rfl⟩ := isLeaf
  obtain ⟨inTree, inFile⟩ :=
    passage_of_mem_descentBelow hit nested (List.mem_of_getLast? isLast)
  rw [allOutputsOf_eq_flatMap]
  exact exists_output_of_passage inTree inFile

/-! ## The way up -/

/-- A stage has no file with a path that is unknown to its outputs. -/
theorem find?_outputPath_of_unknown {stage : Stage} {path : String}
    (unknown : Unknown path stage.outputs) :
    stage.generation.files.find? (fun file => Path.same (stage.outputPath file) path) = none := by
  rw [List.find?_eq_none]
  intro file kept same
  have different := unknown (stage.outputPath file, file.content) (List.mem_map_of_mem kept)
  exact absurd same (by rw [different]; decide)

mutual

/-- A path that no output has leads nowhere. -/
theorem toRootSource?_of_unknown (path : String) (p : Position) :
    ∀ extraction, Unknown path (allOutputs extraction) → toRootSource? path p extraction = none
  | node stage nested, unknown => by
      rw [allOutputs] at unknown
      rw [toRootSource?, find?_outputPath_of_unknown fun output member =>
        unknown output (List.mem_append_left _ member)]
      exact toRootSourceOf?_of_unknown path p stage nested fun output member =>
        unknown output (List.mem_append_right _ member)

private theorem toRootSourceOf?_of_unknown (path : String) (p : Position) (parent : Stage) :
    ∀ nested, Unknown path (allOutputsOf nested) → toRootSourceOf? path p parent nested = none
  | [], _ => rfl
  | child :: rest, unknown => by
      rw [allOutputsOf] at unknown
      rw [toRootSourceOf?, toRootSource?_of_unknown path p child fun output member =>
          unknown output (List.mem_append_left _ member),
        toRootSourceOf?_of_unknown path p parent rest fun output member =>
          unknown output (List.mem_append_right _ member)]
      rfl

end

/-- Of the files of one stage, the one asked for is found, however its path is spelled. -/
theorem find?_outputPath {stage : Stage} (distinct : DistinctOutputs stage.outputs)
    {file : GeneratedFile} (kept : file ∈ stage.generation.files) :
    stage.generation.files.find? (fun other =>
      Path.same (stage.outputPath other) (stage.outputPath file)) = some file := by
  let differ (first second : GeneratedFile) : Prop :=
    Path.same (stage.outputPath first) (stage.outputPath second) = false
  have symmetric : Std.Symm differ := by
    refine ⟨fun first second different => ?_⟩
    simp only [differ, Path.same, beq_eq_false_iff_ne] at different ⊢
    exact different.symm
  have pairwise : stage.generation.files.Pairwise differ := List.pairwise_map.mp distinct
  refine find?_eq_some_of_unique kept (by simp [Path.same]) ?_
  intro other otherKept same
  refine Classical.byContradiction fun different => ?_
  have apart : Path.same (stage.outputPath other) (stage.outputPath file) = false :=
    pairwise.forall otherKept kept different
  exact absurd same (by rw [apart]; decide)

mutual

/-- **Down and up.** A position that is clamped in no stage it passes is found again
from its leaf. -/
theorem toRootSource?_toLeafGenerated? (p : Position) (word : p.column < columnBound)
    {leaf : GeneratedPosition} :
    ∀ extraction, extraction.Faithful → DistinctOutputs (allOutputs extraction) →
      (∀ passage ∈ descent extraction p, passage.Unclamped) →
      toLeafGenerated? extraction p = some leaf →
      toRootSource? leaf.path leaf.position extraction = some p
  | node stage nested, faithful, distinct, unclamped, isLeaf => by
      obtain ⟨faithfulHere, faithfulBelow⟩ := faithful
      rw [allOutputs] at distinct
      obtain ⟨distinctHere, distinctBelow, -⟩ := List.pairwise_append.mp distinct
      rw [descent] at unclamped
      rw [toLeafGenerated?] at isLeaf
      cases mapped : stage.toGenerated? p with
      | none => simp [mapped] at isLeaf
      | some hit =>
          simp only [mapped, List.mem_cons, forall_eq_or_imp] at unclamped
          simp only [mapped] at isLeaf
          have back := Stage.toSource?_of_unclamped faithfulHere mapped unclamped.1 word
          have wordBelow := Stage.column_lt_of_toGenerated? mapped word
          cases deeper : toLeafGeneratedOf? nested hit with
          | none =>
              -- The descent stops here, so the leaf is a file of this stage.
              rw [deeper, Option.none_or, Option.some.injEq] at isLeaf
              subst isLeaf
              obtain ⟨file, kept, samePath⟩ := Stage.exists_file_of_toGenerated? mapped
              rw [← samePath] at back ⊢
              rw [toRootSource?]
              have found := find?_outputPath distinctHere kept
              rw [Stage.outputPath] at found
              rw [found]
              exact back
          | some below =>
              rw [deeper, Option.some_or, Option.some.injEq] at isLeaf
              subst isLeaf
              have unknownHere := unknown_of_distinct distinct (leaf_known deeper)
              rw [toRootSource?, find?_outputPath_of_unknown unknownHere]
              exact toRootSourceOf?_toLeafGeneratedOf? p hit wordBelow stage back nested faithfulBelow
                distinctBelow unclamped.2 deeper

private theorem toRootSourceOf?_toLeafGeneratedOf? (p : Position) (hit : GeneratedPosition)
    (word : hit.position.column < columnBound) {leaf : GeneratedPosition} (parent : Stage)
    (back : parent.toSource? hit.path hit.position = some p) :
    ∀ nested, FaithfulAll nested → DistinctOutputs (allOutputsOf nested) →
      (∀ passage ∈ descentBelow nested hit, passage.Unclamped) →
      toLeafGeneratedOf? nested hit = some leaf →
      toRootSourceOf? leaf.path leaf.position parent nested = some p
  | [], _, _, _, isLeaf => by simp [toLeafGeneratedOf?] at isLeaf
  | child :: rest, faithful, distinct, unclamped, isLeaf => by
      obtain ⟨faithfulChild, faithfulRest⟩ := faithful
      rw [allOutputsOf] at distinct
      obtain ⟨distinctChild, distinctRest, -⟩ := List.pairwise_append.mp distinct
      rw [descentBelow] at unclamped
      rw [toRootSourceOf?]
      by_cases chosen : child.stage.origin = some hit.path ∧ descent child hit.position ≠ []
      · rw [if_pos chosen] at unclamped
        obtain ⟨readHere, passes⟩ := chosen
        obtain ⟨last, isLast⟩ := Option.isSome_iff_exists.mp (List.getLast?_isSome.mpr passes)
        have leafHere : toLeafGenerated? child hit.position = some leaf := by
          rw [toLeafGeneratedOf?, if_pos readHere] at isLeaf
          rw [toLeafGenerated?_eq_descent, isLast] at isLeaf ⊢
          exact isLeaf
        rw [toRootSource?_toLeafGenerated? hit.position word child faithfulChild distinctChild
          unclamped leafHere]
        simp [readHere, back]
      · rw [if_neg chosen] at unclamped
        have leafLater : toLeafGeneratedOf? rest hit = some leaf := by
          rw [toLeafGeneratedOf?] at isLeaf
          by_cases readHere : child.stage.origin = some hit.path
          · have passesNothing : descent child hit.position = [] :=
              Classical.byContradiction fun passes => chosen ⟨readHere, passes⟩
            rw [if_pos readHere, toLeafGenerated?_eq_descent, passesNothing] at isLeaf
            exact isLeaf
          · rwa [if_neg readHere] at isLeaf
        have unknownChild := unknown_of_distinct distinct (leaf_known leafLater)
        rw [toRootSource?_of_unknown _ _ child unknownChild]
        exact toRootSourceOf?_toLeafGeneratedOf? p hit word parent back rest faithfulRest distinctRest
          unclamped leafLater

end

/-- **Positions survive every stage.** If no two outputs have the same path, a position
that no stage clamps comes back from its leaf to itself; its column is a machine word. The leaf is an output of the
stage where the descent stopped, and a path that no output has leads nowhere. -/
theorem nested_position_round_trip (depth : Nat) (text sourcePath : String) (options : Options)
    (distinct : DistinctOutputs (buildWithin depth text sourcePath options).allOutputs) :
    (∀ p leaf, toLeafGenerated? (buildWithin depth text sourcePath options) p = some leaf →
      (p.column < columnBound →
        (∀ passage ∈ descent (buildWithin depth text sourcePath options) p, passage.Unclamped) →
        toRootSource? leaf.path leaf.position (buildWithin depth text sourcePath options) = some p)
      ∧ ∃ last, (descent (buildWithin depth text sourcePath options) p).getLast? = some last
          ∧ last.stage ∈ (buildWithin depth text sourcePath options).stages
          ∧ leaf.position = last.hit.position
          ∧ ∃ file ∈ last.stage.generation.files, leaf.path = last.stage.outputPath file)
    ∧ ∀ path p, Unknown path (buildWithin depth text sourcePath options).allOutputs →
        toRootSource? path p (buildWithin depth text sourcePath options) = none := by
  refine ⟨?_, fun path p unknown => toRootSource?_of_unknown path p _ unknown⟩
  intro p leaf isLeaf
  refine ⟨fun word unclamped => toRootSource?_toLeafGenerated? p word _
    (buildFrom_faithful depth text sourcePath none options) distinct unclamped isLeaf, ?_⟩
  rw [toLeafGenerated?_eq_descent, Option.map_eq_some_iff] at isLeaf
  obtain ⟨last, isLast, rfl⟩ := isLeaf
  obtain ⟨inTree, file, kept, samePath⟩ :=
    passage_of_mem_descent p _ (List.mem_of_getLast? isLast)
  refine ⟨last, isLast, inTree, rfl, file, kept, ?_⟩
  simp only [Passage.output, Stage.outputPath, samePath]

/-- A guide within a guide: the inner one is indented. -/
def nestedGuide : String :=
  "<!-- @codeblock a.md -->\n````\n<!-- @codeblock b.c -->\n ```\n x\n ```\n````\n"

/-- A position in the inner guide comes back through both stages. -/
theorem nested_position_round_trip_guide :
    DistinctOutputs (buildWithin 1 nestedGuide "g.md" {}).allOutputs
    ∧ toRootSource? ".examples/.examples/b.c" ⟨1, 1⟩ (buildWithin 1 nestedGuide "g.md" {})
        = some ⟨5, 2⟩ := by
  have distinct : DistinctOutputs (buildWithin 1 nestedGuide "g.md" {}).allOutputs := by
    decide +kernel
  have isLeaf : toLeafGenerated? (buildWithin 1 nestedGuide "g.md" {}) ⟨5, 2⟩
      = some ⟨".examples/.examples/b.c", ⟨1, 1⟩⟩ := by
    decide +kernel
  have unclamped : ∀ passage ∈ descent (buildWithin 1 nestedGuide "g.md" {}) ⟨5, 2⟩,
      passage.Unclamped := by
    decide +kernel
  have roundTrip := nested_position_round_trip 1 nestedGuide "g.md" {} distinct
  obtain ⟨returns, -⟩ := roundTrip.1 ⟨5, 2⟩ ⟨".examples/.examples/b.c", ⟨1, 1⟩⟩ isLeaf
  exact ⟨distinct, returns (by decide) unclamped⟩

end Extraction

end Tangle
