import Tangle.Proofs.Extraction.Consistency

/-!
Contract: trees of stages whose outputs only ever go further in.

Owns: the condition `Extraction.Inward`, and that all directories and outputs of such a tree
go on, by names alone, from the output directory of the first stage.

Does **not** own: which of its files a check reports (`Tangle.Proofs.Files.Stale`).

## What the condition leaves open

The first stage may put its output directory anywhere. Only behind it nothing goes up or starts
over: no file of any stage, and no output directory of a stage below the first.
-/

set_option autoImplicit false

namespace Tangle

open Tangle.Generate
open Tangle.Path (Step)

/-! ## Going on by names -/

namespace Path

/-- Steps that go on from others by names alone. -/
def EntersFrom (base later : List Step) : Prop :=
  base <+: later ∧ ∀ step ∈ later.drop base.length, step.isName = true

instance (base later : List Step) : Decidable (EntersFrom base later) :=
  inferInstanceAs (Decidable (_ ∧ _))

theorem entersFrom_iff {base later : List Step} :
    EntersFrom base later ↔ ∃ names : List String, later = base ++ names.map Step.name := by
  constructor
  · rintro ⟨⟨rest, rfl⟩, enters⟩
    rw [List.drop_left] at enters
    obtain ⟨names, rfl⟩ := exists_names enters
    exact ⟨names, rfl⟩
  · rintro ⟨names, rfl⟩
    refine ⟨List.prefix_append _ _, ?_⟩
    rw [List.drop_left]
    intro step member
    obtain ⟨name, -, rfl⟩ := List.mem_map.mp member
    rfl

theorem EntersFrom.refl (steps : List Step) : EntersFrom steps steps :=
  entersFrom_iff.mpr ⟨[], (List.append_nil steps).symm⟩

theorem EntersFrom.trans {base middle later : List Step} (first : EntersFrom base middle)
    (second : EntersFrom middle later) : EntersFrom base later := by
  obtain ⟨names, rfl⟩ := entersFrom_iff.mp first
  obtain ⟨more, rfl⟩ := entersFrom_iff.mp second
  apply entersFrom_iff.mpr
  exact ⟨names ++ more, by rw [List.map_append, List.append_assoc]⟩

/-- A path that goes on by one name or more has a parent that goes on. -/
theorem EntersFrom.parent {base : List Step} {path : String} (enters : EntersFrom base (steps path))
    (further : steps path ≠ base) : EntersFrom base (steps ((parent? path).getD "")) := by
  obtain ⟨names, isSteps⟩ := entersFrom_iff.mp enters
  rcases List.eq_nil_or_concat' names with rfl | ⟨front, name, rfl⟩
  · rw [List.map_nil, List.append_nil] at isSteps
    exact absurd isSteps further
  · rw [List.map_append, ← List.append_assoc] at isSteps
    apply entersFrom_iff.mpr
    refine ⟨front, ?_⟩
    rcases steps_parent path with ⟨noSteps, -⟩ | ⟨last, isParent⟩
    · rw [noSteps] at isSteps
      exact absurd isSteps.symm (List.append_ne_nil_of_right_ne_nil _ (List.cons_ne_nil _ _))
    · rw [isParent] at isSteps
      exact (List.append_inj' isSteps rfl).1

end Path

/-! ## Stages -/

namespace Stage

def FilesEnter (stage : Stage) : Prop :=
  ∀ file ∈ stage.generation.files,
    Path.EntersFrom (Path.steps stage.outputDir) (Path.steps (stage.outputPath file))
      ∧ Path.steps (stage.outputPath file) ≠ Path.steps stage.outputDir

instance : DecidablePred FilesEnter := fun stage =>
  inferInstanceAs (Decidable (∀ file ∈ stage.generation.files, _))

def DirectoryEnters (stage : Stage) : Prop :=
  Path.EntersFrom (Path.steps ((Path.parent? stage.sourcePath).getD "")) (Path.steps stage.outputDir)

instance : DecidablePred DirectoryEnters := fun _ => inferInstanceAs (Decidable (Path.EntersFrom _ _))

end Stage

namespace Extraction

/-- Behind the first output directory nothing goes up or starts over. -/
def Inward (extraction : Extraction) : Prop :=
  (∀ stage ∈ extraction.stages, stage.FilesEnter)
    ∧ ∀ stage ∈ stagesOfAll extraction.nested, stage.DirectoryEnters

instance : DecidablePred Inward := fun _ => inferInstanceAs (Decidable (_ ∧ _))

theorem stages_eq (extraction : Extraction) :
    extraction.stages = extraction.stage :: stagesOfAll extraction.nested := by
  cases extraction with
  | node stage nested => rw [stages, Extraction.stage, Extraction.nested]

private theorem Inward.filesEnter {extraction : Extraction} (inward : extraction.Inward) :
    extraction.stage.FilesEnter := by
  apply inward.1
  rw [stages_eq]
  exact List.mem_cons_self

theorem Inward.child {stage : Stage} {nested : List Extraction} (inward : Inward (node stage nested))
    {child : Extraction} (within : ∀ inner ∈ child.stages, inner ∈ stagesOfAll nested) :
    Inward child ∧ child.stage.DirectoryEnters := by
  have belowRoot : ∀ inner ∈ child.stages, inner ∈ (node stage nested).stages := by
    intro inner isInner
    rw [stages]
    exact List.mem_cons_of_mem stage (within inner isInner)
  rw [stages_eq child] at within
  refine ⟨⟨fun inner isInner => inward.1 inner (belowRoot inner isInner), ?_⟩, ?_⟩
  · intro inner isInner
    exact inward.2 inner (within inner (List.mem_cons_of_mem _ isInner))
  · exact inward.2 child.stage (within child.stage List.mem_cons_self)

theorem stage_buildFrom (depth : Nat) (text sourcePath : String) (origin : Option String)
    (options : Options) :
    (buildFrom depth text sourcePath origin options).stage
      = Stage.build text sourcePath origin options := by
  cases depth with
  | zero => rw [buildFrom, stage]
  | succ depth => rw [buildFrom, stage]

/-- **All nested documents lie in directories that go on from the first output directory.** -/
theorem sourceDir_enters (depth : Nat) :
    ∀ (text sourcePath : String) (origin : Option String) (options : Options),
      Inward (buildFrom depth text sourcePath origin options) →
      ∀ stage ∈ stagesOfAll (buildFrom depth text sourcePath origin options).nested,
        Path.EntersFrom (Path.steps (Stage.build text sourcePath origin options).outputDir)
          (Path.steps ((Path.parent? stage.sourcePath).getD "")) := by
  induction depth with
  | zero =>
      intro text sourcePath origin options _ stage member
      rw [buildFrom, nested, stagesOfAll] at member
      cases member
  | succ depth inductionHypothesis =>
      intro text sourcePath origin options inward stage member
      rw [buildFrom] at inward member
      obtain ⟨file, isFile, inChild⟩ := mem_stagesOfAll_map.mp member
      obtain ⟨fileEnters, further⟩ := inward.filesEnter file (List.mem_of_mem_filter isFile)
      -- The document of the child is the file; its directory is what the file lies in.
      have toFile := fileEnters.parent further
      rw [stages_eq, stage_buildFrom] at inChild
      rcases List.mem_cons.mp inChild with rfl | deeper
      · exact toFile
      · obtain ⟨childInward, childEnters⟩ := inward.child fun inner isInner =>
          mem_stagesOfAll_map.mpr ⟨file, isFile, isInner⟩
        rw [stage_buildFrom] at childEnters
        exact (toFile.trans childEnters).trans
          (inductionHypothesis _ _ _ _ childInward stage deeper)

section Outputs

variable {depth : Nat} {text sourcePath : String} {options : Options}

/-- **All output directories go on from the first.** -/
theorem outputDir_enters (inward : Inward (buildWithin depth text sourcePath options))
    {stage : Stage} (member : stage ∈ (buildWithin depth text sourcePath options).stages) :
    Path.EntersFrom (Path.steps (Stage.build text sourcePath none options).outputDir)
      (Path.steps stage.outputDir) := by
  rw [stages_eq, buildWithin, stage_buildFrom] at member
  rcases List.mem_cons.mp member with rfl | below
  · exact Path.EntersFrom.refl _
  · exact (sourceDir_enters depth text sourcePath none options inward stage below).trans
      (inward.2 stage below)

/-- **All outputs go on from the first output directory.** -/
theorem outputs_enter
    (inward : Inward (buildWithin depth text sourcePath options)) {output : String × String}
    (member : output ∈ (buildWithin depth text sourcePath options).allOutputs) :
    Path.EntersFrom (Path.steps (Stage.build text sourcePath none options).outputDir)
      (Path.steps output.1) := by
  rw [allOutputs_eq_flatMap, List.mem_flatMap] at member
  obtain ⟨stage, inTree, own⟩ := member
  obtain ⟨file, isFile, rfl⟩ := List.mem_map.mp own
  exact (outputDir_enters inward inTree).trans (inward.1 stage inTree file isFile).1

end Outputs

end Extraction

end Tangle
