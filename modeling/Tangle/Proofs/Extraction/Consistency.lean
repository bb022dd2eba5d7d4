import Tangle.Proofs.Extraction.RoundTrip
import Tangle.Proofs.Path.Steps

/-!
Contract: what a tree of stages without errors says about its output paths.

Owns: that a stage without errors turns no file away, that plainly spelled outputs of one
stage are different, and that plainly spelled outputs never reach the document itself.

Does **not** own: what writing outputs does to a disk (`Tangle.Files.Outputs`).

## How far a check of one stage reaches

Paths are compared as text and within one stage. Nothing compares the outputs of
different stages, a file with a directory that another file needs, or an output with the
document: `outputs_collide_without_error` has all three at once.
-/

set_option autoImplicit false

namespace Tangle

open Tangle.Document
open Tangle.Generate

/-! ## Files turned away -/

namespace Generate

private theorem Selection.add_diagnostics (selection : Selection) (candidate : Candidate) :
    selection.diagnostics <+: (selection.add candidate).diagnostics := by
  unfold Selection.add
  split
  · exact List.prefix_append _ _
  · exact List.prefix_rfl

private theorem Selection.foldl_diagnostics (candidates : List Candidate) (selection : Selection) :
    selection.diagnostics <+: (candidates.foldl Selection.add selection).diagnostics := by
  induction candidates generalizing selection with
  | nil => exact List.prefix_rfl
  | cons first rest inductionHypothesis =>
      exact (selection.add_diagnostics first).trans (inductionHypothesis (selection.add first))

/-- Every report on a file turned away is an error. -/
theorem Selection.foldl_errors {candidates : List Candidate} {selection : Selection}
    (errors : ∀ report ∈ selection.diagnostics, report.isError = true) :
    ∀ report ∈ (candidates.foldl Selection.add selection).diagnostics, report.isError = true := by
  induction candidates generalizing selection with
  | nil => exact errors
  | cons first rest inductionHypothesis =>
      apply inductionHypothesis
      intro report member
      unfold Selection.add at member
      split at member
      · rcases List.mem_append.mp member with earlier | own
        · exact errors report earlier
        · rw [List.mem_singleton.mp own]
          rfl
      · exact errors report member

/-- Without reports every candidate is kept. -/
theorem Selection.foldl_files {candidates : List Candidate} {selection : Selection}
    (silent : (candidates.foldl Selection.add selection).diagnostics = []) :
    (candidates.foldl Selection.add selection).files
      = selection.files ++ candidates.map Candidate.file := by
  induction candidates generalizing selection with
  | nil => exact (List.append_nil _).symm
  | cons first rest inductionHypothesis =>
      have silentStep : (selection.add first).diagnostics = [] :=
        List.prefix_nil.mp (silent ▸ Selection.foldl_diagnostics rest (selection.add first))
      have kept : (selection.add first).files = selection.files ++ [first.file] := by
        unfold Selection.add at silentStep ⊢
        split
        · next taken => simp [taken] at silentStep
        · rfl
      rw [List.foldl_cons, inductionHypothesis silent, kept, List.append_assoc]
      rfl

/-- **Without errors nothing is turned away.** -/
theorem generate_files_of_clean {document : Document} {options : Options}
    (clean : ∀ report ∈ (generate document options).diagnostics, report.isError = false) :
    (generate document options).files = (candidates document).map Candidate.file := by
  have silent : (select (candidates document)).diagnostics = [] := by
    rw [List.eq_nil_iff_forall_not_mem]
    intro report member
    have isError := Selection.foldl_errors (fun _ none => by cases none) report member
    rw [clean report (List.mem_append_right _ member)] at isError
    cases isError
  exact Selection.foldl_files silent

end Generate

/-! ## Outputs of one stage -/

namespace Stage

private theorem same_outputPath {stage : Stage} {first second : GeneratedFile}
    (plainFirst : Path.Plain first.path) (plainSecond : Path.Plain second.path)
    (same : Path.same (stage.outputPath first) (stage.outputPath second) = true) :
    first.path = second.path := by
  rw [Path.same, beq_iff_eq, outputPath, outputPath, Path.steps_join _ plainFirst,
    Path.steps_join _ plainSecond, List.append_cancel_left_eq] at same
  exact plainFirst.steps_injective plainSecond same

/-- What a stage without errors says about its files. -/
structure Orderly (stage : Stage) : Prop where
  /-- Every file that a group or a block asks for is there. -/
  complete : stage.generation.files = (candidates stage.document).map Candidate.file
  /-- No path is there twice. -/
  distinct : (stage.generation.files.map GeneratedFile.path).Nodup
  /-- Plainly spelled files go to different places. -/
  apart : stage.generation.files.Pairwise fun first second =>
    Path.Plain first.path → Path.Plain second.path →
      Path.same (stage.outputPath first) (stage.outputPath second) = false

private theorem orderly_of_clean {stage : Stage} (faithful : stage.Faithful)
    (clean : stage.hasErrors = false) : stage.Orderly := by
  obtain ⟨-, options, isGeneration⟩ := faithful
  have silent : ∀ report ∈ (generate stage.document options).diagnostics, report.isError = false := by
    intro report member
    rw [hasErrors, List.any_eq_false] at clean
    rw [← isGeneration] at member
    simpa using clean report (List.mem_append_right _ member)
  have distinct := generate_paths_nodup stage.document options
  rw [← isGeneration] at distinct
  refine ⟨?_, distinct, ?_⟩
  · rw [isGeneration]
    exact generate_files_of_clean silent
  · rw [List.nodup_iff_pairwise_ne, List.pairwise_map] at distinct
    refine distinct.imp ?_
    intro first second differ plainFirst plainSecond
    rw [← Bool.not_eq_true]
    exact fun same => differ (same_outputPath plainFirst plainSecond same)

def Plain (stage : Stage) : Prop :=
  Path.Plain stage.generation.outDir ∧ ∀ file ∈ stage.generation.files, Path.Plain file.path

instance : DecidablePred Plain := fun _ => inferInstanceAs (Decidable (_ ∧ _))

def level (sourcePath : String) : Nat :=
  (Path.steps ((Path.parent? sourcePath).getD "")).length

/-- Outputs lie two steps or more below the directory of their document. -/
theorem level_lt_outputPath {stage : Stage} (plain : stage.Plain) {file : GeneratedFile}
    (member : file ∈ stage.generation.files) :
    level stage.sourcePath + 2 ≤ (Path.steps (stage.outputPath file)).length := by
  have plainFile := plain.2 file member
  have atDir := plain.1.steps_pos
  have atFile := plainFile.steps_pos
  rw [outputPath, outputDir, Path.steps_join _ plainFile, Path.steps_join _ plain.1,
    List.length_append, List.length_append, level]
  omega

end Stage

namespace Extraction

/-! ## Trees -/

mutual

private theorem faithful_of_mem_stages {stage : Stage} :
    ∀ extraction, Faithful extraction → stage ∈ stages extraction → stage.Faithful
  | node own nested, faithful, member => by
      rw [stages, List.mem_cons] at member
      rcases member with rfl | below
      · exact faithful.1
      · exact faithful_of_mem_stagesOfAll nested faithful.2 below

private theorem faithful_of_mem_stagesOfAll {stage : Stage} :
    ∀ nested, FaithfulAll nested → stage ∈ stagesOfAll nested → stage.Faithful
  | [], _, member => by cases member
  | child :: rest, faithful, member => by
      rw [stagesOfAll, List.mem_append] at member
      rcases member with inChild | later
      · exact faithful_of_mem_stages child faithful.1 inChild
      · exact faithful_of_mem_stagesOfAll rest faithful.2 later

end

theorem mem_stagesOfAll_map {α : Type} {tree : α → Extraction} {items : List α} {stage : Stage} :
    stage ∈ stagesOfAll (items.map tree) ↔ ∃ item ∈ items, stage ∈ (tree item).stages := by
  induction items with
  | nil => simp [stagesOfAll]
  | cons first rest inductionHypothesis => simp [stagesOfAll, inductionHypothesis]

/-- **Plainly spelled stages go down.** No document of the tree lies above the first. -/
theorem level_le_of_plain (depth : Nat) :
    ∀ (text sourcePath : String) (origin : Option String) (options : Options),
      (∀ stage ∈ (buildFrom depth text sourcePath origin options).stages, stage.Plain) →
      ∀ stage ∈ (buildFrom depth text sourcePath origin options).stages,
        Stage.level sourcePath ≤ Stage.level stage.sourcePath := by
  induction depth with
  | zero =>
      intro text sourcePath origin options _ stage member
      rw [buildFrom, stages, stagesOfAll, List.mem_singleton] at member
      rw [member]
      exact Nat.le_refl _
  | succ depth inductionHypothesis =>
      intro text sourcePath origin options plain stage member
      rw [buildFrom, stages] at plain member
      rcases List.mem_cons.mp member with rfl | below
      · exact Nat.le_refl _
      · obtain ⟨file, isFile, inChild⟩ := mem_stagesOfAll_map.mp below
        have kept : file ∈ (Stage.build text sourcePath origin options).generation.files :=
          List.mem_of_mem_filter isFile
        have plainHere := plain _ List.mem_cons_self
        have output := Stage.level_lt_outputPath plainHere kept
        have parent := Path.steps_le_parent
          ((Stage.build text sourcePath origin options).outputPath file)
        have plainBelow := fun inner isInner =>
          plain inner (List.mem_cons_of_mem _ (mem_stagesOfAll_map.mpr ⟨file, isFile, isInner⟩))
        have deeper := inductionHypothesis _ _ _ _ plainBelow stage inChild
        have isHere : (Stage.build text sourcePath origin options).sourcePath = sourcePath := rfl
        rw [isHere] at output
        unfold Stage.level at *
        omega

/-- Outputs of plainly spelled stages are no spelling of the document. -/
theorem outputs_spare_source {depth : Nat} {text sourcePath : String} {options : Options}
    (plain : ∀ stage ∈ (buildWithin depth text sourcePath options).stages, stage.Plain)
    {output : String × String}
    (member : output ∈ (buildWithin depth text sourcePath options).allOutputs) :
    Path.same output.1 sourcePath = false := by
  rw [allOutputs_eq_flatMap, List.mem_flatMap] at member
  obtain ⟨stage, inTree, own⟩ := member
  obtain ⟨file, kept, rfl⟩ := List.mem_map.mp own
  have below := level_le_of_plain depth text sourcePath none options plain stage inTree
  have beyond := Stage.level_lt_outputPath (plain stage inTree) kept
  have source := Path.steps_le_parent sourcePath
  rw [Path.same, beq_eq_false_iff_ne]
  intro same
  have sameLength := congrArg List.length same
  unfold Stage.level at below beyond
  dsimp only at sameLength
  omega

/-- **What an extraction without errors promises.** Every stage has all the files it is
asked for, under different paths, and plainly spelled ones go to different places; if
every stage is plainly spelled, the document itself is no output. -/
theorem error_free_outputs (depth : Nat) (text sourcePath : String) (options : Options)
    (clean : (buildWithin depth text sourcePath options).hasErrors = false) :
    (∀ stage ∈ (buildWithin depth text sourcePath options).stages, stage.Orderly)
      ∧ ((∀ stage ∈ (buildWithin depth text sourcePath options).stages, stage.Plain) →
          ∀ output ∈ (buildWithin depth text sourcePath options).allOutputs,
            Path.same output.1 sourcePath = false) := by
  refine ⟨?_, fun plain output member => outputs_spare_source plain member⟩
  intro stage inTree
  have faithful := faithful_of_mem_stages _ (buildFrom_faithful depth text sourcePath none options) inTree
  rw [hasErrors, List.any_eq_false] at clean
  exact Stage.orderly_of_clean faithful (by simpa using clean stage inTree)

theorem error_free_outputs_guide :
    (buildWithin 1 nestedGuide "g.md" {}).hasErrors = false
      ∧ (∀ stage ∈ (buildWithin 1 nestedGuide "g.md" {}).stages, stage.Orderly)
      ∧ ∀ output ∈ (buildWithin 1 nestedGuide "g.md" {}).allOutputs,
          Path.same output.1 "g.md" = false := by
  have clean : (buildWithin 1 nestedGuide "g.md" {}).hasErrors = false := by decide +kernel
  have plain : ∀ stage ∈ (buildWithin 1 nestedGuide "g.md" {}).stages, stage.Plain := by
    decide +kernel
  obtain ⟨orderly, spared⟩ := error_free_outputs 1 nestedGuide "g.md" {} clean
  exact ⟨clean, orderly, spared plain⟩

/-! ## What is not checked -/

def collidingChild : String :=
  "<!-- @codeblock-config\noutDir: ''\n-->\n<!-- @codeblock a -->\n```\nz\n```"

/-- A file, a file below it, and a new version of the document that has the first file
again. -/
def collidingGuide : String :=
  "<!-- @codeblock a -->\n```\nx\n```\n<!-- @codeblock a/b -->\n```\ny\n```\n"
    ++ "<!-- @codeblock doc.md -->\n````\n" ++ collidingChild ++ "\n````\n"

def collidingExtraction : Extraction :=
  buildWithin 1 collidingGuide "doc.md" ⟨some ""⟩

/-- Without any error, two outputs have the same path, one output is above another, and
one is the document itself. -/
theorem outputs_collide_without_error :
    collidingExtraction.hasErrors = false
      ∧ ¬ DistinctOutputs collidingExtraction.allOutputs
      ∧ (∃ upper ∈ collidingExtraction.allOutputs, ∃ lower ∈ collidingExtraction.allOutputs,
          Path.steps upper.1 <+: Path.steps lower.1 ∧ Path.steps upper.1 ≠ Path.steps lower.1)
      ∧ ∃ output ∈ collidingExtraction.allOutputs, Path.same output.1 "doc.md" = true := by
  have run : (collidingExtraction.hasErrors, collidingExtraction.allOutputs)
      = (false, [("a", "x"), ("a/b", "y"), ("doc.md", collidingChild), ("a", "z")]) := by
    decide +kernel
  obtain ⟨clean, isOutputs⟩ := Prod.mk.inj run
  rw [isOutputs]
  exact ⟨clean, by decide, by decide, by decide⟩

end Extraction

end Tangle
