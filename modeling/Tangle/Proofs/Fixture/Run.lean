import Tangle.Proofs.Fixture.Selection
import Tangle.Proofs.Fixture.Verdict

/-!
Contract: a run of the fixtures below a directory.

Owns: what running a list of files or categories answers, the last line of a report, and
`run_skips_nothing`.

Does **not** own: which files are selected (`Tangle.Proofs.Fixture.Selection`), or when a fixture
passes (`Tangle.Proofs.Fixture.Verdict`).

A run only reads. So each file is judged on the tree as it was in the beginning, and the results of
a run are the results of its files one by one.
-/

set_option autoImplicit false

namespace Tangle.Fixture

open Tangle.Files (Content FileAccess FoundPath Location Tree run_bind_eq)

/-! ## Running files -/

def resultOf (tree : Tree) (file : FoundPath) : Result :=
  ((runFile file : StateM Tree Result).run tree).1

section Running

variable {tree : Tree}

private theorem run_runFile (tree : Tree) (file : FoundPath) :
    (runFile file : StateM Tree Result).run tree = (resultOf tree file, tree) := by
  have isRead := Files.run_readText tree file.path
  rw [resultOf, runFile, run_bind_eq isRead]
  cases tree.read file.path <;> rfl

/-- **A file that the path leads to is judged by its content.** -/
theorem resultOf_file {file : FoundPath} {location : Location} {content : Content}
    (located : tree.locate file.path = .ok location)
    (isFile : tree.node? location = some (.file content)) :
    resultOf tree file = verdictOn file.shown content := by
  rw [resultOf, runFile, run_bind_eq (Files.run_readText tree file.path)]
  cases content with
  | text text =>
      have isRead : tree.read file.path = .ok text :=
        Tree.read_eq_ok_iff.mpr ⟨location, located, isFile⟩
      rw [isRead]
      rfl
  | binary bytes =>
      have isRead : tree.read file.path = .error .notText := by
        simp only [Tree.read, located, isFile, bind, Except.bind]
      rw [isRead]
      rfl

private theorem run_runFiles (tree : Tree) (files : List FoundPath) :
    (runFiles files : StateM Tree (List Result)).run tree = (files.map (resultOf tree), tree) := by
  induction files with
  | nil => rfl
  | cons file rest inductionHypothesis =>
      rw [runFiles, run_bind_eq (run_runFile tree file), run_bind_eq inductionHypothesis]
      rfl

def categoryResults (tree : Tree) (category : Category) : Category × List Result :=
  (category, category.files.map (resultOf tree))

private theorem run_runCategories (tree : Tree) (categories : List Category) :
    (runCategories categories : StateM Tree _).run tree
      = (categories.map (categoryResults tree), tree) := by
  induction categories with
  | nil => rfl
  | cons category rest inductionHypothesis =>
      rw [runCategories, run_bind_eq (run_runFiles tree category.files),
        run_bind_eq inductionHypothesis]
      rfl

private theorem flatMap_categoryResults (tree : Tree) (categories : List Category) :
    (categories.map (categoryResults tree)).flatMap Prod.snd
      = (filesOf categories).map (resultOf tree) := by
  rw [List.flatMap_map, filesOf, List.map_flatMap]
  rfl

end Running

/-! ## The end of a report -/

/-- The line with the number of fixtures that passed and of those that failed. -/
def tallyLine (style : Style) (passed failed : Nat) : String :=
  if failed = 0 then
    "test result: " ++ style.paint green "ok" ++ ". " ++ Text.ofNat passed ++ " passed, 0 failed"
  else
    "test result: " ++ style.paint red "FAILED" ++ ". " ++ Text.ofNat passed ++ " passed, "
      ++ Text.ofNat failed ++ " failed (of " ++ Text.ofNat (passed + failed) ++ ")"

/-- The outcome shows all of the results, behind warnings perhaps, and ends with the number of those
that passed and the number of the others. -/
structure Reports (style : Style) (results : List Result) (outcome : Outcome) : Prop where
  shown : ∃ warnings groups, groups.flatMap Prod.snd = results
    ∧ outcome.lines = warnings ++ (runOutcome style true groups).lines
  counted : ∃ passed failed, outcome.lines.getLast? = some (tallyLine style passed failed)
    ∧ passed = results.countP Result.passed ∧ passed + failed = results.length

section Reports

variable (style : Style) (hasTitles : Bool)

private theorem getLast?_summaryLines (results : List Result) :
    (summaryLines style results).getLast?
      = some (tallyLine style (results.countP Result.passed) (results.countP (!·.passed))) := by
  rw [summaryLines, tallyLine, List.countP_eq_length_filter, List.countP_eq_length_filter]
  by_cases none : results.filter (fun result => !result.passed) = []
  · rw [none, List.isEmpty_nil, if_pos rfl, if_pos rfl, if_pos List.length_nil, List.getLast?_concat]
  · have some : (results.filter fun result => !result.passed).isEmpty = false := by simpa using none
    rw [some, if_neg Bool.false_ne_true, if_neg Bool.false_ne_true,
      if_neg (by simpa using none), List.getLast?_concat]

private theorem exitCode_runOutcome (groups : List (Category × List Result)) :
    (runOutcome style hasTitles groups).exitCode = 0
      ↔ ∀ result ∈ groups.flatMap Prod.snd, result.passed = true := by
  rw [runOutcome]
  dsimp only
  rw [← List.all_eq_true]
  cases (groups.flatMap Prod.snd).all Result.passed with
  | true => exact iff_of_true rfl rfl
  | false => exact iff_of_false Nat.one_ne_zero Bool.false_ne_true

private theorem reports_of_lines {style : Style} {groups : List (Category × List Result)} {outcome : Outcome}
    {warnings : List String} (isLines : outcome.lines = warnings ++ (runOutcome style true groups).lines) :
    Reports style (groups.flatMap Prod.snd) outcome := by
  refine ⟨⟨warnings, groups, rfl, isLines⟩, _, _, ?_, rfl, List.length_eq_countP_add_countP _ |>.symm⟩
  rw [isLines, runOutcome, ← List.append_assoc, List.getLast?_append]
  dsimp only
  rw [getLast?_summaryLines, Option.some_or]
  simp

end Reports

/-! ## Whole runs -/

section Runs

variable {tree : Tree} {root : String} {location : Location}

private theorem run_discover (tree : Tree) (root : String) :
    (discover root : StateM Tree _).run tree = (categorize root (tree.filesBelow root), tree) := by
  rw [discover, run_bind_eq (Tree.run_takeFiles (addFile root) [] root)]
  rfl

/-- A run below a directory fails without a chosen category; else it reports on the chosen ones,
behind warnings about requests for nothing. -/
theorem run_directory (isDirectory : tree.kindOf? root = some .directory) (style : Style)
    (requested : List String) :
    let chosen := (select (categorize root (tree.filesBelow root)) requested).categories
    let report := runOutcome style true (chosen.map (categoryResults tree))
    ∃ outcome, (run style root requested : StateM Tree Outcome).run tree = (outcome, tree)
      ∧ (chosen = [] → outcome.exitCode = 1)
      ∧ (chosen ≠ [] → outcome.exitCode = report.exitCode
          ∧ ∃ warnings, outcome.lines = warnings ++ report.lines) := by
  intro chosen report
  have noFile : (Files.isFile root : StateM Tree Bool).run tree = (false, tree) := by
    show (tree.kindOf? root == some .file, tree) = _
    rw [isDirectory]
    rfl
  have titled : (Files.isDirectory root : StateM Tree Bool).run tree = (true, tree) := by
    rw [Tree.run_isDirectory, isDirectory]
    rfl
  rw [run, run_bind_eq noFile, if_neg Bool.false_ne_true, run_bind_eq (run_discover tree root)]
  by_cases noCategories : categorize root (tree.filesBelow root) = []
  · have none : chosen = [] := by
      apply List.eq_nil_iff_forall_not_mem.mpr
      intro category isIn
      have isCategory := ((mem_select_iff (categorize_spec root _).1 requested category).mp isIn).1
      rw [noCategories] at isCategory
      cases isCategory
    rw [noCategories]
    exact ⟨_, rfl, fun _ => rfl, fun some => absurd none some⟩
  · rw [if_neg (by simpa using noCategories)]
    by_cases none : chosen = []
    · rw [if_pos (by simpa using none)]
      exact ⟨_, rfl, fun _ => rfl, fun some => absurd none some⟩
    · rw [if_neg (by simpa using none), run_bind_eq titled, run_bind_eq (run_runCategories tree chosen)]
      exact ⟨_, rfl, fun isNone => absurd isNone none, fun _ => ⟨rfl, _, rfl⟩⟩

/-- **A run skips nothing.** Of the files below a directory exactly the selected ones are run, each
once, and each passes exactly if its own content does. The exit code is zero exactly if there is one
and all of them pass, and the report shows and counts every result. -/
theorem run_skips_nothing (sound : tree.Sound) (shows : ShowsNames tree)
    (located : tree.locate root = .ok location) (isDirectory : tree.node? location = some .directory)
    (style : Style) (requested : List String) :
    ∃ (chosen : List (List String)) (results : List Result) (outcome : Outcome),
      (run style root requested : StateM Tree Outcome).run tree = (outcome, tree)
        ∧ chosen.Nodup ∧ (∀ names, names ∈ chosen ↔ Selected tree location requested names)
        ∧ List.Forall₂ (fun names result => ∃ content,
            tree.node? (location ++ names) = some (.file content)
              ∧ result = verdictOn (tree.along (.ofText root) names).shown content
              ∧ (result.passed = true ↔ Passes content)) chosen results
        ∧ (outcome.exitCode = 0 ↔ chosen ≠ [] ∧ ∀ result ∈ results, result.passed = true)
        ∧ (chosen ≠ [] → Reports style results outcome) := by
  obtain ⟨chosen, distinct, isSelected, isChosen⟩ := chosen_spec sound shows located requested
  have isKind : tree.kindOf? root = some .directory := by
    rw [Tree.kindOf?, located]
    dsimp only
    rw [isDirectory]
  obtain ⟨outcome, runs, fails, reports⟩ := run_directory isKind style requested
  have isResults := flatMap_categoryResults tree
    (select (categorize root (tree.filesBelow root)) requested).categories
  have noneIff : (select (categorize root (tree.filesBelow root)) requested).categories = []
      ↔ chosen = [] := by
    rw [← chosenFiles_eq_nil_iff, isChosen, List.map_eq_nil_iff]
  rw [ne_eq, noneIff] at reports
  rw [noneIff] at fails
  refine ⟨chosen, (chosenFiles tree root requested).map (resultOf tree), outcome, runs, distinct,
    isSelected, ?_, ?_, fun some => ?_⟩
  · rw [isChosen, List.map_map, List.forall₂_map_right_iff, List.forall₂_same]
    intro names isIn
    obtain ⟨content, isFile⟩ := ((isSelected names).mp isIn).isFile
    have leads : tree.locate (tree.along (.ofText root) names).path = .ok (location ++ names) := by
      rw [Tree.path_along]
      exact sound.locate_foldl_join located (by rw [isFile]; rfl)
    have isVerdict := resultOf_file leads isFile
    refine ⟨content, isFile, isVerdict, ?_⟩
    rw [Function.comp_apply, isVerdict, passed_verdictOn_iff]
  · by_cases none : chosen = []
    · rw [fails none]
      exact iff_of_false Nat.one_ne_zero fun some => some.1 none
    · rw [(reports none).1, exitCode_runOutcome, isResults]
      exact (and_iff_right none).symm
  · obtain ⟨-, warnings, isLines⟩ := reports some
    have isReport := reports_of_lines isLines
    rwa [isResults] at isReport

/-- A fixture with a block that generates `one`, and with the content that it expects. -/
def expecting (content : String) : Content :=
  .text ("---\n[[expect_file]]\npath = \"a.ts\"\ncontent = \"" ++ content
    ++ "\"\n---\n<!-- @codeblock a.ts -->\n```\none\n```\n")

private theorem passes_expecting_own : Passes (expecting "one") :=
  (passed_verdictOn_iff "x.test.md" _).mp (by decide +kernel)

/-- Fixtures in three categories, of which one is below another and one only starts like it. -/
def suiteTree : Tree where
  entries :=
    [(["tests"], .directory), (["tests", "a"], .directory), (["tests", "a", "b"], .directory),
      (["tests", "ab"], .directory),
      (["tests", "a", "x.test.md"], .file (expecting "one")),
      (["tests", "a", "b", "y.test.md"], .file (expecting "two")),
      (["tests", "ab", "z.test.md"], .file (expecting "one"))]

/-- The outcome of a run in which one fixture of two generates something else. -/
def suiteOutcome : Outcome where
  exitCode := 1
  lines :=
    ["", "a", "  PASS  x.test", "", "a/b", "  FAIL  y.test", "", "failures:", "",
      "  --- ./tests/a/b/y.test.md ---", "  content mismatch in a.ts", "    expected: \"two\"",
      "    actual:   \"one\"", "", "test result: FAILED. 1 passed, 1 failed (of 2)"]

/-- Two requests that overlap choose two fixtures, of which one fails. -/
theorem run_skips_nothing_overlapping :
    suiteTree.Sound ∧ ShowsNames suiteTree ∧ suiteTree.locate "./tests/" = .ok ["tests"]
      ∧ Passes (expecting "one") ∧ ¬ Passes (expecting "two")
      ∧ (run ⟨false, none⟩ "./tests/" ["/a", "a/b/"] : StateM Tree Outcome).run suiteTree
        = (suiteOutcome, suiteTree)
      ∧ ∃ (chosen : List (List String)) (results : List Result), chosen.Nodup
        ∧ chosen.length = results.length ∧ ["a", "x.test.md"] ∈ chosen
        ∧ ["a", "b", "y.test.md"] ∈ chosen ∧ ["ab", "z.test.md"] ∉ chosen
        ∧ ∃ result ∈ results, result.passed = false := by
  have sound : suiteTree.Sound := by decide +kernel
  have shows : ShowsNames suiteTree := by decide +kernel
  have located : suiteTree.locate "./tests/" = .ok ["tests"] := by decide +kernel
  have fails : ¬ Passes (expecting "two") :=
    mt (passed_verdictOn_iff "y.test.md" _).mpr (by decide +kernel)
  obtain ⟨chosen, results, outcome, runs, distinct, isSelected, judged, exits, -⟩ :=
    run_skips_nothing sound shows located rfl ⟨false, none⟩ ["/a", "a/b/"]
  have isX : ["a", "x.test.md"] ∈ chosen :=
    (isSelected _).mpr ⟨⟨_, rfl⟩, ⟨_, rfl, rfl, by decide⟩, by decide +kernel⟩
  have isY : ["a", "b", "y.test.md"] ∈ chosen :=
    (isSelected _).mpr ⟨⟨_, rfl⟩, ⟨_, rfl, rfl, by decide⟩, by decide +kernel⟩
  have notZ : ["ab", "z.test.md"] ∉ chosen := by
    have unwanted : ¬ Wanted ["/a", "a/b/"] (categoryName suiteTree ["ab"]) := by decide +kernel
    exact fun isIn => unwanted ((isSelected _).mp isIn).wanted
  have ran : (run ⟨false, none⟩ "./tests/" ["/a", "a/b/"] : StateM Tree Outcome).run suiteTree
      = (suiteOutcome, suiteTree) := by
    show @Eq (Outcome × Tree) _ _
    decide +kernel
  have oneFails : ¬ ∀ result ∈ results, result.passed = true := by
    rw [ran] at runs
    rw [← (Prod.mk.inj runs).1] at exits
    exact fun all => Nat.one_ne_zero (exits.mpr ⟨List.ne_nil_of_mem isX, all⟩)
  push Not at oneFails
  obtain ⟨result, isResult, failed⟩ := oneFails
  exact ⟨sound, shows, located, passes_expecting_own, fails, ran, chosen, results, distinct, judged.length_eq, isX,
    isY, notZ, result, isResult, Bool.eq_false_iff.mpr failed⟩

example : (run ⟨false, none⟩ "./tests/" ["ab"] : StateM Tree Outcome).run suiteTree
    = (⟨0, ["", "ab", "  PASS  z.test", "", "test result: ok. 1 passed, 0 failed"]⟩, suiteTree) := by
  show @Eq (Outcome × Tree) _ _
  decide +kernel

/-! ## What is passed over -/

/-- A fixture in a directory whose name has a backslash, and one whose own name is no text. -/
def oddTree : Tree where
  entries :=
    [(["tests"], .directory), (["tests", "a\\b"], .directory),
      (["tests", "a\\b", "x.test.md"], .file (expecting "one")),
      (["others"], .directory), (["others", "\ue000.test.md"], .file (expecting "one"))]
  standIns := [("\ue000.test.md", "\ufffd.test.md")]

/-- Both fixtures would pass, but the first is not in the category of its directory's name, and the
second is in none. -/
theorem odd_names_passed_over :
    oddTree.Sound ∧ ShowsNames oddTree ∧ Passes (expecting "one")
      ∧ Wanted ["a\\b"] (Text.join "/" ["a\\b"])
      ∧ (run ⟨false, none⟩ "tests" ["a\\b"] : StateM Tree Outcome).run oddTree
        = (⟨1, ["warning: category 'a\\b' not found (available: a/b)",
            "no matching categories found"]⟩, oddTree)
      ∧ (run ⟨false, none⟩ "others" [] : StateM Tree Outcome).run oddTree
        = (⟨1, ["no .test.md files found in others"]⟩, oddTree) := by
  have warned : (run ⟨false, none⟩ "tests" ["a\\b"] : StateM Tree Outcome).run oddTree
      = (⟨1, ["warning: category 'a\\b' not found (available: a/b)",
          "no matching categories found"]⟩, oddTree) := by
    show @Eq (Outcome × Tree) _ _
    decide +kernel
  have noneFound : (run ⟨false, none⟩ "others" [] : StateM Tree Outcome).run oddTree
      = (⟨1, ["no .test.md files found in others"]⟩, oddTree) := by
    show @Eq (Outcome × Tree) _ _
    decide +kernel
  exact ⟨by decide +kernel, by decide +kernel, passes_expecting_own, by decide +kernel, warned,
    noneFound⟩

end Runs

end Tangle.Fixture
