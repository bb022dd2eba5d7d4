import Tangle.Proofs.Extraction.Inward
import Tangle.Proofs.Files.Below
import Tangle.Proofs.Files.Ownership
import Tangle.Proofs.Files.Writing
import Tangle.Proofs.Path.Order

/-!
Contract: which files a check reports as stale.

Owns: what a check answers, the files that are stray, and that an extraction whose outputs only
go further in has exactly its stray files reported, once each.

Does **not** own: the differences of outputs themselves (`Tangle.Proofs.Files.Writing`).

## Spelling and place

Found files and outputs are compared by the steps of their paths. Where all of them go on from
one directory by names alone, steps and places tell each other apart. Where one goes up on the
way, a file has more than one spelling, and an output can be reported under another one than its
own (see "Where reports go wrong").
-/

set_option autoImplicit false

namespace Tangle.Files

open Tangle.Files.Tree
open Tangle.Extraction (buildWithin)
open Tangle.Generate (Options)
open Tangle.Path (Step)

/-! ## What a check answers -/

section Answers

variable {tree after : Tree} {outputs : List (String × String)}

private theorem run_map_ok {action : StateM Tree (Except FileError (List Mismatch))}
    {extend : List Mismatch → List Mismatch} {differences : List Mismatch}
    (ran : (action >>= fun answer => pure (answer.map extend) : StateM Tree _).run tree
      = (.ok differences, after)) :
    ∃ later, action.run tree = (.ok later, after) ∧ differences = extend later := by
  cases isRun : action.run tree with
  | mk answer middle =>
      rw [run_bind_eq isRun] at ran
      obtain ⟨isAnswer, rfl⟩ := Prod.mk.inj ran
      cases answer with
      | error failure => cases isAnswer
      | ok later => exact ⟨later, rfl, (Except.ok.inj isAnswer).symm⟩

/-- One output that could be read, or is missing, adds no more than its own difference. -/
theorem compareOutputs_cons {path content : String} {rest : List (String × String)}
    {differences : List Mismatch}
    (compared : (compareOutputs ((path, content) :: rest) : StateM Tree _).run tree
      = (.ok differences, after)) :
    (∀ failure, tree.read path = .error failure → failure = .notFound)
      ∧ ∃ own later, (compareOutputs rest : StateM Tree _).run tree = (.ok later, after)
          ∧ differences = own ++ later ∧ ∀ stale, Mismatch.stale stale ∉ own := by
  rw [compareOutputs, run_bind_eq (run_readText tree path)] at compared
  cases reading : tree.read path with
  | ok existing =>
      simp only [reading] at compared
      obtain ⟨later, comparedRest, isDifferences⟩ := run_map_ok compared
      refine ⟨(fun _ fails => by cases fails), _, later, comparedRest, isDifferences, ?_⟩
      intro stale member
      split at member
      · cases member
      · cases List.mem_singleton.mp member
  | error failure =>
      by_cases isMissing : failure = .notFound
      · subst isMissing
        simp only [reading] at compared
        obtain ⟨later, comparedRest, isDifferences⟩ := run_map_ok compared
        refine ⟨fun _ fails => (Except.error.inj fails).symm, [.missing path], later, comparedRest,
          isDifferences, ?_⟩
        intro stale member
        cases List.mem_singleton.mp member
      · have fails : (pure (.error failure) : StateM Tree (Except FileError (List Mismatch))).run tree
            = (.ok differences, after) := by
          simpa only [reading, isMissing] using compared
        cases fails

/-- A comparison that ends well has read every output, or found it missing, and says nothing of
stale files. -/
theorem compareOutputs_ok {differences : List Mismatch}
    (compared : (compareOutputs outputs : StateM Tree _).run tree = (.ok differences, after)) :
    after = tree
      ∧ (∀ output ∈ outputs, ∀ failure, tree.read output.1 = .error failure → failure = .notFound)
      ∧ ∀ stale, Mismatch.stale stale ∉ differences := by
  induction outputs generalizing differences with
  | nil =>
      obtain ⟨isNone, rfl⟩ := Prod.mk.inj compared
      obtain rfl := Except.ok.inj isNone
      exact ⟨rfl, fun _ none => absurd none List.not_mem_nil, fun _ => List.not_mem_nil⟩
  | cons output rest inductionHypothesis =>
      obtain ⟨path, content⟩ := output
      obtain ⟨readable, own, later, comparedRest, rfl, notOwn⟩ := compareOutputs_cons compared
      obtain ⟨same, readableRest, notLater⟩ := inductionHypothesis comparedRest
      refine ⟨same, List.forall_mem_cons.mpr ⟨readable, readableRest⟩, ?_⟩
      intro stale member
      exact (List.mem_append.mp member).elim (notOwn stale) (notLater stale)

/-- **A check that ends well** leaves the tree alone and lists stale files behind the rest. -/
theorem checkOutputs_ok {extraction : Extraction} {found : List Mismatch}
    (checked : (checkOutputs extraction : StateM Tree _).run tree = (.ok found, after)) :
    after = tree
      ∧ (∀ output ∈ extraction.allOutputs, ∀ failure, tree.read output.1 = .error failure →
          failure = .notFound)
      ∧ ∃ differences, (∀ stale, Mismatch.stale stale ∉ differences)
          ∧ found = differences ++ (staleIn tree extraction).map Mismatch.stale := by
  cases compared : (compareOutputs extraction.allOutputs :
      StateM Tree (Except FileError (List Mismatch))).run tree with
  | mk answer middle =>
      cases answer with
      | error failure =>
          rw [checkOutputs, run_bind_eq compared] at checked
          cases checked
      | ok differences =>
          obtain ⟨rfl, readable, notStale⟩ := compareOutputs_ok compared
          rw [checkOutputs_run compared] at checked
          obtain ⟨isFound, rfl⟩ := Prod.mk.inj checked
          exact ⟨rfl, readable, differences, notStale, (Except.ok.inj isFound).symm⟩

end Answers

/-! ## Places from one base -/

section Bases

variable {home : Location} {base : List Step}

private theorem landing_of_enters {path : String} {names : List String}
    (isSteps : Path.steps path = base ++ names.map Step.name) :
    landing home path = base.foldl follow home ++ names := by
  rw [landing, isSteps, List.foldl_append, foldl_follow_names]

/-- **Paths that go on from one base by names** have the same steps if they have the same
place. -/
theorem steps_eq_of_landing {path other : String} (enters : Path.EntersFrom base (Path.steps path))
    (otherEnters : Path.EntersFrom base (Path.steps other))
    (same : landing home path = landing home other) : Path.steps path = Path.steps other := by
  obtain ⟨names, isSteps⟩ := Path.entersFrom_iff.mp enters
  obtain ⟨otherNames, isOther⟩ := Path.entersFrom_iff.mp otherEnters
  rw [landing_of_enters isSteps, landing_of_enters isOther, List.append_cancel_left_eq] at same
  rw [isSteps, isOther, same]

end Bases

/-! ## Stray files -/

/-- A file in a directory that belongs to an extraction, at the place of none of its outputs. -/
structure Stray (tree : Tree) (extraction : Extraction) (location : Location) : Prop where
  isFile : ∃ content, tree.node? location = some (.file content)
  owned : ∃ stage ∈ extraction.stages, ownsDirectory stage.generation.outDir = true
    ∧ ∃ directory names, tree.locate stage.outputDir = .ok directory ∧ names ≠ []
        ∧ location = directory ++ names
  unnamed : location ∉ places tree.home extraction.allOutputs

/-- Whether a mismatch reports the file at a location as stale. -/
def Mismatch.reportsStale (tree : Tree) (location : Location) : Mismatch → Bool
  | .stale path => (tree.locate path).toOption == some location
  | _ => false

/-- Outputs and directories that belong to the extraction go on from one base by names. -/
structure SpelledFrom (base : List Step) (extraction : Extraction) : Prop where
  outputs : ∀ output ∈ extraction.allOutputs, Path.EntersFrom base (Path.steps output.1)
  directories : ∀ directory ∈ ownedDirectories extraction,
    Path.EntersFrom base (Path.steps directory)

section Stray

variable {tree : Tree} {extraction : Extraction} {base : List Step}

private theorem mem_ownedDirectories_iff {directory : String} :
    directory ∈ ownedDirectories extraction
      ↔ ∃ stage ∈ extraction.stages, ownsDirectory stage.generation.outDir = true
          ∧ stage.outputDir = directory := by
  simp only [ownedDirectories, List.mem_map, List.mem_filter, and_assoc]

/-- What a search of the directories finds, and where it is. -/
theorem Tree.Sound.mem_found (sound : tree.Sound) {path : String}
    (member : path ∈ (ownedDirectories extraction).flatMap tree.pathsBelow) :
    ∃ stage ∈ extraction.stages, ownsDirectory stage.generation.outDir = true
      ∧ ∃ directory names content, tree.locate stage.outputDir = .ok directory ∧ names ≠ []
          ∧ tree.node? (directory ++ names) = some (.file content)
          ∧ tree.locate path = .ok (directory ++ names)
          ∧ Path.EntersFrom (Path.steps stage.outputDir) (Path.steps path) := by
  obtain ⟨directoryPath, isOwned, isBelow⟩ := List.mem_flatMap.mp member
  obtain ⟨stage, inTree, owns, rfl⟩ := mem_ownedDirectories_iff.mp isOwned
  obtain ⟨directory, names, content, located, visible, isFile, rfl⟩ :=
    sound.mem_pathsBelow_iff.mp isBelow
  have present : (tree.node? (directory ++ names)).isSome = true := by
    rw [isFile]
    rfl
  refine ⟨stage, inTree, owns, directory, names, content, located, visible, isFile,
    sound.locate_foldl_join located present, ?_⟩
  apply Path.entersFrom_iff.mpr
  refine ⟨names, steps_foldl_join _ ?_⟩
  exact fun name member => sound.names present name (List.mem_append_right _ member)

private theorem mem_staleIn_iff {path : String} :
    path ∈ staleIn tree extraction
      ↔ path ∈ Path.sortDistinct ((ownedDirectories extraction).flatMap tree.pathsBelow)
        ∧ ∀ output ∈ extraction.allOutputs, Path.steps output.1 ≠ Path.steps path := by
  simp [staleIn, staleFiles, Path.same]

/-- **Every file reported is stray.** -/
theorem SpelledFrom.stray_of_stale (spelled : SpelledFrom base extraction) (sound : tree.Sound)
    {path : String} (member : path ∈ staleIn tree extraction) :
    Path.EntersFrom base (Path.steps path)
      ∧ ∃ location, tree.locate path = .ok location ∧ Stray tree extraction location := by
  obtain ⟨kept, unnamed⟩ := mem_staleIn_iff.mp member
  obtain ⟨stage, inTree, owns, directory, names, content, located, visible, isFile, leads, goesOn⟩ :=
    sound.mem_found (Path.mem_of_mem_sortDistinct kept)
  have enters : Path.EntersFrom base (Path.steps path) :=
    (spelled.directories _ (mem_ownedDirectories_iff.mpr ⟨stage, inTree, owns, rfl⟩)).trans goesOn
  refine ⟨enters, directory ++ names, leads, ⟨content, isFile⟩,
    ⟨stage, inTree, owns, directory, names, located, visible, rfl⟩, ?_⟩
  intro isPlace
  obtain ⟨output, isOutput, named⟩ := List.mem_filterMap.mp isPlace
  obtain ⟨-, -, -, lands⟩ := fileLocation?_eq_some_iff.mp named
  rw [locate_eq_landing leads] at lands
  exact unnamed output isOutput (steps_eq_of_landing (spelled.outputs output isOutput) enters lands)

/-- **Every stray file is reported**, provided that all outputs can be read or are missing. -/
theorem Stray.mem_staleIn (sound : tree.Sound)
    (readable : ∀ output ∈ extraction.allOutputs, ∀ failure,
      tree.read output.1 = .error failure → failure = .notFound)
    {location : Location} (stray : Stray tree extraction location) :
    ∃ path ∈ staleIn tree extraction, landing tree.home path = location := by
  obtain ⟨⟨content, isFile⟩, ⟨stage, inTree, owns, directory, names, located, visible, rfl⟩,
    unnamed⟩ := stray
  have isFound : names.foldl Path.join stage.outputDir
      ∈ (ownedDirectories extraction).flatMap tree.pathsBelow := by
    apply List.mem_flatMap.mpr
    refine ⟨stage.outputDir, mem_ownedDirectories_iff.mpr ⟨stage, inTree, owns, rfl⟩, ?_⟩
    exact sound.mem_pathsBelow_iff.mpr ⟨directory, names, content, located, visible, isFile, rfl⟩
  have leads : tree.locate (names.foldl Path.join stage.outputDir) = .ok (directory ++ names) :=
    sound.locate_foldl_join located (by rw [isFile]; rfl)
  -- Sorting may keep another spelling, which has the same steps.
  obtain ⟨path, kept, sameSteps⟩ :=
    List.mem_map.mp (Path.mem_steps_sortDistinct.mpr (List.mem_map_of_mem isFound))
  refine ⟨path, mem_staleIn_iff.mpr ⟨kept, ?_⟩, ?_⟩
  · intro output isOutput same
    rcases sound.locate_of_same_steps leads isFile (same.trans sameSteps) with
      leadsThere | ⟨failure, notMissing, fails⟩
    · have named := sound.fileLocation?_of_file leadsThere isFile
      exact unnamed (List.mem_filterMap.mpr ⟨output, isOutput, named⟩)
    · exact notMissing (readable output isOutput failure fails)
  · rw [landing, sameSteps, locate_eq_landing leads, landing]

private theorem countP_eq_one {α β : Type} [DecidableEq β] {items : List α} {key : α → β}
    {test : α → Bool} (distinct : (items.map key).Nodup) {kept : α} (member : kept ∈ items)
    (passes : test kept = true) (only : ∀ item ∈ items, test item = true → key item = key kept) :
    items.countP test = 1 := by
  apply Nat.le_antisymm
  · calc
      items.countP test ≤ items.countP (fun item => key item == key kept) :=
        List.countP_mono_left fun item isIn passesTest => beq_iff_eq.mpr (only item isIn passesTest)
      _ = (items.map key).count (key kept) := by rw [List.count_eq_countP, List.countP_map]; rfl
      _ ≤ 1 := List.nodup_iff_count_le_one.mp distinct _
  · exact List.countP_pos_iff.mpr ⟨kept, member, passes⟩

private theorem toOption_locate {path : String} {location : Location} :
    ((tree.locate path).toOption == some location) = true ↔ tree.locate path = .ok location := by
  rw [beq_iff_eq]
  cases tree.locate path with
  | error failure => simp [Except.toOption]
  | ok there => simp [Except.toOption]

/-- Only what is listed as stale reports anything as stale. -/
theorem countP_reportsStale {differences : List Mismatch} {location : Location}
    (notStale : ∀ stale, Mismatch.stale stale ∉ differences) (paths : List String) :
    (differences ++ paths.map Mismatch.stale).countP (Mismatch.reportsStale tree location)
      = paths.countP fun path => (tree.locate path).toOption == some location := by
  have none : differences.countP (Mismatch.reportsStale tree location) = 0 := by
    apply List.countP_eq_zero.mpr
    intro mismatch member
    cases mismatch with
    | missing path => exact Bool.false_ne_true
    | outdated path => exact Bool.false_ne_true
    | stale path => exact absurd member (notStale path)
  rw [List.countP_append, none, Nat.zero_add, List.countP_map]
  rfl

/-- **Stray files are reported once.** -/
theorem SpelledFrom.countP_stray (spelled : SpelledFrom base extraction) (sound : tree.Sound)
    (readable : ∀ output ∈ extraction.allOutputs, ∀ failure,
      tree.read output.1 = .error failure → failure = .notFound)
    {location : Location} (stray : Stray tree extraction location) :
    (staleIn tree extraction).countP (fun path => (tree.locate path).toOption == some location)
      = 1 := by
  obtain ⟨path, member, lands⟩ := stray.mem_staleIn sound readable
  obtain ⟨enters, there, leads, -⟩ := spelled.stray_of_stale sound member
  obtain rfl : there = location := by rw [locate_eq_landing leads, lands]
  have distinct : ((staleIn tree extraction).map Path.steps).Nodup :=
    (Path.sortDistinct_steps_nodup _).sublist (List.Sublist.map _ List.filter_sublist)
  apply countP_eq_one distinct member (toOption_locate.mpr leads)
  intro other isOther otherLeads
  obtain ⟨otherEnters, -⟩ := spelled.stray_of_stale sound isOther
  have sameLanding : landing tree.home other = landing tree.home path := by
    rw [lands]
    exact (locate_eq_landing (toOption_locate.mp otherLeads)).symm
  exact steps_eq_of_landing otherEnters enters sameLanding

end Stray

/-! ## Directories of their own -/

section Owned

variable {home : Location}

/-- A relative path is followed from where the path ahead of it leads. -/
theorem landing_join (home : Location) (base : String) {path : String}
    (relative : Path.isRooted path = false) :
    landing home (Path.join base path) = (Path.steps path).foldl follow (landing home base) := by
  by_cases empty : base.toList = []
  · obtain rfl : base = "" := String.toList_inj.mp empty
    rw [Path.join_empty]
    rfl
  · rw [landing, Path.steps_join_relative empty relative, List.foldl_append, Path.steps_eq path]
    rcases Path.lead_of_not_rooted relative with none | here
    · rw [none]
      rfl
    · rw [here]
      rfl

/-- A directory of its own lies strictly below that of the document. -/
theorem length_landing_of_owns {stage : Stage} (owns : ownsDirectory stage.generation.outDir = true) :
    (landing home ((Path.parent? stage.sourcePath).getD "")).length
      < (landing home stage.outputDir).length := by
  have stays : staysBelow ([] : Location).length (Path.steps stage.generation.outDir) = true := owns
  obtain ⟨more, visible, isPlace⟩ := foldl_follow_of_staysBelow
    (landing home ((Path.parent? stage.sourcePath).getD "")) stays
  rw [List.append_nil] at isPlace
  rw [Stage.outputDir, landing_join _ _ (relative_of_owns owns), isPlace, List.length_append]
  exact Nat.lt_add_of_pos_right (List.length_pos_iff.mpr visible)

end Owned

/-! ## Exact reports -/

/-- A check reports the stray files, each once, and no others. -/
structure ReportsStrays (tree : Tree) (extraction : Extraction) (found : List Mismatch) : Prop where
  once : ∀ location, Stray tree extraction location →
    found.countP (Mismatch.reportsStale tree location) = 1
  only : ∀ path, Mismatch.stale path ∈ found →
    ∃ location, tree.locate path = .ok location ∧ Stray tree extraction location

def NoHigher (home : Location) (stage : Stage) : Prop :=
  (landing home ((Path.parent? stage.sourcePath).getD "")).length
    ≤ (landing home stage.outputDir).length

instance (home : Location) : DecidablePred (NoHigher home) := fun _ => Nat.decLe _ _

section Exact

variable {tree : Tree} {extraction : Extraction} {found : List Mismatch}

private theorem ReportsStrays.none_of_not_stray (reports : ReportsStrays tree extraction found)
    {location : Location} (notStray : ¬ Stray tree extraction location) :
    found.countP (Mismatch.reportsStale tree location) = 0 := by
  apply List.countP_eq_zero.mpr
  intro mismatch member isReport
  cases mismatch with
  | missing path => cases isReport
  | outdated path => cases isReport
  | stale path =>
      obtain ⟨there, leads, stray⟩ := reports.only path member
      obtain rfl : there = location :=
        Except.ok.inj (leads.symm.trans (toOption_locate.mp isReport))
      exact notStray stray

private theorem SpelledFrom.reportsStrays {base : List Step} (spelled : SpelledFrom base extraction)
    (sound : tree.Sound)
    (checked : (checkOutputs extraction : StateM Tree _).run tree = (.ok found, tree)) :
    ReportsStrays tree extraction found := by
  obtain ⟨-, readable, differences, notStale, rfl⟩ := checkOutputs_ok checked
  constructor
  · intro location stray
    rw [countP_reportsStale notStale]
    exact spelled.countP_stray sound readable stray
  · intro path member
    rcases List.mem_append.mp member with early | isStale
    · exact absurd early (notStale path)
    · obtain ⟨other, kept, same⟩ := List.mem_map.mp isStale
      obtain rfl := Mismatch.stale.inj same
      exact (spelled.stray_of_stale sound kept).2

variable {depth : Nat} {text sourcePath : String} {options : Options}

private theorem spelledFrom_of_inward (inward : (buildWithin depth text sourcePath options).Inward) :
    SpelledFrom (Path.steps (Stage.build text sourcePath none options).outputDir)
      (buildWithin depth text sourcePath options) where
  outputs _ isOutput := Extraction.outputs_enter inward isOutput
  directories directory isOwned := by
    obtain ⟨stage, inTree, -, rfl⟩ := mem_ownedDirectories_iff.mp isOwned
    exact Extraction.outputDir_enters inward inTree

/-- Directories of their own are deeper than the document's. -/
theorem length_landing_of_inward {home : Location}
    (inward : (buildWithin depth text sourcePath options).Inward)
    (noHigher : NoHigher home (Stage.build text sourcePath none options)) {stage : Stage}
    (inTree : stage ∈ (buildWithin depth text sourcePath options).stages)
    (owns : ownsDirectory stage.generation.outDir = true) :
    (landing home ((Path.parent? sourcePath).getD "")).length
      < (landing home stage.outputDir).length := by
  have deeper : (landing home ((Path.parent? stage.sourcePath).getD "")).length
      < (landing home stage.outputDir).length := length_landing_of_owns owns
  rw [Extraction.stages_eq, buildWithin, Extraction.stage_buildFrom] at inTree
  rcases List.mem_cons.mp inTree with rfl | below
  · exact deeper
  · obtain ⟨names, isSteps⟩ := Path.entersFrom_iff.mp
      (Extraction.sourceDir_enters depth text sourcePath none options inward stage below)
    have isPlace : landing home ((Path.parent? stage.sourcePath).getD "")
        = landing home (Stage.build text sourcePath none options).outputDir ++ names :=
      landing_of_enters isSteps
    rw [isPlace, List.length_append] at deeper
    have isSource : (Stage.build text sourcePath none options).sourcePath = sourcePath := rfl
    rw [NoHigher, isSource] at noHigher
    omega

/-- **The document is never stray** if its output directory lies no higher. -/
theorem source_not_stray (inward : (buildWithin depth text sourcePath options).Inward)
    (noHigher : NoHigher tree.home (Stage.build text sourcePath none options)) :
    ¬ Stray tree (buildWithin depth text sourcePath options)
      (landing tree.home sourcePath) := by
  intro stray
  obtain ⟨stage, inTree, owns, directory, names, located, visible, isPlace⟩ := stray.owned
  have deeper := length_landing_of_inward inward noHigher inTree owns
  have shallow := length_landing_le tree.home sourcePath
  have further := List.length_pos_iff.mpr visible
  rw [isPlace, locate_eq_landing located, List.length_append] at shallow
  omega

end Exact

/-- **Stale reports are exact** for an extraction whose outputs only go further in. On every tree
that can be checked, the stray files are reported, each once, and no other file; the document is
not among them if its output directory lies no higher. So right after writing, neither an output
nor the document is reported. -/
theorem stale_reports_exact (depth : Nat) (text sourcePath : String) (options : Options)
    (inward : (buildWithin depth text sourcePath options).Inward) :
    (∀ (tree : Tree) (found : List Mismatch), tree.Sound →
      (checkOutputs (buildWithin depth text sourcePath options) : StateM Tree _).run tree
        = (.ok found, tree) →
      ReportsStrays tree (buildWithin depth text sourcePath options) found
      ∧ (NoHigher tree.home (Stage.build text sourcePath none options) →
          found.countP (Mismatch.reportsStale tree (landing tree.home sourcePath)) = 0))
    ∧ ∀ (tree after : Tree) (report : WriteReport) (found : List Mismatch), tree.Sound →
      (writeOutputs (buildWithin depth text sourcePath options).allOutputs :
        StateM Tree WriteReport).run tree = (report, after) →
      (checkOutputs (buildWithin depth text sourcePath options) : StateM Tree _).run after
        = (.ok found, after) →
      (∀ location ∈ places tree.home
          (buildWithin depth text sourcePath options).allOutputs,
        found.countP (Mismatch.reportsStale after location) = 0)
      ∧ (NoHigher tree.home (Stage.build text sourcePath none options) →
          found.countP (Mismatch.reportsStale after (landing tree.home sourcePath)) = 0) := by
  have spelled := spelledFrom_of_inward inward
  constructor
  · intro tree found sound checked
    have reports := spelled.reportsStrays sound checked
    exact ⟨reports, fun noHigher => reports.none_of_not_stray (source_not_stray inward noHigher)⟩
  · intro tree after report found sound wrote checked
    obtain ⟨changes, afterSound⟩ := (writes_iff_run.mpr wrote).changes sound
    have reports := spelled.reportsStrays afterSound checked
    rw [← changes.home]
    refine ⟨?_, fun noHigher => reports.none_of_not_stray (source_not_stray inward noHigher)⟩
    intro location isPlace
    exact reports.none_of_not_stray fun stray => stray.unnamed isPlace

/-- Of the guide's tree, the file of its own is reported, and the guide is not. -/
theorem stale_reports_exact_guide :
    let found := [.missing ".examples/.examples/b.c", .stale ".examples/old"]
    guideExtraction.Inward ∧ (guideTree []).Sound
    ∧ NoHigher [] (Stage.build Extraction.nestedGuide "g.md" none {})
    ∧ (checkOutputs guideExtraction : StateM Tree _).run (guideTree []) = (.ok found, guideTree [])
    ∧ ReportsStrays (guideTree []) guideExtraction found
    ∧ found.countP (Mismatch.reportsStale (guideTree []) ["g.md"]) = 0 := by
  intro found
  have inward : guideExtraction.Inward := by decide +kernel
  have sound : (guideTree []).Sound := by decide +kernel
  have noHigher : NoHigher [] (Stage.build Extraction.nestedGuide "g.md" none {}) := by
    decide +kernel
  have checked : (checkOutputs guideExtraction : StateM Tree _).run (guideTree [])
      = (.ok found, guideTree []) := by
    show @Eq (Except FileError (List Mismatch) × Tree) _ _
    decide +kernel
  obtain ⟨exact, -⟩ := stale_reports_exact 1 Extraction.nestedGuide "g.md" {} inward
  obtain ⟨reports, spared⟩ := exact (guideTree []) found sound checked
  exact ⟨inward, sound, noHigher, checked, reports, spared noHigher⟩

/-! ## Where reports go wrong -/

def dottedGuide : String :=
  "<!-- @codeblock x/../b -->\n```\ncode\n```\n"

def dottedExtraction : Extraction :=
  Extraction.build dottedGuide "doc.md" {}

def dottedTree (others : List (Location × Node)) : Tree :=
  { entries := others ++ [(["doc.md"], .file (.text dottedGuide))] }

/-- A guide whose own directory is the output directory of the guide within it. -/
def upwardExtraction : Extraction :=
  Extraction.build Extraction.nestedGuide "docs/.examples/g.md" ⟨some "../../docs"⟩

def upwardTree : Tree :=
  { entries :=
      [ (["docs", ".examples", "g.md"], .file (.text Extraction.nestedGuide))
      , (["docs", ".examples"], .directory), (["docs"], .directory) ] }

/-- Right after it was written, an output that goes up on its way is reported as stale under
another spelling. And a document is reported that lies in a directory of its own extraction. -/
theorem output_and_document_reported_stale :
    let written := dottedTree
      [ ([".examples", "b"], .file (.text "code")), ([".examples", "x"], .directory)
      , ([".examples"], .directory) ]
    let upward := [.missing "docs/.examples/../../docs/a.md",
      .missing "docs/.examples/../../docs/.examples/b.c",
      .stale "docs/.examples/../../docs/.examples/g.md"]
    (dottedTree []).Sound ∧ upwardTree.Sound
    ∧ (writeOutputs dottedExtraction.allOutputs : StateM Tree WriteReport).run (dottedTree [])
        = ({ written := [".examples/x/../b"] }, written)
    ∧ [".examples", "b"] ∈ places [] dottedExtraction.allOutputs
    ∧ (checkOutputs dottedExtraction : StateM Tree _).run written
        = (.ok [.stale ".examples/b"], written)
    ∧ [.stale ".examples/b"].countP (Mismatch.reportsStale written [".examples", "b"]) = 1
    ∧ (checkOutputs upwardExtraction : StateM Tree _).run upwardTree = (.ok upward, upwardTree)
    ∧ upwardTree.locate "docs/.examples/g.md" = .ok ["docs", ".examples", "g.md"]
    ∧ upward.countP (Mismatch.reportsStale upwardTree ["docs", ".examples", "g.md"]) = 1 := by
  intro written upward
  have wrote : (writeOutputs dottedExtraction.allOutputs : StateM Tree WriteReport).run
      (dottedTree []) = ({ written := [".examples/x/../b"] }, written) := by
    show @Eq (WriteReport × Tree) _ _
    decide +kernel
  have checked : (checkOutputs dottedExtraction : StateM Tree _).run written
      = (.ok [.stale ".examples/b"], written) := by
    show @Eq (Except FileError (List Mismatch) × Tree) _ _
    decide +kernel
  have checkedUpward : (checkOutputs upwardExtraction : StateM Tree _).run upwardTree
      = (.ok upward, upwardTree) := by
    show @Eq (Except FileError (List Mismatch) × Tree) _ _
    decide +kernel
  exact ⟨by decide +kernel, by decide +kernel, wrote, by decide +kernel, checked,
    by decide +kernel, checkedUpward, by decide +kernel, by decide +kernel⟩

end Tangle.Files
