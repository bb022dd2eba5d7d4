import Mathlib.Data.List.Nodup
import Tangle.Proofs.Extraction.RoundTrip
import Tangle.Proofs.Files.Walk

/-!
Contract: a run that writes outputs, and the check that follows it.

Owns: the relation `Writes` between a tree, its outputs, the report and the tree afterwards;
what a run leaves alone, what it guarantees, and how far a failed one got.

Does **not** own: what a single request does (`Tangle.Proofs.Files.Changes`), and the files that
nothing generates (`Tangle.Proofs.Files.Stale`).

## Why distinct places suffice

An output changes nothing but the file at its own place, and the directories made on the way
take away no file. So what one output has left there, no later output of another place disturbs.
-/

set_option autoImplicit false

namespace Tangle.Files

open Tangle.Files.Tree

/-! ## One output -/

section OneOutput

variable {tree after : Tree} {path content : String}

/-- A placed file reads back, and only the file at its place is another one. -/
theorem placeFile_ok (sound : tree.Sound)
    (placed : (placeFile path content : StateM Tree _).run tree = (.ok (), after)) :
    Changes (fun location => fileLocation? tree.home path = some location) tree after
      ∧ after.Sound ∧ after.read path = .ok content := by
  obtain ⟨middle, grows, middleSound, failed | wrote⟩ := placeFile_cases sound path content
  · obtain ⟨failure, failed⟩ := failed
    rw [placed] at failed
    cases failed
  · obtain ⟨other, written, same⟩ := wrote
    obtain rfl : after = other := by
      rw [placed] at same
      exact (Prod.mk.inj same).2
    obtain ⟨changes, afterSound, reads⟩ := write_changes middleSound written
    rw [grows.home] at changes
    exact ⟨(grows.mono fun _ isFalse => isFalse.elim).trans changes, afterSound, reads⟩

/-- A file that cannot be placed leaves nothing but new directories. -/
theorem placeFile_failed (sound : tree.Sound) {failure : FileError}
    (failed : (placeFile path content : StateM Tree _).run tree = (.error failure, after)) :
    Grows tree after ∧ after.Sound := by
  obtain ⟨middle, grows, middleSound, other | wrote⟩ := placeFile_cases sound path content
  · obtain ⟨_, same⟩ := other
    rw [failed] at same
    obtain rfl := (Prod.mk.inj same).2
    exact ⟨grows, middleSound⟩
  · obtain ⟨_, -, same⟩ := wrote
    rw [failed] at same
    cases same

private theorem readsBack_eq_true_iff {reading : Except FileError String} :
    readsBack reading content = true ↔ reading = .ok content := by
  cases reading with
  | error failure => simp [readsBack]
  | ok existing => simp [readsBack]

end OneOutput

/-! ## Runs -/

/-- How outputs are written: each is kept, or placed, or ends the run. -/
inductive Writes : Tree → List (String × String) → WriteReport → Tree → Prop
  | nil (tree : Tree) : Writes tree [] {} tree
  | kept {tree after : Tree} {path content : String} {rest : List (String × String)}
      {report : WriteReport} (reads : tree.read path = .ok content)
      (later : Writes tree rest report after) :
      Writes tree ((path, content) :: rest)
        { report with unchanged := path :: report.unchanged } after
  | placed {tree middle after : Tree} {path content : String} {rest : List (String × String)}
      {report : WriteReport} (differs : tree.read path ≠ .ok content)
      (places : (placeFile path content : StateM Tree _).run tree = (.ok (), middle))
      (later : Writes middle rest report after) :
      Writes tree ((path, content) :: rest) { report with written := path :: report.written } after
  | failed {tree after : Tree} {path content : String} {rest : List (String × String)}
      {failure : FileError} (differs : tree.read path ≠ .ok content)
      (fails : (placeFile path content : StateM Tree _).run tree = (.error failure, after)) :
      Writes tree ((path, content) :: rest) { failure := some failure } after

section Running

variable {tree : Tree} {path content : String} {rest : List (String × String)}

private theorem run_kept (reads : tree.read path = .ok content) :
    (writeOutputs ((path, content) :: rest) : StateM Tree WriteReport).run tree
      = (let (report, after) := (writeOutputs rest : StateM Tree WriteReport).run tree
         ({ report with unchanged := path :: report.unchanged }, after)) := by
  rw [writeOutputs, run_bind_eq (run_readText tree path), if_pos (readsBack_eq_true_iff.mpr reads)]
  rfl

private theorem run_placed {middle : Tree} (differs : tree.read path ≠ .ok content)
    (places : (placeFile path content : StateM Tree _).run tree = (.ok (), middle)) :
    (writeOutputs ((path, content) :: rest) : StateM Tree WriteReport).run tree
      = (let (report, after) := (writeOutputs rest : StateM Tree WriteReport).run middle
         ({ report with written := path :: report.written }, after)) := by
  rw [writeOutputs, run_bind_eq (run_readText tree path),
    if_neg (mt readsBack_eq_true_iff.mp differs), run_bind_eq places]
  rfl

private theorem run_failed {after : Tree} {failure : FileError} (differs : tree.read path ≠ .ok content)
    (fails : (placeFile path content : StateM Tree _).run tree = (.error failure, after)) :
    (writeOutputs ((path, content) :: rest) : StateM Tree WriteReport).run tree
      = ({ failure := some failure }, after) := by
  rw [writeOutputs, run_bind_eq (run_readText tree path),
    if_neg (mt readsBack_eq_true_iff.mp differs), run_bind_eq fails]
  rfl

/-- **`Writes` is what a run does.** -/
theorem writes_iff_run {outputs : List (String × String)} {report : WriteReport} {after : Tree} :
    Writes tree outputs report after
      ↔ (writeOutputs outputs : StateM Tree WriteReport).run tree = (report, after) := by
  constructor
  · intro writes
    induction writes with
    | nil tree => rfl
    | kept reads later inductionHypothesis => rw [run_kept reads, inductionHypothesis]
    | placed differs places later inductionHypothesis =>
        rw [run_placed differs places, inductionHypothesis]
    | failed differs fails => exact run_failed differs fails
  · intro ran
    induction outputs generalizing tree report with
    | nil =>
        obtain ⟨rfl, rfl⟩ := Prod.mk.inj ran
        exact Writes.nil tree
    | cons output rest inductionHypothesis =>
        obtain ⟨path, content⟩ := output
        by_cases reads : tree.read path = .ok content
        · rw [run_kept reads] at ran
          obtain ⟨rfl, rfl⟩ := Prod.mk.inj ran
          exact Writes.kept reads (inductionHypothesis rfl)
        · cases placing : (placeFile path content : StateM Tree _).run tree with
          | mk answer middle =>
              cases answer with
              | error failure =>
                  rw [run_failed reads placing] at ran
                  obtain ⟨rfl, rfl⟩ := Prod.mk.inj ran
                  exact Writes.failed reads placing
              | ok _ =>
                  rw [run_placed reads placing] at ran
                  obtain ⟨rfl, rfl⟩ := Prod.mk.inj ran
                  exact Writes.placed reads placing (inductionHypothesis rfl)

end Running

/-! ## What a run leaves alone -/

def places (home : Location) (outputs : List (String × String)) : List Location :=
  outputs.filterMap fun output => fileLocation? home output.1

def ReadBack (tree : Tree) (outputs : List (String × String)) : Prop :=
  ∀ output ∈ outputs, tree.read output.1 = .ok output.2

/-- The files at these locations are the same files, and no others have come. -/
def FilesKept (apart : Location → Prop) (before after : Tree) : Prop :=
  ∀ location, apart location → ∀ content,
    after.node? location = some (.file content) ↔ before.node? location = some (.file content)

section Runs

variable {tree after : Tree} {outputs : List (String × String)} {report : WriteReport}

private theorem mem_places_of_head {home location : Location} {path content : String}
    {rest : List (String × String)} (named : fileLocation? home path = some location) :
    location ∈ places home ((path, content) :: rest) :=
  List.mem_filterMap.mpr ⟨(path, content), List.mem_cons_self, named⟩

private theorem mem_places_of_rest {home location : Location} {output : String × String}
    {rest : List (String × String)} (member : location ∈ places home rest) :
    location ∈ places home (output :: rest) := by
  obtain ⟨other, isIn, named⟩ := List.mem_filterMap.mp member
  exact List.mem_filterMap.mpr ⟨other, List.mem_cons_of_mem output isIn, named⟩

private theorem places_append (home : Location) (front back : List (String × String)) :
    places home (front ++ back) = places home front ++ places home back :=
  List.filterMap_append

/-- **Only files at the places of outputs change**, however the run ends. -/
theorem Writes.changes (writes : Writes tree outputs report after) :
    tree.Sound → Changes (· ∈ places tree.home outputs) tree after ∧ after.Sound := by
  induction writes with
  | nil tree => exact fun sound => ⟨Changes.refl tree, sound⟩
  | kept reads later inductionHypothesis =>
      intro sound
      obtain ⟨changes, afterSound⟩ := inductionHypothesis sound
      exact ⟨changes.mono fun _ => mem_places_of_rest, afterSound⟩
  | placed differs places later inductionHypothesis =>
      intro sound
      obtain ⟨first, middleSound, -⟩ := placeFile_ok sound places
      obtain ⟨changes, afterSound⟩ := inductionHypothesis middleSound
      rw [first.home] at changes
      refine ⟨(first.mono ?_).trans (changes.mono fun _ => mem_places_of_rest), afterSound⟩
      exact fun _ => mem_places_of_head
  | failed differs fails =>
      intro sound
      obtain ⟨grows, afterSound⟩ := placeFile_failed sound fails
      exact ⟨grows.mono fun _ isFalse => isFalse.elim, afterSound⟩

/-- An output that reads back has a place. -/
theorem ReadBack.place (sound : tree.Sound) (reads : ReadBack tree outputs)
    {output : String × String} (member : output ∈ outputs) :
    ∃ location, fileLocation? tree.home output.1 = some location := by
  obtain ⟨location, located, isFile⟩ := read_eq_ok_iff.mp (reads output member)
  exact ⟨location, sound.fileLocation?_of_file located isFile⟩

/-- Once everything is there, distinct places mean distinct paths. -/
theorem ReadBack.paths_nodup (sound : tree.Sound) (reads : ReadBack tree outputs)
    (distinct : (places tree.home outputs).Nodup) : (outputs.map Prod.fst).Nodup := by
  induction outputs with
  | nil => exact List.nodup_nil
  | cons output rest inductionHypothesis =>
      obtain ⟨location, named⟩ := reads.place sound List.mem_cons_self
      have isPlaces : places tree.home (output :: rest) = location :: places tree.home rest :=
        List.filterMap_cons_some named
      rw [isPlaces] at distinct
      obtain ⟨apart, restDistinct⟩ := List.nodup_cons.mp distinct
      rw [List.map_cons]
      apply List.nodup_cons.mpr
      refine ⟨?_, inductionHypothesis
        (fun other member => reads other (List.mem_cons_of_mem output member)) restDistinct⟩
      intro again
      obtain ⟨other, isIn, samePath⟩ := List.mem_map.mp again
      exact apart (List.mem_filterMap.mpr ⟨other, isIn, by rw [samePath, named]⟩)

/-! ## What a complete run guarantees -/

/-- What the first output has left is still there after the others. -/
theorem Writes.read_first {path content : String} {rest : List (String × String)}
    (later : Writes tree rest report after) (sound : tree.Sound)
    (distinct : (places tree.home ((path, content) :: rest)).Nodup)
    (reads : tree.read path = .ok content) : after.read path = .ok content := by
  obtain ⟨changes, -⟩ := later.changes sound
  apply changes.read sound reads
  intro location named
  have isPlaces : places tree.home ((path, content) :: rest)
      = location :: places tree.home rest := List.filterMap_cons_some named
  rw [isPlaces] at distinct
  exact (List.nodup_cons.mp distinct).1

private theorem places_rest_nodup {home : Location} {output : String × String}
    {rest : List (String × String)} (distinct : (places home (output :: rest)).Nodup) :
    (places home rest).Nodup :=
  distinct.sublist (List.Sublist.filterMap _ (List.sublist_cons_self output rest))

/-- **Every output reads back** in the end. -/
theorem Writes.readBack (writes : Writes tree outputs report after) :
    tree.Sound → (places tree.home outputs).Nodup → report.failure = none →
      ReadBack after outputs := by
  induction writes with
  | nil tree => exact fun _ _ _ output member => absurd member List.not_mem_nil
  | kept reads later inductionHypothesis =>
      intro sound distinct complete output member
      rcases List.mem_cons.mp member with rfl | isIn
      · exact later.read_first sound distinct reads
      · exact inductionHypothesis sound (places_rest_nodup distinct) complete output isIn
  | placed differs places later inductionHypothesis =>
      intro sound distinct complete output member
      obtain ⟨first, middleSound, reads⟩ := placeFile_ok sound places
      rw [← first.home] at distinct
      rcases List.mem_cons.mp member with rfl | isIn
      · exact later.read_first middleSound distinct reads
      · exact inductionHypothesis middleSound (places_rest_nodup distinct) complete output isIn
  | failed differs fails =>
      intro _ _ complete
      cases complete

/-- **Every output is reported once**, as written or as unchanged. -/
theorem Writes.perm (writes : Writes tree outputs report after) :
    report.failure = none →
      (report.written ++ report.unchanged).Perm (outputs.map Prod.fst) := by
  induction writes with
  | nil tree => exact fun _ => List.Perm.refl []
  | kept reads later inductionHypothesis =>
      intro complete
      exact List.perm_middle.trans ((inductionHypothesis complete).cons _)
  | placed differs places later inductionHypothesis =>
      intro complete
      exact (inductionHypothesis complete).cons _
  | failed differs fails =>
      intro complete
      cases complete

/-- The tree that the next output meets once those ahead of it are done. -/
def turnAfter (tree : Tree) (front : List (String × String)) : Tree :=
  ((writeOutputs front : StateM Tree WriteReport).run tree).2

private theorem turnAfter_kept {path content : String} (reads : tree.read path = .ok content)
    (front : List (String × String)) :
    turnAfter tree ((path, content) :: front) = turnAfter tree front := by
  rw [turnAfter, run_kept reads]
  rfl

private theorem turnAfter_placed {middle : Tree} {path content : String}
    (differs : tree.read path ≠ .ok content)
    (places : (placeFile path content : StateM Tree _).run tree = (.ok (), middle))
    (front : List (String × String)) :
    turnAfter tree ((path, content) :: front) = turnAfter middle front := by
  rw [turnAfter, run_placed differs places]
  rfl

private theorem path_ne_of_apart {path : String} {front back : List (String × String)}
    {output : String × String} (apart : path ∉ (front ++ output :: back).map Prod.fst) :
    output.1 ≠ path := by
  rintro rfl
  have member : output ∈ front ++ output :: back := List.mem_append_right front List.mem_cons_self
  exact apart (List.mem_map_of_mem member)

/-- **Unchanged are exactly the outputs that read back at their turn**, and written the others. -/
theorem Writes.turns (writes : Writes tree outputs report after) :
    report.failure = none → (outputs.map Prod.fst).Nodup →
      ∀ front output back, outputs = front ++ output :: back →
        (output.1 ∈ report.unchanged ↔ (turnAfter tree front).read output.1 = .ok output.2)
        ∧ (output.1 ∈ report.written ↔ (turnAfter tree front).read output.1 ≠ .ok output.2) := by
  induction writes with
  | nil tree =>
      intro _ _ front output back isOutputs
      exact absurd isOutputs.symm (List.append_ne_nil_of_right_ne_nil front (List.cons_ne_nil _ _))
  | @kept tree after path content rest report reads later inductionHypothesis =>
      intro complete distinct front output back isOutputs
      obtain ⟨apart, restDistinct⟩ := List.nodup_cons.mp distinct
      cases front with
      | nil =>
          obtain ⟨rfl, rfl⟩ := List.cons.inj isOutputs
          have notWritten : path ∉ report.written := fun member =>
            apart ((later.perm complete).subset (List.mem_append_left _ member))
          exact ⟨⟨fun _ => reads, fun _ => List.mem_cons_self⟩,
            ⟨fun member => absurd member notWritten, fun differs => absurd reads differs⟩⟩
      | cons first front =>
          obtain ⟨rfl, rfl⟩ := List.cons.inj isOutputs
          have other : output.1 ≠ path := path_ne_of_apart apart
          obtain ⟨unchanged, written⟩ :=
            inductionHypothesis complete restDistinct front output back rfl
          rw [turnAfter_kept reads, List.mem_cons, or_iff_right other]
          exact ⟨unchanged, written⟩
  | @placed tree middle after path content rest report differs places later inductionHypothesis =>
      intro complete distinct front output back isOutputs
      obtain ⟨apart, restDistinct⟩ := List.nodup_cons.mp distinct
      cases front with
      | nil =>
          obtain ⟨rfl, rfl⟩ := List.cons.inj isOutputs
          have notKept : path ∉ report.unchanged := fun member =>
            apart ((later.perm complete).subset (List.mem_append_right _ member))
          exact ⟨⟨fun member => absurd member notKept, fun reads => absurd reads differs⟩,
            ⟨fun _ => differs, fun _ => List.mem_cons_self⟩⟩
      | cons first front =>
          obtain ⟨rfl, rfl⟩ := List.cons.inj isOutputs
          have other : output.1 ≠ path := path_ne_of_apart apart
          obtain ⟨unchanged, written⟩ :=
            inductionHypothesis complete restDistinct front output back rfl
          rw [turnAfter_placed differs places, List.mem_cons, or_iff_right other]
          exact ⟨unchanged, written⟩
  | failed differs fails =>
      intro complete
      cases complete

/-- **Nothing is written twice.** Where every output reads back, all are unchanged, in order. -/
theorem writeOutputs_of_readBack (reads : ReadBack tree outputs) :
    (writeOutputs outputs : StateM Tree WriteReport).run tree
      = ({ unchanged := outputs.map Prod.fst }, tree) := by
  induction outputs with
  | nil => rfl
  | cons output rest inductionHypothesis =>
      have later := inductionHypothesis fun other member =>
        reads other (List.mem_cons_of_mem output member)
      rw [run_kept (reads output List.mem_cons_self), later]
      rfl

/-! ## How far a failed run got -/

/-- **A failed run is a complete run over a front**, and then one file that cannot be placed. -/
theorem Writes.failure (writes : Writes tree outputs report after) {failure : FileError} :
    report.failure = some failure →
      ∃ front output back middle, outputs = front ++ output :: back
        ∧ Writes tree front { report with failure := none } middle
        ∧ middle.read output.1 ≠ .ok output.2
        ∧ (placeFile output.1 output.2 : StateM Tree _).run middle = (.error failure, after) := by
  induction writes with
  | nil tree =>
      intro isFailure
      cases isFailure
  | kept reads later inductionHypothesis =>
      intro isFailure
      obtain ⟨front, output, back, middle, rfl, complete, rest⟩ := inductionHypothesis isFailure
      exact ⟨_ :: front, output, back, middle, rfl, Writes.kept reads complete, rest⟩
  | placed differs places later inductionHypothesis =>
      intro isFailure
      obtain ⟨front, output, back, middle, rfl, complete, rest⟩ := inductionHypothesis isFailure
      exact ⟨_ :: front, output, back, middle, rfl, Writes.placed differs places complete, rest⟩
  | @failed tree after path content rest own differs fails =>
      intro isFailure
      obtain rfl := Option.some.inj isFailure
      exact ⟨[], (path, content), rest, tree, rfl, Writes.nil tree, differs, fails⟩

end Runs

/-! ## Checking -/

section Checking

variable {tree : Tree} {outputs : List (String × String)}

/-- Comparing finds nothing where every output reads back. -/
theorem compareOutputs_of_readBack (reads : ReadBack tree outputs) :
    (compareOutputs outputs : StateM Tree _).run tree = (.ok [], tree) := by
  induction outputs with
  | nil => rfl
  | cons output rest inductionHypothesis =>
      obtain ⟨path, content⟩ := output
      have readsFirst : tree.read path = .ok content := reads (path, content) List.mem_cons_self
      have later := inductionHypothesis fun other member =>
        reads other (List.mem_cons_of_mem _ member)
      rw [compareOutputs, run_bind_eq (run_readText tree path), readsFirst]
      dsimp only
      rw [run_bind_eq later, if_pos rfl]
      rfl

private theorem collectFiles_run (directories : List String) :
    (collectFiles directories : StateM Tree _).run tree
      = (Path.sortDistinct (directories.flatMap tree.pathsBelow), tree) := by
  let take := fun (files : List String) (found : FoundPath) => Path.insert found.path files
  have each (files : List String) (directory : String) :
      (takeFiles take files directory : StateM Tree _).run tree
        = ((tree.filesBelow directory).foldl take files, tree) := run_takeFiles take files directory
  have isPaths (files : List String) (directory : String) :
      (tree.pathsBelow directory).foldl (fun files path => Path.insert path files) files
        = (tree.filesBelow directory).foldl take files :=
    List.foldl_map
  rw [collectFiles, run_foldlM each, Path.sortDistinct, List.foldl_flatMap]
  simp only [isPaths]

/-- The files in the directories of an extraction that none of its outputs spells. -/
def staleIn (tree : Tree) (extraction : Extraction) : List String :=
  staleFiles extraction.allOutputs
    (Path.sortDistinct ((ownedDirectories extraction).flatMap tree.pathsBelow))

theorem checkOutputs_run {extraction : Extraction} {differences : List Mismatch}
    (compared : (compareOutputs extraction.allOutputs : StateM Tree _).run tree
      = (.ok differences, tree)) :
    (checkOutputs extraction : StateM Tree _).run tree
      = (.ok (differences ++ (staleIn tree extraction).map Mismatch.stale), tree) := by
  rw [checkOutputs, run_bind_eq compared]
  dsimp only
  rw [run_bind_eq (collectFiles_run _)]
  rfl

end Checking

/-! ## The whole run -/

/-- **Writing is correct, idempotent and framed.** With no two outputs at one place, a run
without failure leaves every output in place, reports each once and as unchanged exactly if it
was up to date at its turn, and leaves a check nothing but stale files and a second run nothing
to do. However it ends, other files stay as they are; a failed run has finished the outputs
ahead of the one it failed at and has written none from there on. -/
theorem writing_correct_idempotent_framed (extraction : Extraction) (tree after : Tree)
    (report : WriteReport) (sound : tree.Sound)
    (distinct : (places tree.home extraction.allOutputs).Nodup)
    (wrote : (writeOutputs extraction.allOutputs : StateM Tree WriteReport).run tree
      = (report, after)) :
    (report.failure = none →
        ReadBack after extraction.allOutputs
        ∧ (report.written ++ report.unchanged).Perm (extraction.allOutputs.map Prod.fst)
        ∧ (∀ front output back, extraction.allOutputs = front ++ output :: back →
            (output.1 ∈ report.unchanged ↔ (turnAfter tree front).read output.1 = .ok output.2)
            ∧ (output.1 ∈ report.written ↔ (turnAfter tree front).read output.1 ≠ .ok output.2))
        ∧ (∃ stale : List String, (checkOutputs extraction : StateM Tree _).run after
            = (.ok (stale.map Mismatch.stale), after))
        ∧ (writeOutputs extraction.allOutputs : StateM Tree WriteReport).run after
            = ({ unchanged := extraction.allOutputs.map Prod.fst }, after))
    ∧ FilesKept (· ∉ places tree.home extraction.allOutputs) tree after
    ∧ ∀ failure, report.failure = some failure →
        ∃ front output back, extraction.allOutputs = front ++ output :: back
          ∧ (report.written ++ report.unchanged).Perm (front.map Prod.fst)
          ∧ (turnAfter tree front).read output.1 ≠ .ok output.2
          ∧ (placeFile output.1 output.2 : StateM Tree _).run (turnAfter tree front)
              = (.error failure, after)
          ∧ ReadBack after front
          ∧ FilesKept (· ∈ places tree.home (output :: back)) tree after := by
  have writes := writes_iff_run.mpr wrote
  obtain ⟨changes, afterSound⟩ := writes.changes sound
  refine ⟨?_, changes.files, ?_⟩
  · intro complete
    have reads := writes.readBack sound distinct complete
    rw [← changes.home] at distinct
    have paths := reads.paths_nodup afterSound distinct
    refine ⟨reads, writes.perm complete, writes.turns complete paths, ?_,
      writeOutputs_of_readBack reads⟩
    exact ⟨_, checkOutputs_run (compareOutputs_of_readBack reads)⟩
  · intro failure isFailure
    obtain ⟨front, output, back, middle, isOutputs, finished, differs, fails⟩ :=
      writes.failure isFailure
    rw [isOutputs, places_append] at distinct
    obtain ⟨frontDistinct, -, apart⟩ := List.nodup_append'.mp distinct
    obtain ⟨frontChanges, middleSound⟩ := finished.changes sound
    obtain ⟨grows, -⟩ := placeFile_failed middleSound fails
    obtain rfl : turnAfter tree front = middle := congrArg Prod.snd (writes_iff_run.mp finished)
    refine ⟨front, output, back, isOutputs, finished.perm rfl, differs, fails, ?_, ?_⟩
    · intro earlier member
      apply grows.read middleSound (finished.readBack sound frontDistinct rfl earlier member)
      exact fun _ _ isFalse => isFalse.elim
    · intro location later content
      have spared : location ∉ places tree.home front := fun earlier => apart earlier later
      exact (grows.files location not_false content).trans
        (frontChanges.files location spared content)

/-- A guide whose outer output is up to date, with a file of its own beside it. -/
def guideTree (others : List (Location × Node)) : Tree :=
  { entries :=
      [ (["g.md"], .file (.text Extraction.nestedGuide)), ([".examples"], .directory)
      , ([".examples", "a.md"], .file (.text "<!-- @codeblock b.c -->\n ```\n x\n ```"))
      , ([".examples", "old"], .file (.binary [0xff])) ] ++ others }

def guideExtraction : Extraction :=
  Extraction.buildWithin 1 Extraction.nestedGuide "g.md" {}

/-- The inner output is all that is written; where a file is in the way of its directory,
nothing is, and the outer output still reads back. -/
theorem writing_correct_idempotent_framed_guide :
    let run := fun tree =>
      (writeOutputs guideExtraction.allOutputs : StateM Tree WriteReport).run tree
    let free := guideTree []
    let blocked := guideTree [([".examples", ".examples"], .file (.text ""))]
    free.Sound ∧ blocked.Sound ∧ (places [] guideExtraction.allOutputs).Nodup
    ∧ (run free).1
        = { written := [".examples/.examples/b.c"], unchanged := [".examples/a.md"] }
    ∧ ReadBack (run free).2 guideExtraction.allOutputs
    ∧ FilesKept (· ∉ places [] guideExtraction.allOutputs) free (run free).2
    ∧ (run blocked).1 = { unchanged := [".examples/a.md"], failure := some .alreadyExists }
    ∧ ∃ front output, ReadBack (run blocked).2 front
        ∧ guideExtraction.allOutputs = front ++ [output] := by
  intro run free blocked
  have isOutputs : guideExtraction.allOutputs
      = [(".examples/a.md", "<!-- @codeblock b.c -->\n ```\n x\n ```"),
          (".examples/.examples/b.c", "x")] := by
    decide +kernel
  have freeSound : free.Sound := by decide +kernel
  have blockedSound : blocked.Sound := by decide +kernel
  have distinct : (places [] guideExtraction.allOutputs).Nodup := by
    rw [isOutputs]
    decide +kernel
  have freeReport : (run free).1
      = { written := [".examples/.examples/b.c"], unchanged := [".examples/a.md"] } := by
    simp only [run, isOutputs]
    decide +kernel
  have blockedReport : (run blocked).1
      = { unchanged := [".examples/a.md"], failure := some .alreadyExists } := by
    simp only [run, isOutputs]
    decide +kernel
  obtain ⟨complete, framed, -⟩ :=
    writing_correct_idempotent_framed guideExtraction free (run free).2 (run free).1 freeSound
      distinct rfl
  obtain ⟨-, -, failed⟩ :=
    writing_correct_idempotent_framed guideExtraction blocked (run blocked).2 (run blocked).1
      blockedSound distinct rfl
  obtain ⟨reads, -⟩ := complete (by rw [freeReport])
  obtain ⟨front, output, back, isSplit, reported, -, -, frontReads, -⟩ :=
    failed .alreadyExists (by rw [blockedReport])
  refine ⟨freeSound, blockedSound, distinct, freeReport, reads, framed, blockedReport, front,
    output, frontReads, ?_⟩
  have one : front.length = 1 := by
    have lengths := reported.length_eq
    rw [blockedReport, List.length_map] at lengths
    exact lengths.symm
  have none : back = [] := by
    have lengths := congrArg List.length (isOutputs.symm.trans isSplit)
    rw [List.length_append, List.length_cons, one] at lengths
    apply List.length_eq_zero_iff.mp
    simp only [List.length_cons, List.length_nil] at lengths
    omega
  rw [isSplit, none]

end Tangle.Files
