import Mathlib.Data.List.Flatten
import Mathlib.Data.List.Perm.Basic
import Tangle.Fixture.Discovery
import Tangle.Proofs.Files.Walk
import Tangle.Proofs.Path.Order
import Tangle.Proofs.Text.Substitution

/-!
Contract: which files below a directory are chosen by requests for categories.

Owns: `Selected`, which reads the choice off the tree and the names on the way to a file, and
`chosen_spec`: the chosen categories hold exactly these files, each once.

Does **not** own: running them (`Tangle.Proofs.Fixture.Run`), or the files below a directory
(`Tangle.Proofs.Files.Walk`).

## Grouped, then put together again

Fixtures are put into categories, each category is sorted, and some categories are kept. None of
this loses a file or takes one twice: up to order, the files of all categories are the fixtures. A
category holds only files of its own name, so what is asked of its name is asked of each file. And
a category that several requests ask for is put into one place, since categories are in order.
-/

set_option autoImplicit false

namespace Tangle.Fixture

open Tangle.Files (FoundPath Location Tree)
open Tangle.Files.Tree (IsName)

/-! ## What is selected -/

/-- A name with backslashes counts as several. -/
def namesBetween (name : String) : List String :=
  (Text.splitChars '\\' name.toList).map String.ofList

/-- The names of directories as they are shown, with slashes between them. -/
def categoryName (tree : Tree) (directories : List String) : String :=
  Text.join "/" ((directories.map tree.shown).flatMap namesBetween)

/-- A category is wanted if nothing is asked for, or it is asked for, or one above it is. -/
def Wanted (requested : List String) (name : String) : Prop :=
  requested = [] ∨ ∃ request ∈ requested,
    name = trimRequest request ∨ (trimRequest request ++ "/").toList <+: name.toList

instance (requested : List String) : DecidablePred (Wanted requested) := fun _ =>
  inferInstanceAs (Decidable (_ ∨ ∃ request ∈ requested, _))

/-- A file at the given names below a location, called like a fixture by a name that is a text, in a
wanted category. -/
structure Selected (tree : Tree) (location : Location) (requested names : List String) : Prop where
  isFile : ∃ content, tree.node? (location ++ names) = some (.file content)
  isFixture : ∃ name ∈ names.getLast?, tree.shown name = name ∧ ".test.md".toList <:+ name.toList
  wanted : Wanted requested (categoryName tree names.dropLast)

/-- What is shown in place of a name could be a name. -/
def ShowsNames (tree : Tree) : Prop :=
  ∀ standIn ∈ tree.standIns, IsName standIn.2

instance : DecidablePred ShowsNames := fun tree =>
  inferInstanceAs (Decidable (∀ standIn ∈ tree.standIns, IsName standIn.2))

theorem ShowsNames.shown {tree : Tree} (shows : ShowsNames tree) {name : String}
    (proper : IsName name) : IsName (tree.shown name) := by
  rw [Tree.shown]
  cases isStandIn : tree.standIns.find? fun standIn => standIn.1 == name with
  | none => exact proper
  | some standIn => exact shows standIn (List.mem_of_find?_eq_some isStandIn)

/-- **Names that are texts without backslashes** are the category's own. -/
theorem categoryName_of_plain {tree : Tree} {directories : List String}
    (plain : ∀ name ∈ directories, tree.shown name = name ∧ '\\' ∉ name.toList) :
    categoryName tree directories = Text.join "/" directories := by
  have own : (directories.map tree.shown).flatMap namesBetween = directories := by
    rw [List.flatMap_map]
    calc
      directories.flatMap (fun name => namesBetween (tree.shown name))
          = directories.flatMap (fun name => [name]) := by
        refine List.flatMap_congr fun name isIn => ?_
        rw [(plain name isIn).1, namesBetween, Text.splitChars_of_free (plain name isIn).2,
          List.map_singleton, String.ofList_toList]
      _ = directories := List.flatMap_singleton' directories
  rw [categoryName, own]

section Names

variable {tree : Tree} {root last : String} {names : List String}

private theorem fileName?_foldl_join (proper : ∀ name ∈ names ++ [last], IsName name) :
    Path.fileName? ((names ++ [last]).foldl Path.join root) = some last := by
  rw [Path.fileName?, Files.Tree.steps_foldl_join root proper, List.map_append, List.map_singleton,
    ← List.append_assoc, List.getLast?_concat]

private theorem shown_proper (shows : ShowsNames tree) (proper : ∀ name ∈ names, IsName name) :
    ∀ name ∈ names.map tree.shown, IsName name :=
  List.forall_mem_map.mpr fun name isIn => shows.shown (proper name isIn)

private theorem isFixture_iff (shows : ShowsNames tree) (proper : ∀ name ∈ names ++ [last], IsName name) :
    isFixture (tree.along (.ofText root) (names ++ [last])) = true
      ↔ tree.shown last = last ∧ ".test.md".toList <:+ last.toList := by
  have isLast : Path.fileName? (tree.along (.ofText root) (names ++ [last])).path = some last := by
    rw [Files.Tree.path_along]
    exact fileName?_foldl_join proper
  have isShown : Path.fileName? (tree.along (.ofText root) (names ++ [last])).shown
      = some (tree.shown last) := by
    have properShown := shown_proper shows proper
    rw [List.map_append, List.map_singleton] at properShown
    rw [Files.Tree.shown_along, List.map_append, List.map_singleton]
    exact fileName?_foldl_join properShown
  rw [isFixture, isLast]
  dsimp only
  rw [isShown, Bool.and_eq_true, beq_iff_eq, Option.some.injEq]
  exact and_congr_right' List.isSuffixOf_iff_suffix

/-- Cutting at backslashes is putting slashes in their place. -/
private theorem replace_textJoin (names : List String) :
    Text.replace "\\" "/" (Text.join "/" names) = Text.join "/" (names.flatMap namesBetween) := by
  have pieces : Path.segmentsOf (names.flatMap namesBetween)
      = (Path.segmentsOf names).flatMap (Text.splitChars '\\') := by
    simp [Path.segmentsOf, namesBetween, List.map_flatMap, List.flatMap_map, Function.comp_def]
  rw [Text.replace, Text.replaceChars, if_neg (by decide), ← String.toList_inj, String.toList_ofList,
    Path.toList_textJoin, Path.toList_textJoin, pieces, Path.joinSegments_flatMap_splitChars]
  exact Text.replaceFrom_char '\\' '/' _

/-- **The category of a file** is made of the names of the directories on the way to it. -/
theorem categoryOf_eq (shows : ShowsNames tree) (nonempty : root.toList ≠ [])
    (proper : ∀ name ∈ names ++ [last], IsName name) :
    categoryOf root (tree.along (.ofText root) (names ++ [last])) = categoryName tree names := by
  have properShown := shown_proper shows proper
  rw [List.map_append, List.map_singleton] at properShown
  rw [categoryOf, Files.Tree.shown_along, List.map_append, List.map_singleton, FoundPath.ofText,
    Path.below_parent nonempty (Path.steps_ne_nil nonempty)
      fun name isIn => (properShown name isIn).isSegment]
  exact replace_textJoin _

end Names

/-! ## Categories -/

/-- A category with files, all of them its own. -/
structure Filed (root : String) (category : Category) : Prop where
  filled : category.files ≠ []
  own : ∀ file ∈ category.files, categoryOf root file = category.name

def filesOf (categories : List Category) : List FoundPath :=
  categories.flatMap Category.files

def Ascending (categories : List Category) : Prop :=
  categories.Pairwise fun first second => first.name.toList < second.name.toList

/-- Files put into categories one after another, and sorted then. -/
def categorize (root : String) (files : List FoundPath) : List Category :=
  (files.foldl (addFile root) []).map Category.sorted

section Categories

variable {root : String} {categories : List Category} {file : FoundPath} {name : String}

private theorem before_iff {left right : String} :
    Text.before left right = true ↔ left.toList < right.toList :=
  Path.charsBefore_iff left.toList right.toList

private theorem filesOf_addFixture (name : String) (file : FoundPath) (categories : List Category) :
    (filesOf (addFixture name file categories)).Perm (file :: filesOf categories) := by
  induction categories with
  | nil => exact List.Perm.refl _
  | cons first rest inductionHypothesis =>
      rw [addFixture]
      split
      · exact List.Perm.refl _
      · split
        · exact (inductionHypothesis.append_left first.files).trans List.perm_middle
        · have isMiddle : (first.files ++ [file] ++ filesOf rest).Perm
              (file :: (first.files ++ filesOf rest)) := by
            rw [List.append_assoc]
            exact List.perm_middle
          exact isMiddle

private theorem filed_addFixture (filed : ∀ category ∈ categories, Filed root category) :
    ∀ category ∈ addFixture (categoryOf root file) file categories, Filed root category := by
  have isNew : Filed root ⟨categoryOf root file, [file]⟩ :=
    ⟨List.cons_ne_nil _ _, fun other isIn => by rw [List.mem_singleton.mp isIn]⟩
  induction categories with
  | nil =>
      intro category isIn
      rw [List.mem_singleton.mp isIn]
      exact isNew
  | cons first rest inductionHypothesis =>
      obtain ⟨filedFirst, filedRest⟩ := List.forall_mem_cons.mp filed
      rw [addFixture]
      split
      · exact List.forall_mem_cons.mpr ⟨isNew, filed⟩
      · next notBefore =>
          split
          · exact List.forall_mem_cons.mpr ⟨filedFirst, inductionHypothesis filedRest⟩
          · next notBehind =>
              have same := Path.eq_of_not_before (Bool.eq_false_iff.mpr notBefore)
                (Bool.eq_false_iff.mpr notBehind)
              refine List.forall_mem_cons.mpr ⟨⟨?_, fun other isIn => ?_⟩, filedRest⟩
              · exact List.append_ne_nil_of_right_ne_nil _ (List.cons_ne_nil _ _)
              · rcases List.mem_append.mp isIn with isOld | isFile
                · exact filedFirst.own other isOld
                · rw [List.mem_singleton.mp isFile]
                  exact same

private theorem name_of_mem_addFixture {category : Category}
    (isIn : category ∈ addFixture name file categories) :
    category.name = name ∨ ∃ old ∈ categories, category.name = old.name := by
  induction categories with
  | nil => exact Or.inl (by rw [List.mem_singleton.mp isIn])
  | cons first rest inductionHypothesis =>
      rw [addFixture] at isIn
      split at isIn
      · rcases List.mem_cons.mp isIn with rfl | isOld
        · exact Or.inl rfl
        · exact Or.inr ⟨category, isOld, rfl⟩
      · split at isIn
        · rcases List.mem_cons.mp isIn with rfl | isLater
          · exact Or.inr ⟨category, List.mem_cons_self, rfl⟩
          · obtain isName | ⟨old, isOld, same⟩ := inductionHypothesis isLater
            · exact Or.inl isName
            · exact Or.inr ⟨old, List.mem_cons_of_mem _ isOld, same⟩
        · rcases List.mem_cons.mp isIn with rfl | isLater
          · exact Or.inr ⟨first, List.mem_cons_self, rfl⟩
          · exact Or.inr ⟨category, List.mem_cons_of_mem _ isLater, rfl⟩

theorem Ascending.addFixture (ascending : Ascending categories) (name : String) (file : FoundPath) :
    Ascending (addFixture name file categories) := by
  induction categories with
  | nil => exact List.pairwise_singleton _ _
  | cons first rest inductionHypothesis =>
      obtain ⟨ahead, ascendingRest⟩ := List.pairwise_cons.mp ascending
      rw [Fixture.addFixture]
      split
      · next isBefore =>
          refine List.pairwise_cons.mpr ⟨List.forall_mem_cons.mpr ⟨before_iff.mp isBefore, ?_⟩, ascending⟩
          exact fun later isLater => (before_iff.mp isBefore).trans (ahead later isLater)
      · split
        · next isBehind =>
            refine List.pairwise_cons.mpr ⟨fun later isLater => ?_, inductionHypothesis ascendingRest⟩
            obtain isName | ⟨old, isOld, same⟩ := name_of_mem_addFixture isLater
            · rw [isName]
              exact before_iff.mp isBehind
            · rw [same]
              exact ahead old isOld
        · exact List.pairwise_cons.mpr ⟨ahead, ascendingRest⟩

private theorem foldl_addFile (files : List FoundPath) (ascending : Ascending categories)
    (filed : ∀ category ∈ categories, Filed root category) :
    Ascending (files.foldl (addFile root) categories)
      ∧ (∀ category ∈ files.foldl (addFile root) categories, Filed root category)
      ∧ (filesOf (files.foldl (addFile root) categories)).Perm
          (files.filter isFixture ++ filesOf categories) := by
  induction files generalizing categories with
  | nil => exact ⟨ascending, filed, List.Perm.refl _⟩
  | cons file files inductionHypothesis =>
      rw [List.foldl_cons, addFile]
      by_cases fixture : isFixture file = true
      · rw [if_pos fixture, List.filter_cons_of_pos fixture]
        obtain ⟨ascendingAll, filedAll, isPerm⟩ :=
          inductionHypothesis (ascending.addFixture _ file) (filed_addFixture filed)
        refine ⟨ascendingAll, filedAll, isPerm.trans ?_⟩
        exact ((filesOf_addFixture _ file categories).append_left _).trans List.perm_middle
      · rw [if_neg fixture, List.filter_cons_of_neg fixture]
        exact inductionHypothesis ascending filed

/-- **Categories hold the fixtures**, each once, and each category only its own. -/
theorem categorize_spec (root : String) (files : List FoundPath) :
    Ascending (categorize root files)
      ∧ (∀ category ∈ categorize root files, Filed root category)
      ∧ (filesOf (categorize root files)).Perm (files.filter isFixture) := by
  obtain ⟨ascending, filed, isPerm⟩ := @foldl_addFile root [] files List.Pairwise.nil
    fun _ none => absurd none List.not_mem_nil
  have sorted (files : List FoundPath) : (sortFiles files).Perm files := List.mergeSort_perm _ _
  have noFiles : filesOf [] = [] := rfl
  rw [noFiles, List.append_nil] at isPerm
  refine ⟨List.pairwise_map.mpr ascending, List.forall_mem_map.mpr fun category isIn =>
    ⟨fun none => ?_, fun file isFile => ?_⟩, List.Perm.trans ?_ isPerm⟩
  · exact (filed category isIn).filled (List.Perm.eq_nil ((none : sortFiles _ = []) ▸ (sorted _).symm))
  · exact (filed category isIn).own file ((sorted _).mem_iff.mp isFile)
  · rw [filesOf, categorize, List.flatMap_map]
    exact List.Perm.flatMap_left _ fun category _ => sorted category.files

end Categories

/-! ## Requests -/

section Requests

variable {categories : List Category} {test : Category → Bool}

private theorem requests_iff (request : String) (category : Category) :
    requests request category = true
      ↔ category.name = request ∨ (request ++ "/").toList <+: category.name.toList := by
  rw [requests, Bool.or_eq_true, beq_iff_eq]
  exact or_congr_right List.isPrefixOf_iff_prefix

/-- A category that comes before all others is put ahead of them. -/
private theorem insertCategory_ahead {category : Category}
    (ahead : ∀ other ∈ categories, category.name.toList < other.name.toList) :
    insertCategory category categories = category :: categories := by
  cases categories with
  | nil => rfl
  | cons first rest => rw [insertCategory, if_pos (before_iff.mpr (ahead first List.mem_cons_self))]

/-- **Putting a category in its place** keeps it among those chosen from categories in order. -/
private theorem insertCategory_filter (ascending : Ascending categories) {category : Category}
    (isIn : category ∈ categories) :
    insertCategory category (categories.filter test)
      = categories.filter fun other => test other || other == category := by
  induction categories with
  | nil => cases isIn
  | cons first rest inductionHypothesis =>
      obtain ⟨ahead, ascendingRest⟩ := List.pairwise_cons.mp ascending
      rcases List.mem_cons.mp isIn with rfl | isLater
      · have others : rest.filter (fun other => test other || other == category) = rest.filter test := by
          refine List.filter_congr fun other isOther => ?_
          have different : other ≠ category := by
            rintro rfl
            exact lt_irrefl _ (ahead other isOther)
          rw [beq_eq_false_iff_ne.mpr different, Bool.or_false]
        have kept : insertCategory category (rest.filter test) = category :: rest.filter test :=
          insertCategory_ahead fun other isOther => ahead other (List.mem_of_mem_filter isOther)
        have isKept : (category :: rest).filter (fun other => test other || other == category)
            = category :: rest.filter test := by
          rw [List.filter_cons, beq_self_eq_true, Bool.or_true, if_pos rfl, others]
        rw [isKept]
        by_cases passes : test category = true
        · have notBefore : ¬ Text.before category.name category.name = true :=
            fun isBefore => lt_irrefl _ (before_iff.mp isBefore)
          rw [List.filter_cons_of_pos passes, insertCategory, if_neg notBefore, if_neg notBefore]
        · rw [List.filter_cons_of_neg passes, kept]
      · have isBehind := ahead category isLater
        have different : first ≠ category := by
          rintro rfl
          exact lt_irrefl _ isBehind
        have sameTest : (test first || first == category) = test first := by
          rw [beq_eq_false_iff_ne.mpr different, Bool.or_false]
        by_cases passes : test first = true
        · have notBefore : ¬ Text.before category.name first.name = true :=
            fun isBefore => lt_asymm isBehind (before_iff.mp isBefore)
          rw [List.filter_cons_of_pos passes, insertCategory, if_neg notBefore,
            if_pos (before_iff.mpr isBehind), inductionHypothesis ascendingRest isLater,
            List.filter_cons_of_pos (by rw [sameTest, passes])]
        · rw [List.filter_cons_of_neg passes, inductionHypothesis ascendingRest isLater,
            List.filter_cons_of_neg (by rw [sameTest]; exact passes)]

/-- What a pass for one request holds after some of the categories, and whether it has found one. -/
private theorem foldl_requested (ascending : Ascending categories) (request : String)
    {seen : List Category} (within : ∀ category ∈ seen, category ∈ categories)
    (test : Category → Bool) (isFound : Bool) :
    seen.foldl
        (fun found category =>
          if requests request category then (insertCategory category found.1, true) else found)
        (categories.filter test, isFound)
      = (categories.filter fun category =>
            test category || (seen.contains category && requests request category),
          isFound || seen.any (requests request)) := by
  induction seen generalizing test isFound with
  | nil => simp
  | cons first rest inductionHypothesis =>
      obtain ⟨isIn, withinRest⟩ := List.forall_mem_cons.mp within
      rw [List.foldl_cons]
      by_cases isRequested : requests request first = true
      · rw [if_pos isRequested, insertCategory_filter ascending isIn, inductionHypothesis withinRest]
        refine Prod.ext (List.filter_congr fun category _ => ?_) (by simp [isRequested])
        by_cases same : category = first
        · simp [same, isRequested]
        · simp [same, beq_eq_false_iff_ne.mpr same]
      · rw [if_neg isRequested, inductionHypothesis withinRest]
        refine Prod.ext (List.filter_congr fun category _ => ?_) (by simp [isRequested])
        by_cases same : category = first
        · simp [same, isRequested]
        · simp [same]

/-- The pass over all categories for one request adds those requested, and finds whether there is
one. -/
theorem insertRequested_filter (ascending : Ascending categories) (request : String) :
    insertRequested request categories (categories.filter test)
      = (categories.filter fun category => test category || requests request category,
          categories.any (requests request)) := by
  rw [insertRequested, foldl_requested ascending request (fun _ isIn => isIn), Bool.false_or]
  refine Prod.ext (List.filter_congr fun category isIn => ?_) rfl
  rw [List.contains_iff_mem.mpr isIn, Bool.true_and]

/-- One request after another adds to the choice what it asks for, or a warning. -/
private theorem foldl_choose (ascending : Ascending categories) (requested : List String)
    (test : Category → Bool) (warnings : List String) :
    requested.foldl (choose categories) ⟨categories.filter test, warnings⟩
      = ⟨categories.filter fun category =>
            test category || requested.any fun wanted => requests (trimRequest wanted) category,
          warnings ++ (requested.map trimRequest).filterMap fun request =>
            if categories.any (requests request) then none
            else some (requestWarning categories request)⟩ := by
  induction requested generalizing test warnings with
  | nil => simp
  | cons wanted rest inductionHypothesis =>
      rw [List.foldl_cons, choose, insertRequested_filter ascending]
      dsimp only
      rw [inductionHypothesis]
      simp only [List.any_cons, Bool.or_assoc, List.map_cons, List.filterMap_cons]
      by_cases isFound : categories.any (requests (trimRequest wanted)) = true
      · simp only [isFound, if_true, List.append_nil]
      · simp only [isFound, if_false, Bool.false_eq_true, List.append_assoc, List.singleton_append]

/-- **A choice is a filter**: it has the categories that a request asks for, and warns about each
request for none. -/
theorem select_eq (ascending : Ascending categories) (requested : List String) :
    select categories requested =
      { categories := categories.filter fun category =>
          requested.isEmpty || requested.any fun wanted => requests (trimRequest wanted) category
        warnings := (requested.map trimRequest).filterMap fun request =>
          if categories.any (requests request) then none
          else some (requestWarning categories request) } := by
  cases requested with
  | nil => simp [select]
  | cons wanted rest =>
      have none : ([] : List Category) = categories.filter fun _ => false := by simp
      rw [select, List.isEmpty_cons, if_neg Bool.false_ne_true]
      show List.foldl (choose categories) ⟨[], []⟩ (wanted :: rest) = _
      rw [none, foldl_choose ascending]
      rfl

theorem mem_select_iff (ascending : Ascending categories) (requested : List String)
    (category : Category) :
    category ∈ (select categories requested).categories
      ↔ category ∈ categories ∧ Wanted requested category.name := by
  rw [select_eq ascending, List.mem_filter, Bool.or_eq_true, List.isEmpty_iff, List.any_eq_true, Wanted]
  simp only [requests_iff]

end Requests

/-! ## The choice -/

section Choice

variable {tree : Tree} {root : String} {location : Location}

def chosenFiles (tree : Tree) (root : String) (requested : List String) : List FoundPath :=
  filesOf (select (categorize root (tree.filesBelow root)) requested).categories

/-- A file is chosen if it is a fixture below the root in a wanted category. -/
theorem mem_chosenFiles_iff (tree : Tree) (root : String) (requested : List String)
    (file : FoundPath) :
    file ∈ chosenFiles tree root requested
      ↔ file ∈ tree.filesBelow root ∧ isFixture file = true ∧ Wanted requested (categoryOf root file) := by
  obtain ⟨ascending, filed, isPerm⟩ := categorize_spec root (tree.filesBelow root)
  rw [← and_assoc, ← List.mem_filter, ← isPerm.mem_iff, chosenFiles, filesOf, filesOf]
  simp only [List.mem_flatMap, mem_select_iff ascending]
  constructor
  · rintro ⟨category, ⟨isCategory, wanted⟩, isFile⟩
    rw [(filed category isCategory).own file isFile]
    exact ⟨⟨category, isCategory, isFile⟩, wanted⟩
  · rintro ⟨⟨category, isCategory, isFile⟩, wanted⟩
    rw [(filed category isCategory).own file isFile] at wanted
    exact ⟨category, ⟨isCategory, wanted⟩, isFile⟩

private theorem chosenFiles_nodup (sound : tree.Sound) (root : String) (requested : List String) :
    (chosenFiles tree root requested).Nodup := by
  obtain ⟨ascending, -, isPerm⟩ := categorize_spec root (tree.filesBelow root)
  have distinct : (filesOf (categorize root (tree.filesBelow root))).Nodup :=
    isPerm.nodup_iff.mpr ((List.Nodup.of_map _ (sound.pathsBelow_nodup root)).filter _)
  rw [chosenFiles, select_eq ascending]
  exact distinct.sublist (List.filter_sublist.flatMap _)

/-- Only a choice of no category is a choice of no file. -/
theorem chosenFiles_eq_nil_iff (tree : Tree) (root : String) (requested : List String) :
    chosenFiles tree root requested = []
      ↔ (select (categorize root (tree.filesBelow root)) requested).categories = [] := by
  obtain ⟨ascending, filed, -⟩ := categorize_spec root (tree.filesBelow root)
  rw [chosenFiles, filesOf, List.flatMap_eq_nil_iff]
  refine ⟨fun none => List.eq_nil_iff_forall_not_mem.mpr fun category isIn => ?_, fun none => ?_⟩
  · exact (filed category ((mem_select_iff ascending requested category).mp isIn).1).filled
      (none category isIn)
  · rw [none]
    exact fun _ isIn => absurd isIn List.not_mem_nil

private theorem nonempty_of_locate (located : tree.locate root = .ok location) : root.toList ≠ [] :=
  (Files.Tree.trail?_eq_ok_iff.mp (Files.Tree.locate_eq_ok_iff.mp located).1).2.1

/-- A file at proper names is chosen exactly if it is selected. -/
theorem mem_chosenFiles_iff_selected (sound : tree.Sound) (shows : ShowsNames tree)
    (located : tree.locate root = .ok location) {names : List String} (filled : names ≠ [])
    {content : Files.Content} (isFile : tree.node? (location ++ names) = some (.file content))
    (requested : List String) :
    tree.along (.ofText root) names ∈ chosenFiles tree root requested
      ↔ Selected tree location requested names := by
  have proper : ∀ name ∈ names, IsName name := fun name isIn =>
    sound.names (by rw [isFile]; rfl) name (List.mem_append_right location isIn)
  have isBelow : tree.along (.ofText root) names ∈ tree.filesBelow root :=
    sound.mem_filesBelow_iff.mpr ⟨location, names, content, located, filled, isFile, rfl⟩
  obtain ⟨init, last, rfl⟩ := (List.eq_nil_or_concat' names).resolve_left filled
  rw [mem_chosenFiles_iff, isFixture_iff shows proper,
    categoryOf_eq shows (nonempty_of_locate located) proper]
  constructor
  · rintro ⟨-, isFixture, wanted⟩
    refine ⟨⟨content, isFile⟩, ⟨last, List.getLast?_concat, isFixture⟩, ?_⟩
    rwa [List.dropLast_concat]
  · rintro ⟨-, ⟨name, isLast, isFixture⟩, wanted⟩
    rw [List.getLast?_concat] at isLast
    obtain rfl := Option.some.inj isLast
    rw [List.dropLast_concat] at wanted
    exact ⟨isBelow, isFixture, wanted⟩

/-- Values of a function are the image of a list of what they are values of. -/
theorem exists_map_eq {α β : Type} {f : α → β} {holds : α → Prop} {values : List β}
    (each : ∀ value ∈ values, ∃ source, holds source ∧ f source = value) :
    ∃ sources : List α, (∀ source ∈ sources, holds source) ∧ sources.map f = values := by
  induction values with
  | nil => exact ⟨[], fun _ none => absurd none List.not_mem_nil, rfl⟩
  | cons value values inductionHypothesis =>
      obtain ⟨isFirst, isLater⟩ := List.forall_mem_cons.mp each
      obtain ⟨source, holdsFirst, rfl⟩ := isFirst
      obtain ⟨sources, holdsLater, rfl⟩ := inductionHypothesis isLater
      exact ⟨source :: sources, List.forall_mem_cons.mpr ⟨holdsFirst, holdsLater⟩, rfl⟩

/-- **The chosen categories hold the selected files**, each once: by the root's path and the names
on the way to the file. -/
theorem chosen_spec (sound : tree.Sound) (shows : ShowsNames tree)
    (located : tree.locate root = .ok location) (requested : List String) :
    ∃ chosen : List (List String), chosen.Nodup
      ∧ (∀ names, names ∈ chosen ↔ Selected tree location requested names)
      ∧ chosenFiles tree root requested = chosen.map (tree.along (.ofText root)) := by
  let IsBelow (names : List String) : Prop :=
    names ≠ [] ∧ ∃ content, tree.node? (location ++ names) = some (.file content)
  have each : ∀ file ∈ chosenFiles tree root requested, ∃ names, IsBelow names
      ∧ tree.along (.ofText root) names = file := by
    intro file isIn
    obtain ⟨there, names, content, isThere, filled, isFile, rfl⟩ :=
      sound.mem_filesBelow_iff.mp ((mem_chosenFiles_iff tree root requested file).mp isIn).1
    obtain rfl : location = there := Except.ok.inj (located.symm.trans isThere)
    exact ⟨names, ⟨filled, content, isFile⟩, rfl⟩
  have proper {names : List String} (isBelow : IsBelow names) : ∀ name ∈ names, IsName name := by
    obtain ⟨-, content, isFile⟩ := isBelow
    exact fun name isIn => sound.names (by rw [isFile]; rfl) name (List.mem_append_right location isIn)
  obtain ⟨chosen, isBelow, isChosen⟩ := exists_map_eq each
  refine ⟨chosen, ?_, fun names => ⟨fun isIn => ?_, fun selected => ?_⟩, isChosen.symm⟩
  · have distinct := chosenFiles_nodup sound root requested
    rw [← isChosen] at distinct
    exact distinct.of_map _
  · obtain ⟨filled, content, isFile⟩ := isBelow names isIn
    apply (mem_chosenFiles_iff_selected sound shows located filled isFile requested).mp
    rw [← isChosen]
    exact List.mem_map_of_mem isIn
  · obtain ⟨content, isFile⟩ := selected.isFile
    have filled : names ≠ [] := by
      rintro rfl
      obtain ⟨name, isLast, -⟩ := selected.isFixture
      cases isLast
    have isIn := (mem_chosenFiles_iff_selected sound shows located filled isFile requested).mpr selected
    rw [← isChosen] at isIn
    obtain ⟨others, isOther, same⟩ := List.mem_map.mp isIn
    have samePath := congrArg FoundPath.path same
    rw [Files.Tree.path_along, Files.Tree.path_along] at samePath
    rwa [Files.Tree.foldl_join_injective (proper (isBelow others isOther))
      (proper ⟨filled, content, isFile⟩) samePath] at isOther

end Choice

end Tangle.Fixture
