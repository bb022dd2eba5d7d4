import Mathlib.Data.List.Flatten
import Mathlib.Data.List.MinMax
import Mathlib.Data.List.Nodup
import Tangle.Proofs.Files.Below

/-!
Contract: what a walk below a directory finds.

Owns: the files that the recursion over listings reaches, that they are all files below the
directory, each once, and what the two programs that walk take from them.

Does **not** own: which files are stale (`Tangle.Proofs.Files.Stale`) or chosen
(`Tangle.Proofs.Fixture.Selection`).

## Why a walk ends

A file below a directory lies no deeper than the longest location of the tree has names, and each
level of the walk takes one of them. So the bound on levels is never what ends a walk.
-/

set_option autoImplicit false

namespace Tangle.Files.Tree

variable {tree : Tree}

/-! ## Listings -/

section Listings

variable {path : String} {location : Location} {name : String}

private theorem nameIn?_eq_some_iff {entry : Location × Node} :
    nameIn? location entry = some name ↔ entry.1 = location ++ [name] := by
  unfold nameIn?
  constructor
  · intro isName
    split at isName
    · next within => rw [← within, List.dropLast_append_getLast? name isName]
    · cases isName
  · intro isPlace
    rw [isPlace, List.dropLast_concat, if_pos rfl, List.getLast?_concat]

def namesIn (tree : Tree) (location : Location) : List String :=
  tree.entries.filterMap (nameIn? location)

private theorem Sound.mem_namesIn_iff (sound : tree.Sound) :
    name ∈ tree.namesIn location ↔ (tree.node? (location ++ [name])).isSome = true := by
  rw [namesIn, List.mem_filterMap]
  constructor
  · rintro ⟨entry, isEntry, isName⟩
    rw [← nameIn?_eq_some_iff.mp isName, sound.node?_of_mem isEntry]
    rfl
  · intro present
    obtain ⟨node, isNode⟩ := Option.isSome_iff_exists.mp present
    have visible : location ++ [name] ≠ [] := List.append_ne_nil_of_right_ne_nil _ (List.cons_ne_nil _ _)
    exact ⟨_, mem_entries_of_node? visible isNode, nameIn?_eq_some_iff.mpr rfl⟩

private theorem Sound.namesIn_nodup (sound : tree.Sound) (location : Location) :
    (tree.namesIn location).Nodup := by
  have apart : tree.entries.Pairwise fun first second => first.1 ≠ second.1 :=
    List.pairwise_map.mp sound.distinct
  refine List.pairwise_filterMap.mpr (apart.imp ?_)
  intro first second different name isFirst other isSecond same
  rw [nameIn?_eq_some_iff.mp isFirst, nameIn?_eq_some_iff.mp isSecond, same] at different
  exact different rfl

def entryFor (tree : Tree) (name : String) : Entry :=
  ⟨name, tree.shown name⟩

private theorem list_eq (located : tree.locate path = .ok location)
    (isDirectory : tree.node? location = some .directory) :
    tree.list path = .ok ((tree.namesIn location).map tree.entryFor) := by
  rw [list, located]
  show (do tree.requireDirectory location; _) = _
  rw [requireDirectory_eq_ok_iff.mpr isDirectory]
  rfl

private theorem locate_of_list {entries : List Entry} (listed : tree.list path = .ok entries) :
    ∃ location, tree.locate path = .ok location ∧ tree.node? location = some .directory := by
  obtain ⟨location, located, listed⟩ := bind_eq_ok_iff.mp listed
  obtain ⟨_, required, -⟩ := bind_eq_ok_iff.mp listed
  exact ⟨location, located, requireDirectory_eq_ok_iff.mp required⟩

end Listings

/-! ## The files that a walk reaches -/

/-- The files that a walk reaches within a number of levels, in its order. -/
def filesWithin (tree : Tree) : Nat → FoundPath → List FoundPath
  | 0, _ => []
  | levels + 1, directory =>
      match tree.list directory.path with
      | .error _ => []
      | .ok entries =>
          entries.flatMap fun entry =>
            if tree.kindOf? (directory.enter entry).path = some .directory then
              tree.filesWithin levels (directory.enter entry)
            else [directory.enter entry]

def filesBelow (tree : Tree) (path : String) : List FoundPath :=
  tree.filesWithin tree.levels (.ofText path)

def pathsBelow (tree : Tree) (path : String) : List String :=
  (tree.filesBelow path).map FoundPath.path

section Runs

variable {α β : Type}

/-- Steps that only read add up to a fold. -/
theorem run_foldlM {step : α → β → StateM Tree α} {next : α → β → α}
    (each : ∀ taken item, (step taken item).run tree = (next taken item, tree)) (items : List β)
    (taken : α) : (items.foldlM step taken).run tree = (items.foldl next taken, tree) := by
  induction items generalizing taken with
  | nil => rfl
  | cons item rest inductionHypothesis =>
      rw [List.foldlM_cons, run_bind_eq (each taken item), inductionHypothesis, List.foldl_cons]

theorem run_isDirectory (tree : Tree) (path : String) :
    (isDirectory path : StateM Tree Bool).run tree
      = (decide (tree.kindOf? path = some .directory), tree) := by
  show (tree.kindOf? path == some .directory, tree) = _
  rw [beq_eq_decide]

/-- **A walk takes the files it reaches**, one after another. -/
theorem run_walk (take : α → FoundPath → α) (levels : Nat) (taken : α) (directory : FoundPath) :
    (Files.walk take levels taken directory : StateM Tree α).run tree
      = ((tree.filesWithin levels directory).foldl take taken, tree) := by
  induction levels generalizing taken directory with
  | zero => rfl
  | succ levels inductionHypothesis =>
      have lists : (FileAccess.list directory.path : StateM Tree _).run tree
          = (tree.list directory.path, tree) := rfl
      rw [Files.walk, run_bind_eq lists, filesWithin]
      cases tree.list directory.path with
      | error failure => rfl
      | ok entries =>
          dsimp only
          rw [List.foldl_flatMap]
          refine run_foldlM (fun taken entry => ?_) entries taken
          rw [run_bind_eq (run_isDirectory tree _)]
          by_cases isDirectory : tree.kindOf? (directory.enter entry).path = some .directory
          · rw [if_pos isDirectory, if_pos (decide_eq_true isDirectory), inductionHypothesis]
          · rw [if_neg isDirectory, if_neg (by simpa using isDirectory)]
            rfl

theorem run_takeFiles (take : α → FoundPath → α) (taken : α) (path : String) :
    (takeFiles take taken path : StateM Tree α).run tree
      = ((tree.filesBelow path).foldl take taken, tree) := by
  have bounds : (FileAccess.levels : StateM Tree Nat).run tree = (tree.levels, tree) := rfl
  rw [takeFiles, run_bind_eq bounds, run_walk, filesBelow]

end Runs

/-! ## They are the files below the directory -/

/-- A path from a directory along names. -/
def along (tree : Tree) (directory : FoundPath) (names : List String) : FoundPath :=
  names.foldl (fun found name => found.enter (tree.entryFor name)) directory

section Along

variable (tree : Tree) (directory : FoundPath) (names : List String)

theorem path_along : (tree.along directory names).path = names.foldl Path.join directory.path := by
  induction names generalizing directory with
  | nil => rfl
  | cons name rest inductionHypothesis => exact inductionHypothesis _

theorem shown_along :
    (tree.along directory names).shown = (names.map tree.shown).foldl Path.join directory.shown := by
  induction names generalizing directory with
  | nil => rfl
  | cons name rest inductionHypothesis => exact inductionHypothesis _

end Along

section Within

variable {location : Location} {directory found : FoundPath} {name : String} {levels : Nat}

/-- What a name in a directory leads to. -/
private theorem Sound.through (sound : tree.Sound)
    (located : tree.locate directory.path = .ok location)
    (isDirectory : tree.node? location = some .directory)
    (present : (tree.node? (location ++ [name])).isSome = true) :
    IsName name ∧ ∃ node, tree.node? (location ++ [name]) = some node
      ∧ tree.locate (directory.enter (tree.entryFor name)).path = .ok (location ++ [name])
      ∧ (tree.kindOf? (directory.enter (tree.entryFor name)).path = some .directory
          ↔ node = .directory) := by
  have proper := sound.names present name (List.mem_append_right _ List.mem_cons_self)
  have leads := locate_join located isDirectory proper present
  obtain ⟨node, isNode⟩ := Option.isSome_iff_exists.mp present
  refine ⟨proper, node, isNode, leads, ?_⟩
  show tree.kindOf? (Path.join directory.path name) = _ ↔ _
  rw [kindOf?, leads]
  dsimp only
  rw [isNode]
  cases node with
  | directory => exact iff_of_true rfl rfl
  | file content => exact iff_of_false (fun same => by cases same) (fun same => by cases same)

/-- **A walk reaches exactly the files below the directory** that are not too deep for it. -/
theorem Sound.mem_filesWithin_iff (sound : tree.Sound)
    (located : tree.locate directory.path = .ok location)
    (isDirectory : tree.node? location = some .directory) :
    found ∈ tree.filesWithin levels directory
      ↔ ∃ names content, names ≠ [] ∧ names.length ≤ levels
          ∧ tree.node? (location ++ names) = some (.file content)
          ∧ found = tree.along directory names := by
  induction levels generalizing directory location with
  | zero =>
      refine iff_of_false List.not_mem_nil ?_
      rintro ⟨names, -, visible, short, -⟩
      exact visible (List.length_eq_zero_iff.mp (Nat.le_zero.mp short))
  | succ levels inductionHypothesis =>
      rw [filesWithin, list_eq located isDirectory]
      simp only [List.mem_flatMap, List.mem_map]
      constructor
      · rintro ⟨entry, ⟨name, isIn, rfl⟩, reached⟩
        obtain ⟨-, node, isNode, leads, isKind⟩ :=
          sound.through located isDirectory (sound.mem_namesIn_iff.mp isIn)
        cases node with
        | directory =>
            rw [if_pos (isKind.mpr rfl), inductionHypothesis leads isNode] at reached
            obtain ⟨rest, content, -, short, isFile, rfl⟩ := reached
            refine ⟨name :: rest, content, List.cons_ne_nil _ _, Nat.succ_le_succ short, ?_, rfl⟩
            rwa [List.append_cons]
        | file content =>
            rw [if_neg (mt isKind.mp fun same => by cases same), List.mem_singleton] at reached
            exact ⟨[name], content, List.cons_ne_nil _ _, Nat.le_add_left 1 levels, isNode, reached⟩
      · rintro ⟨names, content, visible, short, isFile, rfl⟩
        obtain ⟨name, rest, rfl⟩ := List.exists_cons_of_ne_nil visible
        rw [List.append_cons] at isFile
        have present := sound.present_above (by rw [isFile]; rfl)
        obtain ⟨-, node, isNode, leads, isKind⟩ := sound.through located isDirectory present
        refine ⟨_, ⟨name, sound.mem_namesIn_iff.mpr present, rfl⟩, ?_⟩
        by_cases direct : rest = []
        · subst direct
          rw [List.append_nil, isNode] at isFile
          obtain rfl := Option.some.inj isFile
          rw [if_neg (mt isKind.mp fun same => by cases same)]
          exact List.mem_singleton.mpr rfl
        · have isAbove := sound.node?_above rest direct (by rw [isFile]; rfl)
          rw [isAbove] at isNode
          rw [if_pos (isKind.mpr (Option.some.inj isNode).symm), inductionHypothesis leads isAbove]
          exact ⟨rest, content, direct, Nat.le_of_succ_le_succ short, isFile, rfl⟩

/-- What a walk reaches goes on from the directory by names. -/
private theorem Sound.path_of_mem_filesWithin (sound : tree.Sound)
    (located : tree.locate directory.path = .ok location)
    (isDirectory : tree.node? location = some .directory)
    (reached : found ∈ tree.filesWithin levels directory) :
    ∃ names : List String, (∀ name ∈ names, IsName name)
      ∧ found.path = names.foldl Path.join directory.path := by
  obtain ⟨names, content, -, -, isFile, rfl⟩ :=
    (sound.mem_filesWithin_iff located isDirectory).mp reached
  exact ⟨names, fun name isIn =>
    sound.names (by rw [isFile]; rfl) name (List.mem_append_right _ isIn), path_along tree _ names⟩

/-- **No file is reached twice.** -/
theorem Sound.filesWithin_nodup (sound : tree.Sound)
    (located : tree.locate directory.path = .ok location)
    (isDirectory : tree.node? location = some .directory) :
    ((tree.filesWithin levels directory).map FoundPath.path).Nodup := by
  induction levels generalizing directory location with
  | zero => exact List.nodup_nil
  | succ levels inductionHypothesis =>
      rw [filesWithin, list_eq located isDirectory]
      dsimp only
      rw [List.flatMap_map, List.map_flatMap, List.nodup_flatMap]
      constructor
      · intro name isIn
        obtain ⟨-, node, isNode, leads, isKind⟩ :=
          sound.through located isDirectory (sound.mem_namesIn_iff.mp isIn)
        split
        · next isBelow =>
            rw [isKind.mp isBelow] at isNode
            exact inductionHypothesis leads isNode
        · exact List.nodup_singleton _
      · refine (sound.namesIn_nodup location).imp_of_mem ?_
        -- What is reached through a name goes on behind it, so names keep it apart.
        have behind {name path : String} (isIn : name ∈ tree.namesIn location)
            (reached : path ∈ (if tree.kindOf? (directory.enter (tree.entryFor name)).path
                = some .directory then tree.filesWithin levels (directory.enter (tree.entryFor name))
              else [directory.enter (tree.entryFor name)]).map FoundPath.path) :
            ∃ rest, (∀ other ∈ name :: rest, IsName other)
              ∧ path = (name :: rest).foldl Path.join directory.path := by
          obtain ⟨proper, node, isNode, leads, isKind⟩ :=
            sound.through located isDirectory (sound.mem_namesIn_iff.mp isIn)
          obtain ⟨found, isFound, rfl⟩ := List.mem_map.mp reached
          split at isFound
          · next isBelow =>
              rw [isKind.mp isBelow] at isNode
              obtain ⟨rest, properRest, isPath⟩ := sound.path_of_mem_filesWithin leads isNode isFound
              exact ⟨rest, List.forall_mem_cons.mpr ⟨proper, properRest⟩, isPath⟩
          · rw [List.mem_singleton.mp isFound]
            exact ⟨[], List.forall_mem_singleton.mpr proper, rfl⟩
        intro first second isFirst isSecond different path reached reachedToo
        obtain ⟨rest, proper, rfl⟩ := behind isFirst reached
        obtain ⟨others, properOthers, same⟩ := behind isSecond reachedToo
        exact different (List.cons.inj (foldl_join_injective proper properOthers same)).1

end Within

section Below

variable {path : String} {location : Location} {found : FoundPath}

private theorem length_le_levels (visible : location ≠ []) {node : Node}
    (isNode : tree.node? location = some node) : location.length ≤ tree.levels := by
  have isLength : location.length ∈ tree.entries.map fun entry => entry.1.length :=
    List.mem_map_of_mem (mem_entries_of_node? visible isNode)
  exact List.le_max_of_le' 0 isLength (Nat.le_refl _)

/-- **The files below a directory**, at any depth. -/
theorem Sound.mem_filesBelow_iff (sound : tree.Sound) :
    found ∈ tree.filesBelow path
      ↔ ∃ location names content, tree.locate path = .ok location ∧ names ≠ []
          ∧ tree.node? (location ++ names) = some (.file content)
          ∧ found = tree.along (.ofText path) names := by
  constructor
  · intro reached
    cases listed : tree.list path with
    | error failure =>
        unfold filesBelow at reached
        cases isLevels : tree.levels with
        | zero =>
            rw [isLevels] at reached
            cases reached
        | succ levels =>
            have none : tree.filesWithin (levels + 1) (.ofText path) = [] := by
              rw [filesWithin, FoundPath.ofText, listed]
            rw [isLevels, none] at reached
            cases reached
    | ok entries =>
        obtain ⟨location, located, isDirectory⟩ := locate_of_list listed
        have leads : tree.locate (FoundPath.ofText path).path = .ok location := located
        rw [filesBelow, sound.mem_filesWithin_iff leads isDirectory] at reached
        obtain ⟨names, content, visible, -, isFile, same⟩ := reached
        exact ⟨location, names, content, located, visible, isFile, same⟩
  · rintro ⟨location, names, content, located, visible, isFile, same⟩
    have leads : tree.locate (FoundPath.ofText path).path = .ok location := located
    have isDirectory := sound.node?_above names visible (by rw [isFile]; rfl)
    have short := length_le_levels (List.append_ne_nil_of_right_ne_nil location visible) isFile
    rw [List.length_append] at short
    rw [filesBelow, sound.mem_filesWithin_iff leads isDirectory]
    exact ⟨names, content, visible, Nat.le_of_add_left_le short, isFile, same⟩

theorem Sound.mem_pathsBelow_iff (sound : tree.Sound) {directory : String} :
    path ∈ tree.pathsBelow directory
      ↔ ∃ location names content, tree.locate directory = .ok location ∧ names ≠ []
          ∧ tree.node? (location ++ names) = some (.file content)
          ∧ path = names.foldl Path.join directory := by
  rw [pathsBelow, List.mem_map]
  simp only [sound.mem_filesBelow_iff]
  constructor
  · rintro ⟨found, ⟨location, names, content, located, visible, isFile, rfl⟩, rfl⟩
    exact ⟨location, names, content, located, visible, isFile, path_along tree _ names⟩
  · rintro ⟨location, names, content, located, visible, isFile, rfl⟩
    exact ⟨_, ⟨location, names, content, located, visible, isFile, rfl⟩, path_along tree _ names⟩

theorem Sound.pathsBelow_nodup (sound : tree.Sound) (path : String) :
    (tree.pathsBelow path).Nodup := by
  cases listed : tree.list path with
  | error failure =>
      have none : tree.filesBelow path = [] := by
        apply List.eq_nil_iff_forall_not_mem.mpr
        intro found reached
        obtain ⟨location, names, content, located, visible, isFile, -⟩ :=
          sound.mem_filesBelow_iff.mp reached
        rw [list_eq located (sound.node?_above names visible (by rw [isFile]; rfl))] at listed
        cases listed
      rw [pathsBelow, none]
      exact List.nodup_nil
  | ok entries =>
      obtain ⟨location, located, isDirectory⟩ := locate_of_list listed
      exact sound.filesWithin_nodup located isDirectory

end Below

end Tangle.Files.Tree
