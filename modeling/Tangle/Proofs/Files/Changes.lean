import Tangle.Files.Outputs
import Tangle.Proofs.Files.Places

/-!
Contract: what requests to a file tree change and what they leave.

Owns: the one relation between a tree and what became of it (`Changes`), that reading survives
it, and the place of each single request in it.

Does **not** own: the outputs of an extraction (`Tangle.Proofs.Files.Writing`).

## One relation for every step

Nothing is ever taken away and no directory is replaced, so a walk that got through still gets
through. Files are left alone but for those at the places named in the relation. New
directories name no place at all, and a written file names its own.
-/

set_option autoImplicit false

namespace Tangle.Files

namespace Tree

/-! ## What a tree becomes -/

/-- `after` has all that `before` has; new are directories, and files at `written` places. -/
structure Changes (written : Location → Prop) (before after : Tree) : Prop where
  home : after.home = before.home
  directories : ∀ location, before.node? location = some .directory →
    after.node? location = some .directory
  present : ∀ location, (before.node? location).isSome = true →
    (after.node? location).isSome = true
  files : ∀ location, ¬ written location → ∀ content,
    after.node? location = some (.file content) ↔ before.node? location = some (.file content)

abbrev Grows (before after : Tree) : Prop :=
  Changes (fun _ => False) before after

namespace Changes

variable {written : Location → Prop} {before middle after : Tree}

theorem refl (tree : Tree) : Changes written tree tree :=
  ⟨rfl, fun _ isDirectory => isDirectory, fun _ present => present, fun _ _ _ => Iff.rfl⟩

theorem trans (first : Changes written before middle) (second : Changes written middle after) :
    Changes written before after where
  home := second.home.trans first.home
  directories location was := second.directories location (first.directories location was)
  present location was := second.present location (first.present location was)
  files location spared content :=
    (second.files location spared content).trans (first.files location spared content)

theorem mono {more : Location → Prop} (changes : Changes written before after)
    (within : ∀ location, written location → more location) : Changes more before after where
  home := changes.home
  directories := changes.directories
  present := changes.present
  files location spared := changes.files location fun isWritten => spared (within location isWritten)

/-- **Walks get through as before.** -/
theorem walk (changes : Changes written before after) {location there : Location} {hops : List Hop}
    (walked : before.walk location hops = .ok there) : after.walk location hops = .ok there := by
  induction hops generalizing location with
  | nil => exact walked
  | cons hop rest inductionHypothesis =>
      obtain ⟨next, entered, later⟩ := walk_cons_eq_ok_iff.mp walked
      obtain ⟨fromDirectory, leads, named⟩ := enter_eq_ok_iff.mp entered
      apply walk_cons_eq_ok_iff.mpr
      refine ⟨next, enter_eq_ok_iff.mpr ⟨changes.directories location fromDirectory, leads, ?_⟩,
        inductionHypothesis later⟩
      intro text isName
      exact changes.present next (named text isName)

theorem start (changes : Changes written before after) (trail : Trail) :
    after.start trail = before.start trail := by
  unfold Tree.start
  rw [changes.home]

theorem locate (changes : Changes written before after) {path : String} {location : Location}
    (located : before.locate path = .ok location) : after.locate path = .ok location := by
  obtain ⟨isTrail, walked, slashed⟩ := locate_eq_ok_iff.mp located
  apply locate_eq_ok_iff.mpr
  rw [changes.start]
  exact ⟨isTrail, changes.walk walked, fun slash => changes.directories location (slashed slash)⟩

end Changes

/-! ## Reading -/

section Reading

variable {tree : Tree} {path : String} {location : Location}

theorem read_eq_ok_iff {text : String} :
    tree.read path = .ok text
      ↔ ∃ location, tree.locate path = .ok location
          ∧ tree.node? location = some (.file (.text text)) := by
  unfold read
  rw [bind_eq_ok_iff]
  constructor
  · rintro ⟨location, located, isText⟩
    refine ⟨location, located, ?_⟩
    cases isNode : tree.node? location with
    | none =>
        rw [isNode] at isText
        cases isText
    | some node =>
        rw [isNode] at isText
        cases node with
        | directory => cases isText
        | file content =>
            cases content with
            | text own => rw [Except.ok.inj isText]
            | binary bytes => cases isText
  · rintro ⟨location, located, isFile⟩
    refine ⟨location, located, ?_⟩
    rw [isFile]
    rfl

/-- A path that leads to a file names that file. -/
theorem Sound.fileLocation?_of_file (sound : tree.Sound) {content : Content}
    (located : tree.locate path = .ok location)
    (isFile : tree.node? location = some (.file content)) :
    fileLocation? tree.home path = some location := by
  have noDirectory : tree.node? location ≠ some .directory := by
    rw [isFile]
    exact fun same => by cases same
  obtain ⟨isTrail, walked, slashed⟩ := locate_eq_ok_iff.mp located
  have noSlash : (trailOf path).slash = false := by
    rw [← Bool.not_eq_true]
    exact fun slash => noDirectory (slashed slash)
  apply fileLocation?_eq_some_iff.mpr
  refine ⟨isTrail, noSlash, ?_, (locate_eq_landing located).symm⟩
  rcases List.eq_nil_or_concat' (trailOf path).hops with none | ⟨front, last, isHops⟩
  · rw [none] at walked
    rw [← Except.ok.inj walked] at noDirectory
    exact absurd (sound.start_directory _) noDirectory
  · rw [isHops] at walked
    obtain ⟨above, walkedFront, one⟩ := walk_append_eq_ok_iff.mp walked
    obtain ⟨fromDirectory, rfl, -⟩ := enter_eq_ok_iff.mp (walk_one_eq_ok_iff.mp one)
    cases last with
    | here => exact absurd fromDirectory noDirectory
    | up =>
        have parent := sound.parent (by rw [fromDirectory]; rfl)
        exact absurd parent noDirectory
    | name text =>
        rw [isHops]
        exact ⟨text, List.getLast?_concat⟩

/-- **Reading survives** what is written elsewhere. -/
theorem Changes.read {written : Location → Prop} {before after : Tree}
    (changes : Changes written before after) (sound : before.Sound) {text : String}
    (reads : before.read path = .ok text)
    (spared : ∀ location, fileLocation? before.home path = some location → ¬ written location) :
    after.read path = .ok text := by
  obtain ⟨location, located, isFile⟩ := read_eq_ok_iff.mp reads
  have elsewhere := spared location (sound.fileLocation?_of_file located isFile)
  apply read_eq_ok_iff.mpr
  exact ⟨location, changes.locate located, (changes.files location elsewhere _).mpr isFile⟩

end Reading

/-! ## Slots -/

section Slots

variable {tree : Tree} {path : String} {location : Location}

/-- A slot for an entry is a proper name in a directory, at the landing of its path. -/
structure IsSlot (tree : Tree) (path : String) (above : Location) (name : String) : Prop where
  isTrail : trail? path = .ok (trailOf path)
  isLast : (trailOf path).hops.getLast? = some (.name name)
  walked : tree.walk (tree.start (trailOf path)) (trailOf path).hops.dropLast = .ok above
  isAbove : tree.node? above = some .directory

private theorem isSlot_of_slotFor {slash : Bool} (found : tree.slotFor path = .ok (.entry location slash)) :
    ∃ above name, IsSlot tree path above name ∧ location = above ++ [name]
      ∧ slash = (trailOf path).slash := by
  unfold slotFor at found
  obtain ⟨trail, isTrail, found⟩ := bind_eq_ok_iff.mp found
  obtain rfl := trail?_eq_ok isTrail
  cases isLast : (trailOf path).hops.getLast? with
  | none =>
      simp only [isLast] at found
      cases found
  | some last =>
      simp only [isLast] at found
      obtain ⟨above, walked, found⟩ := bind_eq_ok_iff.mp found
      obtain ⟨_, required, found⟩ := bind_eq_ok_iff.mp found
      cases last with
      | here => cases found
      | up => cases found
      | name text =>
          obtain ⟨rfl, rfl⟩ := Slot.entry.inj (Except.ok.inj found)
          exact ⟨above, text,
            ⟨isTrail, isLast, walked, requireDirectory_eq_ok_iff.mp required⟩, rfl, rfl⟩

namespace IsSlot

variable {above : Location} {name : String}

private theorem hops_eq (slot : IsSlot tree path above name) :
    (trailOf path).hops = (trailOf path).hops.dropLast ++ [.name name] := by
  obtain ⟨front, isHops⟩ := List.getLast?_eq_some_iff.mp slot.isLast
  rw [isHops, List.dropLast_concat]

theorem proper (slot : IsSlot tree path above name) : IsName name :=
  isName_of_mem_hops slot.isTrail (List.mem_of_getLast? slot.isLast)

private theorem landing_eq (slot : IsSlot tree path above name) :
    landing tree.home path = above ++ [name] := by
  rw [landing_eq_hops, slot.hops_eq, List.filterMap_append, List.foldl_append,
    ← walk_eq_follow slot.walked]
  rfl

end IsSlot

/-- An entry put into the place of no directory changes that place only. -/
theorem changes_put {above : Location} {name : String} (node : Node)
    (free : tree.node? (above ++ [name]) ≠ some .directory) :
    Changes (fun other => other = above ++ [name]) tree (tree.put (above ++ [name]) node) where
  home := rfl
  directories other isDirectory := by
    rw [node?_put_of_ne]
    · exact isDirectory
    · rintro rfl
      exact free isDirectory
  present other present := by
    by_cases same : other = above ++ [name]
    · subst same
      rw [node?_put_self _ _ (List.append_ne_nil_of_right_ne_nil above (List.cons_ne_nil name []))]
      rfl
    · rwa [node?_put_of_ne _ _ _ same]
  files other different content := by
    rw [node?_put_of_ne _ _ _ different]

end Slots

/-! ## Single requests -/

section Requests

variable {tree after : Tree} {path : String}

/-- A new directory is all that is new. -/
theorem makeDirectory_grows (sound : tree.Sound) (made : tree.makeDirectory path = .ok after) :
    Grows tree after ∧ after.Sound := by
  unfold makeDirectory at made
  obtain ⟨slot, found, made⟩ := bind_eq_ok_iff.mp made
  cases slot with
  | directory => cases made
  | entry location slash =>
      obtain ⟨above, name, isSlot, rfl, -⟩ := isSlot_of_slotFor found
      dsimp only at made
      split at made
      · cases made
      · next absent =>
          obtain rfl := Except.ok.inj made
          have isNone : tree.node? (above ++ [name]) = none := by
            rwa [Bool.not_eq_true, Option.isSome_eq_false_iff, Option.isNone_iff_eq_none] at absent
          have free : tree.node? (above ++ [name]) ≠ some .directory := by
            rw [isNone]
            exact fun same => by cases same
          have changes := changes_put .directory free
          refine ⟨⟨changes.home, changes.directories, changes.present, ?_⟩,
            sound.put .directory isSlot.isAbove isSlot.proper free⟩
          intro other _ content
          by_cases same : other = above ++ [name]
          · subst same
            rw [isNone, node?_put_self _ _
              (List.append_ne_nil_of_right_ne_nil above (List.cons_ne_nil name []))]
            simp
          · exact changes.files other same content

/-- **A written file reads back.** It goes to the place that its path names, and nothing else
changes. -/
theorem write_changes (sound : tree.Sound) {text : String}
    (wrote : tree.write path (.text text) = .ok after) :
    Changes (fun location => fileLocation? tree.home path = some location) tree after
      ∧ after.Sound ∧ after.read path = .ok text := by
  unfold write writeLocation at wrote
  obtain ⟨location, free, isAfter⟩ := bind_eq_ok_iff.mp wrote
  obtain ⟨slot, found, free⟩ := bind_eq_ok_iff.mp free
  obtain rfl := Except.ok.inj isAfter
  cases slot with
  | directory => cases free
  | entry own slash =>
      obtain ⟨above, name, isSlot, rfl, rfl⟩ := isSlot_of_slotFor found
      dsimp only at free
      split at free
      · cases free
      · next noDirectory =>
          obtain rfl := Except.ok.inj free
          rw [Bool.or_eq_true, not_or, Bool.not_eq_true, beq_iff_eq] at noDirectory
          obtain ⟨noSlash, free⟩ := noDirectory
          have isPlace : fileLocation? tree.home path = some (above ++ [name]) :=
            fileLocation?_eq_some_iff.mpr
              ⟨isSlot.isTrail, noSlash, ⟨name, isSlot.isLast⟩, isSlot.landing_eq⟩
          have changes := changes_put (.file (.text text)) free
          have isFile := node?_put_self tree (.file (.text text))
            (List.append_ne_nil_of_right_ne_nil above (List.cons_ne_nil name []))
          refine ⟨changes.mono ?_, sound.put _ isSlot.isAbove isSlot.proper free, ?_⟩
          · rintro other rfl
            exact isPlace
          · apply read_eq_ok_iff.mpr
            refine ⟨above ++ [name], locate_eq_ok_iff.mpr ⟨isSlot.isTrail, ?_, ?_⟩, isFile⟩
            · rw [isSlot.hops_eq, changes.start]
              apply walk_append_eq_ok_iff.mpr
              refine ⟨above, changes.walk isSlot.walked, walk_one_eq_ok_iff.mpr ?_⟩
              apply enter_eq_ok_iff.mpr
              refine ⟨changes.directories above isSlot.isAbove, rfl, ?_⟩
              intro _ _
              rw [isFile]
              rfl
            · intro slash
              rw [noSlash] at slash
              cases slash

end Requests

end Tree

/-! ## Making directories -/

open Tangle.Files.Tree

def Builds {α : Type} (action : StateM Tree α) : Prop :=
  ∀ tree, tree.Sound → Grows tree (action.run tree).2 ∧ (action.run tree).2.Sound

section Builds

variable {α β : Type}

private theorem builds_pure (value : α) : Builds (pure value : StateM Tree α) :=
  fun tree sound => ⟨Changes.refl tree, sound⟩

theorem Builds.bind {action : StateM Tree α} {next : α → StateM Tree β} (first : Builds action)
    (later : ∀ value, Builds (next value)) : Builds (action >>= next) := by
  intro tree sound
  obtain ⟨grows, middleSound⟩ := first tree sound
  obtain ⟨growsLater, afterSound⟩ := later (action.run tree).1 (action.run tree).2 middleSound
  exact ⟨grows.trans growsLater, afterSound⟩

private theorem change_of_ok {step : Tree → Except FileError Tree} {tree after : Tree}
    (succeeds : step tree = .ok after) : (change step).run tree = (.ok (), after) := by
  show change step tree = _
  rw [change, succeeds]

private theorem change_of_error {step : Tree → Except FileError Tree} {tree : Tree} {failure : FileError}
    (fails : step tree = .error failure) : (change step).run tree = (.error failure, tree) := by
  show change step tree = _
  rw [change, fails]

private theorem builds_makeDirectory (path : String) :
    Builds (FileAccess.makeDirectory path : StateM Tree (Except FileError Unit)) := by
  intro tree sound
  show Grows tree ((change fun own => own.makeDirectory path).run tree).2
    ∧ ((change fun own => own.makeDirectory path).run tree).2.Sound
  cases made : tree.makeDirectory path with
  | ok after =>
      rw [change_of_ok made]
      exact makeDirectory_grows sound made
  | error failure =>
      rw [change_of_error made]
      exact ⟨Changes.refl tree, sound⟩

private theorem builds_acceptExisting (path : String) (failure : FileError) :
    Builds (acceptExisting path failure : StateM Tree (Except FileError Unit)) := by
  have asks : Builds (isDirectory path : StateM Tree Bool) :=
    fun tree sound => ⟨Changes.refl tree, sound⟩
  apply asks.bind
  intro found
  cases found with
  | true => exact builds_pure _
  | false => exact builds_pure _

private theorem builds_makeDirectoriesFrom (paths : List String) :
    Builds (makeDirectoriesFrom paths : StateM Tree (Except FileError Unit)) := by
  induction paths with
  | nil => exact builds_pure _
  | cons path above inductionHypothesis =>
      apply (builds_makeDirectory path).bind
      intro answer
      cases answer with
      | ok _ => exact builds_pure _
      | error failure =>
          cases failure with
          | notFound =>
              -- The directories above are made first; then there is one more attempt.
              apply inductionHypothesis.bind
              intro answerAbove
              cases answerAbove with
              | error failure => exact builds_pure _
              | ok _ =>
                  apply (builds_makeDirectory path).bind
                  intro again
                  cases again with
                  | ok _ => exact builds_pure _
                  | error failure => exact builds_acceptExisting path failure
          | alreadyExists | notDirectory | isDirectory | notText | invalidPath | other message =>
              exact builds_acceptExisting path _

private theorem builds_makeParent (path : String) :
    Builds (makeParent path : StateM Tree (Except FileError Unit)) :=
  builds_makeDirectoriesFrom _

end Builds

/-- What follows a computation runs from where it ended. -/
theorem run_bind_eq {α β : Type} {action : StateM Tree α} {next : α → StateM Tree β}
    {tree middle : Tree} {value : α} (ran : action.run tree = (value, middle)) :
    (action >>= next).run tree = (next value).run middle := by
  rw [StateT.run_bind, ran]
  rfl

theorem run_readText (tree : Tree) (path : String) :
    (FileAccess.readText path : StateM Tree _).run tree = (tree.read path, tree) := rfl

/-- **Placing a file** makes directories, and then fails or writes. -/
theorem placeFile_cases {tree : Tree} (sound : tree.Sound) (path content : String) :
    ∃ middle, Grows tree middle ∧ middle.Sound
      ∧ ((∃ failure,
            (placeFile path content : StateM Tree _).run tree = (.error failure, middle))
        ∨ ∃ after, middle.write path (.text content) = .ok after
            ∧ (placeFile path content : StateM Tree _).run tree = (.ok (), after)) := by
  have built := builds_makeParent path tree sound
  cases made : (makeParent path : StateM Tree (Except FileError Unit)).run tree with
  | mk answer middle =>
      rw [made] at built
      refine ⟨middle, built.1, built.2, ?_⟩
      unfold placeFile
      rw [run_bind_eq made]
      cases answer with
      | error failure => exact Or.inl ⟨failure, rfl⟩
      | ok _ =>
          cases wrote : middle.write path (.text content) with
          | error failure => exact Or.inl ⟨failure, change_of_error wrote⟩
          | ok after => exact Or.inr ⟨after, rfl, change_of_ok wrote⟩

end Tangle.Files
