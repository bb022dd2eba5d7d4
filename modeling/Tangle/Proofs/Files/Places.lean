import Tangle.Files.Tree
import Tangle.Proofs.Data.Entries
import Tangle.Proofs.Path.Steps

/-!
Contract: where a path leads in a file tree.

Owns: sound trees, the place that a path has by its steps alone, the agreement of every walk
with it, and the location of the file that a path names.

Does **not** own: requests, and what they change (`Tangle.Proofs.Files.Changes`).

## Why steps decide

There are no links, so a walk that gets through ends where the steps of the path say, whatever
the tree holds. A path therefore has its place before anything is there, and two paths that
meet on some tree meet on every tree.
-/

set_option autoImplicit false

namespace Tangle.Files

open Tangle.Text
open Tangle.Path (Step)

/-! ## Places by steps -/

def follow (location : Location) : Step → Location
  | .root => []
  | .here => location
  | .up => location.dropLast
  | .name text => location ++ [text]

/-- Where a path leads by its steps alone. -/
def landing (home : Location) (path : String) : Location :=
  (Path.steps path).foldl follow home

theorem foldl_follow_names (location : Location) (names : List String) :
    (names.map Step.name).foldl follow location = location ++ names := by
  induction names generalizing location with
  | nil => exact (List.append_nil location).symm
  | cons first rest inductionHypothesis =>
      rw [List.map_cons, List.foldl_cons, inductionHypothesis, follow, List.append_assoc]
      rfl

private theorem length_follow_le (location : Location) (step : Step) :
    (follow location step).length ≤ location.length + 1 := by
  cases step with
  | root => exact Nat.zero_le _
  | here => exact Nat.le_succ _
  | up =>
      rw [follow, List.length_dropLast]
      omega
  | name text =>
      rw [follow, List.length_append]
      exact Nat.le_refl _

/-- A path leads at most one name further than its parent. -/
theorem length_landing_le (home : Location) (path : String) :
    (landing home path).length ≤ (landing home ((Path.parent? path).getD "")).length + 1 := by
  rcases Path.steps_parent path with ⟨noSteps, noParent⟩ | ⟨last, isSteps⟩
  · rw [landing, noSteps, noParent]
    exact Nat.le_succ _
  · rw [landing, isSteps, List.foldl_append]
    exact length_follow_le _ last

namespace Tree

/-- A name that an entry of a directory can have. -/
def IsName (name : String) : Prop :=
  name ≠ "" ∧ name ≠ "." ∧ name ≠ ".." ∧ '/' ∉ name.toList ∧ '\x00' ∉ name.toList

instance : DecidablePred IsName := fun _ => inferInstanceAs (Decidable (_ ∧ _))

/-! ## Nodes -/

section Nodes

variable (tree : Tree) (location : Location) (node : Node)

private theorem node?_of_ne_root {location : Location} (visible : location ≠ []) :
    tree.node? location = Entries.value? tree.entries location := by
  rw [node?, if_neg visible]
  rfl

theorem node?_put_self {location : Location} (visible : location ≠ []) :
    (tree.put location node).node? location = some node := by
  rw [node?_of_ne_root _ visible]
  exact Entries.value?_cons_self _ location node

theorem node?_put_of_ne {other : Location} (different : other ≠ location) :
    (tree.put location node).node? other = tree.node? other := by
  by_cases root : other = []
  · subst root
    rfl
  · rw [node?_of_ne_root _ root, node?_of_ne_root _ root]
    exact (Entries.value?_cons_of_ne _ location node different).trans
      (Entries.value?_without_of_ne _ location different)

end Nodes

/-! ## Sound trees -/

/-- A tree as a disk holds one: no location twice, every entry under a proper name in a
directory, and a working directory. -/
structure Sound (tree : Tree) : Prop where
  distinct : (tree.entries.map Prod.fst).Nodup
  placed : ∀ entry ∈ tree.entries, entry.1 ≠ [] ∧ tree.node? entry.1.dropLast = some .directory
    ∧ ∀ name ∈ entry.1, IsName name
  home : tree.node? tree.home = some .directory

instance : DecidablePred Sound := fun tree =>
  decidable_of_iff ((tree.entries.map Prod.fst).Nodup
      ∧ (∀ entry ∈ tree.entries, entry.1 ≠ [] ∧ tree.node? entry.1.dropLast = some .directory
          ∧ ∀ name ∈ entry.1, IsName name)
      ∧ tree.node? tree.home = some .directory)
    ⟨fun ⟨distinct, placed, home⟩ => ⟨distinct, placed, home⟩,
      fun sound => ⟨sound.distinct, sound.placed, sound.home⟩⟩

section Sound

variable {tree : Tree} {location : Location}

theorem mem_entries_of_node? (visible : location ≠ []) {node : Node}
    (found : tree.node? location = some node) : (location, node) ∈ tree.entries := by
  rw [node?_of_ne_root _ visible] at found
  exact Entries.mem_of_value? found

theorem Sound.node?_of_mem (sound : tree.Sound) {entry : Location × Node}
    (member : entry ∈ tree.entries) : tree.node? entry.1 = some entry.2 := by
  rw [node?_of_ne_root _ (sound.placed entry member).1]
  exact (Entries.value?_eq_some_iff sound.distinct entry.1 entry.2).mpr member

/-- What lies above something is a directory. -/
theorem Sound.parent (sound : tree.Sound) (present : (tree.node? location).isSome = true) :
    tree.node? location.dropLast = some .directory := by
  by_cases root : location = []
  · subst root
    rfl
  · obtain ⟨node, found⟩ := Option.isSome_iff_exists.mp present
    exact (sound.placed _ (mem_entries_of_node? root found)).2.1

theorem Sound.names (sound : tree.Sound) (present : (tree.node? location).isSome = true) :
    ∀ name ∈ location, IsName name := by
  by_cases root : location = []
  · subst root
    exact fun name member => absurd member List.not_mem_nil
  · obtain ⟨node, found⟩ := Option.isSome_iff_exists.mp present
    exact (sound.placed _ (mem_entries_of_node? root found)).2.2

/-- Everything on the way to something is a directory. -/
theorem Sound.node?_above (sound : tree.Sound) (below : List String) :
    below ≠ [] → (tree.node? (location ++ below)).isSome = true →
      tree.node? location = some .directory := by
  induction below using List.reverseRecOn with
  | nil => exact fun visible => absurd rfl visible
  | append_singleton front last inductionHypothesis =>
      intro _ present
      have above := sound.parent present
      rw [← List.append_assoc, List.dropLast_concat] at above
      by_cases direct : front = []
      · rwa [direct, List.append_nil] at above
      · exact inductionHypothesis direct (by rw [above]; rfl)

/-- A new entry under a proper name, in the place of no directory, leaves the tree sound. -/
theorem Sound.put (sound : tree.Sound) {above : Location} {name : String} (node : Node)
    (isAbove : tree.node? above = some .directory) (proper : IsName name)
    (free : tree.node? (above ++ [name]) ≠ some .directory) :
    (tree.put (above ++ [name]) node).Sound := by
  have keeps : ∀ other, tree.node? other = some .directory →
      (tree.put (above ++ [name]) node).node? other = some .directory := by
    intro other isDirectory
    rw [node?_put_of_ne]
    · exact isDirectory
    · rintro rfl
      exact free isDirectory
  refine ⟨Entries.keys_put_nodup tree.entries _ node sound.distinct, ?_, keeps _ sound.home⟩
  intro entry member
  rcases List.mem_cons.mp member with rfl | kept
  · refine ⟨List.append_ne_nil_of_right_ne_nil above (List.cons_ne_nil name []), ?_, ?_⟩
    · rw [List.dropLast_concat]
      exact keeps above isAbove
    · intro other isIn
      rcases List.mem_append.mp isIn with inAbove | isLast
      · exact sound.names (by rw [isAbove]; rfl) other inAbove
      · rwa [List.mem_singleton.mp isLast]
  · obtain ⟨visible, inDirectory, names⟩ := sound.placed entry (List.mem_of_mem_filter kept)
    exact ⟨visible, keeps _ inDirectory, names⟩

end Sound

/-! ## Hops and steps -/

def Hop.step? : Hop → Option Step
  | here => none
  | up => some .up
  | name text => some (.name text)

private theorem step?_hopOf {segment : List Char} (visible : segment ≠ []) :
    (hopOf segment).step? = Path.segmentStep segment := by
  unfold hopOf Path.segmentStep Path.isFiller
  by_cases dot : segment = ['.']
  · simp [dot, Hop.step?]
  · by_cases dots : segment = ['.', '.']
    · simp [dots, Hop.step?]
    · simp [dot, dots, visible, Hop.step?]

theorem filterMap_hopOf (segments : List (List Char)) :
    ((segments.filter fun segment => !segment.isEmpty).map hopOf).filterMap Hop.step?
      = Path.segmentSteps segments := by
  induction segments with
  | nil => rfl
  | cons first rest inductionHypothesis =>
      by_cases empty : first = []
      · subst empty
        exact inductionHypothesis
      · have kept : (first :: rest).filter (fun segment => !segment.isEmpty)
            = first :: rest.filter fun segment => !segment.isEmpty :=
          List.filter_cons_of_pos (by simpa using empty)
        rw [kept, List.map_cons, List.filterMap_cons, step?_hopOf empty, inductionHypothesis,
          Path.segmentSteps, Path.segmentSteps, List.filterMap_cons]

/-- Hops and steps of a path lead to the same place. -/
theorem landing_eq_hops (tree : Tree) (path : String) :
    landing tree.home path
      = ((trailOf path).hops.filterMap Hop.step?).foldl follow (tree.start (trailOf path)) := by
  have isHops : (trailOf path).hops.filterMap Hop.step?
      = Path.segmentSteps (splitChars '/' path.toList) := filterMap_hopOf _
  have isStart : (Path.leadStep (Path.parts path).lead).foldl follow tree.home
      = tree.start (trailOf path) := by
    show _ = if Path.isRooted path then [] else tree.home
    cases rooted : Path.isRooted path with
    | true =>
        rw [Path.lead_of_isRooted rooted]
        rfl
    | false =>
        rcases Path.lead_of_not_rooted rooted with none | here
        · rw [none]
          rfl
        · rw [here]
          rfl
  rw [landing, Path.steps_eq, List.foldl_append, isStart, isHops]

theorem trail?_eq_ok_iff {path : String} {trail : Trail} :
    trail? path = .ok trail
      ↔ '\x00' ∉ path.toList ∧ path.toList ≠ [] ∧ trail = trailOf path := by
  unfold trail?
  split
  · next isNul =>
      constructor
      · intro failed
        cases failed
      · rintro ⟨noNul, -⟩
        exact absurd (List.contains_iff_mem.mp isNul) noNul
  · next noNul =>
      split
      · next empty =>
          constructor
          · intro failed
            cases failed
          · rintro ⟨-, nonempty, -⟩
            exact absurd (List.isEmpty_iff.mp empty) nonempty
      · next nonempty =>
          rw [List.contains_iff_mem] at noNul
          rw [List.isEmpty_iff] at nonempty
          constructor
          · intro isTrail
            exact ⟨noNul, nonempty, (Except.ok.inj isTrail).symm⟩
          · rintro ⟨-, -, rfl⟩
            rfl

theorem trail?_eq_ok {path : String} {trail : Trail} (isTrail : trail? path = .ok trail) :
    trail = trailOf path :=
  (trail?_eq_ok_iff.mp isTrail).2.2

/-- Names on a trail are names that an entry can have. -/
theorem isName_of_mem_hops {path : String} {trail : Trail} (isTrail : trail? path = .ok trail)
    {text : String} (member : Hop.name text ∈ trail.hops) : IsName text := by
  obtain ⟨noNul, -, rfl⟩ := trail?_eq_ok_iff.mp isTrail
  obtain ⟨segment, kept, isHop⟩ := List.mem_map.mp member
  obtain ⟨isSegment, visible⟩ := List.mem_filter.mp kept
  have noSlash : '/' ∉ segment := free_of_mem_splitChars isSegment
  have free : '\x00' ∉ segment := fun isIn => noNul (mem_of_mem_splitChars isSegment isIn)
  unfold hopOf at isHop
  split at isHop
  · cases isHop
  · next noDot =>
      split at isHop
      · cases isHop
      · next noDots =>
          obtain rfl := Hop.name.inj isHop
          simp only [IsName, ne_eq, String.toList_ofList, ← String.toList_inj]
          exact ⟨by simpa using visible, noDot, noDots, noSlash, free⟩

/-! ## Walks -/

theorem bind_eq_ok_iff {ε α β : Type} {first : Except ε α} {next : α → Except ε β} {result : β} :
    (first >>= next) = .ok result ↔ ∃ value, first = .ok value ∧ next value = .ok result := by
  cases first with
  | error failure =>
      constructor
      · intro failed
        cases failed
      · rintro ⟨value, failed, -⟩
        cases failed
  | ok value =>
      constructor
      · intro isResult
        exact ⟨value, rfl, isResult⟩
      · rintro ⟨other, same, isResult⟩
        obtain rfl := Except.ok.inj same
        exact isResult

section Walks

variable {tree : Tree} {location there : Location}

theorem requireDirectory_eq_ok_iff :
    tree.requireDirectory location = .ok () ↔ tree.node? location = some .directory := by
  unfold requireDirectory
  split <;> simp_all

def Hop.lead (location : Location) (hop : Hop) : Location :=
  hop.step?.elim location (follow location)

/-- A hop starts from a directory, and a name has to be there. -/
theorem enter_eq_ok_iff {hop : Hop} :
    tree.enter location hop = .ok there
      ↔ tree.node? location = some .directory ∧ hop.lead location = there
        ∧ ∀ text, hop = .name text → (tree.node? there).isSome = true := by
  unfold enter
  rw [bind_eq_ok_iff]
  constructor
  · rintro ⟨_, required, entered⟩
    refine ⟨requireDirectory_eq_ok_iff.mp required, ?_⟩
    cases hop with
    | here => exact ⟨Except.ok.inj entered, fun _ other => by cases other⟩
    | up => exact ⟨Except.ok.inj entered, fun _ other => by cases other⟩
    | name text =>
        dsimp only at entered
        split at entered
        · next present =>
            obtain rfl := Except.ok.inj entered
            exact ⟨rfl, fun _ _ => present⟩
        · cases entered
  · rintro ⟨isDirectory, rfl, present⟩
    refine ⟨(), requireDirectory_eq_ok_iff.mpr isDirectory, ?_⟩
    cases hop with
    | here => rfl
    | up => rfl
    | name text => exact if_pos (present text rfl)

theorem walk_cons_eq_ok_iff {hop : Hop} {rest : List Hop} :
    tree.walk location (hop :: rest) = .ok there
      ↔ ∃ next, tree.enter location hop = .ok next ∧ tree.walk next rest = .ok there :=
  bind_eq_ok_iff

theorem walk_append_eq_ok_iff {first second : List Hop} :
    tree.walk location (first ++ second) = .ok there
      ↔ ∃ middle, tree.walk location first = .ok middle ∧ tree.walk middle second = .ok there := by
  induction first generalizing location with
  | nil =>
      constructor
      · exact fun walked => ⟨location, rfl, walked⟩
      · rintro ⟨middle, same, walked⟩
        obtain rfl := Except.ok.inj same
        exact walked
  | cons hop rest inductionHypothesis =>
      rw [List.cons_append, walk_cons_eq_ok_iff]
      simp only [walk_cons_eq_ok_iff, inductionHypothesis]
      constructor
      · rintro ⟨next, entered, middle, walked, later⟩
        exact ⟨middle, ⟨next, entered, walked⟩, later⟩
      · rintro ⟨middle, ⟨next, entered, walked⟩, later⟩
        exact ⟨next, entered, middle, walked, later⟩

theorem walk_one_eq_ok_iff {hop : Hop} :
    tree.walk location [hop] = .ok there ↔ tree.enter location hop = .ok there := by
  rw [walk_cons_eq_ok_iff]
  constructor
  · rintro ⟨next, entered, same⟩
    rwa [← Except.ok.inj same]
  · exact fun entered => ⟨there, entered, rfl⟩

/-- **A walk that gets through ends where its steps lead.** -/
theorem walk_eq_follow {hops : List Hop} (walked : tree.walk location hops = .ok there) :
    there = (hops.filterMap Hop.step?).foldl follow location := by
  induction hops generalizing location with
  | nil => exact (Except.ok.inj walked).symm
  | cons hop rest inductionHypothesis =>
      obtain ⟨next, entered, later⟩ := walk_cons_eq_ok_iff.mp walked
      obtain ⟨-, rfl, -⟩ := enter_eq_ok_iff.mp entered
      rw [inductionHypothesis later]
      cases hop <;> rfl

end Walks

/-! ## Paths -/

section Paths

variable {tree : Tree} {path : String} {location : Location}

theorem locate_eq_ok_iff :
    tree.locate path = .ok location
      ↔ trail? path = .ok (trailOf path)
        ∧ tree.walk (tree.start (trailOf path)) (trailOf path).hops = .ok location
        ∧ ((trailOf path).slash = true → tree.node? location = some .directory) := by
  unfold locate
  rw [bind_eq_ok_iff]
  constructor
  · rintro ⟨trail, isTrail, rest⟩
    obtain rfl := trail?_eq_ok isTrail
    obtain ⟨there, walked, checked⟩ := bind_eq_ok_iff.mp rest
    cases slash : (trailOf path).slash with
    | false =>
        rw [slash, if_neg Bool.false_ne_true] at checked
        obtain rfl := Except.ok.inj checked
        exact ⟨isTrail, walked, fun isSlash => by cases isSlash⟩
    | true =>
        rw [slash, if_pos rfl] at checked
        obtain ⟨_, required, same⟩ := bind_eq_ok_iff.mp checked
        obtain rfl := Except.ok.inj same
        exact ⟨isTrail, walked, fun _ => requireDirectory_eq_ok_iff.mp required⟩
  · rintro ⟨isTrail, walked, checked⟩
    refine ⟨_, isTrail, bind_eq_ok_iff.mpr ⟨location, walked, ?_⟩⟩
    cases slash : (trailOf path).slash with
    | false => rfl
    | true =>
        rw [if_pos rfl]
        exact bind_eq_ok_iff.mpr ⟨(), requireDirectory_eq_ok_iff.mpr (checked slash), rfl⟩

/-- **A path that leads somewhere leads to its landing.** -/
theorem locate_eq_landing (located : tree.locate path = .ok location) :
    location = landing tree.home path := by
  obtain ⟨-, walked, -⟩ := locate_eq_ok_iff.mp located
  rw [landing_eq_hops]
  exact walk_eq_follow walked

theorem Sound.start_directory (sound : tree.Sound) (trail : Trail) :
    tree.node? (tree.start trail) = some .directory := by
  unfold start
  split
  · rfl
  · exact sound.home

/-- The location of the file that a path names, whether it is there or not. A path that ends
with a slash or with dots names a directory. -/
def fileLocation? (home : Location) (path : String) : Option Location :=
  match trail? path with
  | .error _ => none
  | .ok trail =>
      match trail.hops.getLast? with
      | some (.name _) => if trail.slash then none else some (landing home path)
      | _ => none

theorem fileLocation?_eq_some_iff {home : Location} :
    fileLocation? home path = some location
      ↔ trail? path = .ok (trailOf path) ∧ (trailOf path).slash = false
        ∧ (∃ text, (trailOf path).hops.getLast? = some (.name text))
        ∧ landing home path = location := by
  unfold fileLocation?
  constructor
  · intro found
    split at found
    · cases found
    · next trail isTrail =>
        obtain rfl := trail?_eq_ok isTrail
        split at found
        · next text isLast =>
            split at found
            · cases found
            · next noSlash =>
                exact ⟨isTrail, Bool.not_eq_true _ ▸ noSlash, ⟨text, isLast⟩,
                  Option.some.inj found⟩
        · cases found
  · rintro ⟨isTrail, noSlash, ⟨text, isLast⟩, rfl⟩
    rw [isTrail]
    simp only [isLast, noSlash, Bool.false_eq_true, if_false]

end Paths

end Tree

end Tangle.Files
