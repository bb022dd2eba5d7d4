import Tangle.Proofs.Files.Changes
import Tangle.Proofs.Path.Below

/-!
Contract: the paths that lead below a directory.

Owns: that a directory's path extended by names leads to what has these names below it, and that
two paths with the same steps lead to the same file.

Does **not** own: the files that a walk finds (`Tangle.Proofs.Files.Walk`).

## Spelling and place

Paths that are put together from a directory and names are as good as the directory's own path.
Paths that merely have the same steps are not: a dot or a slash behind the name of a file asks
for a directory. Such a path leads nowhere, and the reason is never that something is missing.
-/

set_option autoImplicit false

namespace Tangle.Files.Tree

open Tangle.Text
open Tangle.Path (Step)

variable {tree : Tree}

/-! ## One name further -/

section Join

variable {directory name : String}

theorem IsName.isSegment (proper : IsName name) : Path.IsSegment name := by
  obtain ⟨visible, notDot, -, free, -⟩ := proper
  rw [ne_eq, ← String.toList_inj] at visible notDot
  refine ⟨free, ?_⟩
  rw [Path.isFiller, Bool.or_eq_false_iff, beq_eq_false_iff_ne, beq_eq_false_iff_ne]
  exact ⟨visible, notDot⟩

theorem IsName.splitChars (proper : IsName name) :
    splitChars '/' name.toList = [name.toList] :=
  splitChars_of_free proper.2.2.2.1

theorem IsName.plain (proper : IsName name) : Path.Plain name := by
  intro segment member
  rw [proper.splitChars, List.mem_singleton] at member
  rw [member]
  exact proper.isSegment.2

private theorem IsName.hopOf_eq (proper : IsName name) : hopOf name.toList = .name name := by
  obtain ⟨-, notDot, notDots, -⟩ := proper
  rw [hopOf, if_neg, if_neg, String.ofList_toList]
  · exact fun dots => notDots (String.toList_inj.mp dots)
  · exact fun dot => notDot (String.toList_inj.mp dot)

theorem IsName.steps_eq (proper : IsName name) : Path.steps name = [.name name] := by
  have noFiller := proper.isSegment.2
  have notUp : name.toList ≠ ['.', '.'] := fun dots =>
    proper.2.2.1 (String.toList_inj.mp dots)
  rw [proper.plain.steps, proper.splitChars]
  simp [Path.segmentSteps, Path.segmentStep, noFiller, notUp]

/-- The pieces of a joined path are those of its two parts, but for empty ones. -/
theorem pieces_join (nonempty : directory.toList ≠ []) (proper : IsName name) :
    (splitChars '/' (Path.join directory name).toList).filter (fun segment => !segment.isEmpty)
      = (splitChars '/' directory.toList).filter (fun segment => !segment.isEmpty)
        ++ [name.toList] := by
  obtain ⟨ahead, joined, isDirectory⟩ := Path.toList_join nonempty proper.isSegment.not_rooted
  have visible : [name.toList].filter (fun segment => !segment.isEmpty) = [name.toList] := by
    apply List.filter_cons_of_pos
    simpa using proper.1
  rw [joined, splitChars_append_mark, proper.splitChars, List.filter_append, visible]
  rcases isDirectory with isAhead | isSlashed
  · rw [isAhead]
  · rw [isSlashed, splitChars_append_mark, List.filter_append]
    exact congrArg (· ++ [name.toList]) (List.append_nil _).symm

/-- A name behind a path is one more hop. -/
theorem trail?_join (isTrail : trail? directory = .ok (trailOf directory)) (proper : IsName name) :
    trail? (Path.join directory name)
      = .ok ⟨(trailOf directory).rooted, (trailOf directory).hops ++ [.name name], false⟩ := by
  obtain ⟨noNul, nonempty, -⟩ := trail?_eq_ok_iff.mp isTrail
  obtain ⟨ahead, joined, isDirectory⟩ := Path.toList_join nonempty proper.isSegment.not_rooted
  have sameHead : (Path.join directory name).toList.head? = directory.toList.head? := by
    rw [joined]
    rcases isDirectory with rfl | isSlashed
    · exact List.head?_append_of_ne_nil _ nonempty
    · rw [isSlashed]
      cases ahead <;> rfl
  have lastChar : (Path.join directory name).toList.getLast? ≠ some '/' := by
    have visible : name.toList ≠ [] := by simpa using proper.1
    rw [joined, List.getLast?_append_of_ne_nil _ (List.cons_ne_nil _ _),
      List.getLast?_cons_of_ne_nil visible]
    exact fun isLast => proper.2.2.2.1 (List.mem_of_getLast? isLast)
  have isHops : (trailOf (Path.join directory name)).hops
      = (trailOf directory).hops ++ [.name name] := by
    unfold trailOf
    dsimp only
    rw [pieces_join nonempty proper, List.map_append, List.map_singleton, proper.hopOf_eq]
  apply trail?_eq_ok_iff.mpr
  refine ⟨?_, ?_, ?_⟩
  · rw [joined, List.mem_append, List.mem_cons, not_or, not_or]
    refine ⟨?_, by decide, proper.2.2.2.2⟩
    rcases isDirectory with rfl | isSlashed
    · exact noNul
    · rw [isSlashed] at noNul
      exact fun isIn => noNul (List.mem_append_left _ isIn)
  · rw [joined]
    exact List.append_ne_nil_of_right_ne_nil _ (List.cons_ne_nil _ _)
  · have isRooted : (trailOf (Path.join directory name)).rooted = (trailOf directory).rooted :=
      congrArg (· == some '/') sameHead
    have noSlash : (trailOf (Path.join directory name)).slash = false := by
      show (_ && _ == _) = false
      rw [beq_eq_false_iff_ne.mpr lastChar, Bool.and_false]
    rw [← isRooted, ← isHops, ← noSlash]

/-- **A name behind a path leads to what has this name there.** -/
theorem locate_join {location : Location} (located : tree.locate directory = .ok location)
    (isAbove : tree.node? location = some .directory) (proper : IsName name)
    (present : (tree.node? (location ++ [name])).isSome = true) :
    tree.locate (Path.join directory name) = .ok (location ++ [name]) := by
  obtain ⟨isTrail, walked, -⟩ := locate_eq_ok_iff.mp located
  have joined := trail?_join isTrail proper
  have isJoined := trail?_eq_ok joined
  apply locate_eq_ok_iff.mpr
  rw [joined, ← isJoined]
  refine ⟨rfl, ?_, fun slash => by cases slash⟩
  apply walk_append_eq_ok_iff.mpr
  refine ⟨location, walked, walk_one_eq_ok_iff.mpr (enter_eq_ok_iff.mpr ⟨isAbove, rfl, ?_⟩)⟩
  exact fun _ _ => present

end Join

/-! ## Several names further -/

section Names

variable {directory : String} {location : Location} {names : List String}

theorem Sound.present_above (sound : tree.Sound)
    (present : (tree.node? (location ++ names)).isSome = true) :
    (tree.node? location).isSome = true := by
  by_cases none : names = []
  · rwa [none, List.append_nil] at present
  · rw [sound.node?_above names none present]
    rfl

/-- **Names behind a path lead to what has these names there.** -/
theorem Sound.locate_foldl_join (sound : tree.Sound) (located : tree.locate directory = .ok location)
    (present : (tree.node? (location ++ names)).isSome = true) :
    tree.locate (names.foldl Path.join directory) = .ok (location ++ names) := by
  induction names generalizing directory location with
  | nil => rwa [List.append_nil]
  | cons name rest inductionHypothesis =>
      have isAbove := sound.node?_above (name :: rest) (List.cons_ne_nil name rest) present
      have proper := sound.names present name (List.mem_append_right _ List.mem_cons_self)
      rw [List.append_cons] at present ⊢
      exact inductionHypothesis
        (locate_join located isAbove proper (sound.present_above present)) present

theorem steps_foldl_join (directory : String) (proper : ∀ name ∈ names, IsName name) :
    Path.steps (names.foldl Path.join directory) = Path.steps directory ++ names.map Step.name := by
  induction names generalizing directory with
  | nil => exact (List.append_nil _).symm
  | cons name rest inductionHypothesis =>
      obtain ⟨isName, later⟩ := List.forall_mem_cons.mp proper
      rw [List.foldl_cons, inductionHypothesis _ later, Path.steps_join _ isName.plain,
        isName.steps_eq, List.append_assoc]
      rfl

/-- Different names lead to different paths. -/
theorem foldl_join_injective {others : List String} (proper : ∀ name ∈ names, IsName name)
    (properOthers : ∀ name ∈ others, IsName name)
    (same : names.foldl Path.join directory = others.foldl Path.join directory) : names = others := by
  have sameSteps := congrArg Path.steps same
  rw [steps_foldl_join directory proper, steps_foldl_join directory properOthers,
    List.append_cancel_left_eq] at sameSteps
  exact List.map_injective_iff.mpr (fun _ _ same => Step.name.inj same) sameSteps

end Names

/-! ## Paths with the same steps -/

section SameSteps

variable {location there : Location} {content : Content}

def hopFor : Step → Hop
  | .root => .here
  | .here => .here
  | .up => .up
  | .name text => .name text

def strides (hops : List Hop) : List Hop :=
  (hops.filterMap Hop.step?).map hopFor

private theorem strides_cons_here (rest : List Hop) : strides (.here :: rest) = strides rest := rfl

private theorem strides_cons {hop : Hop} (moves : hop ≠ .here) (rest : List Hop) :
    strides (hop :: rest) = hop :: strides rest := by
  cases hop with
  | here => exact absurd rfl moves
  | up => rfl
  | name text => rfl

/-- A walk gets through without its idle hops. -/
theorem walk_strides {hops : List Hop} (walked : tree.walk location hops = .ok there) :
    tree.walk location (strides hops) = .ok there := by
  induction hops generalizing location with
  | nil => exact walked
  | cons hop rest inductionHypothesis =>
      obtain ⟨next, entered, later⟩ := walk_cons_eq_ok_iff.mp walked
      by_cases idle : hop = .here
      · subst idle
        obtain ⟨-, rfl, -⟩ := enter_eq_ok_iff.mp entered
        rw [strides_cons_here]
        exact inductionHypothesis later
      · rw [strides_cons idle]
        exact walk_cons_eq_ok_iff.mpr ⟨next, entered, inductionHypothesis later⟩

/-- **Idle hops on the way to a file** do no harm until the file is reached. -/
theorem walk_of_strides {hops : List Hop} (walked : tree.walk location (strides hops) = .ok there)
    (isFile : tree.node? there = some (.file content)) :
    tree.walk location hops = .ok there ∨ tree.walk location hops = .error .notDirectory := by
  induction hops generalizing location with
  | nil => exact Or.inl walked
  | cons hop rest inductionHypothesis =>
      by_cases idle : hop = .here
      · subst idle
        rw [strides_cons_here] at walked
        by_cases isDirectory : tree.node? location = some .directory
        · have entered : tree.enter location .here = .ok location :=
            enter_eq_ok_iff.mpr ⟨isDirectory, rfl, fun _ other => by cases other⟩
          have isWalk : tree.walk location (.here :: rest) = tree.walk location rest := by
            rw [walk, entered]
            rfl
          rw [isWalk]
          exact inductionHypothesis walked
        · -- No stride starts from here, so this is the file.
          right
          have isThere : location = there := by
            cases isRest : strides rest with
            | nil =>
                rw [isRest] at walked
                exact Except.ok.inj walked
            | cons first later =>
                rw [isRest] at walked
                obtain ⟨next, entered, -⟩ := walk_cons_eq_ok_iff.mp walked
                exact absurd (enter_eq_ok_iff.mp entered).1 isDirectory
          rw [walk, enter, requireDirectory, isThere, isFile]
          rfl
      · rw [strides_cons idle] at walked
        obtain ⟨next, entered, later⟩ := walk_cons_eq_ok_iff.mp walked
        rw [walk, entered]
        exact inductionHypothesis later

def isStride : Step → Bool
  | .root => false
  | .here => false
  | .up => true
  | .name _ => true

private theorem isStride_of_step? {hop : Hop} {step : Step} (takes : hop.step? = some step) :
    isStride step = true := by
  cases hop with
  | here => cases takes
  | up =>
      obtain rfl := Option.some.inj takes
      rfl
  | name text =>
      obtain rfl := Option.some.inj takes
      rfl

/-- The steps of a path fall into its lead and its hops. -/
theorem steps_filter (path : String) :
    (Path.steps path).filter isStride = (trailOf path).hops.filterMap Hop.step?
      ∧ ((trailOf path).rooted = true ↔ Step.root ∈ Path.steps path) := by
  have isSteps : Path.steps path
      = Path.leadStep (Path.parts path).lead ++ (trailOf path).hops.filterMap Hop.step? := by
    rw [Path.steps_eq]
    exact congrArg _ (filterMap_hopOf _).symm
  have strideOfHop : ∀ step ∈ (trailOf path).hops.filterMap Hop.step?, isStride step = true := by
    intro step member
    obtain ⟨hop, -, takes⟩ := List.mem_filterMap.mp member
    exact isStride_of_step? takes
  have noRoot : Step.root ∉ (trailOf path).hops.filterMap Hop.step? := fun member =>
    Bool.false_ne_true (strideOfHop .root member)
  rw [isSteps, List.filter_append, List.filter_eq_self.mpr strideOfHop, List.mem_append,
    or_iff_left noRoot]
  show _ ∧ (Path.isRooted path = true ↔ _)
  cases rooted : Path.isRooted path with
  | true =>
      rw [Path.lead_of_isRooted rooted]
      exact ⟨rfl, by decide⟩
  | false =>
      rcases Path.lead_of_not_rooted rooted with none | here
      · rw [none]
        exact ⟨rfl, by decide⟩
      · rw [here]
        exact ⟨rfl, by decide⟩

private theorem rooted_of_same_steps {path other : String} (same : Path.steps other = Path.steps path) :
    (trailOf other).rooted = (trailOf path).rooted := by
  rw [Bool.eq_iff_iff, (steps_filter other).2, (steps_filter path).2, same]

private theorem strides_of_same_steps {path other : String} (same : Path.steps other = Path.steps path) :
    strides (trailOf other).hops = strides (trailOf path).hops := by
  rw [strides, strides, ← (steps_filter other).1, ← (steps_filter path).1, same]

private theorem read_of_locate_error {path : String} {failure : FileError}
    (fails : tree.locate path = .error failure) : tree.read path = .error failure := by
  rw [read, fails]
  rfl

/-- **Paths with the same steps as one that leads to a file** lead to it too, or cannot be read,
and not for want of something. -/
theorem Sound.locate_of_same_steps (sound : tree.Sound) {path other : String}
    (located : tree.locate path = .ok location) (isFile : tree.node? location = some (.file content))
    (same : Path.steps other = Path.steps path) :
    tree.locate other = .ok location
      ∨ ∃ failure, failure ≠ .notFound ∧ tree.read other = .error failure := by
  obtain ⟨-, walked, -⟩ := locate_eq_ok_iff.mp located
  by_cases isNul : '\x00' ∈ other.toList
  · right
    refine ⟨.invalidPath, by decide, read_of_locate_error ?_⟩
    rw [locate, trail?, if_pos (List.contains_iff_mem.mpr isNul)]
    rfl
  · have nonempty : other.toList ≠ [] := by
      intro empty
      obtain rfl : other = "" := String.toList_inj.mp empty
      have isHome : location = tree.home := by
        rw [locate_eq_landing located, landing, ← same]
        rfl
      rw [isHome, sound.home] at isFile
      cases isFile
    have isTrail : trail? other = .ok (trailOf other) :=
      trail?_eq_ok_iff.mpr ⟨isNul, nonempty, rfl⟩
    have isStart : tree.start (trailOf other) = tree.start (trailOf path) := by
      rw [start, start, rooted_of_same_steps same]
    have strode := walk_strides walked
    rw [← strides_of_same_steps same, ← isStart] at strode
    rcases walk_of_strides strode isFile with through | stopped
    · cases slash : (trailOf other).slash with
      | false =>
          left
          apply locate_eq_ok_iff.mpr
          exact ⟨isTrail, through, fun isSlash => by rw [slash] at isSlash; cases isSlash⟩
      | true =>
          right
          refine ⟨.notDirectory, by decide, read_of_locate_error ?_⟩
          have isNoDirectory : tree.requireDirectory location = .error .notDirectory := by
            rw [requireDirectory, isFile]
          simp only [locate, isTrail, through, slash, isNoDirectory, bind, Except.bind, if_true]
    · right
      refine ⟨.notDirectory, by decide, read_of_locate_error ?_⟩
      simp only [locate, isTrail, stopped, bind, Except.bind]

end SameSteps

end Tangle.Files.Tree
