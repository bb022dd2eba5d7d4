import Tangle.Path
import Tangle.Proofs.Text.Lines

/-!
Contract: the steps of paths that are put together or cut.

Owns: the steps of a joined path, that plain paths are told apart by their steps, and the
steps of a parent.

Does **not** own: which paths are outputs (`Tangle.Proofs.Extraction.Consistency`).

The lead of a path is read off its first characters, so a path is opened up in one place
(`parts_cases`); everything else is about segments.
-/

set_option autoImplicit false

namespace Tangle.Path

open Tangle.Text

/-! ## Segments -/

theorem joinSegments_cons {first : List Char} {rest : List (List Char)} (more : rest ≠ []) :
    joinSegments (first :: rest) = first ++ '/' :: joinSegments rest := by
  cases rest with
  | nil => exact absurd rfl more
  | cons next later => rfl

private theorem joinSegments_eq_intercalate (segments : List (List Char)) :
    joinSegments segments = ['/'].intercalate segments := by
  induction segments with
  | nil => rfl
  | cons first rest inductionHypothesis =>
      by_cases only : rest = []
      · subst only
        exact (List.append_nil first).symm
      · rw [joinSegments_cons only, inductionHypothesis, List.intercalate_cons_of_ne_nil only,
          List.append_assoc]
        rfl

theorem splitChars_joinSegments {segments : List (List Char)} (some : segments ≠ [])
    (free : ∀ segment ∈ segments, '/' ∉ segment) :
    splitChars '/' (joinSegments segments) = segments := by
  rw [joinSegments_eq_intercalate]
  exact splitChars_intercalate some free

private theorem joinSegments_append {front back : List (List Char)} (some : front ≠ []) (more : back ≠ []) :
    joinSegments (front ++ back) = joinSegments front ++ '/' :: joinSegments back := by
  induction front with
  | nil => exact absurd rfl some
  | cons first rest inductionHypothesis =>
      by_cases only : rest = []
      · subst only
        exact joinSegments_cons more
      · rw [List.cons_append, joinSegments_cons (List.append_ne_nil_of_left_ne_nil only back),
          inductionHypothesis only, joinSegments_cons only, List.append_assoc, List.cons_append]

/-- Segments cut at a mark are put together with slashes in its place. -/
theorem joinSegments_splitChars_of (mark : Char) (chars : List Char) :
    joinSegments (splitChars mark chars) = chars.map fun c => if c = mark then '/' else c := by
  induction chars with
  | nil => rfl
  | cons c rest inductionHypothesis =>
      by_cases isMark : c = mark
      · rw [isMark, splitChars_mark, joinSegments_cons (splitChars_ne_nil _ _), inductionHypothesis,
          List.map_cons, if_pos rfl]
        rfl
      · obtain ⟨first, pieces, split, splitCons⟩ := splitChars_cons_of_ne isMark rest
        rw [split] at inductionHypothesis
        rw [splitCons, List.map_cons, if_neg isMark, ← inductionHypothesis]
        by_cases only : pieces = []
        · subst only
          rfl
        · rw [joinSegments_cons only, joinSegments_cons only, List.cons_append]

/-- Segments of segments are put together all at once. -/
theorem joinSegments_flatMap_splitChars (mark : Char) (segments : List (List Char)) :
    joinSegments (segments.flatMap (splitChars mark))
      = (joinSegments segments).map fun c => if c = mark then '/' else c := by
  induction segments with
  | nil => rfl
  | cons first rest inductionHypothesis =>
      by_cases only : rest = []
      · subst only
        rw [List.flatMap_singleton, joinSegments_splitChars_of]
        rfl
      · have more : rest.flatMap (splitChars mark) ≠ [] := by
          obtain ⟨next, later, rfl⟩ := List.exists_cons_of_ne_nil only
          exact List.append_ne_nil_of_left_ne_nil (splitChars_ne_nil mark next) _
        rw [List.flatMap_cons, joinSegments_append (splitChars_ne_nil mark first) more,
          joinSegments_splitChars_of, inductionHypothesis, joinSegments_cons only, List.map_append,
          List.map_cons, ite_self]

private theorem joinSegments_splitChars (chars : List Char) :
    joinSegments (splitChars '/' chars) = chars := by
  rw [joinSegments_splitChars_of]
  refine List.map_id'' (fun c => ?_) chars
  split <;> simp_all

def segmentSteps (segments : List (List Char)) : List Step :=
  segments.filterMap segmentStep

theorem segmentSteps_append (first second : List (List Char)) :
    segmentSteps (first ++ second) = segmentSteps first ++ segmentSteps second :=
  List.filterMap_append

private theorem segmentSteps_fillers {segments : List (List Char)}
    (fillers : ∀ segment ∈ segments, isFiller segment = true) : segmentSteps segments = [] := by
  rw [segmentSteps, List.filterMap_eq_nil_iff]
  intro segment member
  rw [segmentStep, if_pos (fillers segment member)]

/-! ## Leads -/

def Visible (segments : List (List Char)) : Prop :=
  ∀ first ∈ segments.head?, isFiller first = false

theorem parts_of_visible (path : String) (visible : Visible (splitChars '/' path.toList)) :
    parts path = ⟨[], splitChars '/' path.toList⟩ := by
  have noFiller : isFiller (spill '/' path.toList) = false :=
    visible _ (splitChars_head '/' path.toList)
  unfold parts
  split
  · next rest isPath => rw [isPath, spill_mark] at noFiller; cases noFiller
  · next isPath => rw [isPath] at noFiller; cases noFiller
  · next rest isPath => rw [isPath] at noFiller; simp [spill, isFiller] at noFiller
  · next isPath => rw [isPath] at noFiller; cases noFiller
  · rfl

/-- The four ways in which a path can start, and its parts. -/
theorem parts_cases (path : String) :
    (∃ rest, path.toList = '/' :: rest ∧ parts path = ⟨['/'], splitChars '/' rest⟩)
      ∨ (path.toList = ['.'] ∧ parts path = ⟨['.'], []⟩)
      ∨ (∃ rest, path.toList = '.' :: '/' :: rest
          ∧ parts path = ⟨['.'], [] :: splitChars '/' rest⟩)
      ∨ (path.toList = [] ∧ parts path = ⟨[], []⟩)
      ∨ (parts path = ⟨[], splitChars '/' path.toList⟩
          ∧ Visible (splitChars '/' path.toList)) := by
  cases isPath : path.toList with
  | nil => exact Or.inr (Or.inr (Or.inr (Or.inl ⟨rfl, by rw [parts, isPath]⟩)))
  | cons c rest =>
      by_cases rooted : c = '/'
      · subst rooted
        exact Or.inl ⟨rest, rfl, by rw [parts, isPath]; rfl⟩
      · by_cases visible : isFiller (spill '/' (c :: rest)) = false
        · have isVisible : Visible (splitChars '/' (c :: rest)) := by
            intro first isFirst
            rw [splitChars_head] at isFirst
            rw [← Option.some.inj isFirst, visible]
          refine Or.inr (Or.inr (Or.inr (Or.inr ⟨?_, isVisible⟩)))
          rw [← isPath] at isVisible ⊢
          exact parts_of_visible path isVisible
        · -- The first segment is a filler that does not start with a slash: it is a dot.
          have isDot : spill '/' (c :: rest) = ['.'] := by
            rw [Bool.not_eq_false, isFiller, Bool.or_eq_true, beq_iff_eq, beq_iff_eq] at visible
            rcases visible with empty | isDot
            · simp [spill, rooted] at empty
            · exact isDot
          rw [spill, List.takeWhile_cons_of_pos (by simpa using rooted), List.cons.injEq] at isDot
          obtain ⟨rfl, stops⟩ := isDot
          cases rest with
          | nil => exact Or.inr (Or.inl ⟨rfl, by rw [parts, isPath]; rfl⟩)
          | cons next later =>
              have isSlash : next = '/' := by
                by_contra other
                rw [List.takeWhile_cons_of_pos (by simpa using other)] at stops
                cases stops
              subst isSlash
              exact Or.inr (Or.inr (Or.inl ⟨later, rfl, by rw [parts, isPath]; rfl⟩))

theorem steps_of_parts {path : String} {lead : List Char} {segments : List (List Char)}
    (isParts : parts path = ⟨lead, segments⟩) :
    steps path = leadStep lead ++ segmentSteps segments := by
  rw [steps, isParts]
  rfl

/-- The lead takes its step, and all segments take theirs: those that belong to the lead are
fillers. -/
theorem steps_eq (path : String) :
    steps path = leadStep (parts path).lead ++ segmentSteps (splitChars '/' path.toList) := by
  rcases parts_cases path with ⟨rest, isPath, isParts⟩ | ⟨isPath, isParts⟩ | ⟨rest, isPath, isParts⟩
    | ⟨isPath, isParts⟩ | ⟨isParts, -⟩
  · rw [steps_of_parts isParts, isParts, isPath, splitChars_mark]
    rfl
  · rw [steps_of_parts isParts, isParts, isPath]
    rfl
  · have isSplit : splitChars '/' ('.' :: '/' :: rest) = ['.'] :: splitChars '/' rest :=
      splitChars_append_mark '/' ['.'] rest
    rw [steps_of_parts isParts, isParts, isPath, isSplit]
    rfl
  · rw [steps_of_parts isParts, isParts, isPath]
    rfl
  · rw [steps_of_parts isParts, isParts]

theorem lead_of_isRooted {path : String} (rooted : isRooted path = true) :
    (parts path).lead = ['/'] := by
  rw [isRooted, beq_iff_eq] at rooted
  obtain ⟨rest, isPath⟩ := List.head?_eq_some_iff.mp rooted
  rw [parts, isPath]
  rfl

theorem lead_of_not_rooted {path : String} (relative : isRooted path = false) :
    leadStep (parts path).lead = [] ∨ leadStep (parts path).lead = [.here] := by
  rcases parts_cases path with ⟨rest, isPath, isParts⟩ | ⟨-, isParts⟩ | ⟨rest, -, isParts⟩
    | ⟨-, isParts⟩ | ⟨isParts, -⟩
  · rw [isRooted, isPath] at relative
    cases relative
  · exact Or.inr (by rw [isParts]; rfl)
  · exact Or.inr (by rw [isParts]; rfl)
  · exact Or.inl (by rw [isParts]; rfl)
  · exact Or.inl (by rw [isParts]; rfl)

/-! ## Joining -/

/-- What follows a slash adds its segments. -/
theorem parts_append_slash (path : String) (some : path.toList ≠ []) (later : List Char) :
    ∃ front, parts (String.ofList (path.toList ++ '/' :: later))
        = ⟨(parts path).lead, front ++ splitChars '/' later⟩
      ∧ segmentSteps front = segmentSteps (parts path).segments := by
  rcases parts_cases path with ⟨rest, isPath, isParts⟩ | ⟨isPath, isParts⟩ | ⟨rest, isPath, isParts⟩
    | ⟨isPath, -⟩ | ⟨isParts, visible⟩
  · rw [isParts]
    refine ⟨splitChars '/' rest, ?_, rfl⟩
    rw [← splitChars_append_mark, isPath, parts, String.toList_ofList]
    rfl
  · rw [isParts]
    refine ⟨[[]], ?_, rfl⟩
    rw [isPath, parts, String.toList_ofList]
    rfl
  · rw [isParts]
    refine ⟨[] :: splitChars '/' rest, ?_, rfl⟩
    rw [List.cons_append, ← splitChars_append_mark, isPath, parts, String.toList_ofList]
    rfl
  · exact absurd isPath some
  · have isSplit : splitChars '/' (String.ofList (path.toList ++ '/' :: later)).toList
        = splitChars '/' path.toList ++ splitChars '/' later := by
      rw [String.toList_ofList, splitChars_append_mark]
    have joined := parts_of_visible (String.ofList (path.toList ++ '/' :: later)) <| by
      rw [isSplit]
      intro first isFirst
      rw [List.head?_append_of_ne_nil _ (splitChars_ne_nil _ _)] at isFirst
      exact visible first isFirst
    rw [isSplit] at joined
    rw [isParts]
    exact ⟨splitChars '/' path.toList, joined, rfl⟩

def Plain (path : String) : Prop :=
  ∀ segment ∈ splitChars '/' path.toList, isFiller segment = false

instance : DecidablePred Plain := fun path =>
  inferInstanceAs (Decidable (∀ segment ∈ splitChars '/' path.toList, _))

variable {path : String}

theorem Plain.steps (plain : Plain path) : steps path = segmentSteps (splitChars '/' path.toList) :=
  steps_of_parts (parts_of_visible path fun first isFirst => plain first (List.mem_of_mem_head? isFirst))

theorem Plain.not_rooted (plain : Plain path) : isRooted path = false := by
  rw [isRooted, beq_eq_false_iff_ne]
  intro isSlash
  obtain ⟨rest, isPath⟩ : ∃ rest, path.toList = '/' :: rest := by
    cases chars : path.toList with
    | nil => rw [chars] at isSlash; cases isSlash
    | cons c rest =>
        rw [chars, List.head?_cons, Option.some.injEq] at isSlash
        exact ⟨rest, by rw [isSlash]⟩
  have noFiller := plain [] (by rw [isPath, splitChars_mark]; exact List.mem_cons_self)
  cases noFiller

def Step.isName : Step → Bool
  | name _ => true
  | _ => false

theorem exists_names {steps : List Step} (enters : ∀ step ∈ steps, step.isName = true) :
    ∃ names : List String, steps = names.map Step.name := by
  induction steps with
  | nil => exact ⟨[], rfl⟩
  | cons first rest inductionHypothesis =>
      obtain ⟨enter, enterRest⟩ := List.forall_mem_cons.mp enters
      obtain ⟨names, isNames⟩ := inductionHypothesis enterRest
      cases first with
      | name text => exact ⟨text :: names, by rw [isNames]; rfl⟩
      | root => cases enter
      | here => cases enter
      | up => cases enter

/-- A relative path goes behind a slash: one that is added, or the last character of the base. -/
theorem toList_join {base : String} (nonempty : base.toList ≠ []) (relative : isRooted path = false) :
    ∃ ahead, (join base path).toList = ahead ++ '/' :: path.toList
      ∧ (base.toList = ahead ∨ base.toList = ahead ++ ['/']) := by
  rw [join, relative, if_neg Bool.false_ne_true]
  by_cases slash : base.toList.getLast? = some '/'
  · obtain ⟨ahead, isBase⟩ := List.getLast?_eq_some_iff.mp slash
    refine ⟨ahead, ?_, Or.inr isBase⟩
    rw [if_pos (by simp [slash]), String.toList_append, isBase, List.append_assoc]
    rfl
  · refine ⟨base.toList, ?_, Or.inl rfl⟩
    rw [if_neg (by simp [nonempty, slash])]
    simp

/-- The slash that follows a path may be its own last character. -/
theorem parts_behind {base : String} (nonempty : base.toList ≠ []) {ahead : List Char}
    (isBase : base.toList = ahead ∨ base.toList = ahead ++ ['/']) (later : List Char) :
    ∃ front, parts (String.ofList (ahead ++ '/' :: later))
        = ⟨(parts base).lead, front ++ splitChars '/' later⟩
      ∧ segmentSteps front = segmentSteps (parts base).segments := by
  rcases isBase with rfl | isBase
  · exact parts_append_slash base nonempty later
  · by_cases onlyRoot : ahead = []
    · subst onlyRoot
      obtain rfl : base = "/" := String.toList_inj.mp isBase
      refine ⟨[], ?_, rfl⟩
      rw [parts, String.toList_ofList]
      rfl
    · have visible : (String.ofList ahead).toList ≠ [] := by simpa using onlyRoot
      obtain ⟨front, isParts, isFront⟩ := parts_append_slash (String.ofList ahead) visible later
      obtain ⟨own, isOwn, sameSteps⟩ := parts_append_slash (String.ofList ahead) visible []
      rw [String.toList_ofList] at isParts isOwn
      rw [← String.ofList_toList (s := base), isBase, isOwn, segmentSteps_append, sameSteps]
      exact ⟨front, isParts, isFront.trans (List.append_nil _).symm⟩

/-- Behind a path that is not empty, a relative path takes the steps of its segments. -/
theorem steps_join_relative {base : String} (nonempty : base.toList ≠ [])
    (relative : isRooted path = false) :
    Path.steps (join base path) = Path.steps base ++ segmentSteps (splitChars '/' path.toList) := by
  obtain ⟨ahead, joined, isBase⟩ := toList_join nonempty relative
  obtain ⟨front, isParts, isFront⟩ := parts_behind nonempty isBase path.toList
  rw [← String.ofList_toList (s := join base path), joined, steps_of_parts isParts,
    segmentSteps_append, isFront, ← List.append_assoc]
  rfl

theorem join_empty (path : String) : join "" path = path := by
  unfold join
  split
  · rfl
  · exact String.empty_append

/-- **Steps of a joined path** are those of its two parts. -/
theorem steps_join (base : String) (plain : Plain path) :
    steps (join base path) = steps base ++ steps path := by
  by_cases empty : base.toList = []
  · obtain rfl : base = "" := String.toList_inj.mp empty
    rw [join_empty]
    rfl
  · rw [steps_join_relative empty plain.not_rooted, plain.steps]

/-! ## Plain paths -/

theorem segmentStep_injective {left right : List Char} (visibleLeft : isFiller left = false)
    (visibleRight : isFiller right = false) (same : segmentStep left = segmentStep right) :
    left = right := by
  rw [segmentStep, segmentStep, visibleLeft, visibleRight, if_neg Bool.false_ne_true,
    if_neg Bool.false_ne_true] at same
  by_cases upLeft : left = ['.', '.'] <;> by_cases upRight : right = ['.', '.']
  · rw [upLeft, upRight]
  · simp [upLeft, upRight] at same
  · simp [upLeft, upRight] at same
  · rw [if_neg upLeft, if_neg upRight, Option.some.injEq, Step.name.injEq, String.ofList_inj] at same
    exact same

theorem segmentSteps_cons {first : List Char} (visible : isFiller first = false)
    (rest : List (List Char)) :
    ∃ step, segmentStep first = some step
      ∧ segmentSteps (first :: rest) = step :: segmentSteps rest := by
  obtain ⟨step, isStep⟩ : ∃ step, segmentStep first = some step := by
    rw [segmentStep, visible, if_neg Bool.false_ne_true]
    split <;> exact ⟨_, rfl⟩
  exact ⟨step, isStep, List.filterMap_cons_some isStep⟩

private theorem segmentSteps_injective {left right : List (List Char)}
    (visibleLeft : ∀ segment ∈ left, isFiller segment = false)
    (visibleRight : ∀ segment ∈ right, isFiller segment = false)
    (same : segmentSteps left = segmentSteps right) : left = right := by
  induction left generalizing right with
  | nil =>
      cases right with
      | nil => rfl
      | cons first rest =>
          obtain ⟨_, -, isSteps⟩ := segmentSteps_cons (visibleRight first List.mem_cons_self) rest
          rw [isSteps] at same
          cases same
  | cons first rest inductionHypothesis =>
      obtain ⟨visibleFirst, visibleRest⟩ := List.forall_mem_cons.mp visibleLeft
      obtain ⟨step, isStep, isSteps⟩ := segmentSteps_cons visibleFirst rest
      rw [isSteps] at same
      cases right with
      | nil => cases same
      | cons other others =>
          obtain ⟨visibleOther, visibleOthers⟩ := List.forall_mem_cons.mp visibleRight
          obtain ⟨otherStep, isOther, isOthers⟩ := segmentSteps_cons visibleOther others
          rw [isOthers, List.cons.injEq] at same
          rw [segmentStep_injective visibleFirst visibleOther (by rw [isStep, isOther, same.1]),
            inductionHypothesis visibleRest visibleOthers same.2]

/-- **Plain paths are told apart by their steps.** -/
theorem Plain.steps_injective {other : String} (plain : Plain path) (plainOther : Plain other)
    (same : Path.steps path = Path.steps other) : path = other := by
  rw [plain.steps, plainOther.steps] at same
  have sameSegments := segmentSteps_injective plain plainOther same
  rw [← String.toList_inj, ← joinSegments_splitChars path.toList, sameSegments,
    joinSegments_splitChars]

theorem Plain.steps_pos (plain : Plain path) : 0 < (Path.steps path).length := by
  rw [plain.steps]
  unfold Plain at plain
  cases segments : splitChars '/' path.toList with
  | nil => exact absurd segments (splitChars_ne_nil _ _)
  | cons first rest =>
      rw [segments] at plain
      obtain ⟨_, -, isSteps⟩ := segmentSteps_cons (plain first List.mem_cons_self) rest
      rw [isSteps]
      exact Nat.succ_pos _

/-! ## Parents -/

def Parts.Written (parts : Parts) : Prop :=
  (∀ segment ∈ parts.segments, '/' ∉ segment)
    ∧ (parts.lead = ['/'] ∨ (parts.lead = ['.'] ∧ ∀ first ∈ parts.segments.head?, first = [])
        ∨ (parts.lead = [] ∧ Visible parts.segments))

theorem parts_written (path : String) : (parts path).Written := by
  have free : ∀ chars : List Char, ∀ segment ∈ splitChars '/' chars, '/' ∉ segment :=
    fun _ _ member => free_of_mem_splitChars member
  rcases parts_cases path with ⟨rest, -, isParts⟩ | ⟨-, isParts⟩ | ⟨rest, -, isParts⟩
    | ⟨-, isParts⟩ | ⟨isParts, visible⟩
  · rw [isParts]
    exact ⟨free rest, Or.inl rfl⟩
  · rw [isParts]
    exact ⟨fun _ => by simp, Or.inr (Or.inl ⟨rfl, fun _ => by simp⟩)⟩
  · rw [isParts]
    refine ⟨List.forall_mem_cons.mpr ⟨List.not_mem_nil, free rest⟩, Or.inr (Or.inl ⟨rfl, ?_⟩)⟩
    intro first isFirst
    exact (Option.some.inj isFirst).symm
  · rw [isParts]
    exact ⟨fun _ => by simp, Or.inr (Or.inr ⟨rfl, fun _ => by simp⟩)⟩
  · rw [isParts]
    exact ⟨free path.toList, Or.inr (Or.inr ⟨rfl, visible⟩)⟩

theorem Parts.Written.of_start {parts : Parts} {kept : List (List Char)}
    (written : parts.Written) (start : kept <+: parts.segments) :
    Parts.Written ⟨parts.lead, kept⟩ := by
  have head : ∀ first ∈ kept.head?, first ∈ parts.segments.head? := by
    intro first isFirst
    obtain ⟨rest, isSegments⟩ := start
    rw [← isSegments]
    cases kept with
    | nil => cases isFirst
    | cons own later => exact isFirst
  refine ⟨fun segment member => written.1 segment (start.subset member), ?_⟩
  rcases written.2 with root | ⟨here, empty⟩ | ⟨none, visible⟩
  · exact Or.inl root
  · exact Or.inr (Or.inl ⟨here, fun first isFirst => empty first (head first isFirst)⟩)
  · exact Or.inr (Or.inr ⟨none, fun first isFirst => visible first (head first isFirst)⟩)

/-- The steps of a path are those of the parts that it is written from. -/
theorem Parts.Written.steps {lead : List Char} {segments : List (List Char)}
    (written : Parts.Written ⟨lead, segments⟩) :
    Path.steps (Parts.text ⟨lead, segments⟩) = leadStep lead ++ segmentSteps segments := by
  obtain ⟨free, root | ⟨here, empty⟩ | ⟨none, visible⟩⟩ := written
  · obtain rfl : lead = ['/'] := root
    have isParts : parts (Parts.text ⟨['/'], segments⟩)
        = ⟨['/'], splitChars '/' (joinSegments segments)⟩ := by
      rw [parts, Parts.text, String.toList_ofList]
      rfl
    rw [steps_of_parts isParts]
    by_cases none : segments = []
    · subst none
      rfl
    · rw [splitChars_joinSegments none free]
  · obtain rfl : lead = ['.'] := here
    cases segments with
    | nil => rfl
    | cons first rest =>
        obtain rfl : first = [] := empty first rfl
        by_cases none : rest = []
        · subst none
          rfl
        · have isParts : parts (Parts.text ⟨['.'], [] :: rest⟩)
              = ⟨['.'], [] :: splitChars '/' (joinSegments rest)⟩ := by
            rw [parts, Parts.text, String.toList_ofList, joinSegments_cons none]
            rfl
          rw [steps_of_parts isParts,
            splitChars_joinSegments none (List.forall_mem_cons.mp free).2]
  · obtain rfl : lead = [] := none
    by_cases none : segments = []
    · subst none
      rfl
    · have isSplit : splitChars '/' (Parts.text ⟨[], segments⟩).toList = segments := by
        rw [Parts.text, String.toList_ofList]
        exact splitChars_joinSegments none free
      have isParts := parts_of_visible (Parts.text ⟨[], segments⟩) (by rwa [isSplit])
      rw [isSplit] at isParts
      exact steps_of_parts isParts

/-- Fillers at the end take no steps. -/
theorem segmentSteps_reverse_dropWhile (segments : List (List Char)) :
    segmentSteps (segments.dropWhile isFiller).reverse = segmentSteps segments.reverse := by
  have fillers : segmentSteps (segments.takeWhile isFiller).reverse = [] :=
    segmentSteps_fillers fun segment member => List.mem_takeWhile_imp (List.mem_reverse.mp member)
  conv_rhs => rw [← List.takeWhile_append_dropWhile (p := isFiller) (l := segments)]
  rw [List.reverse_append, segmentSteps_append, fillers, List.append_nil]

/-- **A parent takes all steps but the last.** A path without steps has no parent. -/
theorem steps_parent (path : String) :
    (steps path = [] ∧ parent? path = none)
      ∨ ∃ last, steps path = steps ((parent? path).getD "") ++ [last] := by
  have isSteps : steps path = leadStep (parts path).lead ++ segmentSteps (parts path).segments := rfl
  have noFillers : segmentSteps (parts path).segments
      = segmentSteps ((parts path).segments.reverse.dropWhile isFiller).reverse := by
    rw [segmentSteps_reverse_dropWhile, List.reverse_reverse]
  rw [isSteps, noFillers, parent?]
  cases left : (parts path).segments.reverse.dropWhile isFiller with
  | nil =>
      -- Only the lead takes a step, if there is one.
      rcases (parts_written path).2 with root | ⟨here, -⟩ | ⟨none, -⟩
      · right
        rw [root]
        exact ⟨.root, rfl⟩
      · right
        rw [here]
        exact ⟨.here, rfl⟩
      · left
        rw [none]
        exact ⟨rfl, rfl⟩
  | cons last rest =>
      right
      have visible : isFiller last = false := by
        have someLeft : (parts path).segments.reverse.dropWhile isFiller ≠ [] := by
          rw [left]
          exact List.cons_ne_nil _ _
        have head := List.head_dropWhile_not isFiller someLeft
        simpa only [left, List.head_cons] using head
      have start : (rest.dropWhile isFiller).reverse <+: (parts path).segments := by
        have suffix : rest.dropWhile isFiller <:+ (parts path).segments.reverse :=
          (List.dropWhile_suffix _).trans
            ((List.suffix_cons last rest).trans (left ▸ List.dropWhile_suffix _))
        have reversed := List.reverse_prefix.mpr suffix
        rwa [List.reverse_reverse] at reversed
      have written := (parts_written path).of_start start
      obtain ⟨step, -, isLast⟩ := segmentSteps_cons visible []
      refine ⟨step, ?_⟩
      show _ = steps (Parts.text ⟨(parts path).lead, (rest.dropWhile isFiller).reverse⟩) ++ [step]
      rw [written.steps, segmentSteps_reverse_dropWhile, List.reverse_cons, segmentSteps_append,
        isLast, List.append_assoc]
      rfl

/-- A path takes at most one step more than its parent. -/
theorem steps_le_parent (path : String) :
    (steps path).length ≤ (steps ((parent? path).getD "")).length + 1 := by
  rcases steps_parent path with ⟨noSteps, -⟩ | ⟨last, isSteps⟩
  · rw [noSteps]
    exact Nat.zero_le _
  · rw [isSteps, List.length_append]
    exact Nat.le_refl _

end Tangle.Path
