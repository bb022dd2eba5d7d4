import Tangle.Proofs.Path.Steps

/-!
Contract: paths that go on from a base by names, and what is left of them below the base.

Owns: the segments of such a path, what `below?` leaves of a path with the steps of its base in
front, and `below_parent`: the directory of a path below a base, seen from the base.

Does **not** own: which names there are (`Tangle.Proofs.Files.Below`).

## Spelling in front, names behind

A base may be spelled with fillers and with a slash at its end, and below it these are lost. So the
base is followed by its steps, and only the names behind it are followed by their letters: what is
left is a suffix of the segments that takes the steps of the names.
-/

set_option autoImplicit false

namespace Tangle.Path

open Tangle.Text

/-! ## Names behind a base -/

def IsSegment (name : String) : Prop :=
  '/' ∉ name.toList ∧ isFiller name.toList = false

def segmentsOf (names : List String) : List (List Char) :=
  names.map String.toList

section Names

variable {base name : String} {names : List String}

private theorem IsSegment.not_nil (segment : IsSegment name) : name.toList ≠ [] := by
  intro empty
  have visible := segment.2
  rw [empty] at visible
  cases visible

theorem IsSegment.not_rooted (segment : IsSegment name) : isRooted name = false := by
  rw [isRooted, beq_eq_false_iff_ne]
  exact fun isSlash => segment.1 (List.mem_of_head? isSlash)

theorem free_of_segments (proper : ∀ name ∈ names, IsSegment name) :
    ∀ segment ∈ segmentsOf names, '/' ∉ segment :=
  List.forall_mem_map.mpr fun name isIn => (proper name isIn).1

theorem visible_of_segments (proper : ∀ name ∈ names, IsSegment name) :
    ∀ segment ∈ segmentsOf names, isFiller segment = false :=
  List.forall_mem_map.mpr fun name isIn => (proper name isIn).2

theorem toList_textJoin (names : List String) :
    (Text.join "/" names).toList = joinSegments (segmentsOf names) := by
  induction names with
  | nil => rfl
  | cons first rest inductionHypothesis =>
      cases rest with
      | nil => rfl
      | cons next later =>
          rw [Text.join, String.toList_append, String.toList_append, inductionHypothesis,
            List.append_assoc]
          · rfl
          · exact List.cons_ne_nil next later

/-- Names go behind one slash and are separated by slashes. -/
theorem toList_foldl_join (nonempty : base.toList ≠ []) (some : names ≠ [])
    (proper : ∀ name ∈ names, IsSegment name) :
    ∃ ahead, (names.foldl join base).toList = ahead ++ '/' :: joinSegments (segmentsOf names)
      ∧ (base.toList = ahead ∨ base.toList = ahead ++ ['/']) := by
  induction names generalizing base with
  | nil => exact absurd rfl some
  | cons first rest inductionHypothesis =>
      obtain ⟨properFirst, properRest⟩ := List.forall_mem_cons.mp proper
      obtain ⟨ahead, joined, isBase⟩ := toList_join nonempty properFirst.not_rooted
      refine ⟨ahead, ?_, isBase⟩
      by_cases only : rest = []
      · subst only
        exact joined
      · obtain ⟨behind, isWhole, isJoined⟩ := @inductionHypothesis (join base first)
          (by rw [joined]; simp) only properRest
        -- The joined path ends with a name, so the slash behind it is a new one.
        have isBehind : (join base first).toList = behind := by
          refine isJoined.resolve_right fun slashed => properFirst.1 ?_
          have isLast := congrArg List.getLast? (joined.symm.trans slashed)
          rw [List.getLast?_append_of_ne_nil _ (List.cons_ne_nil _ _),
            List.getLast?_cons_of_ne_nil properFirst.not_nil, List.getLast?_concat] at isLast
          exact List.mem_of_getLast? isLast
        have isSegments : segmentsOf (first :: rest) = first.toList :: segmentsOf rest := rfl
        rw [List.foldl_cons, isWhole, ← isBehind, joined, isSegments,
          joinSegments_cons (by simpa [segmentsOf] using only)]
        simp

/-- The segments of a path below a base are those of the base, but for fillers, and the names. -/
theorem parts_foldl_join (nonempty : base.toList ≠ []) (some : names ≠ [])
    (proper : ∀ name ∈ names, IsSegment name) :
    ∃ front, parts (names.foldl join base) = ⟨(parts base).lead, front ++ segmentsOf names⟩
      ∧ segmentSteps front = segmentSteps (parts base).segments := by
  obtain ⟨ahead, isPath, isBase⟩ := toList_foldl_join nonempty some proper
  obtain ⟨front, isParts, isFront⟩ := parts_behind nonempty isBase (joinSegments (segmentsOf names))
  rw [← String.ofList_toList (s := names.foldl join base), isPath, isParts,
    splitChars_joinSegments (by simpa [segmentsOf] using some) (free_of_segments proper)]
  exact ⟨front, rfl, isFront⟩

end Names

/-! ## What is left below a base -/

section Remainder

/-- Steps are consumed from the front, and a suffix is left that takes the others. -/
theorem consume?_steps {wanted more : List Step} {segments : List (List Char)}
    (isSteps : segmentSteps segments = wanted ++ more) :
    ∃ rest, consume? wanted segments = some rest ∧ rest <:+ segments ∧ segmentSteps rest = more := by
  induction segments generalizing wanted with
  | nil =>
      obtain ⟨rfl, rfl⟩ := List.append_eq_nil_iff.mp isSteps.symm
      exact ⟨[], by rw [consume?], List.suffix_refl _, rfl⟩
  | cons segment segments inductionHypothesis =>
      cases wanted with
      | nil => exact ⟨segment :: segments, by rw [consume?], List.suffix_refl _, isSteps⟩
      | cons step wanted =>
          cases isSegment : segmentStep segment with
          | none =>
              rw [segmentSteps, List.filterMap_cons_none isSegment] at isSteps
              obtain ⟨rest, isRest, suffix, isMore⟩ := inductionHypothesis isSteps
              refine ⟨rest, ?_, suffix.trans (List.suffix_cons _ _), isMore⟩
              rw [consume?, isSegment]
              exact isRest
          | some taken =>
              rw [segmentSteps, List.filterMap_cons_some isSegment, List.cons_append,
                List.cons.injEq] at isSteps
              obtain ⟨rest, isRest, suffix, isMore⟩ := inductionHypothesis isSteps.2
              refine ⟨rest, ?_, suffix.trans (List.suffix_cons _ _), isMore⟩
              rw [consume?, isSegment]
              dsimp only
              rw [if_pos isSteps.1, isRest]

variable {base path : String}

/-- A path with the steps of its base in front has a suffix of its segments below the base. -/
theorem below?_of_steps {more : List Step} (some : steps base ≠ [])
    (isSteps : steps path = steps base ++ more) :
    ∃ rest, below? base path
        = Option.some (Parts.text ⟨[], dropTailFillers (rest.dropWhile isFiller)⟩)
      ∧ rest <:+ (parts path).segments ∧ segmentSteps rest = more := by
  have isPath : leadStep (parts path).lead ++ segmentSteps (parts path).segments = steps base ++ more :=
    isSteps
  have short : (leadStep (parts path).lead).length ≤ (steps base).length := by
    have atMost : (leadStep (parts path).lead).length ≤ 1 := by
      unfold leadStep
      split
      · exact Nat.le_refl 1
      · split
        · exact Nat.le_refl 1
        · exact Nat.zero_le 1
    exact atMost.trans (List.length_pos_of_ne_nil some)
  obtain ⟨wanted, isBase, isSegments⟩ : ∃ wanted, steps base = leadStep (parts path).lead ++ wanted
      ∧ segmentSteps (parts path).segments = wanted ++ more := by
    rcases List.append_eq_append_iff.mp isPath with ⟨wanted, isBase, isMore⟩ | ⟨extra, isLead, isMore⟩
    · exact ⟨wanted, isBase, isMore⟩
    · rw [isLead, List.length_append] at short
      obtain rfl : extra = [] := List.length_eq_zero_iff.mp (by omega)
      exact ⟨[], by rw [isLead, List.append_nil, List.append_nil], isMore.symm⟩
  obtain ⟨rest, isRest, suffix, isMore⟩ := consume?_steps isSegments
  refine ⟨rest, ?_, suffix, isMore⟩
  have isPrefix : (leadStep (parts path).lead).isPrefixOf (steps base) = true := by
    rw [isBase]
    exact List.isPrefixOf_iff_prefix.mpr (List.prefix_append _ _)
  rw [below?]
  split
  · next empty => exact absurd empty some
  · dsimp only
    rw [isPrefix, if_pos rfl, isBase, List.drop_left, isRest, Option.map_some]

private theorem isFiller_of_segmentSteps_nil {segments : List (List Char)} (noSteps : segmentSteps segments = []) :
    ∀ segment ∈ segments, isFiller segment = true := by
  intro segment isIn
  by_contra visible
  obtain ⟨step, isStep, -⟩ := segmentSteps_cons (by simpa using visible) []
  have none := List.filterMap_eq_nil_iff.mp noSteps segment isIn
  rw [isStep] at none
  cases none

private theorem dropWhile_of_visible {segments : List (List Char)}
    (visible : ∀ segment ∈ segments, isFiller segment = false) :
    segments.dropWhile isFiller = segments := by
  cases segments with
  | nil => rfl
  | cons first later => exact List.dropWhile_cons_of_neg (by simp [visible first List.mem_cons_self])

private theorem dropTailFillers_concat (front : List (List Char)) {last : List Char}
    (visible : isFiller last = false) : dropTailFillers (front ++ [last]) = front ++ [last] := by
  rw [dropTailFillers, List.reverse_append, List.reverse_singleton, List.singleton_append,
    List.dropWhile_cons_of_neg (by simp [visible]), List.reverse_cons, List.reverse_reverse]

private theorem dropTailFillers_of_visible {segments : List (List Char)}
    (visible : ∀ segment ∈ segments, isFiller segment = false) : dropTailFillers segments = segments := by
  rcases List.eq_nil_or_concat' segments with rfl | ⟨front, last, rfl⟩
  · rfl
  · exact dropTailFillers_concat front (visible last (List.mem_append_right front List.mem_cons_self))

/-- Of a suffix that takes the steps of visible segments only these are left, without the fillers
in front of them. -/
theorem dropWhile_of_steps {rest whole kept : List (List Char)}
    (visible : ∀ segment ∈ kept, isFiller segment = false) (restEnds : rest <:+ whole)
    (keptEnds : kept <:+ whole) (same : segmentSteps rest = segmentSteps kept) :
    rest.dropWhile isFiller = kept := by
  rcases List.suffix_or_suffix_of_suffix restEnds keptEnds with ⟨extra, rfl⟩ | ⟨fillers, rfl⟩
  · rw [segmentSteps_append] at same
    have fillers := isFiller_of_segmentSteps_nil (List.self_eq_append_left.mp same)
    have none : extra = [] := by
      refine List.eq_nil_iff_forall_not_mem.mpr fun segment isIn => ?_
      have shown := visible segment (List.mem_append_left _ isIn)
      rw [fillers segment isIn] at shown
      cases shown
    rw [none]
    exact dropWhile_of_visible fun segment isIn => visible segment (List.mem_append_right _ isIn)
  · rw [segmentSteps_append] at same
    have isFillers := isFiller_of_segmentSteps_nil (List.append_left_eq_self.mp same)
    rw [List.dropWhile_append_of_pos isFillers, dropWhile_of_visible visible]

end Remainder

/-! ## The directory of a path below a base -/

/-- Parts that end with a visible segment are read back from their text. -/
theorem Parts.Written.parts_text {lead : List Char} {front : List (List Char)} {last : List Char}
    (written : Parts.Written ⟨lead, front ++ [last]⟩) (visible : isFiller last = false) :
    parts (Parts.text ⟨lead, front ++ [last]⟩) = ⟨lead, front ++ [last]⟩ := by
  obtain ⟨free, root | ⟨here, empty⟩ | ⟨none, isVisible⟩⟩ := written
  · obtain rfl : lead = ['/'] := root
    have isParts : parts (Parts.text ⟨['/'], front ++ [last]⟩)
        = ⟨['/'], splitChars '/' (joinSegments (front ++ [last]))⟩ := by
      rw [parts, Parts.text, String.toList_ofList]
      rfl
    rw [isParts, splitChars_joinSegments (List.concat_ne_nil last front) free]
  · obtain rfl : lead = ['.'] := here
    cases front with
    | nil =>
        obtain rfl : last = [] := empty last rfl
        cases visible
    | cons first front =>
        obtain rfl : first = [] := empty first rfl
        have filled : front ++ [last] ≠ [] := List.concat_ne_nil last front
        have isParts : parts (Parts.text ⟨['.'], [] :: (front ++ [last])⟩)
            = ⟨['.'], [] :: splitChars '/' (joinSegments (front ++ [last]))⟩ := by
          rw [parts, Parts.text, String.toList_ofList, joinSegments_cons filled]
          rfl
        rw [List.cons_append, isParts,
          splitChars_joinSegments filled (List.forall_mem_cons.mp free).2]
  · obtain rfl : lead = [] := none
    have isSplit : splitChars '/' (Parts.text ⟨[], front ++ [last]⟩).toList = front ++ [last] := by
      rw [Parts.text, String.toList_ofList]
      exact splitChars_joinSegments (List.concat_ne_nil last front) free
    have isParts := parts_of_visible (Parts.text ⟨[], front ++ [last]⟩) (by rwa [isSplit])
    rwa [isSplit] at isParts

section Directory

variable {base last : String} {names : List String}

theorem steps_ne_nil (nonempty : base.toList ≠ []) : steps base ≠ [] := by
  rcases parts_cases base with ⟨rest, -, isParts⟩ | ⟨-, isParts⟩ | ⟨rest, -, isParts⟩ | ⟨isEmpty, -⟩
    | ⟨isParts, visible⟩
  · rw [steps_of_parts isParts]
    exact List.cons_ne_nil _ _
  · rw [steps_of_parts isParts]
    exact List.cons_ne_nil _ _
  · rw [steps_of_parts isParts]
    exact List.cons_ne_nil _ _
  · exact absurd isEmpty nonempty
  · obtain ⟨first, rest, isSplit⟩ := List.exists_cons_of_ne_nil (splitChars_ne_nil '/' base.toList)
    obtain ⟨step, -, isSteps⟩ := segmentSteps_cons (visible first (by rw [isSplit]; rfl)) rest
    rw [steps_of_parts isParts, isSplit, isSteps]
    exact List.cons_ne_nil _ _

/-- The directory of a path below a base goes on from the base by all names but the last. -/
theorem parent?_foldl_join (nonempty : base.toList ≠ [])
    (proper : ∀ name ∈ names ++ [last], IsSegment name) :
    ∃ directory, parent? ((names ++ [last]).foldl join base) = some directory
      ∧ steps directory = steps base ++ segmentSteps (segmentsOf names)
      ∧ segmentsOf names <:+ (parts directory).segments := by
  obtain ⟨front, isParts, isFront⟩ := parts_foldl_join nonempty (List.concat_ne_nil last names) proper
  have isSegments : segmentsOf (names ++ [last]) = segmentsOf names ++ [last.toList] := List.map_append
  rw [isSegments, ← List.append_assoc] at isParts
  have visible := (proper last (List.mem_append_right names List.mem_cons_self)).2
  have isParent : parent? ((names ++ [last]).foldl join base)
      = some (Parts.text ⟨(parts base).lead, dropTailFillers (front ++ segmentsOf names)⟩) := by
    rw [parent?, isParts]
    dsimp only
    rw [List.reverse_append, List.reverse_singleton, List.singleton_append,
      List.dropWhile_cons_of_neg (by simp [visible])]
    rfl
  have written := parts_written ((names ++ [last]).foldl join base)
  rw [isParts] at written
  have kept : dropTailFillers (front ++ segmentsOf names)
      <+: front ++ segmentsOf names ++ [last.toList] := by
    have suffix := List.reverse_prefix.mpr
      (List.dropWhile_suffix (l := (front ++ segmentsOf names).reverse) isFiller)
    rw [List.reverse_reverse] at suffix
    exact suffix.trans (List.prefix_append _ _)
  have isWritten := written.of_start kept
  refine ⟨_, isParent, ?_, ?_⟩
  · rw [isWritten.steps, dropTailFillers, segmentSteps_reverse_dropWhile, List.reverse_reverse,
      segmentSteps_append, isFront, ← List.append_assoc]
    rfl
  · rcases List.eq_nil_or_concat' names with rfl | ⟨init, directoryName, rfl⟩
    · exact List.nil_suffix
    · have shown := (proper directoryName (by simp)).2
      have isOwn : segmentsOf (init ++ [directoryName]) = segmentsOf init ++ [directoryName.toList] :=
        List.map_append
      rw [isOwn, ← List.append_assoc, dropTailFillers_concat _ shown] at isWritten ⊢
      rw [isWritten.parts_text shown]
      exact ⟨front, (List.append_assoc ..).symm⟩

/-- **Seen from the base, the directory is its names** with slashes between them. -/
theorem below_parent (nonempty : base.toList ≠ []) (some : steps base ≠ [])
    (proper : ∀ name ∈ names ++ [last], IsSegment name) :
    (parent? ((names ++ [last]).foldl join base)).bind (below? base) = Option.some (Text.join "/" names) := by
  obtain ⟨directory, isParent, isSteps, ends⟩ := parent?_foldl_join nonempty proper
  obtain ⟨rest, isBelow, restEnds, isRest⟩ := below?_of_steps some isSteps
  have visible := visible_of_segments fun name isIn => proper name (List.mem_append_left [last] isIn)
  rw [isParent, Option.bind_some, isBelow, dropWhile_of_steps visible restEnds ends isRest,
    dropTailFillers_of_visible visible, Parts.text, List.nil_append, ← toList_textJoin,
    String.ofList_toList]

end Directory

end Tangle.Path
