import Tangle.Proofs.Markdown.Edge

/-!
Contract: where metadata blocks can start depends on the text behind only by whether some
line of it closes one.

Owns: `holdsMetadataEnd` on texts that are put together, and `Replaces`, the relation
between what follows the same lines in two texts that are read alike.

Does **not** own: reading the block (`Tangle.Proofs.Markdown.Reading`).
-/

set_option autoImplicit false

namespace Tangle.Markdown

open Tangle.Text (EndsLine)

def holdsMetadataEnd (text : List Char) : Bool :=
  anyMetadataEnd (text.length + 1) text

private theorem anyMetadataEnd_fuel :
    ∀ (fuel more : Nat) (text : List Char), text.length < fuel → text.length < more →
      anyMetadataEnd fuel text = anyMetadataEnd more text
  | fuel + 1, more + 1, text, enough, enoughMore => by
      rw [anyMetadataEnd, anyMetadataEnd]
      split
      · rfl
      · cases text with
        | nil => rfl
        | cons c rest =>
            have positive := Cursor.lineLength_pos (List.cons_ne_nil c rest)
            have size : ((c :: rest).drop (lineLength (c :: rest))).length
                = (c :: rest).length - lineLength (c :: rest) := List.length_drop
            have some_char : (c :: rest).length = rest.length + 1 := rfl
            exact anyMetadataEnd_fuel fuel more _ (by omega) (by omega)

private theorem holdsMetadataEnd_nil : holdsMetadataEnd [] = false := rfl

private theorem holdsMetadataEnd_step {text : List Char} (some_char : text ≠ []) :
    holdsMetadataEnd text
      = ((metadataEnd? text).isSome || holdsMetadataEnd (text.drop (lineLength text))) := by
  have positive := Cursor.lineLength_pos some_char
  have size := List.length_pos_iff.mpr some_char
  rw [holdsMetadataEnd, anyMetadataEnd]
  have goesOn : text.isEmpty = false := by simpa using some_char
  rw [goesOn, holdsMetadataEnd, anyMetadataEnd_fuel text.length
    ((text.drop (lineLength text)).length + 1) _ (by rw [List.length_drop]; omega) (by omega)]
  cases (metadataEnd? text).isSome <;> rfl

/-- Behind whole lines. -/
theorem holdsMetadataEnd_lines (later : List Char) :
    ∀ {text : List Char}, EndsLine text →
      holdsMetadataEnd (text ++ later) = (holdsMetadataEnd text || holdsMetadataEnd later)
  | [], _ => by rw [List.nil_append, holdsMetadataEnd_nil, Bool.false_or]
  | c :: rest, ends => by
      have shut : Shut (c :: rest) later := by
        rcases ends with nothing | ⟨start, isLines⟩
        · cases nothing
        · exact Or.inl (by rw [isLines]; simp)
      have positive := Cursor.lineLength_pos (List.cons_ne_nil c rest)
      have within := lineLength_le (c :: rest)
      rw [holdsMetadataEnd_step (by simp), holdsMetadataEnd_step (List.cons_ne_nil c rest),
        metadataEnd?_append shut, lineLength_append shut, List.drop_append_of_le_length within,
        holdsMetadataEnd_lines later (ends.drop (lineLength (c :: rest))), Bool.or_assoc]
  termination_by text => text.length
  decreasing_by
    rw [List.length_drop]
    omega

/-! ## Ahead of a line end -/

theorem lineEnd?_isSome_cons (c : Char) (rest : List Char) :
    (lineEnd? (c :: rest)).isSome = (c == '\n' || c == '\r') := by
  by_cases feed : c = '\n'
  · subst feed
    rfl
  · by_cases ret : c = '\r'
    · subst ret
      unfold lineEnd?
      split <;> simp_all
    · simp [lineEnd?, feed, ret]

theorem lineEnd?_head {text : List Char} (ends : (lineEnd? text).isSome) :
    ∀ c ∈ text.head?, c = '\n' ∨ c = '\r' := by
  cases text with
  | nil => simp
  | cons d rest =>
      rw [lineEnd?_isSome_cons, Bool.or_eq_true, beq_iff_eq, beq_iff_eq] at ends
      rintro c ⟨⟩
      exact ends

/-- A run of marks ends at a line end. -/
theorem lineEnd?_stops {text : List Char} (ends : (lineEnd? text).isSome) (mark : Char)
    (feed : mark ≠ '\n') (ret : mark ≠ '\r') : ∀ c ∈ text.head?, (c == mark) = false := by
  intro c isHead
  rw [beq_eq_false_iff_ne]
  rintro rfl
  exact (lineEnd?_head ends c isHead).elim feed ret

theorem countWhile_append_stops {keep : Char → Bool} {text later : List Char}
    (stops : ∀ c ∈ later.head?, keep c = false) :
    countWhile keep (text ++ later) = countWhile keep text := by
  induction text with
  | nil =>
      cases later with
      | nil => rfl
      | cons c rest => rw [List.nil_append, countWhile_cons, stops c rfl]; rfl
  | cons c rest inductionHypothesis =>
      rw [List.cons_append, countWhile_cons, countWhile_cons, inductionHypothesis]

private theorem metadataEnd?_lineEnd {text later : List Char} (ends : (lineEnd? later).isSome) :
    (metadataEnd? (text ++ later)).isSome = (metadataEnd? text).isSome := by
  have closes : ∀ rest : List Char,
      (lineEnd? (rest ++ later)).isSome = (lineEnd? rest).isSome := by
    intro rest
    cases rest with
    | nil => rw [List.nil_append, ends]; rfl
    | cons c rest => rw [List.cons_append, lineEnd?_isSome_cons, lineEnd?_isSome_cons]
  unfold metadataEnd?
  rw [countWhile_append_stops (lineEnd?_stops ends '-' (by decide) (by decide)),
    countWhile_append_stops (lineEnd?_stops ends '.' (by decide) (by decide))]
  split
  · next marks =>
      have three : 3 ≤ text.length := by
        rw [Bool.or_eq_true, decide_eq_true_eq, decide_eq_true_eq] at marks
        have hyphens := countWhile_le (· == '-') text
        have dots := countWhile_le (· == '.') text
        omega
      have within : 3 + countWhile (· == ' ') (text.drop 3) ≤ text.length := by
        have spaces := countWhile_le (· == ' ') (text.drop 3)
        rw [List.length_drop] at spaces
        omega
      dsimp only
      rw [List.drop_append_of_le_length three,
        countWhile_append_stops (lineEnd?_stops ends ' ' (by decide) (by decide)),
        List.drop_append_of_le_length within, Option.isSome_map, Option.isSome_map, closes]
  · rfl

theorem lineLength_append_free {text : List Char} (free : '\n' ∉ text) (later : List Char) :
    lineLength (text ++ later) = text.length + lineLength later := by
  induction text with
  | nil => rw [List.nil_append, List.length_nil, Nat.zero_add]
  | cons c rest inductionHypothesis =>
      rw [List.mem_cons, not_or] at free
      rw [List.cons_append, lineLength, if_neg (Ne.symm free.1), inductionHypothesis free.2,
        List.length_cons]
      omega

/-- Ahead of a line end, the last line of the text counts as if it were the last of all. -/
theorem holdsMetadataEnd_lineEnd {later : List Char} (ends : (lineEnd? later).isSome) :
    ∀ text : List Char, holdsMetadataEnd (text ++ later)
      = (holdsMetadataEnd text || holdsMetadataEnd (later.drop (lineLength later)))
  | [] => by
      rw [List.nil_append, holdsMetadataEnd_nil, Bool.false_or]
      cases later with
      | nil => rfl
      | cons c rest =>
          have unmarked := @metadataEnd?_lineEnd [] _ ends
          rw [List.nil_append] at unmarked
          rw [holdsMetadataEnd_step (List.cons_ne_nil c rest), unmarked]
          rfl
  | c :: rest => by
      have some_char := List.cons_ne_nil c rest
      have positive := Cursor.lineLength_pos some_char
      rw [holdsMetadataEnd_step (by simp), holdsMetadataEnd_step some_char,
        metadataEnd?_lineEnd ends, Bool.or_assoc]
      congr 1
      by_cases shut : '\n' ∈ c :: rest
      · have within := lineLength_le (c :: rest)
        rw [lineLength_append (Or.inl shut), List.drop_append_of_le_length within,
          holdsMetadataEnd_lineEnd ends ((c :: rest).drop (lineLength (c :: rest)))]
      · have whole := lineLength_append_free shut []
        rw [List.append_nil, lineLength, Nat.add_zero] at whole
        rw [lineLength_append_free shut, ← List.drop_drop, List.drop_left, whole, List.drop_length,
          holdsMetadataEnd_nil, Bool.false_or]
  termination_by text => text.length
  decreasing_by
    rw [List.length_drop]
    omega

/-! ## Where a metadata block starts -/

/-- What may stand behind the same lines so that these are read alike: nothing, or a
comment or fence and then lines of which equally many close a metadata block. -/
def Replaces (later other : List Char) : Prop :=
  (later = [] ∧ other = [])
    ∨ (OpensBlock later ∧ OpensBlock other ∧ holdsMetadataEnd later = holdsMetadataEnd other)

theorem Replaces.swaps {later other : List Char} (replaces : Replaces later other) :
    Swaps later other := by
  rcases replaces with ⟨rfl, rfl⟩ | ⟨opens, opensOther, -⟩
  · exact ⟨Halts.nil, Iff.rfl⟩
  · refine ⟨opensOther.halts, ?_⟩
    obtain ⟨c, rest, rfl, -⟩ := opens.head
    obtain ⟨d, more, rfl, -⟩ := opensOther.head
    simp

theorem OpensBlock.blankLine? {text : List Char} (opens : OpensBlock text) :
    blankLine? text = none := by
  obtain ⟨c, rest, rfl, kept⟩ := opens.head
  rcases kept with rfl | rfl | rfl <;> simp [Markdown.blankLine?, countWhile_cons, isPad, lineEnd?,
    Text.Symbol.backtick]

def metadataBody (body : List Char) : Bool :=
  (metadataEnd? body).isNone && (blankLine? body).isNone && holdsMetadataEnd body

private theorem metadataBody_replaces {later other body : List Char} (replaces : Replaces later other)
    (fits : Fits body later) : metadataBody (body ++ later) = metadataBody (body ++ other) := by
  have swaps := replaces.swaps
  rcases replaces with ⟨rfl, rfl⟩ | ⟨opens, opensOther, sameEnd⟩
  · rfl
  · have some_later : later ≠ [] := by
      obtain ⟨c, rest, rfl, -⟩ := opens.head
      exact List.cons_ne_nil c rest
    have ends := (fits.resolve_left some_later).1
    unfold metadataBody
    rw [holdsMetadataEnd_lines later ends, holdsMetadataEnd_lines other ends, sameEnd]
    rcases fits.shut_or_halts with shut | ⟨rfl, -⟩
    · rw [metadataEnd?_append shut, metadataEnd?_append (swaps.shut shut), blankLine?_append shut,
        blankLine?_append (swaps.shut shut)]
    · rw [List.nil_append, List.nil_append, opens.halts.noMetadata, opensOther.halts.noMetadata,
        opens.blankLine?, opensOther.blankLine?]

private theorem startsMetadata_eq (text : List Char) :
    startsMetadata text =
      if countWhile (· == '-') text = 3 then
        ((text.drop 3).take (lineLength (text.drop 3))).all (fun c => isSpace c && c != '\x0b')
          && !(text.drop 3).isEmpty
          && metadataBody ((text.drop 3).drop (lineLength (text.drop 3)))
      else false := by
  rw [startsMetadata]
  simp only [metadataBody, holdsMetadataEnd, Bool.and_assoc]

/-- **Metadata blocks start alike** before texts that replace one another. -/
theorem startsMetadata_replaces {later other text : List Char} (replaces : Replaces later other)
    (fits : Fits text later) :
    startsMetadata (text ++ later) = startsMetadata (text ++ other) := by
  have swaps := replaces.swaps
  rcases fits.shut_or_halts with shut | ⟨rfl, -⟩
  · have hyphens := countWhile_append shut (· == '-') rfl
    rw [startsMetadata_eq, startsMetadata_eq, hyphens,
      countWhile_append (swaps.shut shut) (· == '-') rfl]
    split
    · next three =>
        have within : 3 ≤ text.length := three ▸ countWhile_le (· == '-') text
        have behind := shut.behind (· == '-') rfl
        rw [three] at behind
        have line := lineLength_le (text.drop 3)
        have notEmpty : ∀ {after : List Char}, Shut (text.drop 3) after →
            (text.drop 3 ++ after).isEmpty = (text.drop 3).isEmpty := by
          intro after afterShut
          cases isRest : text.drop 3 with
          | nil =>
              rw [isRest] at afterShut
              rw [afterShut.later_eq_nil]
              rfl
          | cons c rest => rfl
        rw [List.drop_append_of_le_length within, List.drop_append_of_le_length within,
          lineLength_append behind, lineLength_append (swaps.shut behind),
          List.take_append_of_le_length line, List.take_append_of_le_length line,
          List.drop_append_of_le_length line, List.drop_append_of_le_length line,
          notEmpty behind, notEmpty (swaps.shut behind),
          metadataBody_replaces replaces ((fits.drop 3).drop _)]
    · rfl
  · rcases replaces with ⟨rfl, rfl⟩ | ⟨opens, opensOther, -⟩
    · rfl
    · obtain ⟨c, rest, isLater, kept⟩ := opens.head
      obtain ⟨d, more, isOther, keptOther⟩ := opensOther.head
      rw [List.nil_append, List.nil_append, isLater, isOther, startsMetadata_edge kept,
        startsMetadata_edge keptOther]

end Tangle.Markdown
