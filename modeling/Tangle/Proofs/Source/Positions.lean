import Tangle.Proofs.Source.Boundaries

/-!
Contract: positions are in the order of the offsets that they stand for.

Owns: line and column of a place by what is ahead of it, `positionAt_before_iff`, and which
boundaries the range of a span contains.

Does **not** own: the search for a line (`Tangle.Proofs.Source.LineTable`).

## Every character counts

A position is reached by reading what is ahead of it. Each character read moves it on, to the next
column or to the start of the next line, so of two boundaries the later one has the later position.
The converse needs nothing more: two boundaries are the same, or one is the later one.
-/

set_option autoImplicit false

namespace Tangle.Source

open Tangle.Text

/-! ## Text order -/

section Order

variable {p q r : Position}

theorem Position.before_iff :
    p.before q = true ↔ p.line < q.line ∨ p.line = q.line ∧ p.column < q.column := by
  simp [before]

private theorem Position.before_irrefl (p : Position) : p.before p = false := by
  simp [before]

private theorem Position.before_trans (first : p.before q = true) (second : q.before r = true) :
    p.before r = true := by
  rw [before_iff] at first second ⊢
  omega

private theorem Position.before_advance (p : Position) (c : Char) : p.before (p.advance c) = true := by
  rw [before_iff, advance]
  split
  · exact Or.inl (Nat.lt_succ_self p.line)
  · exact Or.inr ⟨rfl, Nat.lt_succ_self p.column⟩

/-- Whoever reads on comes to a later position. -/
theorem Position.after_before (ahead : List Char) {passage : List Char} (filled : passage ≠ []) :
    (after ahead).before (after (ahead ++ passage)) = true := by
  induction passage using List.reverseRecOn with
  | nil => exact absurd rfl filled
  | append_singleton front c inductionHypothesis =>
      rw [← List.append_assoc, after_concat]
      by_cases only : front = []
      · rw [only, List.append_nil]
        exact before_advance _ c
      · exact before_trans (inductionHypothesis only) (before_advance _ c)

end Order

/-! ## Line and column -/

def lastLine (chars : List Char) : List Char :=
  chars.rtakeWhile (· ≠ '\n')

theorem lastLine_feed (front : List Char) : lastLine (front ++ ['\n']) = [] :=
  List.rtakeWhile_concat_neg _ _ _ (by decide)

theorem lastLine_other (front : List Char) {c : Char} (other : c ≠ '\n') :
    lastLine (front ++ [c]) = lastLine front ++ [c] :=
  List.rtakeWhile_concat_pos _ _ _ (by simpa using other)

theorem lastLine_suffix (chars : List Char) : lastLine chars <:+ chars :=
  List.rtakeWhile_suffix _ _

theorem Position.line_after (chars : List Char) : (after chars).line = chars.count '\n' + 1 := by
  induction chars using List.reverseRecOn with
  | nil => rfl
  | append_singleton front c inductionHypothesis =>
      rw [after_concat, advance, List.count_append, List.count_singleton]
      split
      · next feed => rw [inductionHypothesis, if_pos (beq_iff_eq.mpr feed)]
      · next other => rw [inductionHypothesis, if_neg fun feed => other (beq_iff_eq.mp feed)]

theorem Position.column_after (chars : List Char) :
    (after chars).column = (lastLine chars).length + 1 := by
  induction chars using List.reverseRecOn with
  | nil => rfl
  | append_singleton front c inductionHypothesis =>
      rw [after_concat, advance]
      split
      · next feed => rw [feed, lastLine_feed, List.length_nil]
      · next other =>
          rw [lastLine_other front other, List.length_append, List.length_singleton,
            inductionHypothesis]

/-! ## Positions of boundaries -/

section Boundaries

variable {text : String} {first second start stop offset : Nat}

/-- The position of a place is reached by reading what is ahead of it. -/
theorem positionAt_split {ahead behind : List Char} (isText : text.toList = ahead ++ behind)
    (isOffset : offset = byteSize ahead) : positionAt text offset = Position.after ahead := by
  rw [positionAt, isText, isOffset, takeBytes_byteSize]

private theorem positionAt_before (isFirst : IsBoundary text first) (isSecond : IsBoundary text second)
    (later : first < second) : (positionAt text first).before (positionAt text second) = true := by
  obtain ⟨ahead, passage, behind, isText, rfl, rfl⟩ :=
    isFirst.between isSecond (Nat.le_of_lt later)
  have filled : passage ≠ [] := by
    rintro rfl
    exact Nat.lt_irrefl _ later
  have whole : text.toList = (ahead ++ passage) ++ behind := by
    rw [isText, List.append_assoc]
  rw [positionAt_split isText rfl,
    positionAt_split whole (Markdown.Cursor.byteSize_append _ _).symm]
  exact Position.after_before ahead filled

/-- **Positions are ordered as boundaries are.** -/
theorem positionAt_before_iff (isFirst : IsBoundary text first)
    (isSecond : IsBoundary text second) :
    (positionAt text first).before (positionAt text second) = true ↔ first < second := by
  refine ⟨fun isBefore => ?_, positionAt_before isFirst isSecond⟩
  by_contra notLater
  have loop : (positionAt text first).before (positionAt text first) = true := by
    rcases Nat.eq_or_lt_of_le (Nat.le_of_not_lt notLater) with rfl | earlier
    · exact isBefore
    · exact Position.before_trans isBefore (positionAt_before isSecond isFirst earlier)
  rw [Position.before_irrefl] at loop
  cases loop

/-- **A range contains what its span does.** -/
theorem contains_positionAt_iff (isStart : IsBoundary text start) (isStop : IsBoundary text stop)
    (isBoundary : IsBoundary text offset) :
    (rangeOf text ⟨start, stop⟩).contains (positionAt text offset) = true
      ↔ start ≤ offset ∧ offset < stop := by
  rw [SourceRange.contains, rangeOf, Bool.and_eq_true, Bool.not_eq_true',
    positionAt_before_iff isBoundary isStop, ← Bool.not_eq_true,
    positionAt_before_iff isBoundary isStart, Nat.not_lt]

/-- Enough bytes take in the whole text. -/
theorem takeBytes_of_ge {chars : List Char} {bytes : Nat} (enough : byteSize chars ≤ bytes) :
    takeBytes bytes chars = chars := by
  have whole := prefix_takeBytes enough []
  rw [List.append_nil] at whole
  have isPrefix := takeBytes_prefix bytes chars
  exact isPrefix.eq_of_length_le whole.length_le

theorem positionAt_of_ge (past : text.utf8ByteSize ≤ offset) :
    positionAt text offset = positionAt text text.utf8ByteSize := by
  rw [utf8ByteSize_eq] at past ⊢
  rw [positionAt, positionAt, takeBytes_of_ge past, takeBytes_of_ge (Nat.le_refl _)]

end Boundaries

end Tangle.Source
