import Tangle.Proofs.Source.Positions
import Tangle.Source.LineTable

/-!
Contract: positions looked up in a table of the lines of a text.

Owns: what the table of line starts holds, what a search in it ends with, and
`positions_embed_boundaries`.

Does **not** own: what the line and the column of a place are (`Tangle.Proofs.Source.Positions`).

## Two answers of one search

Halving finds the offset among the line starts, or the place at which it would have to go. The
line is the one found, or the one ahead of that place. Both are the same line: the last one that
starts no later than the offset. The table says which line this is, as its entries up to the offset
are counted by the line feeds up to there.
-/

set_option autoImplicit false

namespace Tangle.Source

open Tangle.Text
open Tangle.Markdown.Cursor (byteSize_append)

/-! ## The table -/

theorem startsFrom_append (offset : Nat) (first second : List Char) :
    startsFrom offset (first ++ second)
      = startsFrom offset first ++ startsFrom (offset + byteSize first) second := by
  induction first generalizing offset with
  | nil => rfl
  | cons c rest inductionHypothesis =>
      rw [List.cons_append, startsFrom, startsFrom, byteSize, inductionHypothesis, Nat.add_assoc]
      split <;> rfl

private theorem length_startsFrom (offset : Nat) (chars : List Char) :
    (startsFrom offset chars).length = chars.count '\n' := by
  induction chars generalizing offset with
  | nil => rfl
  | cons c rest inductionHypothesis =>
      rw [startsFrom]
      split
      · next feed => rw [feed, List.length_cons, inductionHypothesis, List.count_cons_self]
      · next other => rw [inductionHypothesis, List.count_cons_of_ne other]

/-- Lines start behind the first character and no later than the text ends. -/
theorem startsFrom_bounds {offset start : Nat} {chars : List Char}
    (isStart : start ∈ startsFrom offset chars) :
    offset < start ∧ start ≤ offset + byteSize chars := by
  induction chars generalizing offset with
  | nil => cases isStart
  | cons c rest inductionHypothesis =>
      have size := c.utf8Size_pos
      rw [byteSize]
      rw [startsFrom] at isStart
      split at isStart
      · rcases List.mem_cons.mp isStart with rfl | later
        · omega
        · have bounds := inductionHypothesis later
          omega
      · have bounds := inductionHypothesis isStart
        omega

private theorem startsFrom_increasing (offset : Nat) (chars : List Char) :
    (startsFrom offset chars).Pairwise (· < ·) := by
  induction chars generalizing offset with
  | nil => exact List.Pairwise.nil
  | cons c rest inductionHypothesis =>
      rw [startsFrom]
      split
      · exact List.pairwise_cons.mpr
          ⟨fun _ isStart => (startsFrom_bounds isStart).1, inductionHypothesis _⟩
      · exact inductionHypothesis _

private theorem lineStarts_increasing (text : String) : (lineStarts text).Pairwise (· < ·) :=
  List.pairwise_cons.mpr ⟨fun _ isStart => (startsFrom_bounds isStart).1, startsFrom_increasing _ _⟩

/-- The last line that has started is the one behind the last line feed. -/
theorem startsFrom_last (offset : Nat) (chars : List Char) :
    ∃ start, (offset :: startsFrom offset chars)[chars.count '\n']? = some start
      ∧ start + byteSize (lastLine chars) = offset + byteSize chars := by
  induction chars using List.reverseRecOn with
  | nil => exact ⟨offset, rfl, rfl⟩
  | append_singleton front c inductionHypothesis =>
      obtain ⟨start, isStart, isSize⟩ := inductionHypothesis
      rw [startsFrom_append, byteSize_append, List.count_append, ← List.cons_append]
      by_cases feed : c = '\n'
      · subst feed
        have next : front.count '\n' + List.count '\n' ['\n']
            = (offset :: startsFrom offset front).length := by
          rw [List.length_cons, length_startsFrom, List.count_singleton_self]
        have isNew : startsFrom (offset + byteSize front) ['\n']
            = [offset + byteSize front + byteSize ['\n']] := rfl
        rw [lastLine_feed, next, isNew, List.getElem?_concat_length]
        exact ⟨_, rfl, Nat.add_assoc _ _ _⟩
      · have same : front.count '\n' + List.count '\n' [c] = front.count '\n' := by
          rw [List.count_singleton, if_neg (by simpa using feed), Nat.add_zero]
        have noMore : startsFrom (offset + byteSize front) [c] = [] := if_neg feed
        refine ⟨start, ?_, ?_⟩
        · rw [same, noMore, List.append_nil]
          exact isStart
        · rw [lastLine_other front feed, byteSize_append, ← Nat.add_assoc, isSize, Nat.add_assoc]

/-! ### The table of a text that is split -/

section Split

variable {text : String} {ahead behind : List Char} (isText : text.toList = ahead ++ behind)
include isText

private theorem lineStarts_split :
    lineStarts text = (0 :: startsFrom 0 ahead) ++ startsFrom (byteSize ahead) behind := by
  rw [lineStarts, isText, startsFrom_append, Nat.zero_add, List.cons_append]

/-- Counted by the line feeds ahead, an entry is the start of the line that the split is on. -/
theorem lineStarts_last :
    ∃ start, (lineStarts text)[ahead.count '\n']? = some start
      ∧ start + byteSize (lastLine ahead) = byteSize ahead := by
  obtain ⟨start, isStart, isSize⟩ := startsFrom_last 0 ahead
  have within : ahead.count '\n' < (0 :: startsFrom 0 ahead).length := by
    rw [List.length_cons, length_startsFrom]
    exact Nat.lt_succ_self _
  refine ⟨start, ?_, isSize.trans (Nat.zero_add _)⟩
  rw [lineStarts_split isText, List.getElem?_append_left within, isStart]

/-- Later entries start behind the split. -/
theorem lt_of_lineStarts_later {line start : Nat} (isStart : (lineStarts text)[line]? = some start)
    (later : ahead.count '\n' < line) : byteSize ahead < start := by
  have past : (0 :: startsFrom 0 ahead).length ≤ line := by
    rw [List.length_cons, length_startsFrom]
    exact later
  rw [lineStarts_split isText, List.getElem?_append_right past] at isStart
  exact (startsFrom_bounds (List.mem_of_getElem? isStart)).1

end Split

/-! ## The search -/

section Search

variable {table : List Nat} {sought low high : Nat}

/-- The entries ahead of `low` are smaller than the one sought, and those from `high` on larger. -/
structure Encloses (table : List Nat) (sought low high : Nat) : Prop where
  ordered : low ≤ high
  within : high ≤ table.length
  smaller : ∀ index entry, table[index]? = some entry → index < low → entry < sought
  larger : ∀ index entry, table[index]? = some entry → high ≤ index → sought < entry

private theorem encloses_whole (table : List Nat) (sought : Nat) :
    Encloses table sought 0 table.length where
  ordered := Nat.zero_le _
  within := Nat.le_refl _
  smaller index _ _ early := absurd early (Nat.not_lt_zero index)
  larger index entry isEntry late := by
    rw [List.getElem?_eq_none late] at isEntry
    cases isEntry

private theorem entries_increasing (increasing : table.Pairwise (· < ·)) {earlier later first second : Nat}
    (isFirst : table[earlier]? = some first) (isSecond : table[later]? = some second)
    (before : earlier < later) : first < second := by
  obtain ⟨inTable, rfl⟩ := List.getElem?_eq_some_iff.mp isFirst
  obtain ⟨laterIn, rfl⟩ := List.getElem?_eq_some_iff.mp isSecond
  exact List.pairwise_iff_getElem.mp increasing earlier later inTable laterIn before

def Search.Right (table : List Nat) (sought : Nat) : Search → Prop
  | found index => table[index]? = some sought
  | missing index => Encloses table sought index index

/-- **Halving is right.** Each step keeps the entry sought, if there is one, between the ends. -/
theorem bisect_right (increasing : table.Pairwise (· < ·))
    (encloses : Encloses table sought low high) :
    (bisect table sought low high).Right table sought := by
  induction isWidth : high - low using Nat.strong_induction_on generalizing low high with
  | _ width inductionHypothesis =>
      rw [bisect]
      have ordered := encloses.ordered
      have within := encloses.within
      split
      · next unsettled =>
          dsimp only
          generalize isMiddle : low + (high - low) / 2 = middle
          have inTable : middle < table.length := by omega
          have isEntry : table[middle]? = some (table.getD middle 0) := by
            rw [List.getD_eq_getElem?_getD, List.getElem?_eq_getElem inTable, Option.getD_some]
          split
          · next same =>
              rw [same] at isEntry
              exact isEntry
          · next other =>
              split
              · next small =>
                  refine inductionHypothesis (high - (middle + 1)) (by omega)
                    ⟨by omega, within, ?_, encloses.larger⟩ rfl
                  intro index entry isOther early
                  rcases Nat.lt_succ_iff_lt_or_eq.mp early with before | rfl
                  · exact Nat.lt_trans (entries_increasing increasing isOther isEntry before) small
                  · rw [isOther] at isEntry
                    rw [Option.some.inj isEntry]
                    exact small
              · next notSmall =>
                  refine inductionHypothesis (middle - low) (by omega)
                    ⟨by omega, Nat.le_of_lt inTable, encloses.smaller, ?_⟩ rfl
                  intro index entry isOther late
                  have large : sought < table.getD middle 0 := by omega
                  rcases Nat.eq_or_lt_of_le late with rfl | behind
                  · rw [isOther] at isEntry
                    rw [Option.some.inj isEntry]
                    exact large
                  · exact Nat.lt_trans large (entries_increasing increasing isEntry isOther behind)
      · next settled =>
          obtain rfl : low = high := by omega
          exact encloses

/-- **Both answers give the same line:** the last entry that is not larger. -/
theorem Search.Right.line {search : Search} (right : search.Right table sought)
    (increasing : table.Pairwise (· < ·)) {first : Nat} (isFirst : table[0]? = some first)
    (started : first ≤ sought) :
    (∃ start, table[search.line]? = some start ∧ start ≤ sought)
      ∧ ∀ index entry, table[index]? = some entry → search.line < index → sought < entry := by
  cases search with
  | found index =>
      have isEntry : table[index]? = some sought := right
      exact ⟨⟨sought, isEntry, Nat.le_refl _⟩, fun _ _ isOther behind =>
        entries_increasing increasing isEntry isOther behind⟩
  | missing index =>
      have encloses : Encloses table sought index index := right
      -- The first entry is not larger, so the one sought is missing behind it.
      have behind : 0 < index := by
        by_contra none
        have late := encloses.larger 0 first isFirst (by omega)
        omega
      have inTable : index - 1 < table.length := by
        have within := encloses.within
        omega
      have isEntry := List.getElem?_eq_getElem inTable
      refine ⟨⟨_, isEntry, Nat.le_of_lt (encloses.smaller _ _ isEntry (by omega))⟩, ?_⟩
      intro other entry isOther later
      have past : index - 1 < other := later
      exact encloses.larger other entry isOther (by omega)

end Search

/-! ## Looking up positions -/

section LookUp

variable {text : String} {ahead behind : List Char} (isText : text.toList = ahead ++ behind)
include isText

/-- The line found has as many lines ahead of it as there are line feeds ahead of the offset. -/
theorem line_bisect :
    (bisect (lineStarts text) (byteSize ahead) 0 (lineStarts text).length).line
      = ahead.count '\n' := by
  have increasing := lineStarts_increasing text
  have right := bisect_right increasing (encloses_whole _ (byteSize ahead))
  obtain ⟨⟨start, isStart, started⟩, last⟩ := right.line increasing rfl (Nat.zero_le _)
  apply Nat.le_antisymm
  · by_contra late
    have behindOffset := lt_of_lineStarts_later isText isStart (Nat.lt_of_not_le late)
    omega
  · by_contra early
    obtain ⟨latest, isLatest, isSize⟩ := lineStarts_last isText
    have larger := last (ahead.count '\n') latest isLatest (Nat.lt_of_not_le early)
    omega

/-- The cut from the start of the line leaves what is ahead on it. -/
theorem cut?_lastLine {start : Nat} (isSize : start + byteSize (lastLine ahead) = byteSize ahead) :
    (⟨start, byteSize ahead⟩ : Span).cut? text = some (String.ofList (lastLine ahead)) := by
  obtain ⟨before, isAhead⟩ := lastLine_suffix ahead
  obtain rfl : start = byteSize before := by
    rw [← isAhead, byteSize_append, isAhead] at isSize
    exact Nat.add_right_cancel isSize
  have isWhole : text.toList = before ++ (lastLine ahead ++ behind) := by
    rw [isText, ← List.append_assoc, isAhead]
  have placed : At text ⟨byteSize before, lastLine ahead ++ behind⟩ := ⟨before, isWhole, rfl⟩
  have ordered : byteSize before ≤ byteSize ahead := isSize ▸ Nat.le_add_right _ _
  rw [Span.cut?_eq ordered (isBoundary_of_split isWhole) (isBoundary_of_split isText), Span.slice,
    ← isSize]
  exact congrArg (fun chars => some (String.ofList chars)) (placed.chars _ _ rfl)

end LookUp

/-- **A look-up in the table counts what is ahead.** -/
theorem lookUp?_eq {text : String} {offset : Nat}
    (isBoundary : IsBoundary text (min offset text.utf8ByteSize)) :
    lookUp? text offset = some (positionAt text offset) := by
  obtain ⟨ahead, behind, isText, isOffset⟩ := isBoundary.split
  obtain ⟨start, isStart, isSize⟩ := lineStarts_last isText
  have clamped : positionAt text offset = positionAt text (byteSize ahead) := by
    rw [← isOffset]
    rcases Nat.le_total offset text.utf8ByteSize with within | past
    · rw [Nat.min_eq_left within]
    · rw [Nat.min_eq_right past, positionAt_of_ge past]
  have isPosition : positionAt text offset
      = ⟨ahead.count '\n' + 1, (lastLine ahead).length + 1⟩ := by
    rw [clamped, positionAt_split isText rfl, ← Position.line_after, ← Position.column_after]
  rw [lookUp?, isOffset, line_bisect isText, isStart, isPosition]
  show ((⟨start, byteSize ahead⟩ : Span).cut? text).bind _ = _
  rw [cut?_lastLine isText isSize, Option.bind_some, String.toList_ofList]
  rfl

/-- **Positions embed the boundaries of a text.** A boundary is on the line that is counted by the
line feeds ahead of it, in the column that is counted by the characters behind the last of these.
Positions are ordered as boundaries are, and the range of a span contains exactly the boundaries that
the span does. An offset past the end has the position of the end. The search in the table of line
starts finds all of these positions, and no cut that it makes splits a character. -/
theorem positions_embed_boundaries (text : String) :
    (∀ offset, IsBoundary text offset →
      positionAt text offset = ⟨1 + (takeBytes offset text.toList).count '\n',
        1 + (lastLine (takeBytes offset text.toList)).length⟩)
    ∧ (∀ first second, IsBoundary text first → IsBoundary text second →
        ((positionAt text first).before (positionAt text second) = true ↔ first < second))
    ∧ (∀ start stop offset, IsBoundary text start → IsBoundary text stop → IsBoundary text offset →
        ((rangeOf text ⟨start, stop⟩).contains (positionAt text offset) = true
          ↔ start ≤ offset ∧ offset < stop))
    ∧ (∀ offset, text.utf8ByteSize ≤ offset →
        positionAt text offset = positionAt text text.utf8ByteSize)
    ∧ ∀ offset, IsBoundary text (min offset text.utf8ByteSize) →
        lookUp? text offset = some (positionAt text offset) := by
  refine ⟨?_, ?_, ?_, ?_, ?_⟩
  · intro offset _
    rw [Nat.add_comm 1, Nat.add_comm 1, ← Position.line_after, ← Position.column_after]
    rfl
  · intro first second isFirst isSecond
    exact positionAt_before_iff isFirst isSecond
  · intro start stop offset isStart isStop isBoundary
    exact contains_positionAt_iff isStart isStop isBoundary
  · intro offset past
    exact positionAt_of_ge past
  · intro offset isBoundary
    exact lookUp?_eq isBoundary

/-- Characters of several bytes on the second of three lines. -/
theorem positions_embed_boundaries_accented :
    let text := "ab\né—x\n"
    IsBoundary text 5 ∧ ¬ IsBoundary text 4 ∧ IsBoundary text 8
      ∧ positionAt text 8 = ⟨2, 3⟩
      ∧ lookUp? text 8 = some ⟨2, 3⟩
      ∧ (rangeOf text ⟨5, 9⟩).contains (positionAt text 8) = true
      ∧ positionAt text 100 = ⟨3, 1⟩ := by
  intro text
  obtain ⟨place, -, contains, past, found⟩ := positions_embed_boundaries text
  have start : IsBoundary text 5 := by decide +kernel
  have inside : IsBoundary text 8 := by decide +kernel
  have stop : IsBoundary text 9 := by decide +kernel
  have isPlace : positionAt text 8 = ⟨2, 3⟩ := (place 8 inside).trans (by decide +kernel)
  refine ⟨start, by decide +kernel, inside, isPlace, ?_, ?_, ?_⟩
  · rw [← isPlace]
    exact found 8 (by decide +kernel)
  · exact (contains 5 9 8 start stop inside).mpr (by decide)
  · exact (past 100 (by decide +kernel)).trans (by decide +kernel)

end Tangle.Source
