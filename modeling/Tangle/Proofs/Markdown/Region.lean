import Tangle.Proofs.Markdown.Openings
import Tangle.Proofs.Markdown.Progress
import Tangle.Proofs.Text.Lines

/-!
Contract: a run of whole lines is read the same wherever it stands.

Owns: `Cursor.inside`, which puts a cursor into a longer text; `Halts`, which says that
a line ends every paragraph, table and definition before it; and, for each reader that
goes on to a second line, that it commutes with `Cursor.inside`.

Does **not** own: kept blocks that are replaced (`Tangle.Proofs.Document.Reprint`).

## Why the end of the lines is enough

A reader looks at one line at a time. As long as the line lies in the run, what follows
the run does not matter: that is `Tangle.Proofs.Markdown.FirstLine`. Behind the last line
of the run a reader finds the end of the text in one case and the later text in the
other. Both halt it, so it answers with the same place.
-/

set_option autoImplicit false

namespace Tangle.Markdown

open Tangle.Text (EndsLine)

/-! ## Cursors in a longer text -/

namespace Cursor

/-- The cursor in a longer text: the part it reads starts at byte `offset`, and `later`
follows that part. -/
def inside (cursor : Cursor) (offset : Nat) (later : List Char) : Cursor :=
  ⟨offset + cursor.offset, cursor.rest ++ later⟩

variable {cursor : Cursor} {offset : Nat} {later : List Char}

@[simp] theorem inside_rest : (cursor.inside offset later).rest = cursor.rest ++ later := rfl

theorem inside_advance {count : Nat} (within : count ≤ cursor.rest.length) :
    (cursor.inside offset later).advance count = (cursor.advance count).inside offset later := by
  simp only [advance, inside, List.take_append_of_le_length within,
    List.drop_append_of_le_length within, Nat.add_assoc]

theorem inside_nextLine (shut : Shut cursor.rest later) :
    (cursor.inside offset later).nextLine = cursor.nextLine.inside offset later := by
  rw [nextLine, inside_rest, lineLength_append shut, inside_advance (lineLength_le _)]
  rfl

end Cursor

theorem firstLine_le (text : List Char) : Table.firstLine text ≤ text.length := by
  have ends : ∀ rest : List Char, (lineEnd? rest).getD 0 ≤ rest.length := by
    intro rest
    unfold lineEnd?
    split <;> simp
  have run := countWhile_le (fun c => c != '\n' && c != '\r') text
  have rest := ends (text.drop (countWhile (fun c => c != '\n' && c != '\r') text))
  rw [List.length_drop] at rest
  unfold Table.firstLine
  dsimp only
  omega

theorem textLine_inside {cursor : Cursor} {offset : Nat} {later : List Char}
    (shut : Shut cursor.rest later) :
    textLine (cursor.inside offset later) = (textLine cursor).inside offset later := by
  rw [textLine, Cursor.inside_rest, Table.firstLine_append shut,
    Cursor.inside_advance (firstLine_le _)]
  rfl

/-! ## Halting -/

/-- What starts at the left edge and ends every paragraph before it; the end of the text
does too. -/
structure Halts (text : List Char) : Prop where
  flush : ∀ c ∈ text.head?, isSpace c = false ∧ c ≠ '>'
  interrupts : ∀ inside, interrupts text inside = true
  noUnderline : underline? text = none
  noDelimiters : Table.delimiterRow? text = none
  noMetadata : metadataEnd? text = none

theorem Halts.nil : Halts [] where
  flush := by simp
  interrupts := by decide
  noUnderline := rfl
  noDelimiters := by decide
  noMetadata := by decide

/-- A comment, or the fence of a code block, at the left edge. -/
def OpensBlock (text : List Char) : Prop :=
  "<!--".toList <+: text ∨ (fence? text).isSome

theorem OpensBlock.head {text : List Char} (opens : OpensBlock text) :
    ∃ c rest, text = c :: rest ∧ (c = '<' ∨ c = Text.Symbol.backtick ∨ c = '~') := by
  rcases opens with ⟨rest, rfl⟩ | fence
  · exact ⟨'<', _, rfl, Or.inl rfl⟩
  · cases text with
    | nil => exact absurd fence (by decide)
    | cons c rest =>
        refine ⟨c, rest, rfl, Or.inr ?_⟩
        unfold fence? at fence
        dsimp only at fence
        split at fence
        · next mark => simpa using mark
        · exact absurd fence (by simp)

theorem OpensBlock.ne_nil {text : List Char} (opens : OpensBlock text) : text ≠ [] := by
  obtain ⟨c, rest, rfl, -⟩ := opens.head
  exact List.cons_ne_nil c rest

theorem OpensBlock.halts {text : List Char} (opens : OpensBlock text) : Halts text := by
  have interrupted : ∀ inside, interrupts text inside = true := by
    intro inside
    rw [interrupts_eq]
    rcases opens with ⟨rest, rfl⟩ | fence
    · have comment : htmlInterrupts ("<!--".toList ++ rest) = true := by
        show ((Html.closing? ("!--".toList ++ rest)).isSome
          || Html.startsBlockElement ("!--".toList ++ rest)) = true
        rw [Bool.or_eq_true, Html.closing?_eq]
        left
        split
        · rfl
        · rw [if_pos (List.isPrefixOf_iff_prefix.mpr (List.prefix_append _ _))]
          rfl
      rw [comment, Bool.or_true]
    · rw [fence]
      simp
  obtain ⟨c, rest, rfl, mark⟩ := opens.head
  refine ⟨?_, interrupted, ?_, ?_, ?_⟩
  · rintro d ⟨⟩
    rcases mark with rfl | rfl | rfl <;> decide
  · rcases mark with rfl | rfl | rfl <;> rfl
  · rw [Table.delimiterRow?_eq]
    rcases mark with rfl | rfl | rfl <;>
      simp [Table.indentation, Lead.spaceUpTo, Lead.takeSpace, Lead.takeColumns,
        Table.delimiters?, Table.Delimiters.read, Table.Delimiters.step?, Text.Symbol.backtick]
  · rcases mark with rfl | rfl | rfl <;> rfl

/-- The first character at a halt is visible. -/
theorem Halts.head_cons {c : Char} {rest : List Char} (halts : Halts (c :: rest)) :
    c ≠ ' ' ∧ c ≠ '\t' ∧ c ≠ '\n' ∧ c ≠ '\r' ∧ isPad c = false ∧ c ≠ '>' := by
  obtain ⟨visible, quote⟩ := halts.flush c rfl
  simp only [isSpace, Bool.or_eq_false_iff, beq_eq_false_iff_ne] at visible
  obtain ⟨⟨pad, feed⟩, ret⟩ := visible
  have parts := pad
  simp only [isPad, Bool.or_eq_false_iff, beq_eq_false_iff_ne] at parts
  exact ⟨parts.1.1.1, parts.1.1.2, feed, ret, pad, quote⟩

theorem Halts.blankLine? {text : List Char} (halts : Halts text) :
    (blankLine? text).getD 0 = 0 := by
  cases text with
  | nil => rfl
  | cons c rest =>
      obtain ⟨-, -, feed, ret, pad, -⟩ := halts.head_cons
      simp [Markdown.blankLine?, countWhile_cons, pad, lineEnd?, feed, ret]

/-! ### Leads at a halt -/

def Container.atEdge : Container → Bool
  | .quote => false
  | .list _ _ => true
  | .item indent => indent = 0

theorem takeSpace_flush {lead : Lead} (noPending : lead.pending = 0)
    (flush : ∀ c ∈ lead.rest.head?, c ≠ ' ' ∧ c ≠ '\t') (count : Nat) :
    lead.takeSpace count = (lead, count) := by
  obtain ⟨rest, taken, tabStart, pending⟩ := lead
  dsimp only at noPending flush
  subst noPending
  simp only [Lead.takeSpace, Nat.zero_min, Nat.sub_zero]
  cases count with
  | zero => simp [Lead.takeColumns]
  | succ count =>
      cases rest with
      | nil => rfl
      | cons c rest =>
          obtain ⟨space, tab⟩ := flush c rfl
          rw [Lead.takeColumns, if_neg space, if_neg tab]

section Flush

variable {text : List Char} (halts : Halts text)
include halts

theorem Halts.takeSpace (count : Nat) :
    Lead.takeSpace { rest := text } count = ({ rest := text }, count) := by
  refine takeSpace_flush rfl ?_ count
  intro c isHead
  cases text with
  | nil => cases isHead
  | cons d rest =>
      cases isHead
      exact ⟨halts.head_cons.1, halts.head_cons.2.1⟩

theorem Halts.space (count : Nat) :
    Lead.space { rest := text } count = ({ rest := text }, decide (count = 0)) := by
  rw [Lead.space, halts.takeSpace]

theorem Halts.spaceUpTo (count : Nat) :
    Lead.spaceUpTo { rest := text } count = ({ rest := text }, 0) := by
  rw [Lead.spaceUpTo, halts.takeSpace]
  simp only [Nat.sub_self]

theorem Halts.quoteMarker? : Lead.quoteMarker? { rest := text } = none := by
  cases text with
  | nil => rfl
  | cons c rest =>
      obtain ⟨-, -, -, -, -, quote⟩ := halts.head_cons
      unfold Lead.quoteMarker?
      split
      · next eq => exact absurd (List.cons.inj eq).1 quote
      · rfl

/-- Containers that go on at a halt take nothing of its line. -/
theorem Halts.continue?_eq {container : Container} {after : Lead}
    (continues : container.continue? { rest := text } = some after) : after = { rest := text } := by
  cases container with
  | quote =>
      simp only [Container.continue?, halts.space, halts.quoteMarker?] at continues
      cases continues
  | list mark tight => exact (Option.some.inj continues).symm
  | item indent =>
      simp only [Container.continue?, halts.space] at continues
      split at continues
      · exact (Option.some.inj continues).symm
      · cases continues

theorem Halts.continued (spine : Spine) :
    (Spine.continued spine { rest := text }).2 = { rest := text } := by
  induction spine with
  | nil => rfl
  | cons container rest inductionHypothesis =>
      rw [Spine.continued]
      split
      · next after continues =>
          rw [halts.continue?_eq continues]
          exact inductionHypothesis
      · rfl

theorem Halts.spine_continue? {spine : Spine} {lead : Lead}
    (continues : spine.continue? text = some lead) : lead = { rest := text } := by
  simp only [Spine.continue?] at continues
  split at continues
  · rw [← Option.some.inj continues, halts.continued]
  · cases continues

/-- Where the containers stop that go on at a halt, as far as it is a line at all. -/
theorem Halts.continued_eq (some_char : text ≠ []) (spine : Spine) :
    Spine.continued spine { rest := text }
      = ((spine.takeWhile Container.atEdge).length, { rest := text }) := by
  have goesOn : ∀ container : Container, container.continue? { rest := text }
      = if container.atEdge then some { rest := text } else none := by
    intro container
    cases container with
    | quote => simp only [Container.continue?, halts.space, halts.quoteMarker?]; rfl
    | list mark tight => rfl
    | item indent =>
        obtain ⟨c, rest, rfl⟩ := List.exists_cons_of_ne_nil some_char
        obtain ⟨-, -, feed, ret, -, -⟩ := halts.head_cons
        simp [Container.continue?, halts.space, Container.atEdge, Lead.atLineEnd, feed, ret]
  induction spine with
  | nil => rfl
  | cons container rest inductionHypothesis =>
      rw [Spine.continued, goesOn]
      cases edge : container.atEdge with
      | false => simp [edge]
      | true => simp [edge, inductionHypothesis]

theorem Halts.allSpace : Lead.allSpace { rest := text } = { rest := text } := by
  cases text with
  | nil => rfl
  | cons c rest =>
      obtain ⟨space, tab, -⟩ := halts.head_cons
      simp [Lead.allSpace, Lead.skip, countWhile, space, tab]

end Flush

/-! ## Whole lines before a halt -/

def escapedBreak : List Char :=
  [Text.Symbol.backslash, '\n']

/-- `text` is read alone or before `later`: what follows it is nothing, or `text` is made
of whole lines, the last break is not escaped, and the later text halts. -/
def Fits (text later : List Char) : Prop :=
  later = [] ∨ (EndsLine text ∧ ¬ escapedBreak <:+ text ∧ Halts later)

theorem Fits.drop {text later : List Char} (fits : Fits text later) (count : Nat) :
    Fits (text.drop count) later := by
  rcases fits with nothing | ⟨ends, unescaped, halts⟩
  · exact Or.inl nothing
  · refine Or.inr ⟨ends.drop count, ?_, halts⟩
    exact fun escaped => unescaped (escaped.trans (List.drop_suffix count text))

/-- Either the first line ends in the text, or nothing is left of it. -/
theorem Fits.shut_or_later {text later : List Char} (fits : Fits text later) :
    Shut text later ∨ (text = [] ∧ Halts later ∧ later ≠ []) := by
  by_cases none_later : later = []
  · exact Or.inl (Or.inr none_later)
  · obtain ⟨ends, -, halts⟩ := fits.resolve_left none_later
    rcases ends with rfl | ⟨start, rfl⟩
    · exact Or.inr ⟨rfl, halts, none_later⟩
    · exact Or.inl (Or.inl (by simp))

theorem Fits.shut_or_halts {text later : List Char} (fits : Fits text later) :
    Shut text later ∨ (text = [] ∧ Halts later) :=
  fits.shut_or_later.imp_right fun parts => ⟨parts.1, parts.2.1⟩

theorem Fits.shut {text later : List Char} (fits : Fits text later) (some_char : text ≠ []) :
    Shut text later :=
  fits.shut_or_halts.resolve_right fun nothing => some_char nothing.1

/-- A visible character is left in the text. -/
theorem Fits.shut_of_visible {text later : List Char} (fits : Fits text later)
    (visible : lineEnd? text = none) : Shut text later := by
  refine fits.shut ?_
  rintro rfl
  cases visible

structure Swaps (later other : List Char) : Prop where
  halts : Halts other
  nil_iff : later = [] ↔ other = []

theorem Swaps.shut {later other text : List Char} (swaps : Swaps later other)
    (shut : Shut text later) : Shut text other :=
  shut.imp_right swaps.nil_iff.mp

theorem Swaps.fits {later other text : List Char} (swaps : Swaps later other)
    (fits : Fits text later) : Fits text other :=
  fits.imp swaps.nil_iff.mp fun parts => ⟨parts.1, parts.2.1, swaps.halts⟩

/-- The same containers go on at either text. -/
theorem Swaps.continue? {later other : List Char} (swaps : Swaps later other)
    (halts : Halts later) (spine : Spine) {lead : Lead}
    (continues : spine.continue? other = some lead) :
    spine.continue? later = some { rest := later } := by
  by_cases nothing : later = []
  · rw [nothing]
    rw [swaps.nil_iff.mp nothing] at continues
    rw [continues, Halts.nil.spine_continue? continues]
  · simp only [Spine.continue?, halts.continued_eq nothing]
    simp only [Spine.continue?,
      swaps.halts.continued_eq (fun none_other => nothing (swaps.nil_iff.mpr none_other))]
      at continues
    split at continues
    · next all => rw [if_pos all]
    · cases continues

/-- Behind a character that is no line feed, the line still ends in the text. -/
theorem Fits.shut_behind {ahead rest later : List Char} {c : Char}
    (fits : Fits (ahead ++ c :: rest) later) (other : c ≠ '\n') : Shut rest later := by
  have here := fits.drop ahead.length
  rw [List.drop_left] at here
  exact (here.shut (List.cons_ne_nil c rest)).tail other

/-! ## Tables -/

theorem tableRows_halts {spine : Spine} {columns fuel missing : Nat} {cursor : Cursor}
    (halts : Halts cursor.rest) : tableRows spine columns (fuel + 1) missing cursor = cursor := by
  rw [tableRows]
  split
  · rfl
  · next lead continues =>
      rw [halts.spine_continue? continues]
      dsimp only
      rw [halts.allSpace, halts.interrupts, Bool.true_or, Bool.true_or, if_pos rfl]

/-- A line that is no line end is left behind by reading it. -/
theorem length_textLine_lt (cursor : Cursor) (visible : lineEnd? cursor.rest = none) :
    (textLine cursor).rest.length < cursor.rest.length := by
  obtain ⟨offset, rest⟩ := cursor
  cases rest with
  | nil => cases visible
  | cons c rest =>
      have other : (c != '\n' && c != '\r') = true := by
        by_cases feed : c = '\n'
        · subst feed; cases visible
        · by_cases ret : c = '\r'
          · subst ret
            unfold lineEnd? at visible
            split at visible <;> simp_all
          · simp [feed, ret]
      simp only [textLine, Cursor.advance_rest, List.length_drop, Table.firstLine,
        countWhile_cons, other, if_true, List.length_cons]
      omega

private theorem interrupts_false_lineEnd? {text : List Char} {inside : Bool}
    (goesOn : interrupts text inside = false) : lineEnd? text = none := by
  rw [interrupts_eq] at goesOn
  simp only [Bool.or_eq_false_iff, Option.isSome_eq_false_iff, Option.isNone_iff_eq_none] at goesOn
  exact goesOn.1.1.1.1.1.1

section Inside

variable {later : List Char} (spine : Spine) (offset : Nat)

/-- **Rows of a table** are read the same in a longer text. -/
theorem tableRows_inside (columns : Nat) :
    ∀ (fuel more missing : Nat) (cursor : Cursor), cursor.rest.length < fuel →
      cursor.rest.length < more → Fits cursor.rest later →
      tableRows spine columns more missing (cursor.inside offset later)
        = (tableRows spine columns fuel missing cursor).inside offset later
  | fuel + 1, more + 1, missing, cursor, enough, enoughMore, fits => by
      rcases fits.shut_or_halts with shut | ⟨nothing, halts⟩
      · rw [tableRows, tableRows, Cursor.inside_rest, spine.continue?_append shut]
        cases continues : spine.continue? cursor.rest with
        | none => rfl
        | some lead =>
            have passes := Spine.passes_continue? continues
            have rowPasses := passes.trans (Lead.passes_allSpace lead)
            obtain ⟨isRow, within, -⟩ := rowPasses.rest_eq
            have rowShut := rowPasses.shut shut
            simp only [Option.map_some, Lead.allSpace_before (passes.shut shut), Lead.before_rest,
              Lead.before_taken, interrupts_append rowShut, Table.rowCells_append rowShut]
            split
            · rfl
            · next goesOn =>
                simp only [Bool.or_eq_true, not_or, Bool.not_eq_true] at goesOn
                have visible := interrupts_false_lineEnd? goesOn.1.1
                have rowShut' : Shut (cursor.advance lead.allSpace.taken).rest later := by
                  rw [Cursor.advance_rest, ← isRow]
                  exact rowShut
                have shorter := length_textLine_lt (cursor.advance lead.allSpace.taken)
                  (by rw [Cursor.advance_rest, ← isRow]; exact visible)
                rw [Cursor.advance_rest, List.length_drop] at shorter
                rw [Cursor.inside_advance within, textLine_inside rowShut']
                refine tableRows_inside columns fuel more _ _ (by omega) (by omega) ?_
                exact (fits.drop _).drop _
      · have atEnd : Halts cursor.rest := nothing ▸ Halts.nil
        rw [tableRows_halts atEnd, tableRows_halts]
        rw [Cursor.inside_rest, nothing]
        exact halts

end Inside

section Heads

variable {text later : List Char} (spine : Spine)

/-- A line ahead of a halt is no head of a table. -/
theorem Halts.noHead (halts : Halts (text.drop (Table.firstLine text))) :
    Table.head? spine text = none := by
  rw [Table.head?]
  split
  · rfl
  · next lead continues => rw [halts.spine_continue? continues, halts.noDelimiters]

/-- The delimiter row is looked for on the second line, and no line that halts is one. -/
theorem Table.head?_append (shut : Shut text later) (fits : Fits text later) :
    Table.head? spine (text ++ later) = Table.head? spine text := by
  have isNext : (text ++ later).drop (Table.firstLine text)
      = text.drop (Table.firstLine text) ++ later :=
    List.drop_append_of_le_length (firstLine_le text)
  rcases (fits.drop (Table.firstLine text)).shut_or_halts with nextShut | ⟨nothing, halts⟩
  · simp only [Table.head?, Table.firstLine_append shut, isNext, Table.headerCells_append shut]
    rw [spine.continue?_append nextShut]
    cases continues : spine.continue? (text.drop (Table.firstLine text)) with
    | none => rfl
    | some lead =>
        have leadShut := (Spine.passes_continue? continues).shut nextShut
        simp only [Option.map_some, Lead.before_rest, Lead.before_taken,
          Table.delimiterRow?_append leadShut]
  · have ownHalts : Halts (text.drop (Table.firstLine text)) := by
      rw [nothing]
      exact Halts.nil
    have nextHalts : Halts ((text ++ later).drop (Table.firstLine (text ++ later))) := by
      rw [Table.firstLine_append shut, isNext, nothing]
      exact halts
    rw [ownHalts.noHead, nextHalts.noHead]

theorem Table.start?_append (shut : Shut text later) (fits : Fits text later) :
    Table.start? spine (text ++ later) = Table.start? spine text := by
  rw [Table.start?, (Table.pipes_append shut).1, Table.head?_append spine shut fits]
  rfl

namespace Definition

theorem endsParagraph_append (shut : Shut text later) (fits : Fits text later) (inside : Bool) :
    endsParagraph spine (text ++ later) inside = endsParagraph spine text inside := by
  rw [endsParagraph, interrupts_append shut, Table.interrupts, head?_append_shut shut,
    Table.head?_append spine shut fits]
  rfl

theorem endsParagraph_halts (halts : Halts text) (inside : Bool) :
    endsParagraph spine text inside = true := by
  rw [endsParagraph, halts.interrupts, Bool.true_or]

theorem continueLine?_halts (halts : Halts text) : continueLine? spine text = none := by
  unfold continueLine?
  simp only [halts.continued, halts.space, endsParagraph_halts spine halts]
  rfl

theorem continueLine?_append (fits : Fits text later) :
    continueLine? spine (text ++ later) = continueLine? spine text := by
  rcases fits.shut_or_halts with shut | ⟨nothing, halts⟩
  · have passes := Spine.passes_continued spine { rest := text }
    have leadShut := passes.shut shut
    have indentedPasses := passes.trans (Lead.passes_space _ 4)
    have indentedShut := indentedPasses.shut shut
    have indentedFits : Fits ((Spine.continued spine { rest := text }).2.space 4).1.rest later := by
      rw [indentedPasses.rest_eq.1]
      exact fits.drop _
    unfold continueLine?
    simp only [Spine.continued_append spine shut, Lead.space_before leadShut, Lead.before_rest,
      Lead.before_taken, endsParagraph_append spine indentedShut indentedFits,
      underline?_append indentedShut]
  · rw [nothing, List.nil_append, continueLine?_halts spine halts,
      continueLine?_halts spine Halts.nil]

/-- The markers of a continued line lie on it. -/
theorem continueLine?_le {markers : Nat} (continues : continueLine? spine text = some markers) :
    markers ≤ text.length := by
  have passes := (Spine.passes_continued spine { rest := text }).trans (Lead.passes_space _ 4)
  unfold continueLine? at continues
  dsimp only at continues
  split at continues
  · cases continues
  · rw [← Option.some.inj continues]
    exact passes.rest_eq.2.1

/-- Behind the markers of a continued line, the line still ends in the text. -/
theorem continueLine?_shut {markers : Nat} (continues : continueLine? spine text = some markers)
    (shut : Shut text later) : Shut (text.drop markers) later := by
  have passes := (Spine.passes_continued spine { rest := text }).trans (Lead.passes_space _ 4)
  unfold continueLine? at continues
  dsimp only at continues
  split at continues
  · cases continues
  · rw [← Option.some.inj continues, ← passes.rest_eq.1]
    exact passes.shut shut

end Definition

end Heads

end Tangle.Markdown
