import Tangle.Proofs.Markdown.Definitions

/-!
Contract: paragraphs and indented code are read the same in a longer text.

Owns: the readers of lines that are no kept blocks and need no closing line.

Does **not** own: HTML and metadata blocks (`Tangle.Proofs.Markdown.Reading`).

These readers stop at the later text because it halts, so nothing is asked of them.
-/

set_option autoImplicit false

namespace Tangle.Markdown

variable {later : List Char} (spine : Spine) (offset : Nat)

/-! ## Paragraphs -/

theorem paragraphLines_halts {fuel : Nat} {cursor : Cursor} (halts : Halts cursor.rest) :
    paragraphLines spine (fuel + 1) cursor = cursor := by
  rw [paragraphLines]
  simp only [halts.continued, halts.space, halts.noUnderline,
    Definition.endsParagraph_halts spine halts]
  simp

private theorem underline?_le {text : List Char} {length : Nat} (lined : underline? text = some length) :
    length ≤ text.length := by
  cases text with
  | nil => cases lined
  | cons c rest =>
      rw [underline?] at lined
      split at lined
      · rw [Option.map_eq_some_iff] at lined
        obtain ⟨blank, isBlank, rfl⟩ := lined
        have within := blankLine?_le isBlank
        have run := countWhile_le (· == c) (c :: rest)
        rw [List.length_drop] at within
        omega
      · cases lined

private theorem lineEnd?_of_not_atLineEnd {lead : Lead} (goesOn : lead.atLineEnd = false) :
    lineEnd? lead.rest = none := by
  unfold Lead.atLineEnd at goesOn
  cases isRest : lead.rest with
  | nil => rw [isRest] at goesOn; cases goesOn
  | cons c rest =>
      rw [isRest] at goesOn
      dsimp only at goesOn
      rw [Bool.or_eq_false_iff, beq_eq_false_iff_ne, beq_eq_false_iff_ne] at goesOn
      simp [lineEnd?, goesOn.1, goesOn.2]

private theorem paragraphLines_inside :
    ∀ (fuel more : Nat) (cursor : Cursor), cursor.rest.length < fuel →
      cursor.rest.length < more → Fits cursor.rest later →
      paragraphLines spine more (cursor.inside offset later)
        = (paragraphLines spine fuel cursor).inside offset later
  | fuel + 1, more + 1, cursor, enough, enoughMore, fits => by
      rcases fits.shut_or_halts with shut | ⟨nothing, halts⟩
      · have passes := Spine.passes_continued spine { rest := cursor.rest }
        have leadShut := passes.shut shut
        have indentedPasses := passes.trans (Lead.passes_space _ 4)
        obtain ⟨isIndented, indentedWithin, -⟩ := indentedPasses.rest_eq
        have indentedShut := indentedPasses.shut shut
        have indentedFits := fits.drop
          ((Spine.continued spine { rest := cursor.rest }).2.space 4).1.taken
        rw [← isIndented] at indentedFits
        rw [paragraphLines, paragraphLines]
        simp only [Cursor.inside_rest, Spine.continued_append spine shut,
          Lead.space_before leadShut, Lead.before_rest, Lead.before_taken,
          underline?_append indentedShut,
          Definition.endsParagraph_append spine indentedShut indentedFits,
          Lead.allSpace_before indentedShut]
        cases lined : (if (decide ((Spine.continued spine { rest := cursor.rest }).1 = spine.length)
              && !((Spine.continued spine { rest := cursor.rest }).2.space 4).2) = true then
            underline? ((Spine.continued spine { rest := cursor.rest }).2.space 4).1.rest
          else none) with
        | some length =>
            have within : length ≤
                ((Spine.continued spine { rest := cursor.rest }).2.space 4).1.rest.length := by
              split at lined
              · exact underline?_le lined
              · cases lined
            rw [isIndented, List.length_drop] at within
            exact Cursor.inside_advance (by omega)
        | none =>
            dsimp only
            split
            · rfl
            · have linePasses := indentedPasses.trans (Lead.passes_allSpace _)
              obtain ⟨isLine, lineWithin, -⟩ := linePasses.rest_eq
              have lineShut := linePasses.shut shut
              rw [Lead.atLineEnd_before lineShut]
              split
              · rfl
              · next goesOn =>
                  rw [Bool.not_eq_true] at goesOn
                  have visible := lineEnd?_of_not_atLineEnd goesOn
                  rw [isLine] at visible lineShut
                  have shorter := length_textLine_lt (cursor.advance _) visible
                  rw [Cursor.advance_rest, List.length_drop] at shorter
                  rw [Cursor.inside_advance lineWithin, textLine_inside lineShut]
                  refine paragraphLines_inside fuel more _ (by omega) (by omega) ?_
                  exact (fits.drop _).drop _
      · have atEnd : Halts cursor.rest := nothing ▸ Halts.nil
        rw [paragraphLines_halts spine atEnd, paragraphLines_halts]
        rw [Cursor.inside_rest, nothing]
        exact halts

private theorem Table.head?_le {text : List Char} {head : Table.Head}
    (headed : Table.head? spine text = some head) : head.length ≤ text.length := by
  have delimiterWithin : ∀ {row : List Char} {columns length : Nat},
      Table.delimiterRow? row = some (columns, length) → length ≤ row.length := by
    intro row columns length delimited
    rw [Table.delimiterRow?_eq] at delimited
    split at delimited
    · cases delimited
    · rw [Option.map_eq_some_iff] at delimited
      obtain ⟨⟨columns', width⟩, found, eq⟩ := delimited
      obtain ⟨rfl, rfl⟩ := Prod.mk.injEq .. ▸ eq
      have indented := (Table.indentation_append (Shut.nil row)).2.1
      have within := Table.delimiters?_le found
      rw [List.length_drop] at within
      omega
  unfold Table.head? at headed
  dsimp only at headed
  split at headed
  · cases headed
  · next lead continues =>
      split at headed
      · cases headed
      · next columns length delimited =>
          split at headed
          · obtain ⟨isRest, within, -⟩ := (Spine.passes_continue? continues).rest_eq
            have rowWithin := delimiterWithin delimited
            have first := firstLine_le text
            rw [isRest, List.length_drop, List.length_drop] at rowWithin
            rw [List.length_drop] at within
            rw [← Option.some.inj headed]
            dsimp only
            omega
          · cases headed

private theorem paragraph_inside {cursor : Cursor} (shut : Shut cursor.rest later)
    (fits : Fits cursor.rest later) :
    paragraph spine (cursor.inside offset later)
      = (paragraph spine cursor).inside offset later := by
  have longer : (cursor.rest ++ later).length = cursor.rest.length + later.length :=
    List.length_append
  unfold paragraph
  dsimp only
  rw [Cursor.inside_rest, Table.start?_append spine shut fits]
  cases started : Table.start? spine cursor.rest with
  | none =>
      dsimp only
      rw [textLine_inside shut]
      have within : (textLine cursor).rest.length ≤ cursor.rest.length := by
        rw [textLine, Cursor.advance_rest, List.length_drop]
        omega
      exact paragraphLines_inside spine offset _ _ _ (by omega) (by omega) (fits.drop _)
  | some head =>
      have within : head.length ≤ cursor.rest.length := by
        rw [Table.start?] at started
        split at started
        · cases started
        · exact Table.head?_le spine started
      dsimp only
      rw [Cursor.inside_advance within]
      have shorter : (cursor.advance head.length).rest.length ≤ cursor.rest.length := by
        rw [Cursor.advance_rest, List.length_drop]
        omega
      exact tableRows_inside spine offset _ _ _ _ _ (by omega) (by omega) (fits.drop _)

theorem skipBlankLine_inside {cursor : Cursor} (fits : Fits cursor.rest later) :
    (cursor.inside offset later).skipBlankLine = cursor.skipBlankLine.inside offset later := by
  rcases fits.shut_or_halts with shut | ⟨nothing, halts⟩
  · rw [Cursor.skipBlankLine, Cursor.inside_rest, blankLine?_append shut]
    refine Cursor.inside_advance ?_
    cases blank : blankLine? cursor.rest with
    | none => exact Nat.zero_le _
    | some length => exact blankLine?_le blank
  · have atEnd : Halts cursor.rest := nothing ▸ Halts.nil
    rw [Cursor.skipBlankLine, Cursor.skipBlankLine, atEnd.blankLine?, Cursor.inside_rest, nothing,
      List.nil_append, halts.blankLine?]
    rfl

private theorem skipBlankLine_length_le (cursor : Cursor) :
    cursor.skipBlankLine.rest.length ≤ cursor.rest.length := by
  rw [Cursor.skipBlankLine, Cursor.advance_rest, List.length_drop]
  omega

/-- **Paragraphs**, with the definitions they start with, are read the same in a longer
text. -/
theorem paragraphWithDefinitions_inside :
    ∀ (fuel more : Nat) (cursor : Cursor), cursor.rest.length < fuel →
      cursor.rest.length < more → Shut cursor.rest later → Fits cursor.rest later →
      paragraphWithDefinitions spine more (cursor.inside offset later)
        = (paragraphWithDefinitions spine fuel cursor).inside offset later
  | fuel + 1, more + 1, cursor, enough, enoughMore, shut, fits => by
      rw [paragraphWithDefinitions, paragraphWithDefinitions, Cursor.inside_rest,
        Definition.length?_append spine shut fits]
      cases defined : Definition.length? spine cursor.rest with
      | none => exact paragraph_inside spine offset shut fits
      | some length =>
          obtain ⟨positive, within⟩ := Definition.length?_bounds spine defined
          have behindFits := fits.drop length
          have nextFits : Fits (cursor.advance length).skipBlankLine.rest later := by
            rw [Cursor.skipBlankLine, Cursor.advance_rest]
            exact behindFits.drop _
          have nextShorter := skipBlankLine_length_le (cursor.advance length)
          rw [Cursor.advance_rest, List.length_drop] at nextShorter
          dsimp only
          rw [Cursor.inside_advance within, skipBlankLine_inside offset behindFits]
          generalize (cursor.advance length).skipBlankLine = next at nextFits nextShorter ⊢
          rw [Cursor.inside_rest]
          rcases nextFits.shut_or_halts with nextShut | ⟨nothing, halts⟩
          · have passes := Spine.passes_continued spine { rest := next.rest }
            have leadShut := passes.shut nextShut
            have indentedPasses := passes.trans (Lead.passes_space _ 4)
            obtain ⟨isIndented, indentedWithin, -⟩ := indentedPasses.rest_eq
            have indentedShut := indentedPasses.shut nextShut
            have indentedFits := nextFits.drop
              ((Spine.continued spine { rest := next.rest }).2.space 4).1.taken
            rw [← isIndented] at indentedFits
            simp only [Spine.continued_append spine nextShut, Lead.space_before leadShut,
              Lead.before_rest, Lead.before_taken,
              Definition.endsParagraph_append spine indentedShut indentedFits]
            split
            · rfl
            · rw [Cursor.inside_advance indentedWithin]
              rw [isIndented] at indentedShut indentedFits
              refine paragraphWithDefinitions_inside fuel more _ ?_ ?_ indentedShut indentedFits
              · rw [Cursor.advance_rest, List.length_drop]
                omega
              · rw [Cursor.advance_rest, List.length_drop]
                omega
          · rw [nothing, List.nil_append]
            simp only [halts.continued, halts.space, Definition.endsParagraph_halts spine halts,
              Halts.nil.continued, Halts.nil.space,
              Definition.endsParagraph_halts spine Halts.nil]
            rfl

/-! ## Indented code -/

theorem nextLine_length_lt {cursor : Cursor} (some_char : cursor.rest ≠ []) :
    cursor.nextLine.rest.length < cursor.rest.length := by
  have positive := Cursor.lineLength_pos some_char
  have within := lineLength_le cursor.rest
  rw [Cursor.nextLine, Cursor.advance_rest, List.length_drop]
  omega

theorem nextLine_length_le (cursor : Cursor) :
    cursor.nextLine.rest.length ≤ cursor.rest.length := by
  rw [Cursor.nextLine, Cursor.advance_rest, List.length_drop]
  omega

theorem isEnd_inside {cursor : Cursor} (shut : Shut cursor.rest later) :
    (cursor.inside offset later).isEnd = cursor.isEnd := by
  unfold Cursor.isEnd
  rw [Cursor.inside_rest]
  cases isRest : cursor.rest with
  | nil =>
      rw [isRest] at shut
      rw [shut.later_eq_nil]
      rfl
  | cons c rest => rfl

private theorem indentedCode_halts {fuel : Nat} {cursor : Cursor} {blank : Bool}
    (halts : Halts cursor.nextLine.rest) :
    indentedCode spine (fuel + 1) cursor blank = (cursor.nextLine, blank) := by
  rw [indentedCode]
  dsimp only
  split
  · rfl
  · next lead continues =>
      rw [halts.spine_continue? continues, halts.space]
      cases isRest : cursor.nextLine.rest with
      | nil => simp [Lead.atLineEnd, Cursor.isEnd, isRest]
      | cons c rest =>
          rw [isRest] at halts
          obtain ⟨-, -, feed, ret, -, -⟩ := halts.head_cons
          simp [Lead.atLineEnd, feed, ret]

theorem indentedCode_inside :
    ∀ (fuel more : Nat) (cursor : Cursor) (blank : Bool), cursor.rest.length < fuel →
      cursor.rest.length < more → Shut cursor.rest later → Fits cursor.rest later →
      indentedCode spine more (cursor.inside offset later) blank
        = ((indentedCode spine fuel cursor blank).1.inside offset later,
            (indentedCode spine fuel cursor blank).2)
  | fuel + 1, more + 1, cursor, blank, enough, enoughMore, shut, fits => by
      have nextFits : Fits cursor.nextLine.rest later := fits.drop _
      have nextShorter := nextLine_length_le cursor
      rcases nextFits.shut_or_halts with nextShut | ⟨nothing, halts⟩
      · rw [indentedCode, indentedCode, Cursor.inside_nextLine shut]
        dsimp only
        rw [Cursor.inside_rest, spine.continue?_append nextShut]
        cases continues : spine.continue? cursor.nextLine.rest with
        | none => rfl
        | some lead =>
            have passes := Spine.passes_continue? continues
            have leadShut := passes.shut nextShut
            have afterPasses := passes.trans (Lead.passes_space lead 4)
            obtain ⟨isAfter, afterWithin, -⟩ := afterPasses.rest_eq
            have afterShut := afterPasses.shut nextShut
            have lineShut : Shut (cursor.nextLine.advance (lead.space 4).1.taken).rest later := by
              rw [Cursor.advance_rest, ← isAfter]
              exact afterShut
            simp only [Option.map_some, Lead.space_before leadShut, Lead.atLineEnd_before afterShut,
              Lead.before_taken, Cursor.inside_advance afterWithin, isEnd_inside offset lineShut]
            split
            · rfl
            · split
              · rfl
              · next some_left =>
                  have nonempty : cursor.rest ≠ [] := by
                    intro none_left
                    apply some_left
                    have shorter : (cursor.nextLine.advance (lead.space 4).1.taken).rest.length
                        ≤ cursor.nextLine.rest.length := by
                      rw [Cursor.advance_rest, List.length_drop]
                      omega
                    rw [none_left, List.length_nil] at nextShorter
                    rw [Cursor.isEnd, List.isEmpty_iff]
                    exact List.length_eq_zero_iff.mp (by omega)
                  have strictly := nextLine_length_lt nonempty
                  have shorter : (cursor.nextLine.advance (lead.space 4).1.taken).rest.length
                      ≤ cursor.nextLine.rest.length := by
                    rw [Cursor.advance_rest, List.length_drop]
                    omega
                  rw [Cursor.inside_rest, blankLine?_append lineShut]
                  exact indentedCode_inside fuel more _ _ (by omega) (by omega) lineShut
                    (nextFits.drop _)
      · have atEnd : Halts cursor.nextLine.rest := nothing ▸ Halts.nil
        have ahead : Halts (cursor.inside offset later).nextLine.rest := by
          rw [Cursor.inside_nextLine shut, Cursor.inside_rest, nothing]
          exact halts
        rw [indentedCode_halts spine atEnd, indentedCode_halts spine ahead,
          Cursor.inside_nextLine shut]

end Tangle.Markdown
