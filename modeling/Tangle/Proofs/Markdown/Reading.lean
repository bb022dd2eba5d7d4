import Tangle.Proofs.Markdown.Paragraphs

/-!
Contract: one reading inside whole lines does not depend on what follows them.

Owns: HTML blocks and metadata blocks in a longer text, and `readBlock_inside`, which
puts all readers together.

Does **not** own: readings that start at a kept block (`Tangle.Proofs.Markdown.Edge`).

HTML and metadata blocks may run on into the later text. So for these it is asked that
with one later text they did not, and concluded that with another they do not either.
-/

set_option autoImplicit false

namespace Tangle.Markdown

variable {later other : List Char} (spine : Spine) (offset shifted : Nat)

/-! ## HTML and metadata blocks

These go on until a line that closes them. `Stays` says that the reader did not go past
the lines it started in. -/

/-- The cursor has not passed the start of `later`. -/
def Stays (later : List Char) (cursor : Cursor) : Prop :=
  later.length ≤ cursor.rest.length

theorem length_le_of_reaches {first second : Cursor} (reached : Cursor.Reaches first second) :
    second.rest.length ≤ first.rest.length := by
  obtain ⟨count, rfl⟩ := reached
  rw [Cursor.advance_rest, List.length_drop]
  omega

/-- A reader that has left the first line of the later text does not stay. -/
theorem not_stays_of_reaches {cursor stop : Cursor} (isLater : cursor.rest = later)
    (some_char : later ≠ []) (reached : Cursor.Reaches cursor.nextLine stop) :
    ¬ Stays later stop := by
  subst isLater
  have shorter := nextLine_length_lt some_char
  have further := length_le_of_reaches reached
  unfold Stays
  omega

def outcomeInside (outcome : Nat × Cursor) (offset : Nat) (later : List Char) : Nat × Cursor :=
  (offset + outcome.1, outcome.2.inside offset later)

/-- A reader that is still going at the later text does not stay. -/
theorem not_stays_of_firstStop {fuel : Nat} {cursor stop : Cursor} (more : fuel ≠ 0)
    (isLater : cursor.rest = later) (some_char : later ≠ [])
    (reached : Cursor.Reaches (firstStop fuel cursor) stop) : ¬ Stays later stop := by
  rw [firstStop, if_neg more] at reached
  exact not_stays_of_reaches isLater some_char reached

theorem Shut.ne_nil {text : List Char} (shut : Shut text later) (some_char : later ≠ []) :
    text ≠ [] :=
  List.ne_nil_of_mem (shut.resolve_right some_char)

private theorem htmlUntil_atEnd {closing : List Char} {fuel : Nat} {cursor : Cursor}
    (nothing : cursor.nextLine.rest = []) :
    htmlUntil spine closing (fuel + 1) cursor = (cursor.nextLine.offset, cursor.nextLine) := by
  rw [htmlUntil]
  dsimp only
  rw [nothing]
  split
  · rfl
  · next lead continues =>
      rw [Halts.nil.spine_continue? continues]
      split
      · rfl
      · rw [Cursor.advance_zero, if_pos (by rw [Cursor.isEnd, nothing]; rfl)]

private theorem htmlUntil_inside (closing : List Char) (swaps : Swaps later other) :
    ∀ (fuel more most : Nat) (cursor : Cursor), cursor.rest.length < fuel →
      cursor.rest.length < more → cursor.rest.length < most →
      Shut cursor.rest later → Fits cursor.rest later →
      Stays later (htmlUntil spine closing more (cursor.inside offset later)).2 →
      htmlUntil spine closing most (cursor.inside shifted other)
        = outcomeInside (htmlUntil spine closing fuel cursor) shifted other
  | fuel + 1, more + 1, most + 1, cursor, enough, enoughMore, enoughMost, shut, fits, stays => by
      have nextFits : Fits cursor.nextLine.rest later := fits.drop _
      have nextShorter := nextLine_length_le cursor
      rw [htmlUntil] at stays ⊢
      simp only [Cursor.inside_nextLine shut, Cursor.inside_nextLine (swaps.shut shut),
        Cursor.inside_rest, take_lineLength_append shut,
        take_lineLength_append (swaps.shut shut)] at stays ⊢
      rcases nextFits.shut_or_later with nextShut | ⟨nothing, halts, some_later⟩
      · rw [spine.continue?_append nextShut] at stays
        rw [spine.continue?_append (swaps.shut nextShut), htmlUntil]
        dsimp only
        cases continues : spine.continue? cursor.nextLine.rest with
        | none => rfl
        | some lead =>
            obtain ⟨isRest, within, -⟩ := (Spine.passes_continue? continues).rest_eq
            have innerShut : Shut (cursor.nextLine.advance lead.taken).rest later := by
              rw [Cursor.advance_rest, ← isRest]
              exact (Spine.passes_continue? continues).shut nextShut
            have innerShorter : (cursor.nextLine.advance lead.taken).rest.length
                ≤ cursor.nextLine.rest.length := by
              rw [Cursor.advance_rest, List.length_drop]
              omega
            rw [continues] at stays
            simp only [Option.map_some, Lead.before_taken, Cursor.inside_advance within,
              isEnd_inside offset innerShut, isEnd_inside shifted (swaps.shut innerShut)] at stays ⊢
            by_cases closes : (Text.findSplit? closing
                (cursor.rest.take (lineLength cursor.rest))).isSome = true
            · rw [if_pos closes, if_pos closes]
              rfl
            · rw [if_neg closes] at stays
              rw [if_neg closes, if_neg closes]
              by_cases atEnd : (cursor.nextLine.advance lead.taken).isEnd = true
              · rw [if_pos atEnd, if_pos atEnd]
                rfl
              · rw [if_neg atEnd] at stays
                rw [if_neg atEnd, if_neg atEnd]
                have nonempty : cursor.rest ≠ [] := by
                  intro none_left
                  apply atEnd
                  rw [none_left, List.length_nil] at nextShorter
                  rw [Cursor.isEnd, List.isEmpty_iff]
                  exact List.length_eq_zero_iff.mp (by omega)
                have strictly := nextLine_length_lt nonempty
                exact htmlUntil_inside closing swaps fuel more most _ (by omega) (by omega)
                  (by omega) innerShut (nextFits.drop _) stays
      · rw [htmlUntil_atEnd spine nothing]
        rw [nothing, List.nil_append] at stays ⊢
        cases continues : spine.continue? other with
        | none => rfl
        | some lead =>
            rw [swaps.continue? halts spine continues] at stays
            dsimp only
            by_cases closes : (Text.findSplit? closing
                (cursor.rest.take (lineLength cursor.rest))).isSome = true
            · simp only [closes, if_true]
              rfl
            · -- Not closed, so the block would run on into the later text.
              have isLater : (cursor.nextLine.inside offset later).rest = later := by
                rw [Cursor.inside_rest, nothing, List.nil_append]
              have goesOn : (cursor.nextLine.inside offset later).isEnd = false := by
                rw [Cursor.isEnd, isLater]
                simpa using some_later
              simp only [closes, Bool.false_eq_true, if_false, Cursor.advance_zero, goesOn] at stays
              have nonempty := shut.ne_nil some_later
              have size := List.length_pos_iff.mpr nonempty
              exact absurd stays (not_stays_of_firstStop (by omega) isLater some_later
                (htmlUntil_reaches spine closing more _))

private theorem htmlUntilBlank_atEnd {fuel : Nat} {cursor : Cursor}
    (nothing : cursor.nextLine.rest = []) :
    htmlUntilBlank spine (fuel + 1) cursor = (cursor.nextLine.offset, cursor.nextLine) := by
  rw [htmlUntilBlank]
  dsimp only
  rw [nothing]
  split
  · rfl
  · next lead continues =>
      rw [Halts.nil.spine_continue? continues]
      rfl

private theorem htmlUntilBlank_inside (swaps : Swaps later other) :
    ∀ (fuel more most : Nat) (cursor : Cursor), cursor.rest.length < fuel →
      cursor.rest.length < more → cursor.rest.length < most →
      Shut cursor.rest later → Fits cursor.rest later →
      Stays later (htmlUntilBlank spine more (cursor.inside offset later)).2 →
      htmlUntilBlank spine most (cursor.inside shifted other)
        = outcomeInside (htmlUntilBlank spine fuel cursor) shifted other
  | fuel + 1, more + 1, most + 1, cursor, enough, enoughMore, enoughMost, shut, fits, stays => by
      have nextFits : Fits cursor.nextLine.rest later := fits.drop _
      have nextShorter := nextLine_length_le cursor
      rw [htmlUntilBlank] at stays ⊢
      simp only [Cursor.inside_nextLine shut, Cursor.inside_nextLine (swaps.shut shut),
        Cursor.inside_rest] at stays ⊢
      rcases nextFits.shut_or_later with nextShut | ⟨nothing, halts, some_later⟩
      · rw [spine.continue?_append nextShut] at stays
        rw [spine.continue?_append (swaps.shut nextShut), htmlUntilBlank]
        dsimp only
        cases continues : spine.continue? cursor.nextLine.rest with
        | none => rfl
        | some lead =>
            have leadShut := (Spine.passes_continue? continues).shut nextShut
            obtain ⟨isRest, within, -⟩ := (Spine.passes_continue? continues).rest_eq
            have innerShut : Shut (cursor.nextLine.advance lead.taken).rest later := by
              rw [Cursor.advance_rest, ← isRest]
              exact leadShut
            have innerShorter : (cursor.nextLine.advance lead.taken).rest.length
                ≤ cursor.nextLine.rest.length := by
              rw [Cursor.advance_rest, List.length_drop]
              omega
            rw [continues] at stays
            simp only [Option.map_some, Lead.before_taken, Cursor.inside_advance within,
              Lead.atLineEnd_before leadShut, Lead.atLineEnd_before (swaps.shut leadShut),
              Cursor.inside_rest, blankLine?_append innerShut,
              blankLine?_append (swaps.shut innerShut)] at stays ⊢
            by_cases ends : lead.atLineEnd = true
            · rw [if_pos ends, if_pos ends]
              rfl
            · rw [if_neg ends] at stays
              rw [if_neg ends, if_neg ends]
              by_cases blank : (blankLine? (cursor.nextLine.advance lead.taken).rest).isSome = true
              · rw [if_pos blank, if_pos blank]
                rfl
              · rw [if_neg blank] at stays
                rw [if_neg blank, if_neg blank]
                have nonempty : cursor.rest ≠ [] := by
                  intro none_left
                  apply blank
                  rw [none_left, List.length_nil] at nextShorter
                  rw [List.length_eq_zero_iff.mp (by omega :
                    (cursor.nextLine.advance lead.taken).rest.length = 0)]
                  rfl
                have strictly := nextLine_length_lt nonempty
                exact htmlUntilBlank_inside swaps fuel more most _ (by omega) (by omega) (by omega)
                  innerShut (nextFits.drop _) stays
      · rw [htmlUntilBlank_atEnd spine nothing]
        rw [nothing, List.nil_append] at stays ⊢
        cases continues : spine.continue? other with
        | none => rfl
        | some lead =>
            -- Neither the end nor a blank line, so the block would run on into the later text.
            rw [swaps.continue? halts spine continues] at stays
            have isLater : (cursor.nextLine.inside offset later).rest = later := by
              rw [Cursor.inside_rest, nothing, List.nil_append]
            obtain ⟨c, rest, isCons⟩ := List.exists_cons_of_ne_nil some_later
            have halted := isCons ▸ halts
            obtain ⟨-, -, feed, ret, pad, -⟩ := halted.head_cons
            have visible : Lead.atLineEnd { rest := later } = false := by
              simp [Lead.atLineEnd, isCons, feed, ret]
            have notBlank : blankLine? later = none := by
              rw [isCons]
              simp [Markdown.blankLine?, countWhile_cons, pad, lineEnd?, feed, ret]
            simp only [visible, Bool.false_eq_true, if_false, Cursor.advance_zero, isLater,
              notBlank, Option.isSome_none] at stays
            have nonempty := shut.ne_nil some_later
            have size := List.length_pos_iff.mpr nonempty
            exact absurd stays (not_stays_of_firstStop (by omega) isLater some_later
              (htmlUntilBlank_reaches spine more _))

private theorem metadataEnd?_le {text : List Char} {length : Nat} (ends : metadataEnd? text = some length) :
    length ≤ text.length := by
  have bound : ∀ {mark : Char}, countWhile (· == mark) text = 3 →
      3 + countWhile (· == ' ') (text.drop 3) ≤ text.length := by
    intro mark run
    have within := countWhile_le (· == mark) text
    have spaces := countWhile_le (· == ' ') (text.drop 3)
    rw [List.length_drop] at spaces
    omega
  unfold metadataEnd? at ends
  split at ends
  · next marks =>
      dsimp only at ends
      rw [Option.map_eq_some_iff] at ends
      obtain ⟨_, -, rfl⟩ := ends
      rw [Bool.or_eq_true, decide_eq_true_eq, decide_eq_true_eq] at marks
      rcases marks with hyphens | dots
      · exact bound hyphens
      · exact bound dots
  · cases ends

private theorem metadataLines_atEnd {cursor : Cursor} (nothing : cursor.rest = []) :
    ∀ fuel : Nat, metadataLines spine fuel cursor = cursor
  | 0 => rfl
  | fuel + 1 => by
      rw [metadataLines, nothing]
      split
      · rfl
      · next lead continues =>
          rw [Halts.nil.spine_continue? continues, Halts.nil.noMetadata]
          have still : (cursor.advance 0).nextLine = cursor := by
            rw [Cursor.advance_zero, Cursor.nextLine, nothing]
            rfl
          dsimp only
          rw [still]
          exact metadataLines_atEnd nothing fuel

private theorem metadataLines_inside (swaps : Swaps later other) :
    ∀ (fuel more most : Nat) (cursor : Cursor), cursor.rest.length < fuel →
      cursor.rest.length < more → cursor.rest.length < most → Fits cursor.rest later →
      Stays later (metadataLines spine more (cursor.inside offset later)) →
      metadataLines spine most (cursor.inside shifted other)
        = (metadataLines spine fuel cursor).inside shifted other
  | fuel + 1, more + 1, most + 1, cursor, enough, enoughMore, enoughMost, fits, stays => by
      rw [metadataLines] at stays ⊢
      rw [Cursor.inside_rest] at stays ⊢
      rcases fits.shut_or_later with shut | ⟨nothing, halts, some_later⟩
      · rw [spine.continue?_append shut, metadataEnd?_append shut] at stays
        rw [spine.continue?_append (swaps.shut shut), metadataEnd?_append (swaps.shut shut),
          metadataLines]
        cases continues : spine.continue? cursor.rest with
        | none => rfl
        | some lead =>
            obtain ⟨isRest, within, -⟩ := (Spine.passes_continue? continues).rest_eq
            rw [continues] at stays
            simp only [Option.map_some, Lead.before_taken] at stays ⊢
            cases ends : metadataEnd? cursor.rest with
            | some length => exact Cursor.inside_advance (metadataEnd?_le ends)
            | none =>
                rw [ends] at stays
                have lineShut : Shut (cursor.advance lead.taken).rest later := by
                  rw [Cursor.advance_rest, ← isRest]
                  exact (Spine.passes_continue? continues).shut shut
                simp only [Cursor.inside_advance within, Cursor.inside_nextLine lineShut,
                  Cursor.inside_nextLine (swaps.shut lineShut)] at stays ⊢
                have lineFits := (fits.drop lead.taken).drop
                  (lineLength (cursor.advance lead.taken).rest)
                have lineShorter := nextLine_length_le (cursor.advance lead.taken)
                rw [Cursor.advance_rest, List.length_drop] at lineShorter
                by_cases some_char : (cursor.advance lead.taken).rest = []
                · have isEnd : (cursor.advance lead.taken).nextLine.rest = [] := by
                    rw [Cursor.nextLine, some_char]
                    exact some_char
                  have none_other := (some_char ▸ swaps.shut lineShut).later_eq_nil
                  rw [metadataLines_atEnd spine isEnd, metadataLines_atEnd spine]
                  rw [Cursor.inside_rest, isEnd, none_other]
                  rfl
                · have strictly := nextLine_length_lt some_char
                  rw [Cursor.advance_rest, List.length_drop] at strictly
                  exact metadataLines_inside swaps fuel more most _ (by omega) (by omega)
                    (by omega) lineFits stays
      · rw [metadataLines_atEnd spine nothing]
        rw [nothing, List.nil_append] at stays ⊢
        cases continues : spine.continue? other with
        | none => rfl
        | some lead =>
            rw [swaps.continue? halts spine continues, halts.noMetadata] at stays
            have isLater : (cursor.inside offset later).rest = later := by
              rw [Cursor.inside_rest, nothing, List.nil_append]
            exact absurd stays (not_stays_of_reaches isLater some_later
              (metadataLines_reaches spine more _))

/-! ## HTML blocks -/

def Block.shift (offset : Nat) : Block → Block
  | .html span => .html ⟨offset + span.start, offset + span.stop⟩
  | .fence info content span =>
      .fence info
        (content.map fun chunk =>
          { chunk with span := ⟨offset + chunk.span.start, offset + chunk.span.stop⟩ })
        ⟨offset + span.start, offset + span.stop⟩

def htmlOutcome (cursor : Cursor) (outcome : Nat × Cursor) : Block × Cursor :=
  (.html ⟨cursor.offset, outcome.1⟩, outcome.2)

theorem htmlBlock?_of_angle {cursor : Cursor} {rest : List Char}
    (opens : cursor.rest = '<' :: rest) :
    htmlBlock? spine cursor =
      match Html.closing? rest with
      | some closing =>
          some (htmlOutcome cursor
            (htmlUntil spine closing.toList (cursor.rest.length + 1) cursor))
      | none =>
          if Html.startsBlockElement rest || Html.startsCompleteTag ('<' :: rest) then
            some (htmlOutcome cursor (htmlUntilBlank spine (cursor.rest.length + 1) cursor))
          else none := by
  obtain ⟨offset, chars⟩ := cursor
  dsimp only at opens
  subst opens
  rfl

theorem htmlBlock?_of_not_angle {cursor : Cursor} (other : cursor.rest.head? ≠ some '<') :
    htmlBlock? spine cursor = none := by
  rw [htmlBlock?]
  split
  · next opens => exact absurd (by rw [opens]; rfl) other
  · rfl

/-- **An HTML block** that does not run on into the later text is read the same before
any other. -/
theorem htmlBlock?_inside (swaps : Swaps later other) {cursor : Cursor}
    (shut : Shut cursor.rest later) (fits : Fits cursor.rest later)
    (stays : ∀ block after,
      htmlBlock? spine (cursor.inside offset later) = some (block, after) → Stays later after) :
    htmlBlock? spine (cursor.inside shifted other)
      = (htmlBlock? spine cursor).map
          fun found => (found.1.shift shifted, found.2.inside shifted other) := by
  by_cases angle : cursor.rest.head? = some '<'
  · obtain ⟨rest, opens⟩ : ∃ rest, cursor.rest = '<' :: rest := List.head?_eq_some_iff.mp angle
    have inner : Shut rest later := (opens ▸ shut).tail (by decide)
    have opensLater : (cursor.inside offset later).rest = '<' :: (rest ++ later) := by
      rw [Cursor.inside_rest, opens, List.cons_append]
    have opensOther : (cursor.inside shifted other).rest = '<' :: (rest ++ other) := by
      rw [Cursor.inside_rest, opens, List.cons_append]
    have sizeLater : cursor.rest.length ≤ (cursor.inside offset later).rest.length := by
      rw [Cursor.inside_rest, List.length_append]
      omega
    have sizeOther : cursor.rest.length ≤ (cursor.inside shifted other).rest.length := by
      rw [Cursor.inside_rest, List.length_append]
      omega
    rw [htmlBlock?_of_angle spine opensLater, Html.closing?_append inner,
      Html.startsBlockElement_append inner, ← List.cons_append,
      Html.startsCompleteTag_append rest inner] at stays
    rw [htmlBlock?_of_angle spine opensOther, htmlBlock?_of_angle spine opens,
      Html.closing?_append (swaps.shut inner), Html.startsBlockElement_append (swaps.shut inner),
      ← List.cons_append, Html.startsCompleteTag_append rest (swaps.shut inner)]
    cases closes : Html.closing? rest with
    | some closing =>
        rw [closes] at stays
        have stayed := stays _ _ rfl
        dsimp only
        rw [htmlUntil_inside spine offset shifted closing.toList swaps _ _ _ cursor
          (Nat.lt_succ_self _) (Nat.lt_succ_of_le sizeLater) (Nat.lt_succ_of_le sizeOther) shut fits
          stayed]
        rfl
    | none =>
        rw [closes] at stays
        dsimp only at stays ⊢
        split
        · next tag =>
            rw [if_pos tag] at stays
            have stayed := stays _ _ rfl
            rw [htmlUntilBlank_inside spine offset shifted swaps _ _ _ cursor
              (Nat.lt_succ_self _) (Nat.lt_succ_of_le sizeLater) (Nat.lt_succ_of_le sizeOther) shut
              fits stayed]
            rfl
        · rfl
  · rw [htmlBlock?_of_not_angle spine angle, htmlBlock?_of_not_angle]
    · rfl
    · rwa [Cursor.inside_rest, head?_append_shut (swaps.shut shut)]

/-! ## Containers that a line opens -/

def Opened.before (later : List Char) : Opened → Opened
  | .content state lead => .content state (lead.before later)
  | .blankItem state length => .blankItem state length

private theorem openContainers_before :
    ∀ (fuel more : Nat) (state : State) (lead : Lead), lead.rest.length < fuel →
      lead.rest.length < more → Shut lead.rest later →
      openContainers more state (lead.before later)
        = (openContainers fuel state lead).before later
  | fuel + 1, more + 1, state, lead, enough, enoughMore, shut => by
      have innerPasses := Lead.passes_spaceUpTo lead 4
      have innerShut := innerPasses.shut shut
      have innerLength := innerPasses.length_add
      rw [openContainers, openContainers, Lead.spaceUpTo_before shut]
      dsimp only
      rw [Lead.listMarker?_before innerShut, Lead.quoteMarker?_before innerShut]
      split
      · rfl
      · cases marked : (lead.spaceUpTo 4).1.listMarker? (lead.spaceUpTo 4).2 with
        | some found =>
            obtain ⟨marker, after⟩ := found
            obtain ⟨afterPasses, further⟩ := Lead.passes_listMarker? marked
            have afterLength := afterPasses.length_add
            have afterShut := afterPasses.shut innerShut
            simp only [Option.map_some, Lead.before_rest, blankLine?_append afterShut]
            cases blankLine? after.rest with
            | some length => rfl
            | none => exact openContainers_before fuel more _ after (by omega) (by omega) afterShut
        | none =>
            dsimp only [Option.map_none]
            cases quoted : (lead.spaceUpTo 4).1.quoteMarker? with
            | some after =>
                obtain ⟨afterPasses, further⟩ := Lead.passes_quoteMarker? quoted
                have afterLength := afterPasses.length_add
                exact openContainers_before fuel more _ after (by omega) (by omega)
                  (afterPasses.shut innerShut)
            | none => rfl

/-- What stands behind opened containers lies on their line, as does an empty item. -/
def Opened.Follows (lead : Lead) : Opened → Prop
  | .content _ after => lead.Passes after
  | .blankItem _ length =>
      ∃ after blank, lead.Passes after ∧ lead.taken < after.taken
        ∧ blankLine? after.rest = some blank ∧ length = after.taken + blank

theorem Opened.Follows.behind {first second : Lead} {opened : Opened}
    (passes : first.Passes second) (follows : opened.Follows second) : opened.Follows first := by
  cases opened with
  | content state after => exact passes.trans follows
  | blankItem state length =>
      obtain ⟨after, blank, afterPasses, further, isBlank, isLength⟩ := follows
      have taken := passes.length_add.2
      exact ⟨after, blank, passes.trans afterPasses, by omega, isBlank, isLength⟩

theorem openContainers_follows :
    ∀ (fuel : Nat) (state : State) (lead : Lead),
      (openContainers fuel state lead).Follows lead
  | 0, _, lead => Lead.Passes.refl lead
  | fuel + 1, state, lead => by
      have innerPasses := Lead.passes_spaceUpTo lead 4
      rw [openContainers]
      dsimp only
      split
      · exact Lead.Passes.refl lead
      · split
        · next marker after marked =>
            obtain ⟨afterPasses, further⟩ := Lead.passes_listMarker? marked
            have taken := innerPasses.length_add.2
            split
            · next length blank =>
                exact ⟨after, length, innerPasses.trans afterPasses, by omega, blank, rfl⟩
            · exact (openContainers_follows fuel _ after).behind (innerPasses.trans afterPasses)
        · split
          · next after quoted =>
              obtain ⟨afterPasses, -⟩ := Lead.passes_quoteMarker? quoted
              exact (openContainers_follows fuel _ after).behind (innerPasses.trans afterPasses)
          · exact Lead.Passes.refl lead

/-! ## One reading

Whether a metadata block starts depends on the whole text behind: it must have an end
somewhere. Everything else about a reading can be asked of its lines alone. -/

/-- Reads a block from its first visible character, which stands behind `indent` columns
of white space. -/
def readContent (isMetadata : List Char → Bool) (ended : State) (indent : Nat)
    (content : Cursor) : Reading :=
  let fuel := content.rest.length + 1
  if indent ≥ 4 then
    let (after, blank) := indentedCode ended.spine fuel content false
    { state := { ended with lastBlank := blank }, cursor := after }
  else if indent = 0 && isMetadata content.rest then
    { state := ended
      cursor := (metadataLines ended.spine fuel content.nextLine).skipBlankLine }
  else
    match htmlBlock? ended.spine content with
    | some (block, after) => { state := ended, cursor := after, block := some block }
    | none =>
        match thematicBreak? content.rest with
        | some length => { state := ended, cursor := content.advance length }
        | none =>
            if isHeading content.rest then { state := ended, cursor := textLine content }
            else
              match fence? content.rest with
              | some fence =>
                  let (block, after) := fencedCode ended.spine fence indent content
                  { state := ended, cursor := after, block := some block }
              | none =>
                  { state := ended, cursor := paragraphWithDefinitions ended.spine fuel content }

/-- `readBlock` with its own answer to whether a metadata block starts. -/
def readBlockWith (isMetadata : List Char → Bool) (state : State) (cursor : Cursor) : Reading :=
  let (count, lead) := Spine.continued state.spine { rest := cursor.rest }
  let state := state.keep count
  match openContainers (cursor.rest.length + 1) state lead with
  | .blankItem state length => { state := state, cursor := cursor.advance length }
  | .content state lead =>
      match blankLine? lead.rest with
      | some length => { state := state.blankLine, cursor := cursor.advance (lead.taken + length) }
      | none =>
          readContent isMetadata state.finishList (lead.spaceUpTo 4).2
            (cursor.advance (lead.spaceUpTo 4).1.taken)

theorem readBlock_eq (state : State) (cursor : Cursor) :
    readBlock state cursor = readBlockWith startsMetadata state cursor := rfl

def Reading.inside (reading : Reading) (offset : Nat) (later : List Char) : Reading :=
  { state := reading.state
    cursor := reading.cursor.inside offset later
    block := reading.block.map (Block.shift offset) }

def Block.isFence : Block → Bool
  | .html _ => false
  | .fence _ _ _ => true

private theorem thematicBreak?_le {text : List Char} {length : Nat}
    (breaks : thematicBreak? text = some length) : length ≤ text.length := by
  unfold thematicBreak? at breaks
  split at breaks
  · cases breaks
  · next mark rest =>
      split at breaks
      · dsimp only at breaks
        split at breaks
        · rw [← Option.some.inj breaks]
          exact firstLine_le (mark :: rest)
        · cases breaks
      · cases breaks

theorem Fits.swaps_refl {text : List Char} (fits : Fits text later) : Swaps later later := by
  refine ⟨?_, Iff.rfl⟩
  rcases fits with rfl | ⟨-, -, halts⟩
  · exact Halts.nil
  · exact halts

theorem Fits.reached {first second : Cursor} (fits : Fits first.rest later)
    (reached : Cursor.Reaches first second) : Fits second.rest later := by
  obtain ⟨count, rfl⟩ := reached
  exact fits.drop count

theorem Stays.before {first second : Cursor} (stays : Stays later second)
    (reached : Cursor.Reaches first second) : Stays later first :=
  Nat.le_trans stays (length_le_of_reaches reached)

/-- **A block is read the same** before any text, as long as it does not run on into the
later one and is no fence. -/
theorem readContent_inside (swaps : Swaps later other) {ended : State} {indent : Nat}
    {content : Cursor} (shut : Shut content.rest later) (fits : Fits content.rest later)
    (metadata : startsMetadata (content.rest ++ later) = startsMetadata (content.rest ++ other))
    (stays : Stays later
      (readContent startsMetadata ended indent (content.inside offset later)).cursor)
    (noFence : ∀ block ∈
      (readContent startsMetadata ended indent (content.inside offset later)).block,
      block.isFence = false) :
    readContent startsMetadata ended indent (content.inside shifted other)
      = (readContent (fun rest => startsMetadata (rest ++ later)) ended indent content).inside
          shifted other := by
  have otherShut := swaps.shut shut
  have otherFits := swaps.fits fits
  have sizeLater : content.rest.length < (content.rest ++ later).length + 1 := by
    rw [List.length_append]
    omega
  have sizeOther : content.rest.length < (content.rest ++ other).length + 1 := by
    rw [List.length_append]
    omega
  have nextShorter := nextLine_length_le content
  rw [readContent] at stays noFence
  rw [readContent, readContent]
  dsimp only at stays noFence ⊢
  rw [Cursor.inside_rest, ← metadata]
  rw [Cursor.inside_rest] at stays noFence
  by_cases deep : indent ≥ 4
  · rw [if_pos deep, if_pos deep, indentedCode_inside _ shifted _ _ content false
      (Nat.lt_succ_self _) sizeOther otherShut otherFits]
    rfl
  · rw [if_neg deep] at stays noFence
    rw [if_neg deep, if_neg deep]
    by_cases isMetadata : (decide (indent = 0) && startsMetadata (content.rest ++ later)) = true
    · rw [if_pos isMetadata] at stays
      rw [if_pos isMetadata, if_pos isMetadata]
      have nextFits : Fits content.nextLine.rest later := fits.drop _
      rw [Cursor.inside_nextLine shut] at stays
      have stayed := Stays.before stays (Cursor.reaches_skipBlankLine _)
      rw [Cursor.inside_nextLine otherShut,
        metadataLines_inside ended.spine offset shifted swaps (content.rest.length + 1) _ _
          content.nextLine (by omega) (by omega) (by omega) nextFits stayed,
        skipBlankLine_inside shifted
          (swaps.fits (nextFits.reached (metadataLines_reaches ended.spine _ _)))]
      rfl
    · rw [if_neg isMetadata] at stays noFence
      rw [if_neg isMetadata, if_neg isMetadata]
      have htmlStays : ∀ block after,
          htmlBlock? ended.spine (content.inside offset later) = some (block, after) →
            Stays later after := by
        intro block after found
        rw [found] at stays
        exact stays
      have here := htmlBlock?_inside ended.spine offset offset fits.swaps_refl shut fits htmlStays
      have there := htmlBlock?_inside ended.spine offset shifted swaps shut fits htmlStays
      rw [there]
      rw [here] at noFence
      cases found : htmlBlock? ended.spine content with
      | some reading => rfl
      | none =>
          rw [found] at noFence
          simp only [Option.map_none, thematicBreak?_append shut, isHeading_append shut,
            fence?_append shut] at noFence
          simp only [Option.map_none, thematicBreak?_append otherShut, isHeading_append otherShut,
            fence?_append otherShut]
          cases breaks : thematicBreak? content.rest with
          | some length =>
              dsimp only
              rw [Cursor.inside_advance (thematicBreak?_le breaks)]
              rfl
          | none =>
              rw [breaks] at noFence
              dsimp only at noFence ⊢
              by_cases heads : isHeading content.rest = true
              · rw [if_pos heads, if_pos heads, textLine_inside otherShut]
                rfl
              · rw [if_neg heads] at noFence
                rw [if_neg heads, if_neg heads]
                cases fenced : fence? content.rest with
                | some fence =>
                    rw [fenced] at noFence
                    exact absurd (noFence _ rfl) (by simp [fencedCode, Block.isFence])
                | none =>
                    dsimp only
                    rw [paragraphWithDefinitions_inside ended.spine shifted (content.rest.length + 1)
                      _ content (Nat.lt_succ_self _) sizeOther otherShut otherFits]
                    rfl

theorem readBlock_inside (swaps : Swaps later other) {state : State} {cursor : Cursor}
    (some_char : cursor.rest ≠ []) (fits : Fits cursor.rest later)
    (metadata : ∀ count, startsMetadata (cursor.rest.drop count ++ later)
      = startsMetadata (cursor.rest.drop count ++ other))
    (stays : Stays later (readBlock state (cursor.inside offset later)).cursor)
    (noFence : ∀ block ∈ (readBlock state (cursor.inside offset later)).block,
      block.isFence = false) :
    readBlock state (cursor.inside shifted other)
      = (readBlockWith (fun rest => startsMetadata (rest ++ later)) state cursor).inside
          shifted other := by
  have shut := fits.shut some_char
  have otherShut := swaps.shut shut
  have sizeLater : cursor.rest.length < (cursor.rest ++ later).length + 1 := by
    rw [List.length_append]
    omega
  have sizeOther : cursor.rest.length < (cursor.rest ++ other).length + 1 := by
    rw [List.length_append]
    omega
  have passes := Spine.passes_continued state.spine { rest := cursor.rest }
  have leadLength := passes.length_add
  rw [readBlock_eq, readBlockWith] at stays noFence
  rw [readBlock_eq, readBlockWith, readBlockWith]
  simp only [Cursor.inside_rest, Spine.continued_append state.spine shut,
    Spine.continued_append state.spine otherShut] at stays noFence ⊢
  rw [openContainers_before (cursor.rest.length + 1) _ _ _ (by simp only at leadLength; omega)
    (by simp only at leadLength; omega) (passes.shut shut)] at stays noFence
  rw [openContainers_before (cursor.rest.length + 1) _ _ _ (by simp only at leadLength; omega)
    (by simp only at leadLength; omega) (passes.shut otherShut)]
  have follows := openContainers_follows (cursor.rest.length + 1)
    (state.keep (Spine.continued state.spine { rest := cursor.rest }).1)
    (Spine.continued state.spine { rest := cursor.rest }).2
  cases opened : openContainers (cursor.rest.length + 1)
      (state.keep (Spine.continued state.spine { rest := cursor.rest }).1)
      (Spine.continued state.spine { rest := cursor.rest }).2 with
  | blankItem inner length =>
      rw [opened] at follows
      obtain ⟨after, blank, afterPasses, -, isBlank, rfl⟩ := follows
      have blankWithin := blankLine?_le isBlank
      have afterLength := (passes.trans afterPasses).length_add
      have within : after.taken + blank ≤ cursor.rest.length := by
        simp only [Nat.add_zero] at afterLength
        omega
      simp only [Opened.before, Cursor.inside_advance within]
      rfl
  | content inner lead =>
      rw [opened] at follows stays noFence
      have leadPasses := passes.trans follows
      have leadShut := leadPasses.shut shut
      simp only [Opened.before, Lead.before_rest, Lead.before_taken,
        blankLine?_append leadShut] at stays noFence
      simp only [Opened.before, Lead.before_rest, Lead.before_taken,
        blankLine?_append (swaps.shut leadShut)]
      cases isBlank : blankLine? lead.rest with
      | some length =>
          have blankWithin := blankLine?_le isBlank
          have leadLength := leadPasses.length_add
          have within : lead.taken + length ≤ cursor.rest.length := by
            simp only [Nat.add_zero] at leadLength
            omega
          simp only [Cursor.inside_advance within]
          rfl
      | none =>
          rw [isBlank] at stays noFence
          have innerPasses := leadPasses.trans (Lead.passes_spaceUpTo lead 4)
          obtain ⟨isInner, within, -⟩ := innerPasses.rest_eq
          have contentShut : Shut (cursor.advance (lead.spaceUpTo 4).1.taken).rest later := by
            rw [Cursor.advance_rest, ← isInner]
            exact innerPasses.shut shut
          simp only [Lead.spaceUpTo_before leadShut, Lead.before_taken,
            Cursor.inside_advance within] at stays noFence
          simp only [Lead.spaceUpTo_before (swaps.shut leadShut), Lead.before_taken,
            Cursor.inside_advance within]
          exact readContent_inside offset shifted swaps contentShut (fits.drop _) (metadata _) stays
            noFence

end Tangle.Markdown
