import Tangle.Proofs.Markdown.Nesting

/-!
Contract: comments and fences at the left edge, where they end every container.

Owns: the readings of a comment and of a fence that start a line, what these readers
leave behind, and that only white space leads from a comment to a fence that adjoins it.

Does **not** own: what a printed comment or fence reads as
(`Tangle.Proofs.Document.Printed`).
-/

set_option autoImplicit false

namespace Tangle.Markdown

open Cursor

/-! ## Containers end at the left edge -/

def opensKept (c : Char) : Prop :=
  c = '<' ∨ c = Text.Symbol.backtick ∨ c = '~'

section Opens

variable {c : Char} {rest : List Char} (opens : opensKept c)
include opens

private theorem openContainers_edge (fuel : Nat) (state : State) :
    openContainers (fuel + 1) state { rest := c :: rest } = .content state { rest := c :: rest } := by
  have flush : Lead.takeSpace { rest := c :: rest } 4 = ({ rest := c :: rest }, 4) := by
    refine takeSpace_flush rfl ?_ 4
    rintro d ⟨⟩
    rcases opens with rfl | rfl | rfl <;> decide
  rw [openContainers]
  simp only [Lead.spaceUpTo, flush, Nat.sub_self]
  have noItem : Lead.listMarker? { rest := c :: rest } 0 = none := by
    rw [Lead.listMarker?_of_cons rfl]
    rcases opens with rfl | rfl | rfl <;> rfl
  have noQuote : Lead.quoteMarker? { rest := c :: rest } = none := by
    rcases opens with rfl | rfl | rfl <;> rfl
  rw [noItem, noQuote]
  rfl

theorem startsMetadata_edge : startsMetadata (c :: rest) = false := by
  rw [startsMetadata, if_neg]
  rw [countWhile_cons]
  rcases opens with rfl | rfl | rfl <;> simp [Text.Symbol.backtick]

end Opens

/-- The containers that go on at the left edge are a list, and in it an item without
content. -/
theorem nested_edge {spine : Spine} (nested : spine.IsChain Container.Holds)
    (edges : ∀ container ∈ spine, container.atEdge = true) :
    spine = [] ∨ spine = [.item 0] ∨ (∃ mark tight, spine = [.list mark tight])
      ∨ ∃ mark tight, spine = [.list mark tight, .item 0] := by
  have edge : ∀ {container : Container}, container.atEdge = true →
      container = .item 0 ∨ ∃ mark tight, container = .list mark tight := by
    intro container atEdge
    cases container with
    | quote => cases atEdge
    | list mark tight => exact Or.inr ⟨mark, tight, rfl⟩
    | item indent => exact Or.inl (by simpa [Container.atEdge] using atEdge)
  rcases spine with _ | ⟨outer, _ | ⟨inner, rest⟩⟩
  · exact Or.inl rfl
  · rcases edge (edges outer (by simp)) with rfl | ⟨mark, tight, rfl⟩
    · exact Or.inr (Or.inl rfl)
    · exact Or.inr (Or.inr (Or.inl ⟨mark, tight, rfl⟩))
  · rw [List.isChain_cons_cons] at nested
    obtain ⟨holds, innerNested⟩ := nested
    rcases edge (edges outer (by simp)) with rfl | ⟨mark, tight, rfl⟩
    · simp [Container.Holds, Container.isOpen] at holds
    · obtain ⟨indent, rfl⟩ : ∃ indent, inner = .item indent := by
        simpa [Container.Holds, Container.isOpen] using holds
      have none_left : indent = 0 := by
        simpa [Container.atEdge] using edges (.item indent) (by simp)
      subst none_left
      cases rest with
      | nil => exact Or.inr (Or.inr (Or.inr ⟨mark, tight, rfl⟩))
      | cons next rest =>
          rw [List.isChain_cons_cons] at innerNested
          simp [Container.Holds, Container.isOpen] at innerNested

/-- Outside all containers there is nothing to end. -/
theorem finishList_root {state : State} (root : state.spine = []) : state.finishList = {} := by
  obtain ⟨spine, lastBlank, emptyItem⟩ := state
  dsimp only at root
  subst root
  simp [State.finishList, State.finishEmptyItem, State.innermost?]

/-- **At the left edge every container ends.** -/
theorem finishList_edge {state : State} (sound : state.Sound) :
    (state.keep (state.spine.takeWhile Container.atEdge).length).finishList = {} := by
  have kept := State.keep_sound sound (state.spine.takeWhile Container.atEdge).length
  have isSpine : (state.keep (state.spine.takeWhile Container.atEdge).length).spine
      = state.spine.takeWhile Container.atEdge :=
    (List.prefix_iff_eq_take.mp (List.takeWhile_prefix _)).symm
  have edges : ∀ container ∈ state.spine.takeWhile Container.atEdge,
      container.atEdge = true := fun _ => List.mem_takeWhile_imp
  generalize state.keep (state.spine.takeWhile Container.atEdge).length = inner at kept isSpine ⊢
  rw [← isSpine] at edges
  obtain ⟨spine, lastBlank, emptyItem⟩ := inner
  rcases nested_edge kept.nested edges with root | waiting | ⟨mark, tight, listed⟩
    | ⟨mark, tight, waiting⟩
  · exact finishList_root root
  · dsimp only at waiting
    subst waiting
    obtain ⟨rfl, rfl⟩ := kept.emptied rfl
    rfl
  · dsimp only at listed
    subst listed
    simp [State.finishList, State.finishEmptyItem, State.innermost?, State.pop, State.keep]
  · dsimp only at waiting
    subst waiting
    obtain ⟨rfl, rfl⟩ := kept.emptied rfl
    rfl

/-- A line that opens a comment or a fence is read outside all containers. -/
theorem readBlock_edge {state : State} {cursor : Cursor} (sound : state.Sound)
    (opens : OpensBlock cursor.rest) :
    readBlock state cursor = readContent startsMetadata {} 0 cursor := by
  have halts := opens.halts
  obtain ⟨c, rest, isRest, kept⟩ := opens.head
  have some_char : cursor.rest ≠ [] := by rw [isRest]; exact List.cons_ne_nil c rest
  have visible : blankLine? (c :: rest) = none := by
    rw [isRest] at halts
    obtain ⟨-, -, feed, ret, pad, -⟩ := halts.head_cons
    simp [blankLine?, countWhile_cons, pad, lineEnd?, feed, ret]
  have flush : Lead.spaceUpTo { rest := c :: rest } 4 = ({ rest := c :: rest }, 0) := by
    rw [← isRest]
    exact halts.spaceUpTo 4
  rw [readBlock_eq, readBlockWith, halts.continued_eq some_char, isRest]
  simp only [openContainers_edge kept, visible, flush, finishList_edge sound, advance_zero]

/-! ## Comments -/

theorem htmlUntil_root_step (closing : List Char) (fuel : Nat) (cursor : Cursor) :
    htmlUntil [] closing (fuel + 1) cursor =
      if (Text.findSplit? closing (cursor.rest.take (lineLength cursor.rest))).isSome
          || cursor.nextLine.isEnd then (cursor.nextLine.offset, cursor.nextLine)
      else htmlUntil [] closing fuel cursor.nextLine := by
  rw [htmlUntil]
  simp only [Spine.continue?, Spine.continued, List.length_nil, if_true, advance_zero]
  split
  · next found => rw [if_pos (by rw [found, Bool.true_or])]
  · next missing =>
      rw [Bool.not_eq_true] at missing
      rw [missing, Bool.false_or]
      rfl

/-- A line that is not the last one ends with its only line feed. -/
theorem take_lineLength_ends : ∀ {text : List Char}, text.drop (lineLength text) ≠ [] →
    ∃ body, text.take (lineLength text) = body ++ ['\n'] ∧ '\n' ∉ body
  | [], more => absurd rfl more
  | c :: rest, more => by
      rw [lineLength] at more ⊢
      split
      · next feed => exact ⟨[], by rw [feed]; rfl, List.not_mem_nil⟩
      · next other =>
          rw [if_neg other, Nat.add_comm, List.drop_succ_cons] at more
          obtain ⟨body, isBody, free⟩ := take_lineLength_ends more
          refine ⟨c :: body, ?_, ?_⟩
          · rw [Nat.add_comm, List.take_succ_cons, isBody, List.cons_append]
          · rw [List.mem_cons, not_or]
            exact ⟨Ne.symm other, free⟩

/-- **A comment at the left edge** ends behind the line with its closing text, or at the
end of the text. -/
theorem htmlUntil_root (closing : List Char) :
    ∀ (fuel : Nat) (cursor : Cursor), cursor.rest.length < fuel →
      ∃ count, count ≤ cursor.rest.length
        ∧ htmlUntil [] closing fuel cursor
            = ((cursor.advance count).offset, cursor.advance count)
        ∧ (cursor.rest.drop count = []
          ∨ ∃ lines body, cursor.rest.take count = lines ++ (body ++ ['\n']) ∧ '\n' ∉ body
              ∧ (Text.findSplit? closing (body ++ ['\n'])).isSome)
  | fuel + 1, cursor, enough => by
      rw [htmlUntil_root_step]
      split
      · next stops =>
          refine ⟨lineLength cursor.rest, lineLength_le _, rfl, ?_⟩
          by_cases more : cursor.rest.drop (lineLength cursor.rest) = []
          · exact Or.inl more
          · have goesOn : cursor.nextLine.isEnd = false := by
              rw [isEnd, nextLine, advance_rest]
              simpa using more
            rw [goesOn, Bool.or_false] at stops
            obtain ⟨body, isBody, free⟩ := take_lineLength_ends more
            rw [isBody] at stops
            exact Or.inr ⟨[], body, isBody, free, stops⟩
      · next goesOn =>
          rw [Bool.not_eq_true, Bool.or_eq_false_iff] at goesOn
          have some_char : cursor.rest ≠ [] := by
            intro nothing
            have ended := goesOn.2
            rw [isEnd, nextLine, advance_rest, nothing] at ended
            cases ended
          have shorter := nextLine_length_lt some_char
          obtain ⟨count, within, isOutcome, ends⟩ :=
            htmlUntil_root closing fuel cursor.nextLine (by omega)
          have isNext : cursor.nextLine.rest = cursor.rest.drop (lineLength cursor.rest) := rfl
          refine ⟨lineLength cursor.rest + count, ?_, ?_, ?_⟩
          · have line := lineLength_le cursor.rest
            rw [isNext, List.length_drop] at within
            omega
          · rw [isOutcome, nextLine, advance_advance]
          · rw [isNext, List.drop_drop] at ends
            refine ends.imp id ?_
            rintro ⟨lines, body, isLines, free, found⟩
            refine ⟨cursor.rest.take (lineLength cursor.rest) ++ lines, body, ?_, free, found⟩
            rw [List.take_add, isLines, List.append_assoc]

private theorem closing?_comment (rest : List Char) :
    Html.closing? ("!--".toList ++ rest) = some "-->" := by
  have noRaw : ∀ name ∈ Html.rawElements,
      Html.opensRaw ("!--".toList ++ rest) name = false := by
    intro name member
    simp only [Html.rawElements, List.mem_cons, List.not_mem_nil, or_false] at member
    rcases member with rfl | rfl | rfl | rfl <;> rfl
  have none_found : Html.rawElements.find? (Html.opensRaw ("!--".toList ++ rest)) = none := by
    rw [List.find?_eq_none]
    intro name member
    rw [noRaw name member]
    exact Bool.false_ne_true
  rw [Html.closing?_eq, none_found]
  dsimp only
  rw [if_pos (List.isPrefixOf_iff_prefix.mpr (List.prefix_append _ _))]

/-- A comment at the left edge. -/
theorem readContent_comment {cursor : Cursor} {rest : List Char}
    (opens : cursor.rest = "<!--".toList ++ rest) :
    readContent startsMetadata {} 0 cursor =
      { state := {}
        cursor := (htmlUntil [] "-->".toList (cursor.rest.length + 1) cursor).2
        block := some (.html ⟨cursor.offset,
          (htmlUntil [] "-->".toList (cursor.rest.length + 1) cursor).1⟩) } := by
  have opensAngle : cursor.rest = '<' :: ("!--".toList ++ rest) := opens
  have noMetadata : startsMetadata cursor.rest = false := by
    rw [opensAngle]
    exact startsMetadata_edge (Or.inl rfl)
  rw [readContent, noMetadata, htmlBlock?_of_angle [] opensAngle, closing?_comment]
  rfl

/-! ## Fences -/

theorem fence?_opens {text : List Char} {fence : FenceMark} (opens : fence? text = some fence) :
    (fence.mark = Text.Symbol.backtick ∨ fence.mark = '~') ∧ 3 ≤ fence.width
      ∧ ∃ rest, text = fence.mark :: rest := by
  cases text with
  | nil => cases opens
  | cons c rest =>
      rw [fence?] at opens
      split at opens
      · next mark =>
          dsimp only at opens
          split at opens
          · cases opens
          · next wide =>
              split at opens
              · cases opens
              · rw [← Option.some.inj opens]
                exact ⟨by simpa using mark, Nat.le_of_not_lt wide, rest, rfl⟩
      · cases opens

/-- A closing fence ends with a mark or with a space. -/
theorem closingFence?_last {fence : FenceMark} {text : List Char} {length : Nat}
    (wide : 0 < fence.width) (some_char : text ≠ [])
    (closes : closingFence? fence text = some length) :
    length ≤ text.length ∧ (lineEnd? (text.drop length)).isSome
      ∧ ((text.take length).getLast? = some fence.mark ∨ (text.take length).getLast? = some ' ') := by
  rw [closingFence?, if_neg (by simpa using some_char)] at closes
  dsimp only at closes
  split at closes
  · cases closes
  · next reaches =>
      rw [Option.map_eq_some_iff] at closes
      obtain ⟨ending, isEnding, rfl⟩ := closes
      have marks := countWhile_le (· == fence.mark) text
      have spaces := countWhile_le (· == ' ') (text.drop (countWhile (· == fence.mark) text))
      rw [List.length_drop] at spaces
      refine ⟨by omega, by rw [isEnding]; rfl, ?_⟩
      have takeRun : ∀ (keep : Char → Bool) (chars : List Char),
          chars.take (countWhile keep chars) = chars.takeWhile keep :=
        fun keep chars => (List.prefix_iff_eq_take.mp (List.takeWhile_prefix _)).symm
      have lastOf : ∀ (c : Char) (chars : List Char), chars.takeWhile (· == c) ≠ [] →
          (chars.takeWhile (· == c)).getLast? = some c := by
        intro c chars nonempty
        have isLast := List.getLast?_eq_some_getLast nonempty
        have same := List.all_eq_true.mp List.all_takeWhile _ (List.mem_of_getLast? isLast)
        rw [isLast, beq_iff_eq.mp same]
      rw [List.take_add, takeRun, takeRun, List.getLast?_append]
      by_cases padded : (text.drop (countWhile (· == fence.mark) text)).takeWhile (· == ' ') = []
      · left
        rw [padded, List.getLast?_nil, Option.none_or]
        refine lastOf fence.mark text ?_
        intro none_marked
        rw [countWhile, none_marked] at reaches
        exact reaches (by simpa using wide)
      · right
        rw [lastOf ' ' _ padded, Option.some_or]

/-- **A fence outside all containers** ends behind its closing fence, or at the end of the
text. -/
theorem fenceLines_root {fence : FenceMark} {indent : Nat} (wide : 0 < fence.width)
    (shallow : indent < 4) :
    ∀ (fuel : Nat) (cursor : Cursor), cursor.rest.length < fuel →
      ∃ count, count ≤ cursor.rest.length
        ∧ (fenceLines [] fence indent fuel cursor).2
            = ((cursor.advance count).offset, (cursor.advance count).skipBlankLine)
        ∧ (cursor.rest.drop count = []
          ∨ (lineEnd? (cursor.rest.drop count)).isSome
            ∧ ((cursor.rest.take count).getLast? = some fence.mark
              ∨ (cursor.rest.take count).getLast? = some ' '))
  | fuel + 1, cursor, enough => by
      have contentPasses := Lead.passes_space { rest := cursor.rest } indent
      have shiftedPasses := contentPasses.trans
        (Lead.passes_space (Lead.space { rest := cursor.rest } indent).1 (4 - indent))
      rw [fenceLines]
      simp only [Spine.continue?, Spine.continued, List.length_nil, if_true]
      split
      · next length closes =>
          obtain ⟨isShifted, within, -⟩ := shiftedPasses.rest_eq
          generalize Lead.space (Lead.space { rest := cursor.rest } indent).1 (4 - indent) = shifted
            at closes isShifted within
          split at closes
          · cases closes
          · by_cases nothing : shifted.1.rest = []
            · rw [nothing] at closes
              have none_taken : length = 0 := (Option.some.inj closes).symm
              subst none_taken
              exact ⟨shifted.1.taken, within, rfl, Or.inl (by rw [← isShifted, nothing])⟩
            · obtain ⟨closingWithin, ends, last⟩ := closingFence?_last wide nothing closes
              refine ⟨shifted.1.taken + length, ?_, rfl, Or.inr ⟨?_, ?_⟩⟩
              · rw [isShifted, List.length_drop] at closingWithin
                omega
              · rw [← List.drop_drop, ← isShifted]
                exact ends
              · rw [List.take_add, ← isShifted, List.getLast?_append]
                rcases last with isMark | isSpace
                · exact Or.inl (by rw [isMark]; rfl)
                · exact Or.inr (by rw [isSpace]; rfl)
      · next goesOn =>
          obtain ⟨-, within, -⟩ := contentPasses.rest_eq
          have some_char : cursor.rest ≠ [] := by
            -- At the end of the text every fence closes.
            intro nothing
            rw [nothing, Halts.nil.space] at goesOn
            dsimp only at goesOn
            rw [Halts.nil.space, decide_eq_false (by omega)] at goesOn
            cases goesOn
          generalize (Lead.space { rest := cursor.rest } indent).1.taken = taken at within
          have shorter : (cursor.advance taken).nextLine.rest.length < cursor.rest.length := by
            by_cases nothing : (cursor.advance taken).rest = []
            · have next := nextLine_length_le (cursor.advance taken)
              have size := List.length_pos_iff.mpr some_char
              rw [nothing, List.length_nil] at next
              omega
            · have next := nextLine_length_lt nothing
              have behind := length_le_of_reaches (reaches_advance cursor taken)
              omega
          obtain ⟨count, countWithin, isOutcome, ends⟩ :=
            fenceLines_root wide shallow fuel (cursor.advance taken).nextLine (by omega)
          have isNext : (cursor.advance taken).nextLine
              = cursor.advance (taken + lineLength (cursor.rest.drop taken)) :=
            advance_advance _ _ _
          have line := lineLength_le (cursor.rest.drop taken)
          rw [List.length_drop] at line
          rw [isNext] at isOutcome ends countWithin
          rw [advance_rest, List.length_drop] at countWithin
          refine ⟨taken + lineLength (cursor.rest.drop taken) + count, by omega, ?_, ?_⟩
          · show ((fenceLines [] fence indent fuel (cursor.advance taken).nextLine).2.1,
              (fenceLines [] fence indent fuel (cursor.advance taken).nextLine).2.2) = _
            rw [isNext, isOutcome, advance_advance]
          · rw [advance_rest, List.drop_drop] at ends
            refine ends.imp id (And.imp_right ?_)
            rw [List.take_add, List.getLast?_append]
            rintro (isMark | isSpace)
            · exact Or.inl (by rw [isMark]; rfl)
            · exact Or.inr (by rw [isSpace]; rfl)

/-- Where a fenced code block ends, counted from its opening fence. -/
theorem fencedCode_root {fence : FenceMark} {indent : Nat} {cursor : Cursor}
    (opens : fence? cursor.rest = some fence) (shallow : indent < 4) :
    ∃ count, count ≤ cursor.rest.length ∧ 0 < count
      ∧ (fencedCode [] fence indent cursor).1.span = ⟨cursor.offset, (cursor.advance count).offset⟩
      ∧ (fencedCode [] fence indent cursor).2 = (cursor.advance count).skipBlankLine
      ∧ (cursor.rest.drop count = []
        ∨ (lineEnd? (cursor.rest.drop count)).isSome
          ∧ ((cursor.rest.take count).getLast? = some fence.mark
            ∨ (cursor.rest.take count).getLast? = some ' ')) := by
  obtain ⟨-, wide, rest, isRest⟩ := fence?_opens opens
  have some_char : cursor.rest ≠ [] := by rw [isRest]; exact List.cons_ne_nil _ rest
  have positive := lineLength_pos some_char
  have line := lineLength_le cursor.rest
  have nextShorter := nextLine_length_le cursor
  have marked : 0 < fence.width := by omega
  obtain ⟨count, within, isOutcome, ends⟩ := fenceLines_root marked shallow
    (cursor.rest.length + 1) cursor.nextLine (by omega)
  rw [nextLine, advance_rest, List.length_drop] at within
  have isSpan : (fencedCode [] fence indent cursor).1.span = ⟨cursor.offset,
      (fenceLines [] fence indent (cursor.rest.length + 1) cursor.nextLine).2.1⟩ := rfl
  have isAfter : (fencedCode [] fence indent cursor).2
      = (fenceLines [] fence indent (cursor.rest.length + 1) cursor.nextLine).2.2 := rfl
  refine ⟨lineLength cursor.rest + count, by omega, by omega, ?_, ?_, ?_⟩
  · rw [isSpan, isOutcome, nextLine, advance_advance]
  · rw [isAfter, isOutcome, nextLine, advance_advance]
  · rw [nextLine, advance_rest, List.drop_drop] at ends
    refine ends.imp id (And.imp_right ?_)
    rw [List.take_add, List.getLast?_append]
    rintro (isMark | isSpace)
    · exact Or.inl (by rw [isMark]; rfl)
    · exact Or.inr (by rw [isSpace]; rfl)

/-- A fence at the left edge. -/
theorem readContent_fence {cursor : Cursor} {fence : FenceMark}
    (opens : fence? cursor.rest = some fence) :
    readContent startsMetadata {} 0 cursor =
      { state := {}
        cursor := (fencedCode [] fence 0 cursor).2
        block := some (fencedCode [] fence 0 cursor).1 } := by
  obtain ⟨mark, -, rest, isRest⟩ := fence?_opens opens
  generalize fence.mark = c at mark isRest
  have noMetadata : startsMetadata cursor.rest = false := by
    rw [isRest]
    exact startsMetadata_edge (Or.inr mark)
  have noHtml : htmlBlock? [] cursor = none := by
    refine htmlBlock?_of_not_angle [] ?_
    rw [isRest]
    rcases mark with rfl | rfl <;> simp [Text.Symbol.backtick]
  have noBreak : thematicBreak? cursor.rest = none := by
    rw [isRest]
    rcases mark with rfl | rfl <;> rfl
  have noHeading : isHeading cursor.rest = false := by
    rw [isRest, isHeading, countWhile_cons]
    rcases mark with rfl | rfl <;> rfl
  rw [readContent, noMetadata, noHtml, noBreak, noHeading, opens]
  rfl

/-! ## White space ahead of a fence -/

theorem advance_of_le {cursor : Cursor} {count : Nat} (past : cursor.rest.length ≤ count) :
    cursor.advance count = cursor.advance cursor.rest.length := by
  simp only [advance, List.take_of_length_le past, List.drop_of_length_le past, List.take_length,
    List.drop_length]

theorem Reaches.exists_le {cursor later : Cursor} (reached : Reaches cursor later) :
    ∃ count, count ≤ cursor.rest.length ∧ later = cursor.advance count := by
  obtain ⟨count, rfl⟩ := reached
  rcases Nat.le_total count cursor.rest.length with within | past
  · exact ⟨count, within, rfl⟩
  · exact ⟨_, Nat.le_refl _, advance_of_le past⟩

/-- Within the text, a place further on has a greater offset. -/
theorem le_of_offset_le {cursor : Cursor} {first second : Nat} (within : first ≤ cursor.rest.length)
    (before : (cursor.advance first).offset ≤ (cursor.advance second).offset) : first ≤ second := by
  by_contra further
  have between : (cursor.rest.drop second).take (first - second) ≠ [] := by
    rw [ne_eq, List.take_eq_nil_iff, List.drop_eq_nil_iff]
    omega
  have size := byteSize_pos between
  have isFirst : cursor.rest.take first
      = cursor.rest.take second ++ (cursor.rest.drop second).take (first - second) := by
    rw [← List.take_add]
    congr 1
    omega
  simp only [advance, isFirst, byteSize_append] at before
  omega

private theorem isBlank_of_isDigit {c : Char} (digit : c.isDigit = true) : Text.isBlank c = false := by
  have bounds : 48 ≤ c.toNat ∧ c.toNat ≤ 57 := by
    rw [Char.isDigit, Bool.and_eq_true, decide_eq_true_eq, decide_eq_true_eq] at digit
    exact ⟨UInt32.le_iff_toNat_le.mp digit.1, UInt32.le_iff_toNat_le.mp digit.2⟩
  simp only [Text.isBlank, Bool.or_eq_false_iff, Bool.and_eq_false_iff, decide_eq_false_iff_not,
    beq_eq_false_iff_ne]
  omega

private theorem Lead.listMarker?_visible {lead after : Lead} {indent : Nat} {marker : ListMarker}
    (marked : lead.listMarker? indent = some (marker, after)) :
    ∃ c rest, lead.rest = c :: rest ∧ Text.isBlank c = false := by
  cases isRest : lead.rest with
  | nil => simp [listMarker?, isRest] at marked
  | cons c rest =>
      refine ⟨c, rest, rfl, ?_⟩
      rw [listMarker?_of_cons isRest] at marked
      split at marked
      · next bullet =>
          simp only [isBullet, Bool.or_eq_true, beq_iff_eq] at bullet
          rcases bullet with (rfl | rfl) | rfl <;> rfl
      · unfold numberMarker? at marked
        split at marked
        · cases marked
        · next digits =>
            have digit : c.isDigit = true := by
              by_contra other
              rw [isRest, List.takeWhile_cons, if_neg other] at digits
              exact digits rfl
            exact isBlank_of_isDigit digit

def Opened.taken : Opened → Nat
  | .content _ lead => lead.taken
  | .blankItem _ length => length

private theorem Opened.Follows.taken_le {opened : Opened} {lead : Lead} (follows : opened.Follows lead) :
    lead.taken ≤ opened.taken := by
  cases opened with
  | content state after => exact (Lead.Passes.length_add follows).2
  | blankItem state length =>
      obtain ⟨after, blank, -, further, -, rfl⟩ := follows
      show lead.taken ≤ after.taken + blank
      omega

/-- A line opens containers only by characters that can be seen. -/
theorem openContainers_marked (fuel : Nat) (state : State) (lead : Lead) :
    openContainers fuel state lead = .content state lead
      ∨ ∃ c ∈ lead.rest.take ((openContainers fuel state lead).taken - lead.taken),
          Text.isBlank c = false := by
  -- What matters is where the first marker stands and that the reader passes it.
  have marked : ∀ {opened : Opened} {inner after : Lead}, Lead.Passes lead inner →
      (∃ c rest, inner.rest = c :: rest ∧ Text.isBlank c = false) → inner.taken < after.taken →
      after.taken ≤ opened.taken →
      ∃ c ∈ lead.rest.take (opened.taken - lead.taken), Text.isBlank c = false := by
    rintro opened inner after ⟨ahead, isRest, isTaken, -⟩ ⟨c, rest, isInner, visible⟩ passed further
    refine ⟨c, ?_, visible⟩
    obtain ⟨more, isMore⟩ := Nat.exists_eq_add_of_le
      (show ahead.length + 1 ≤ opened.taken - lead.taken by omega)
    rw [isRest, isInner, isMore, Nat.add_assoc, List.take_length_add_append, Nat.add_comm 1 more,
      List.take_succ_cons]
    simp
  cases fuel with
  | zero => exact Or.inl rfl
  | succ fuel =>
      have innerPasses := Lead.passes_spaceUpTo lead 4
      rw [openContainers]
      dsimp only
      split
      · exact Or.inl rfl
      · split
        · next marker after isMarked =>
            have passed := (Lead.passes_listMarker? isMarked).2
            right
            split
            · exact marked innerPasses (Lead.listMarker?_visible isMarked) passed
                (Nat.le_add_right _ _)
            · exact marked innerPasses (Lead.listMarker?_visible isMarked) passed
                (openContainers_follows fuel _ after).taken_le
        · split
          · next after quoted =>
              have passed := (Lead.passes_quoteMarker? quoted).2
              right
              refine marked innerPasses ?_ passed (openContainers_follows fuel _ after).taken_le
              unfold Lead.quoteMarker? at quoted
              split at quoted
              · next rest isRest => exact ⟨'>', rest, isRest, rfl⟩
              · cases quoted
          · exact Or.inl rfl

/-- What a reading outside all containers comes to: it passes a character that can be seen
before anything starts, or meets a blank line, or reads a block that is no container. -/
theorem readBlock_root {state : State} (root : state.spine = []) (cursor : Cursor) :
    (∃ count, (∃ c ∈ cursor.rest.take count, Text.isBlank c = false)
        ∧ count ≤ cursor.rest.length
        ∧ Reaches (cursor.advance count) (readBlock state cursor).cursor
        ∧ ∀ block ∈ (readBlock state cursor).block,
            (cursor.advance count).offset ≤ block.span.start)
      ∨ ((readBlock state cursor).block = none ∧ (readBlock state cursor).state.spine = [])
      ∨ ∃ indent ahead, ahead ≤ cursor.rest.length
          ∧ readBlock state cursor
              = readContent startsMetadata {} indent (cursor.advance ahead) := by
  have keptRoot : (state.keep 0).spine = [] := rfl
  have isContinued : Spine.continued state.spine { rest := cursor.rest }
      = (0, { rest := cursor.rest }) := by
    rw [root]
    rfl
  have follows := openContainers_follows (cursor.rest.length + 1) (state.keep 0)
    { rest := cursor.rest }
  rw [readBlock_eq, readBlockWith, isContinued]
  dsimp only
  rcases openContainers_marked (cursor.rest.length + 1) (state.keep 0) { rest := cursor.rest }
    with unmarked | ⟨c, member, visible⟩
  · rw [unmarked]
    dsimp only
    split
    · refine Or.inr (Or.inl ⟨rfl, ?_⟩)
      simp [State.blankLine, State.innermost?, keptRoot]
    · obtain ⟨-, within, -⟩ := (Lead.passes_spaceUpTo { rest := cursor.rest } 4).rest_eq
      rw [finishList_root keptRoot]
      exact Or.inr (Or.inr ⟨_, _, within, rfl⟩)
  · left
    rw [Nat.sub_zero] at member
    refine ⟨_, ⟨c, member, visible⟩, ?_⟩
    generalize openContainers (cursor.rest.length + 1) (state.keep 0) { rest := cursor.rest }
      = opened at follows
    cases opened with
    | blankItem inner length =>
        obtain ⟨after, blank, passes, -, isBlank, rfl⟩ := follows
        have behind := passes.length_add
        have blankWithin := blankLine?_le isBlank
        dsimp only at behind
        exact ⟨by show after.taken + blank ≤ _; omega, Reaches.refl _, by simp⟩
    | content inner lead =>
        obtain ⟨-, within, -⟩ := Lead.Passes.rest_eq follows
        refine ⟨within, ?_⟩
        dsimp only
        split
        · refine ⟨?_, by simp⟩
          show Reaches (cursor.advance lead.taken) _
          rw [← advance_advance]
          exact reaches_advance _ _
        · have further := (Lead.passes_spaceUpTo lead 4).length_add.2
          obtain ⟨more, isMore⟩ := Nat.exists_eq_add_of_le further
          have reached : Reaches (cursor.advance lead.taken)
              (cursor.advance (lead.spaceUpTo 4).1.taken) := by
            rw [isMore, ← advance_advance]
            exact reaches_advance _ _
          refine ⟨reached.trans (readContent_reaches _ _ _ _), ?_⟩
          intro block kept
          rw [(readContent_kept kept).start]
          exact reached.offset_le

/-- A fence that was kept, with the reading it comes from. -/
theorem readContent_fence_kept {isMetadata : List Char → Bool} {ended : State} {indent : Nat}
    {content : Cursor} {block : Block} (isFence : block.isFence = true)
    (kept : (readContent isMetadata ended indent content).block = some block) :
    indent < 4 ∧ ∃ fence, fence? content.rest = some fence
      ∧ readContent isMetadata ended indent content
          = { state := ended
              cursor := (fencedCode ended.spine fence indent content).2
              block := some (fencedCode ended.spine fence indent content).1 } := by
  rw [readContent] at kept ⊢
  dsimp only at kept ⊢
  split at kept
  · cases kept
  · next shallow =>
      split at kept
      · cases kept
      · next noMetadata =>
          split at kept
          · next found after read =>
              rw [← Option.some.inj kept, htmlBlock?_isFence read] at isFence
              cases isFence
          · next noHtml =>
              split at kept
              · cases kept
              · next noBreak =>
                  split at kept
                  · cases kept
                  · next noHeading =>
                      split at kept
                      · next fence opens =>
                          refine ⟨Nat.lt_of_not_ge shallow, fence, opens, ?_⟩
                          rw [if_neg shallow, if_neg noMetadata, if_neg noHeading]
                      · cases kept

/-- **Nothing but white space leads to a fence.** Then the fence is read outside all
containers, and so is what follows. -/
theorem readBlocks_gap {block : Block} (isFence : block.isFence = true) :
    ∀ (fuel : Nat) {state : State} {cursor : Cursor} {count : Nat}, state.spine = [] →
      cursor.rest.length < fuel → count ≤ cursor.rest.length →
      (∀ c ∈ cursor.rest.take count, Text.isBlank c = true) →
      (readBlocks fuel state cursor).head? = some block →
      block.span.start = (cursor.advance count).offset →
      ∃ fence indent left, indent < 4
        ∧ fence? (cursor.advance count).rest = some fence
        ∧ block = (fencedCode [] fence indent (cursor.advance count)).1
        ∧ (fencedCode [] fence indent (cursor.advance count)).2.rest.length < left
        ∧ readBlocks fuel state cursor
            = block :: readBlocks left {} (fencedCode [] fence indent (cursor.advance count)).2
  | fuel + 1, state, cursor, count, root, enough, within, blank, isHead, isStart => by
      rw [readBlocks] at isHead ⊢
      split at isHead
      · cases isHead
      · next goesOn =>
          have some_char : cursor.rest ≠ [] := by
            simpa [isEnd] using goesOn
          have shorter := readBlock_shorter state some_char
          rw [if_neg goesOn]
          dsimp only at isHead ⊢
          -- A reading cannot get past the fence, so no character it passes can be seen.
          have unseen : ∀ {ahead : Nat}, ahead ≤ cursor.rest.length →
              (cursor.advance ahead).offset ≤ block.span.start →
              ¬ ∃ c ∈ cursor.rest.take ahead, Text.isBlank c = false := by
            rintro ahead aheadWithin before ⟨c, member, visible⟩
            rw [isStart] at before
            have fewer := le_of_offset_le aheadWithin before
            rw [blank c ((List.take_prefix_take_left fewer).subset member)] at visible
            cases visible
          cases kept : (readBlock state cursor).block with
          | none =>
              rw [kept] at isHead
              simp only [Option.toList_none, List.nil_append] at isHead ⊢
              have reached := (readBlock_moves state cursor).1
              have before : (readBlock state cursor).cursor.offset ≤ block.span.start :=
                (readBlocks_starts fuel _ _).1 block (List.mem_of_mem_head? isHead)
              have rootAfter : (readBlock state cursor).state.spine = [] := by
                rcases readBlock_root root cursor
                  with ⟨ahead, seen, aheadWithin, passed, -⟩ | ⟨-, rootAfter⟩ | ⟨indent, ahead, -, isReading⟩
                · exact absurd seen (unseen aheadWithin (Nat.le_trans passed.offset_le before))
                · exact rootAfter
                · rw [isReading, readContent_spine]
              obtain ⟨taken, takenWithin, isAfter⟩ := Reaches.exists_le reached
              rw [isAfter] at before shorter isHead ⊢
              rw [isStart] at before
              have fewer := le_of_offset_le takenWithin before
              obtain ⟨more, rfl⟩ := Nat.exists_eq_add_of_le fewer
              rw [advance_rest, List.length_drop] at shorter
              rw [← advance_advance] at isStart ⊢
              refine readBlocks_gap isFence fuel rootAfter ?_ ?_ ?_ isHead isStart
              · rw [advance_rest, List.length_drop]
                omega
              · rw [advance_rest, List.length_drop]
                omega
              · intro c member
                refine blank c ?_
                rw [List.take_add]
                exact List.mem_append_right _ member
          | some first =>
              rw [kept] at isHead
              simp only [Option.toList_some, List.singleton_append, List.head?_cons,
                Option.some.injEq] at isHead ⊢
              subst isHead
              rcases readBlock_root root cursor
                with ⟨ahead, seen, aheadWithin, -, before⟩ | ⟨noBlock, -⟩ | ⟨indent, ahead, aheadWithin, isReading⟩
              · exact absurd seen (unseen aheadWithin (before first kept))
              · rw [noBlock] at kept
                cases kept
              · rw [isReading] at kept shorter ⊢
                have start := (readContent_kept kept).start
                rw [isStart] at start
                have same : ahead = count := Nat.le_antisymm
                  (le_of_offset_le aheadWithin (Nat.le_of_eq start.symm))
                  (le_of_offset_le within (Nat.le_of_eq start))
                subst same
                obtain ⟨shallow, fence, opens, isFenced⟩ := readContent_fence_kept isFence kept
                rw [isFenced] at kept shorter ⊢
                refine ⟨fence, indent, fuel, shallow, opens, (Option.some.inj kept).symm, ?_, rfl⟩
                exact Nat.lt_of_lt_of_le shorter (Nat.lt_succ_iff.mp enough)

/-! ## Text without blocks -/

theorem KeptAt.head {content : Cursor} {block : Block} (kept : KeptAt content block) :
    ∃ c rest, content.rest = c :: rest ∧ opensKept c := by
  rcases kept with ⟨spine, after, read⟩ | ⟨spine, fence, indent, opens, -⟩
  · by_cases angle : content.rest.head? = some '<'
    · obtain ⟨rest, isRest⟩ := List.head?_eq_some_iff.mp angle
      exact ⟨'<', rest, isRest, Or.inl rfl⟩
    · rw [htmlBlock?_of_not_angle spine angle] at read
      cases read
  · obtain ⟨mark, -, rest, isRest⟩ := fence?_opens opens
    exact ⟨fence.mark, rest, isRest, Or.inr mark⟩

/-- A text without any character that a kept block starts with has no blocks. -/
theorem readBlocks_plain :
    ∀ (fuel : Nat) (state : State) (cursor : Cursor), (∀ c ∈ cursor.rest, ¬ opensKept c) →
      readBlocks fuel state cursor = []
  | 0, _, _, _ => rfl
  | fuel + 1, state, cursor, plain => by
      have suffix : ∀ {later : Cursor}, Reaches cursor later → ∀ c ∈ later.rest, ¬ opensKept c := by
        rintro later ⟨count, rfl⟩ c member
        exact plain c (List.mem_of_mem_drop member)
      have none_kept : (readBlock state cursor).block = none := by
        cases kept : (readBlock state cursor).block with
        | none => rfl
        | some block =>
            obtain ⟨ahead, -, -, keptAt⟩ := readBlock_kept kept
            obtain ⟨c, rest, isRest, opens⟩ := keptAt.head
            exact absurd opens (suffix (reaches_advance cursor ahead) c (by rw [isRest]; simp))
      rw [readBlocks]
      split
      · rfl
      · dsimp only
        rw [none_kept, readBlocks_plain fuel _ _ (suffix (readBlock_moves state cursor).1)]
        rfl

end Tangle.Markdown
