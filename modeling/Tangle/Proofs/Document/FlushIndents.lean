import Tangle.Proofs.Document.ContentLines

/-!
Contract: the indents of a fence that opens in the first column.

Owns: what is recorded ahead of each content line of such a fence.

Does **not** own: which lines the content has (`Tangle.Proofs.Document.ContentLines`).

## The carriage return of an empty line

Nothing is stripped in front of such content, so the indent of a line is where its first piece
starts. A line that ends in a carriage return and one more character is read without the carriage
return. If the line has nothing else, its only piece starts behind it, in the second column, and
the line is recorded with an indent of one.
-/

set_option autoImplicit false

namespace Tangle.Document

open Tangle.Source
open Tangle.Markdown
open Tangle.Markdown.Cursor
open Tangle.Text (EndsLine byteSize)

/-! ## Starts of lines -/

theorem column_after_lines {chars : List Char} (ends : EndsLine chars) :
    (Position.after chars).column = 1 := by
  rcases ends with rfl | ⟨before, rfl⟩
  · rfl
  · rw [Position.after_concat]
    rfl

def StartsLine (source : String) (cursor : Cursor) : Prop :=
  ∃ ahead, source.toList = ahead ++ cursor.rest ∧ cursor.offset = byteSize ahead ∧ EndsLine ahead

section Starts

variable {source : String} {cursor : Cursor}

private theorem startsLine_of_column (placed : At source cursor)
    (first : (positionAt source cursor.offset).column = 1) : StartsLine source cursor := by
  obtain ⟨ahead, isSource, isOffset⟩ := placed
  exact ⟨ahead, isSource, isOffset, At.endsLine isSource isOffset first⟩

theorem StartsLine.nextLine (starts : StartsLine source cursor)
    (more : cursor.nextLine.rest ≠ []) : StartsLine source cursor.nextLine := by
  obtain ⟨ahead, isSource, isOffset, -⟩ := starts
  obtain ⟨body, isLine, -⟩ := take_lineLength_ends more
  refine ⟨ahead ++ cursor.rest.take (lineLength cursor.rest), ?_, ?_, ?_⟩
  · rw [isSource, List.append_assoc, Cursor.nextLine, advance_rest, List.take_append_drop]
  · rw [byteSize_append, ← isOffset]
    rfl
  · rw [isLine, ← List.append_assoc]
    exact Or.inr ⟨ahead ++ body, rfl⟩

theorem StartsLine.column (starts : StartsLine source cursor) :
    (positionAt source cursor.offset).column = 1 := by
  obtain ⟨ahead, isSource, isOffset, ends⟩ := starts
  rw [positionAt_split isSource isOffset, column_after_lines ends]

private theorem StartsLine.column_return (starts : StartsLine source cursor) {rest : List Char}
    (isRest : cursor.rest = '\r' :: rest) :
    (positionAt source (cursor.offset + 1)).column = 2 := by
  obtain ⟨ahead, isSource, isOffset, ends⟩ := starts
  have isSplit : source.toList = (ahead ++ ['\r']) ++ rest := by
    rw [isSource, isRest, List.append_assoc]
    rfl
  have isSize : cursor.offset + 1 = byteSize (ahead ++ ['\r']) := by
    rw [byteSize_append, isOffset]
    rfl
  rw [positionAt_split isSplit isSize, Position.after_concat, Position.advance,
    if_neg (by decide), column_after_lines ends]

/-- The lines from a line's start on are what is left of the lines of the source. -/
theorem StartsLine.cutLines (starts : StartsLine source cursor) :
    (cutLines source.toList).drop (lineAt source cursor.offset - 1) = cutLines cursor.rest := by
  obtain ⟨ahead, isSource, isOffset, ends⟩ := starts
  rw [lineAt, positionAt_split isSource isOffset, Position.line_after, Nat.add_sub_cancel, isSource,
    cutLines_append ends, ← length_cutLines_ends ends, List.drop_left]

end Starts

/-! ## One line -/

/-- The columns that reading leaves out in front of a line at the left edge: the carriage return
of a line that has only one more character, of one byte. -/
def lostReturn : List Char → Nat
  | ['\r', last] => if last.utf8Size = 1 then 1 else 0
  | _ => 0

theorem lostReturn_le (line : List Char) : lostReturn line ≤ 1 := by
  unfold lostReturn
  split
  · split <;> decide
  · decide

theorem lostReturn_of_not_returned {line : List Char} (notReturned : ¬ IsReturned line) :
    lostReturn line = 0 := by
  unfold lostReturn
  split
  · next last =>
      rw [if_neg]
      intro oneByte
      exact notReturned ⟨[], last, rfl, oneByte⟩
  · rfl

private theorem lostReturn_of_body {body : List Char} (some_body : body ≠ []) (last : Char) :
    lostReturn (body ++ ['\r', last]) = 0 := by
  unfold lostReturn
  split
  · next isPair =>
      have size := congrArg List.length isPair
      rw [List.length_append] at size
      exact absurd (List.length_eq_zero_iff.mp (Nat.add_right_cancel size)) some_body
  · rfl

/-- A piece of a line is taken in as a whole. -/
theorem scan_copiedAt (source : String) (scan : IndentScan) (offset : Nat) {front : List Char}
    (free : '\n' ∉ front) (c : Char) :
    (copiedAt offset (front ++ [c])).foldl (IndentScan.chunk source) scan
      = scan.segment source offset (front ++ [c]) := by
  have some_char : front ++ [c] ≠ [] := List.append_ne_nil_of_right_ne_nil _ (List.cons_ne_nil _ _)
  rw [copiedAt, if_neg some_char, List.foldl_cons, List.foldl_nil, IndentScan.chunk]
  dsimp only
  rw [cutLines_line free]
  rfl

/-- **What one line at the left edge is recorded with.** -/
theorem scan_line {source : String} {cursor : Cursor} (starts : StartsLine source cursor)
    (some_char : cursor.rest ≠ []) (indents : List Nat) :
    (lineChunks 0 cursor).foldl (IndentScan.chunk source) ⟨indents, true⟩
      = ⟨indents ++ [lostReturn (cursor.rest.take (lineLength cursor.rest))],
          (cursor.rest.take (lineLength cursor.rest)).getLast? == some '\n'⟩ := by
  rcases lineChunks_cases 0 cursor with ⟨body, last, isReturned, oneByte, isChunks⟩ | ⟨whole, isChunks⟩
  · have free := free_of_returned isReturned
    have isRest := List.take_append_drop (lineLength cursor.rest) cursor.rest
    rw [isReturned] at isRest ⊢
    rw [isChunks, List.getLast?_append_of_ne_nil _ (List.cons_ne_nil _ _)]
    rcases List.eq_nil_or_concat' body with rfl | ⟨start, c, rfl⟩
    · -- Nothing is ahead of the carriage return: the line starts behind it.
      show (copiedAt (cursor.offset + 1) ([] ++ [last])).foldl _ _ = _
      have isLost : lostReturn ([] ++ ['\r', last]) = 1 := if_pos oneByte
      rw [scan_copiedAt source _ _ List.not_mem_nil, IndentScan.segment,
        starts.column_return isRest.symm, isLost]
      rfl
    · rw [List.mem_append, List.mem_singleton, not_or] at free
      rw [lostReturn_of_body (List.append_ne_nil_of_right_ne_nil _ (List.cons_ne_nil _ _))]
      show (copiedAt cursor.offset (start ++ [c])
        ++ copiedAt (cursor.offset + byteSize (start ++ [c] ++ ['\r'])) ([] ++ [last])).foldl _ _ = _
      rw [List.foldl_append, scan_copiedAt source _ _ free.1,
        scan_copiedAt source _ _ List.not_mem_nil, IndentScan.segment, IndentScan.segment,
        starts.column, List.getLast?_concat]
      simp [Ne.symm free.2]
  · obtain ⟨front, c, isLine, free⟩ := take_lineLength some_char
    rw [isChunks, lostReturn_of_not_returned whole, isLine]
    show (copiedAt cursor.offset (front ++ [c])).foldl (IndentScan.chunk source) ⟨indents, true⟩ = _
    rw [scan_copiedAt source _ _ free, IndentScan.segment, starts.column]
    rfl

/-! ## A whole fence -/

theorem space_zero (text : List Char) : Lead.space { rest := text } 0 = ({ rest := text }, true) := by
  simp [Lead.space, Lead.takeSpace, Lead.takeColumns]

/-- **The indents of content at the left edge,** line by line. -/
theorem fenceLines_flush {source : String} (mark : FenceMark) :
    ∀ (fuel : Nat) {cursor : Cursor} (scan : IndentScan),
      (cursor.rest ≠ [] → StartsLine source cursor ∧ scan.atLineStart = true) →
      ∃ lines, lines <+: cutLines cursor.rest
        ∧ ((fenceLines [] mark 0 fuel cursor).1.foldl (IndentScan.chunk source) scan).indents
            = scan.indents ++ lines.map lostReturn
        ∧ (cutLines (contentText (fenceLines [] mark 0 fuel cursor).1)).length ≤ lines.length
  | 0, cursor, scan, _ => ⟨[], List.nil_prefix, (List.append_nil _).symm, Nat.le_refl 0⟩
  | fuel + 1, cursor, scan, ready => by
      rw [fenceLines]
      simp only [Spine.continue?, Spine.continued, List.length_nil, if_true, space_zero]
      split
      · exact ⟨[], List.nil_prefix, (List.append_nil _).symm, Nat.le_refl 0⟩
      · next goesOn =>
          have some_char : cursor.rest ≠ [] := by
            -- At the end of the text every fence closes.
            intro nothing
            rw [nothing, Halts.nil.space] at goesOn
            cases goesOn
          obtain ⟨starts, atStart⟩ := ready some_char
          obtain ⟨indents, atLineStart⟩ := scan
          subst atStart
          rw [advance_zero]
          have readyNext : cursor.nextLine.rest ≠ [] → StartsLine source cursor.nextLine
              ∧ ((cursor.rest.take (lineLength cursor.rest)).getLast? == some '\n') = true := by
            intro more
            obtain ⟨body, isLine, -⟩ := take_lineLength_ends more
            exact ⟨starts.nextLine more, by rw [isLine, List.getLast?_concat]; rfl⟩
          obtain ⟨lines, isPrefix, isIndents, enough⟩ := fenceLines_flush mark fuel
            ⟨indents ++ [lostReturn (cursor.rest.take (lineLength cursor.rest))], _⟩ readyNext
          generalize fenceLines [] mark 0 fuel cursor.nextLine = outcome at isIndents enough ⊢
          obtain ⟨chunks, stop, after⟩ := outcome
          have oneLine := length_lineChunks_le 0 cursor
          have content := length_cutLines_append_le (contentText (lineChunks 0 cursor))
            (contentText chunks)
          refine ⟨cursor.rest.take (lineLength cursor.rest) :: lines, ?_, ?_, ?_⟩
          · rw [cutLines_step some_char, List.cons_prefix_cons]
            exact ⟨rfl, isPrefix⟩
          · dsimp only at isIndents ⊢
            rw [List.foldl_append, scan_line starts some_char, isIndents, List.append_assoc]
            rfl
          · dsimp only at enough ⊢
            rw [contentText_append, List.length_cons]
            omega

/-- A block that was kept, with the reading that kept it. -/
theorem exists_reading {source : String} {block : Block} :
    ∀ (fuel : Nat) {state : State} {cursor : Cursor}, state.Sound → At source cursor →
      block ∈ readBlocks fuel state cursor →
      ∃ ahead place, State.Sound ahead ∧ At source place
        ∧ (readBlock ahead place).block = some block
  | fuel + 1, state, cursor, sound, placed, member => by
      rw [readBlocks] at member
      split at member
      · cases member
      · rcases List.mem_append.mp member with here | later
        · exact ⟨state, cursor, sound, placed, Option.mem_toList.mp here⟩
        · exact exists_reading fuel (readBlock_sound sound cursor)
            (placed.reached (readBlock_moves state cursor).1) later

/-- **The indents of a fence in the first column** are those of the source lines behind its own:
no line of its code is missing, and only carriage returns count. -/
theorem indents_flush {source : String} {fence : FenceItem} (isItem : .fence fence ∈ items source)
    (first : (positionAt source fence.span.start).column = 1) :
    ∃ lines, lines <+: (cutLines source.toList).drop (lineAt source fence.span.start)
      ∧ fence.indents = lines.map lostReturn ∧ Text.lineCount fence.code ≤ lines.length := by
  obtain ⟨block, member, ofBlock⟩ := List.mem_filterMap.mp isItem
  obtain ⟨info, content, span, rfl, rfl⟩ :=
    ofBlock?_bind_fence? (show (Item.ofBlock? source block).bind Item.fence? = some fence by
      rw [ofBlock]; rfl)
  obtain ⟨state, cursor, sound, placed, kept⟩ :=
    exists_reading _ State.sound_start (at_start source) member
  obtain ⟨mark, -, isBlock, -⟩ := fence_flush placed kept first sound rfl
  obtain ⟨-, rfl, rfl⟩ := Block.fence.inj isBlock
  have starts := startsLine_of_column placed first
  obtain ⟨lines, isPrefix, isIndents, enough⟩ := fenceLines_flush mark (cursor.rest.length + 1) {}
    (fun more => ⟨starts.nextLine more, rfl⟩)
  refine ⟨lines, ?_, isIndents, Nat.le_trans (lineCount_dropFinalBreak_le _) enough⟩
  by_cases nothing : cursor.nextLine.rest = []
  · rw [nothing] at isPrefix
    rw [List.prefix_nil.mp isPrefix]
    exact List.nil_prefix
  · have placedNext := placed.reached (reaches_nextLine cursor)
    have ownLine := lineAt_add_count placed
    have nextLine := lineAt_add_count placedNext
    have feeds := count_nextLine nothing
    have isNext : lineAt source cursor.nextLine.offset - 1 = lineAt source cursor.offset := by omega
    rw [← (starts.nextLine nothing).cutLines, isNext] at isPrefix
    exact isPrefix

end Tangle.Document
