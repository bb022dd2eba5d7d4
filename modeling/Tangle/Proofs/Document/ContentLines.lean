import Tangle.Proofs.Document.Accounting
import Tangle.Proofs.Document.Run
import Tangle.Proofs.Source.Positions

/-!
Contract: the lines that the content of a fence takes up in the source.

Owns: the number of lines in a text, that a fence has no more lines of code than it reads lines
of the source, and that the content lines of a later block lie behind those of an earlier one.

Does **not** own: what is ahead of the content on its lines (`Tangle.Proofs.Document.FlushIndents`).

## Lines that are left

A reader that is done with some lines has fewer of them ahead of it. `cutLines` counts what is
left, a last line without a line feed included, so a fence that runs into the end of the text is
no exception: its content and the rest behind it have no more lines than there were in front.
-/

set_option autoImplicit false

namespace Tangle.Document

open Tangle.Source
open Tangle.Markdown
open Tangle.Markdown.Cursor
open Tangle.Text (EndsLine byteSize)

/-! ## Lines of a text -/

theorem length_cutLines_concat (front : List Char) (c : Char) :
    (cutLines (front ++ [c])).length = front.count '\n' + 1 := by
  induction front with
  | nil =>
      rw [List.nil_append, cutLines]
      split <;> rfl
  | cons d front inductionHypothesis =>
      rw [List.cons_append, cutLines]
      split
      · next feed => rw [feed, List.length_cons, inductionHypothesis, List.count_cons_self]
      · next other =>
          rw [List.count_cons_of_ne other, ← inductionHypothesis]
          cases cut : cutLines (front ++ [c]) with
          | nil =>
              rw [cut] at inductionHypothesis
              cases inductionHypothesis
          | cons segment later => rfl

theorem flatten_cutLines (text : List Char) : (cutLines text).flatten = text := by
  induction text with
  | nil => rfl
  | cons c rest inductionHypothesis =>
      rw [cutLines]
      split
      · rw [List.flatten_cons, inductionHypothesis]
        rfl
      · cases cut : cutLines rest with
        | nil => simpa [cut] using inductionHypothesis
        | cons segment later => simpa [cut] using inductionHypothesis

/-- Ahead of a text that is not empty, lines are counted by their line feeds. -/
theorem length_cutLines_behind (ahead : List Char) {rest : List Char} (some_char : rest ≠ []) :
    (cutLines (ahead ++ rest)).length = ahead.count '\n' + (cutLines rest).length := by
  obtain ⟨front, c, rfl⟩ := (List.eq_nil_or_concat' rest).resolve_left some_char
  rw [← List.append_assoc, length_cutLines_concat, length_cutLines_concat, List.count_append,
    Nat.add_assoc]

private theorem count_le_length_cutLines (text : List Char) :
    text.count '\n' ≤ (cutLines text).length := by
  rcases List.eq_nil_or_concat' text with rfl | ⟨front, c, rfl⟩
  · exact Nat.le_refl 0
  · rw [length_cutLines_concat, List.count_append]
    exact Nat.add_le_add_left List.count_le_length _

theorem length_cutLines_le (text : List Char) :
    (cutLines text).length ≤ text.count '\n' + 1 := by
  rcases List.eq_nil_or_concat' text with rfl | ⟨front, c, rfl⟩
  · exact Nat.zero_le 1
  · rw [length_cutLines_concat, List.count_append]
    omega

theorem length_cutLines_append_le (first second : List Char) :
    (cutLines (first ++ second)).length ≤ (cutLines first).length + (cutLines second).length := by
  by_cases nothing : second = []
  · rw [nothing, List.append_nil]
    exact Nat.le_add_right _ _
  · rw [length_cutLines_behind first nothing]
    exact Nat.add_le_add_right (count_le_length_cutLines first) _

private theorem length_cutLines_drop_le (text : List Char) (count : Nat) :
    (cutLines (text.drop count)).length ≤ (cutLines text).length := by
  by_cases nothing : text.drop count = []
  · rw [nothing]
    exact Nat.zero_le _
  · have behind := length_cutLines_behind (text.take count) nothing
    rw [List.take_append_drop] at behind
    omega

/-- The first line of a text, and the others behind it. -/
theorem cutLines_step {text : List Char} (some_char : text ≠ []) :
    cutLines text
      = text.take (lineLength text) :: cutLines (text.drop (lineLength text)) := by
  induction text with
  | nil => exact absurd rfl some_char
  | cons c rest inductionHypothesis =>
      rw [cutLines, lineLength]
      split
      · rfl
      · rw [Nat.add_comm, List.take_succ_cons, List.drop_succ_cons]
        by_cases nothing : rest = []
        · rw [nothing]
          rfl
        · rw [inductionHypothesis nothing]

/-- Lines behind whole lines are cut as if nothing was ahead of them. -/
theorem cutLines_append {first : List Char} (ends : EndsLine first) (second : List Char) :
    cutLines (first ++ second) = cutLines first ++ cutLines second := by
  rcases ends with rfl | ⟨before, rfl⟩
  · rfl
  · rw [List.append_assoc, List.singleton_append]
    induction before with
    | nil => rfl
    | cons c before inductionHypothesis =>
        rw [List.cons_append, List.cons_append, cutLines, cutLines, inductionHypothesis]
        split
        · rfl
        · have lines := length_cutLines_concat before '\n'
          cases cut : cutLines (before ++ ['\n']) with
          | nil =>
              rw [cut] at lines
              cases lines
          | cons segment later => rfl

/-- A character that ends a text without line feeds ends its only line. -/
theorem cutLines_line {front : List Char} (free : '\n' ∉ front) (c : Char) :
    cutLines (front ++ [c]) = [front ++ [c]] := by
  induction front with
  | nil =>
      rw [List.nil_append, cutLines]
      split <;> rfl
  | cons d front inductionHypothesis =>
      rw [List.mem_cons, not_or] at free
      rw [List.cons_append, cutLines, if_neg (Ne.symm free.1), inductionHypothesis free.2]

theorem length_cutLines_ends {text : List Char} (ends : EndsLine text) :
    (cutLines text).length = text.count '\n' := by
  rcases ends with rfl | ⟨before, rfl⟩
  · rfl
  · rw [length_cutLines_concat, List.count_append]
    rfl

private theorem count_dropFinalReturn (text : List Char) :
    (Text.dropFinalReturn text).count '\n' = text.count '\n' := by
  rcases List.eq_nil_or_concat' text with rfl | ⟨front, c, rfl⟩
  · rfl
  · rw [Text.dropFinalReturn, List.getLast?_concat]
    split
    · next isReturn =>
        rw [List.dropLast_concat, Option.some.inj isReturn, List.count_append]
        rfl
    · rfl

private theorem dropFinalReturn_eq_nil_iff (text : List Char) :
    Text.dropFinalReturn text = [] ↔ text = [] ∨ text = ['\r'] := by
  rcases List.eq_nil_or_concat' text with rfl | ⟨front, c, rfl⟩
  · exact iff_of_true rfl (Or.inl rfl)
  · rw [Text.dropFinalReturn, List.getLast?_concat]
    split
    · next isReturn => rw [List.dropLast_concat, Option.some.inj isReturn]; simp
    · next other =>
        have notReturn : c ≠ '\r' := fun isReturn => other (congrArg some isReturn)
        simp [List.append_eq_singleton_iff, notReturn]

def IsBreak (content : List Char) : Prop :=
  content = ['\n'] ∨ content = ['\r', '\n']

instance : DecidablePred IsBreak := fun _ => inferInstanceAs (Decidable (_ ∨ _))

private theorem isBreak_feed_iff (front : List Char) :
    IsBreak (front ++ ['\n']) ↔ Text.dropFinalReturn front = [] := by
  have isPair : ['\r', '\n'] = ['\r'] ++ ['\n'] := rfl
  rw [dropFinalReturn_eq_nil_iff, IsBreak, isPair, List.append_left_inj]
  simp

theorem IsBreak.length_cutLines {content : List Char} (isBreak : IsBreak content) :
    (cutLines content).length = 1 := by
  rcases isBreak with rfl | rfl <;> rfl

private theorem lineCount_ofList {chars : List Char} (filled : chars ≠ []) :
    Text.lineCount (String.ofList chars) = chars.count '\n' + 1 := by
  rw [Text.lineCount_of_ne_nil (by rwa [String.toList_ofList]), Text.newlineCount,
    String.toList_ofList]

/-- **Code has the lines of the content that it was taken from,** unless that is only a line break:
then it has none. -/
theorem lineCount_dropFinalBreak (content : List Char) :
    Text.lineCount (String.ofList (dropFinalBreak content))
      = if IsBreak content then 0 else (cutLines content).length := by
  rcases List.eq_nil_or_concat' content with rfl | ⟨front, c, rfl⟩
  · rfl
  · rw [dropFinalBreak, List.getLast?_concat, length_cutLines_concat]
    by_cases feed : c = '\n'
    · rw [feed, if_pos rfl, List.dropLast_concat]
      by_cases nothing : Text.dropFinalReturn front = []
      · rw [nothing, if_pos ((isBreak_feed_iff front).mpr nothing)]
        rfl
      · rw [if_neg (mt (isBreak_feed_iff front).mp nothing), lineCount_ofList nothing,
          count_dropFinalReturn]
    · have noBreak : ¬ IsBreak (front ++ [c]) := by
        rintro (isFeed | isPair)
        · have ends : front ++ [c] = [] ++ ['\n'] := isFeed
          exact feed (List.singleton_inj.mp (List.append_inj' ends rfl).2)
        · have ends : front ++ [c] = ['\r'] ++ ['\n'] := isPair
          exact feed (List.singleton_inj.mp (List.append_inj' ends rfl).2)
      rw [if_neg fun isFeed => feed (Option.some.inj isFeed), if_neg noBreak,
        lineCount_ofList (List.append_ne_nil_of_right_ne_nil _ (List.cons_ne_nil _ _)),
        List.count_append, List.count_singleton, if_neg (by simpa using feed), Nat.add_zero]

/-- Code has no more lines than the content it was taken from. -/
theorem lineCount_dropFinalBreak_le (content : List Char) :
    Text.lineCount (String.ofList (dropFinalBreak content)) ≤ (cutLines content).length := by
  rw [lineCount_dropFinalBreak]
  split
  · exact Nat.zero_le _
  · exact Nat.le_refl _

/-- A line that is read holds at most one line feed, its last character. -/
theorem take_lineLength {text : List Char} (some_char : text ≠ []) :
    ∃ front c, text.take (lineLength text) = front ++ [c] ∧ '\n' ∉ front := by
  induction text with
  | nil => exact absurd rfl some_char
  | cons c rest inductionHypothesis =>
      rw [lineLength]
      split
      · exact ⟨[], c, rfl, List.not_mem_nil⟩
      · next other =>
          rw [Nat.add_comm, List.take_succ_cons]
          by_cases nothing : rest = []
          · rw [nothing]
            exact ⟨[], c, rfl, List.not_mem_nil⟩
          · obtain ⟨front, last, isLine, free⟩ := inductionHypothesis nothing
            refine ⟨c :: front, last, by rw [isLine, List.cons_append], ?_⟩
            rw [List.mem_cons, not_or]
            exact ⟨Ne.symm other, free⟩

/-! ## Pieces of a line -/

def contentText (content : List Chunk) : List Char :=
  content.flatMap Chunk.text

theorem contentText_append (first second : List Chunk) :
    contentText (first ++ second) = contentText first ++ contentText second :=
  List.flatMap_append

/-- The piece of a fence's content that was copied from `offset` on. -/
def copiedAt (offset : Nat) (text : List Char) : List Chunk :=
  if text = [] then [] else [⟨text, ⟨offset, offset + byteSize text⟩⟩]

/-- The columns of a tab that was cut. -/
def paddedAt (offset pending : Nat) : List Chunk :=
  if pending = 0 then [] else [⟨List.replicate pending ' ', ⟨offset, offset⟩⟩]

private theorem contentText_copiedAt (offset : Nat) (text : List Char) :
    contentText (copiedAt offset text) = text := by
  rw [copiedAt]
  split
  · next nothing => exact nothing.symm
  · exact List.flatMap_singleton _ _

private theorem contentText_paddedAt (offset pending : Nat) :
    contentText (paddedAt offset pending) = List.replicate pending ' ' := by
  rw [paddedAt]
  split
  · next nothing => rw [nothing]; rfl
  · exact List.flatMap_singleton _ _

/-- What lies `skip` characters on. -/
theorem copiedAt_advance {cursor : Cursor} {ahead text later : List Char} {offset skip length : Nat}
    (isRest : cursor.rest = ahead ++ (text ++ later)) (isSkip : skip = ahead.length)
    (isLength : length = text.length) (isOffset : offset = cursor.offset + byteSize ahead) :
    (if length = 0 then []
      else [⟨(cursor.advance skip).rest.take length,
        ⟨(cursor.advance skip).offset, ((cursor.advance skip).advance length).offset⟩⟩])
      = copiedAt offset text := by
  subst isSkip isLength isOffset
  have isBehind : (cursor.advance ahead.length).rest = text ++ later := by
    rw [advance_rest, isRest, List.drop_left]
  rw [offset_advance_length isBehind, offset_advance_length isRest, isBehind, List.take_left, copiedAt]
  simp only [List.length_eq_zero_iff]

/-- Whether a carriage return stands ahead of the last character of a line, which takes one
byte: reading leaves it out. -/
def IsReturned (line : List Char) : Prop :=
  ∃ body last, line = body ++ ['\r', last] ∧ last.utf8Size = 1

/-- What is ahead of the carriage return of a line has no line feed. -/
theorem free_of_returned {text body : List Char} {last : Char}
    (isReturned : text.take (lineLength text) = body ++ ['\r', last]) : '\n' ∉ body := by
  have some_char : text ≠ [] := by
    rintro rfl
    exact absurd isReturned.symm (List.append_ne_nil_of_right_ne_nil _ (List.cons_ne_nil _ _))
  obtain ⟨front, c, isLine, free⟩ := take_lineLength some_char
  rw [isReturned, List.append_cons] at isLine
  intro member
  exact free ((List.append_inj' isLine rfl).1 ▸ List.mem_append_left _ member)

/-- **The pieces of one line:** the line, or what is around a carriage return. -/
theorem lineChunks_cases (pending : Nat) (cursor : Cursor) :
    (∃ body last, cursor.rest.take (lineLength cursor.rest) = body ++ ['\r', last]
        ∧ last.utf8Size = 1
        ∧ lineChunks pending cursor = paddedAt cursor.offset pending
            ++ (copiedAt cursor.offset body
              ++ copiedAt (cursor.offset + byteSize (body ++ ['\r'])) [last]))
    ∨ ¬ IsReturned (cursor.rest.take (lineLength cursor.rest))
        ∧ lineChunks pending cursor = paddedAt cursor.offset pending
            ++ copiedAt cursor.offset (cursor.rest.take (lineLength cursor.rest)) := by
  have isRest := (List.take_append_drop (lineLength cursor.rest) cursor.rest).symm
  simp only [lineChunks]
  generalize cursor.rest.take (lineLength cursor.rest) = line at isRest ⊢
  generalize cursor.rest.drop (lineLength cursor.rest) = later at isRest
  by_cases isReturned : IsReturned line
  · obtain ⟨body, last, rfl, oneByte⟩ := isReturned
    refine Or.inl ⟨body, last, rfl, oneByte, congrArg _ ((if_pos ?_).trans (congrArg₂ _ ?_ ?_))⟩
    · rw [List.reverse_append]
      exact beq_iff_eq.mpr oneByte
    · refine @copiedAt_advance cursor [] body (['\r', last] ++ later) _ _ _ ?_ rfl ?_ rfl
      · rw [isRest, List.append_assoc, List.nil_append]
      · rw [List.length_append]
        rfl
    · refine @copiedAt_advance cursor (body ++ ['\r']) [last] later _ _ _ ?_ ?_ rfl rfl
      · rw [isRest, List.append_assoc, List.append_assoc]
        rfl
      · rw [List.length_append, List.length_append]
        rfl
  · refine Or.inr ⟨isReturned, congrArg _ ((if_neg ?_).trans ?_)⟩
    · split
      · next last body isReverse =>
          have isLine : line = body.reverse ++ ['\r', last] := by
            rw [← List.reverse_reverse line, isReverse, List.reverse_cons, List.reverse_cons,
              List.append_assoc]
            rfl
          intro oneByte
          exact isReturned ⟨body.reverse, last, isLine, beq_iff_eq.mp oneByte⟩
      · exact Bool.false_ne_true
    · exact @copiedAt_advance cursor [] line later _ _ _ isRest rfl rfl rfl

/-! ## Lines of a fence -/

/-- The pieces of a line make up one line. -/
theorem length_lineChunks_le (pending : Nat) (cursor : Cursor) :
    (cutLines (contentText (lineChunks pending cursor))).length ≤ 1 := by
  have padding : '\n' ∉ List.replicate pending ' ' := by
    intro member
    exact absurd (List.eq_of_mem_replicate member) (by decide)
  rcases lineChunks_cases pending cursor with ⟨body, last, isReturned, -, isChunks⟩ | ⟨-, isChunks⟩
  · rw [isChunks, contentText_append, contentText_append, contentText_paddedAt,
      contentText_copiedAt, contentText_copiedAt, ← List.append_assoc,
      cutLines_line (List.not_mem_append padding (free_of_returned isReturned))]
    exact Nat.le_refl 1
  · rw [isChunks, contentText_append, contentText_paddedAt, contentText_copiedAt]
    by_cases nothing : cursor.rest = []
    · have lines := length_cutLines_le (List.replicate pending ' ')
      rw [List.count_eq_zero_of_not_mem padding] at lines
      rwa [nothing, List.take_nil, List.append_nil]
    · obtain ⟨front, c, isLine, free⟩ := take_lineLength nothing
      rw [isLine, ← List.append_assoc, cutLines_line (List.not_mem_append padding free)]
      exact Nat.le_refl 1

/-- One line of content is one of the lines that are left. -/
theorem lineChunks_lines {spine : Spine} {cursor : Cursor} {lead : Lead}
    (continues : spine.continue? cursor.rest = some lead) (indent : Nat) :
    (cutLines (contentText (lineChunks (lead.space indent).1.pending
          (cursor.advance (lead.space indent).1.taken)))).length
        + (cutLines (cursor.advance (lead.space indent).1.taken).nextLine.rest).length
      ≤ (cutLines cursor.rest).length := by
  by_cases nothing : cursor.rest = []
  · rw [nothing] at continues
    obtain rfl := Halts.nil.spine_continue? continues
    rw [Halts.nil.space, advance_zero, nextLine, advance_rest]
    simp [lineChunks, contentText, nothing, cutLines]
  · have oneLine := length_lineChunks_le (lead.space indent).1.pending
      (cursor.advance (lead.space indent).1.taken)
    have fewer := length_cutLines_drop_le cursor.rest (lead.space indent).1.taken
    rw [← advance_rest] at fewer
    generalize cursor.advance (lead.space indent).1.taken = start at oneLine fewer ⊢
    by_cases ended : start.rest = []
    · have someLine := cutLines_step nothing
      rw [nextLine, advance_rest, ended, List.drop_nil, someLine, List.length_cons]
      exact Nat.le_trans oneLine (Nat.le_add_left 1 _)
    · rw [cutLines_step ended, List.length_cons] at fewer
      exact Nat.le_trans (Nat.add_le_add_right oneLine _) (Nat.add_comm 1 _ ▸ fewer)

/-- **A fence reads as many lines as it has,** and those behind it are left. -/
theorem fenceLines_lines (spine : Spine) (fence : FenceMark) (indent : Nat) :
    ∀ (fuel : Nat) (cursor : Cursor),
      (cutLines (contentText (fenceLines spine fence indent fuel cursor).1)).length
          + (cutLines (fenceLines spine fence indent fuel cursor).2.2.rest).length
        ≤ (cutLines cursor.rest).length
  | 0, cursor => Nat.le_of_eq (Nat.zero_add _)
  | fuel + 1, cursor => by
      rw [fenceLines]
      split
      · exact Nat.le_of_eq (Nat.zero_add _)
      · next lead continues =>
          dsimp only
          split
          · next length closes =>
              rw [skipBlankLine, advance_advance, advance_rest, contentText, List.flatMap_nil,
                cutLines, List.length_nil, Nat.zero_add]
              exact length_cutLines_drop_le _ _
          · -- The line just read is one of those left, and the others come behind it.
            have line := lineChunks_lines continues indent
            have later := fenceLines_lines spine fence indent fuel
              (cursor.advance (lead.space indent).1.taken).nextLine
            generalize fenceLines spine fence indent fuel
              (cursor.advance (lead.space indent).1.taken).nextLine = outcome at later ⊢
            obtain ⟨chunks, stop, after⟩ := outcome
            have content := length_cutLines_append_le
              (contentText (lineChunks (lead.space indent).1.pending
                (cursor.advance (lead.space indent).1.taken))) (contentText chunks)
            dsimp only at later ⊢
            rw [contentText_append]
            omega

/-! ## Line numbers -/

section Numbers

variable {source : String} {cursor later : Cursor}

/-- The line that a reader is on, and the line feeds ahead of it. -/
theorem lineAt_add_count (placed : At source cursor) :
    lineAt source cursor.offset + cursor.rest.count '\n' = Text.newlineCount source + 1 := by
  obtain ⟨ahead, isSource, isOffset⟩ := placed
  rw [lineAt, positionAt, isOffset, Text.newlineCount, isSource, Text.takeBytes_byteSize,
    Position.line_after, List.count_append]
  omega

private theorem count_rest_le (reached : Reaches cursor later) :
    later.rest.count '\n' ≤ cursor.rest.count '\n' := by
  obtain ⟨count, rfl⟩ := reached
  exact (List.drop_sublist count cursor.rest).count_le _

/-- Between two places of a text, lines are counted by line feeds. -/
theorem length_cutLines_reached (reached : Reaches cursor later) (some_char : later.rest ≠ []) :
    (cutLines cursor.rest).length + later.rest.count '\n'
      = (cutLines later.rest).length + cursor.rest.count '\n' := by
  obtain ⟨count, rfl⟩ := reached
  rw [advance_rest] at some_char ⊢
  have behind := length_cutLines_behind (cursor.rest.take count) some_char
  have feeds : (cursor.rest.take count ++ cursor.rest.drop count).count '\n'
      = (cursor.rest.take count).count '\n' + (cursor.rest.drop count).count '\n' :=
    List.count_append
  rw [List.take_append_drop] at behind feeds
  omega

/-- The next line has one line feed less ahead of it. -/
theorem count_nextLine (more : cursor.nextLine.rest ≠ []) :
    cursor.rest.count '\n' = cursor.nextLine.rest.count '\n' + 1 := by
  rw [nextLine, advance_rest] at more ⊢
  obtain ⟨body, isLine, free⟩ := take_lineLength_ends more
  have feeds : (cursor.rest.take (lineLength cursor.rest)
        ++ cursor.rest.drop (lineLength cursor.rest)).count '\n'
      = (cursor.rest.take (lineLength cursor.rest)).count '\n'
        + (cursor.rest.drop (lineLength cursor.rest)).count '\n' := List.count_append
  rw [List.take_append_drop, isLine, List.count_append, List.count_eq_zero_of_not_mem free] at feeds
  rw [feeds]
  exact Nat.add_comm 1 _

end Numbers

/-! ## Blocks one behind the other -/

/-- A fence that was read, with the reader behind it. -/
theorem readBlock_fence {state : State} {cursor : Cursor} {block : Block}
    (isFence : block.isFence = true) (kept : (readBlock state cursor).block = some block) :
    ∃ ahead spine mark indent, block = (fencedCode spine mark indent (cursor.advance ahead)).1
      ∧ (readBlock state cursor).cursor
          = (fencedCode spine mark indent (cursor.advance ahead)).2 := by
  rw [readBlock_eq, readBlockWith] at kept ⊢
  dsimp only at kept ⊢
  revert kept
  split
  · intro kept
    cases kept
  · split
    · intro kept
      cases kept
    · intro kept
      obtain ⟨-, mark, -, isReading⟩ := readContent_fence_kept isFence kept
      rw [isReading] at kept ⊢
      exact ⟨_, _, mark, _, (Option.some.inj kept).symm, rfl⟩

def blockText : Block → List Char
  | .html _ => []
  | .fence _ content _ => contentText content

/-- Nothing that follows a fence is on the lines of its content. -/
theorem fencedCode_before {source : String} {content later : Cursor} (placed : At source content)
    (spine : Spine) (mark : FenceMark) (indent : Nat)
    (reached : Reaches (fencedCode spine mark indent content).2 later)
    (some_char : later.rest ≠ []) :
    lineAt source content.offset
        + (cutLines (blockText (fencedCode spine mark indent content).1)).length
      < lineAt source later.offset := by
  have lines : (cutLines (blockText (fencedCode spine mark indent content).1)).length
        + (cutLines (fencedCode spine mark indent content).2.rest).length
      ≤ (cutLines content.nextLine.rest).length :=
    fenceLines_lines spine mark indent (content.rest.length + 1) content.nextLine
  have behind := (fencedCode_span spine mark indent content).2
  generalize fencedCode spine mark indent content = outcome at lines behind reached ⊢
  have fromContent := (reaches_nextLine content).trans (behind.trans reached)
  have more : content.nextLine.rest ≠ [] := by
    obtain ⟨count, isLater⟩ := behind.trans reached
    intro nothing
    rw [isLater, advance_rest, nothing, List.drop_nil] at some_char
    exact some_char rfl
  have first := lineAt_add_count placed
  have second := lineAt_add_count (placed.reached fromContent)
  have opening := count_nextLine more
  have left := count_rest_le reached
  have fromNext := length_cutLines_reached (behind.trans reached) some_char
  have fromAfter := length_cutLines_reached reached some_char
  omega

/-- **Blocks behind a fence** start behind the lines of its content. -/
theorem readBlocks_order {source : String} :
    ∀ (fuel : Nat) (state : State) {cursor : Cursor}, At source cursor →
      (readBlocks fuel state cursor).Pairwise fun earlier later => earlier.isFence = true →
        lineAt source earlier.span.start + (cutLines (blockText earlier)).length
          < lineAt source later.span.start
  | 0, _, _, _ => List.Pairwise.nil
  | fuel + 1, state, cursor, placed => by
      rw [readBlocks]
      split
      · exact List.Pairwise.nil
      · have placedAfter := placed.reached (readBlock_moves state cursor).1
        refine List.pairwise_append.mpr ⟨?_, readBlocks_order fuel _ placedAfter, ?_⟩
        · cases (readBlock state cursor).block with
          | none => exact List.Pairwise.nil
          | some block => exact List.pairwise_singleton _ _
        · intro earlier here later member isFence
          obtain ⟨ahead, spine, mark, indent, rfl, isAfter⟩ :=
            readBlock_fence isFence (Option.mem_toList.mp here)
          obtain ⟨count, -, keptAt⟩ := readBlocks_places fuel member
          obtain ⟨c, rest, isRest, -⟩ := keptAt.head
          rw [keptAt.start]
          refine fencedCode_before (placed.advance ahead) spine mark indent ?_ ?_
          · rw [← isAfter]
            exact reaches_advance _ count
          · rw [isRest]
            exact List.cons_ne_nil c rest

/-! ## Content lines of a document -/

theorem ofBlock?_bind_fence? {source : String} {block : Block} {fence : FenceItem}
    (isFence : (Item.ofBlock? source block).bind Item.fence? = some fence) :
    ∃ info content span, block = .fence info content span
      ∧ fence = fenceItem source info content span := by
  cases block with
  | html span =>
      obtain ⟨item, isItem, isFence⟩ := Option.bind_eq_some_iff.mp isFence
      rw [Item.ofBlock?, Option.map_eq_some_iff] at isItem
      obtain ⟨directive, -, rfl⟩ := isItem
      cases isFence
  | fence info content span => exact ⟨info, content, span, rfl, (Option.some.inj isFence).symm⟩

/-- **Fences come one behind the other,** with their content. -/
theorem fences_order (source : String) :
    (fences (items source)).Pairwise fun earlier later =>
      lineAt source earlier.span.start + Text.lineCount earlier.code
        < lineAt source later.span.start := by
  rw [fences, items, List.filterMap_filterMap, List.pairwise_filterMap]
  refine (readBlocks_order _ {} (at_start source)).imp ?_
  intro earlier later order first isFirst second isSecond
  obtain ⟨info, content, span, rfl, rfl⟩ := ofBlock?_bind_fence? isFirst
  obtain ⟨_, _, laterSpan, rfl, rfl⟩ := ofBlock?_bind_fence? isSecond
  exact Nat.lt_of_le_of_lt
    (Nat.add_le_add_left (lineCount_dropFinalBreak_le (contentText content)) _) (order rfl)

theorem codeRange_start (firstLine : Nat) (code : String) :
    (codeRange firstLine code).start.line = firstLine := by
  rw [codeRange]
  dsimp only
  split <;> rfl

/-- **Content lines come in order.** Those of a later block of a parsed text lie behind those of
an earlier one, and so does the line of its fence. -/
theorem parse_content_increasing (source path : String) :
    (parse source path).document.codeBlocks.Pairwise fun earlier later =>
      earlier.codeRange.start.line + earlier.codeLineCount < later.codeRange.start.line := by
  let lines (fence : FenceItem) : Nat × Nat :=
    (lineAt source fence.span.start + 1, Text.lineCount fence.code)
  have isLines := nodesOf_map_fences
    (fun block => (block.codeRange.start.line, block.codeLineCount)) lines
    (fun fence directive => congrArg (·, _) (codeRange_start _ fence.code)) (items source)
  have order : ((fences (items source)).map lines).Pairwise fun earlier later =>
      earlier.1 + earlier.2 < later.1 := by
    refine List.pairwise_map.mpr ((fences_order source).imp ?_)
    intro earlier later before
    show lineAt source earlier.span.start + 1 + Text.lineCount earlier.code
      < lineAt source later.span.start + 1
    omega
  rw [← isLines, List.pairwise_map] at order
  rw [parse, build_codeBlocks]
  exact order

end Tangle.Document
