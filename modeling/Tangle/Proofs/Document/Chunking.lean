import Tangle.Proofs.Document.IndentLines

/-!
Contract: the indents of a content do not depend on how it was cut into chunks.

Owns: the place of each copied character, the scan of a content character by character, and
`indents_of_any_chunks`.

Does **not** own: the number of indents of any other content (`Tangle.Proofs.Document.IndentLines`),
or which chunks a reader cuts (`Tangle.Proofs.Document.FlushIndents`).

## One character at a time

A scan takes in segments, and a segment ends where a line or a chunk does. Inside a segment nothing
happens: its first character has the indent, if it starts a line, and its last one says whether the
next starts one. So a segment may as well be taken in as characters, one after another, and then
nothing is left of the cuts. A character carries its place in the source with it.
-/

set_option autoImplicit false

namespace Tangle.Document

open Tangle.Source
open Tangle.Markdown
open Tangle.Text (EndsLine byteSize)

/-! ## Places of characters -/

/-- Characters that stand in a source from byte `offset` on, each with its own offset. -/
def placesFrom : Nat → List Char → List (Nat × Char)
  | _, [] => []
  | offset, c :: rest => (offset, c) :: placesFrom (offset + c.utf8Size) rest

/-- The characters of a content, each with the offset that its chunk gives it. -/
def places (content : List Chunk) : List (Nat × Char) :=
  content.flatMap fun chunk => placesFrom chunk.span.start chunk.text

/-- The span of the chunk can be cut out of the source, and its text is what is cut out. -/
def Copied (source : String) (chunk : Chunk) : Prop :=
  chunk.span.cut? source = some (String.ofList chunk.text)

instance (source : String) : DecidablePred (Copied source) := fun _ =>
  inferInstanceAs (Decidable (_ = _))

private theorem placesFrom_append (offset : Nat) (first second : List Char) :
    placesFrom offset (first ++ second)
      = placesFrom offset first ++ placesFrom (offset + byteSize first) second := by
  induction first generalizing offset with
  | nil => rfl
  | cons c rest inductionHypothesis =>
      rw [List.cons_append, placesFrom, placesFrom, inductionHypothesis, byteSize, Nat.add_assoc,
        List.cons_append]

private theorem map_snd_placesFrom (offset : Nat) (chars : List Char) :
    (placesFrom offset chars).map Prod.snd = chars := by
  induction chars generalizing offset with
  | nil => rfl
  | cons c rest inductionHypothesis => rw [placesFrom, List.map_cons, inductionHypothesis]

/-- No character of a content is without a place. -/
theorem map_snd_places (content : List Chunk) :
    (places content).map Prod.snd = contentText content := by
  rw [places, List.map_flatMap, contentText]
  simp only [map_snd_placesFrom]

private theorem split_of_mem_placesFrom {offset start : Nat} {c : Char} {chars : List Char}
    (isPlace : (offset, c) ∈ placesFrom start chars) :
    ∃ front back, chars = front ++ c :: back ∧ offset = start + byteSize front := by
  induction chars generalizing start with
  | nil => cases isPlace
  | cons first rest inductionHypothesis =>
      rw [placesFrom, List.mem_cons] at isPlace
      rcases isPlace with here | later
      · obtain ⟨rfl, rfl⟩ := Prod.mk.inj here
        exact ⟨[], rest, rfl, rfl⟩
      · obtain ⟨front, back, rfl, rfl⟩ := inductionHypothesis later
        exact ⟨first :: front, back, rfl, by rw [byteSize, Nat.add_assoc]⟩

section Copied

variable {source : String} {chunk : Chunk} {content : List Chunk}

theorem Copied.chars (copied : Copied source chunk) : chunk.span.chars source = chunk.text := by
  rw [Copied, Span.cut?] at copied
  split at copied
  · exact String.ofList_inj.mp (Option.some.inj copied)
  · cases copied

theorem Copied.placed (copied : Copied source chunk) :
    ∃ ahead behind, source.toList = ahead ++ (chunk.text ++ behind)
      ∧ chunk.span.start = byteSize ahead := by
  have isText := copied.chars
  rw [Copied, Span.cut?] at copied
  split at copied
  · next proper =>
      obtain ⟨ordered, isStart, isStop⟩ := proper
      obtain ⟨ahead, passage, behind, isSource, start, stop⟩ := isStart.between isStop ordered
      have placed : At source ⟨byteSize ahead, passage ++ behind⟩ := ⟨ahead, isSource, rfl⟩
      have isPassage : chunk.span.chars source = passage := by
        rw [← placed.chars passage behind rfl, ← start, ← stop]
      rw [← isText, isPassage]
      exact ⟨ahead, behind, isSource, start⟩
  · cases copied

/-- **A character stands in the source at its place.** -/
theorem split_of_mem_places (copied : ∀ chunk ∈ content, Copied source chunk) {offset : Nat}
    {c : Char}
    (isPlace : (offset, c) ∈ places content) :
    ∃ ahead behind, source.toList = ahead ++ c :: behind ∧ offset = byteSize ahead := by
  obtain ⟨chunk, isIn, inChunk⟩ := List.mem_flatMap.mp isPlace
  obtain ⟨ahead, behind, isSource, isStart⟩ := (copied chunk isIn).placed
  obtain ⟨front, back, isText, rfl⟩ := split_of_mem_placesFrom inChunk
  refine ⟨ahead ++ front, back ++ behind, ?_, ?_⟩
  · rw [isSource, isText]
    simp
  · rw [isStart, Cursor.byteSize_append]

end Copied

/-! ## Character by character -/

def IndentScan.char (source : String) (scan : IndentScan) (place : Nat × Char) : IndentScan :=
  scan.segment source place.1 [place.2]

section Scan

variable (source : String)

/-- A segment is taken in as its characters are. -/
theorem segment_eq_chars {front : List Char} (free : '\n' ∉ front) (c : Char) (scan : IndentScan)
    (offset : Nat) :
    scan.segment source offset (front ++ [c])
      = (placesFrom offset (front ++ [c])).foldl (IndentScan.char source) scan := by
  induction front generalizing scan offset with
  | nil => rfl
  | cons first rest inductionHypothesis =>
      rw [List.mem_cons, not_or] at free
      have inside : (scan.segment source offset [first]).atLineStart = false := by
        simpa [IndentScan.segment] using Ne.symm free.1
      rw [List.cons_append, placesFrom, List.foldl_cons, ← inductionHypothesis free.2]
      show _ = (scan.segment source offset [first]).segment source _ _
      rw [IndentScan.segment, IndentScan.segment, inside]
      simp [IndentScan.segment, List.getLast?_cons]

/-- Text that was copied is taken in as its characters are; the induction follows its lines. -/
theorem segments_eq_chars (text : List Char) (scan : IndentScan) (offset : Nat) :
    IndentScan.segments source true offset (cutLines text) scan
      = (placesFrom offset text).foldl (IndentScan.char source) scan := by
  induction isSize : text.length using Nat.strong_induction_on generalizing text scan offset with
  | _ size inductionHypothesis =>
      by_cases nothing : text = []
      · rw [nothing]
        rfl
      · obtain ⟨front, c, isLine, free⟩ := take_lineLength nothing
        have isText : front ++ [c] ++ text.drop (lineLength text) = text := by
          rw [← isLine, List.take_append_drop]
        have shorter : (text.drop (lineLength text)).length < size := by
          have lengths := congrArg List.length isText
          rw [List.length_append, List.length_append, List.length_singleton, isSize] at lengths
          omega
        have rest := inductionHypothesis _ shorter (text.drop (lineLength text))
          (scan.segment source offset (front ++ [c])) (offset + byteSize (front ++ [c])) rfl
        rw [segment_eq_chars source free, ← List.foldl_append, ← placesFrom_append, isText,
          ← segment_eq_chars source free] at rest
        rw [cutLines_step nothing, isLine]
        exact rest

variable {source}

theorem Copied.scan {chunk : Chunk} (copied : Copied source chunk) (scan : IndentScan) :
    scan.chunk source chunk
      = (placesFrom chunk.span.start chunk.text).foldl (IndentScan.char source) scan := by
  rw [IndentScan.chunk, copied.chars]
  simp only [beq_self_eq_true]
  exact segments_eq_chars source chunk.text scan chunk.span.start

/-- **The scan sees characters and places only,** not the chunks that they came in. -/
theorem scan_eq_chars {content : List Chunk} (copied : ∀ chunk ∈ content, Copied source chunk)
    (scan : IndentScan) :
    content.foldl (IndentScan.chunk source) scan
      = (places content).foldl (IndentScan.char source) scan := by
  induction content generalizing scan with
  | nil => rfl
  | cons chunk later inductionHypothesis =>
      obtain ⟨copiedFirst, copiedLater⟩ := List.forall_mem_cons.mp copied
      rw [List.foldl_cons, copiedFirst.scan, inductionHypothesis copiedLater, ← List.foldl_append]
      rfl

end Scan

/-! ## Heads of lines -/

/-- The number of characters ahead of a line, counted from zero. -/
def lineHead (text : List Char) (line : Nat) : Nat :=
  ((cutLines text).take line).flatten.length

/-- A further character leaves the lines ahead of the last one as they are. -/
theorem take_cutLines_concat (c : Char) {text : List Char} {line : Nat}
    (within : line < (cutLines text).length) :
    (cutLines (text ++ [c])).take line = (cutLines text).take line := by
  induction text generalizing line with
  | nil => cases within
  | cons first rest inductionHypothesis =>
      cases line with
      | zero => rfl
      | succ before =>
          rw [List.cons_append]
          rw [cutLines] at within ⊢
          rw [cutLines]
          by_cases feed : first = '\n'
          · rw [if_pos feed] at within ⊢
            rw [if_pos feed, List.take_succ_cons, List.take_succ_cons,
              inductionHypothesis (Nat.lt_of_succ_lt_succ within)]
          · rw [if_neg feed] at within ⊢
            rw [if_neg feed]
            cases cut : cutLines rest with
            | nil =>
                rw [cut] at within
                exact absurd within (by simp)
            | cons segment later =>
                rw [cut] at within inductionHypothesis
                have same := inductionHypothesis within
                cases longer : cutLines (rest ++ [c]) with
                | nil =>
                    rw [longer] at same
                    cases same
                | cons other others =>
                    rw [longer, List.take_succ_cons, List.take_succ_cons, List.cons.injEq] at same
                    dsimp only
                    rw [List.take_succ_cons, List.take_succ_cons, same.1, same.2]

/-- A line that is there already keeps its head. -/
theorem lineHead_concat (c : Char) {text : List Char} {line : Nat}
    (within : line < (cutLines text).length) :
    lineHead (text ++ [c]) line = lineHead text line := by
  rw [lineHead, take_cutLines_concat c within]
  rfl

/-- Behind a line feed a character starts a line, and the whole text is ahead of it. -/
theorem lineHead_starting (c : Char) {text : List Char} (ends : EndsLine text) :
    lineHead (text ++ [c]) (cutLines text).length = text.length := by
  rw [lineHead, cutLines_append ends, List.take_left, flatten_cutLines]

/-- The scan has taken in characters: it covers them, and each indent is the column of the character
that starts the line. -/
structure IndentScan.Records (source : String) (scan : IndentScan) (taken : List (Nat × Char)) :
    Prop where
  covers : scan.Covers (taken.map Prod.snd)
  heads : ∀ line < scan.indents.length, ∃ place,
    taken[lineHead (taken.map Prod.snd) line]? = some place
      ∧ scan.indents[line]? = some ((positionAt source place.1).column - 1)

section Records

variable {source : String} {scan : IndentScan} {taken : List (Nat × Char)}

private theorem IndentScan.records_start (source : String) : IndentScan.Records source {} [] :=
  ⟨IndentScan.covers_start, fun _ within => absurd within (Nat.not_lt_zero _)⟩

/-- What one character does to the record. -/
theorem IndentScan.Records.char (records : scan.Records source taken) (place : Nat × Char) :
    (scan.char source place).Records source (taken ++ [place]) := by
  have covers : (scan.char source place).Covers ((taken ++ [place]).map Prod.snd) := by
    rw [List.map_append]
    exact records.covers.segment source List.not_mem_nil place.2 place.1
  refine ⟨covers, fun line within => ?_⟩
  rw [List.map_append, List.map_singleton]
  have earlier : line < scan.indents.length → ∃ head,
      (taken ++ [place])[lineHead (taken.map Prod.snd ++ [place.2]) line]? = some head
        ∧ scan.indents[line]? = some ((positionAt source head.1).column - 1) := by
    intro old
    obtain ⟨head, isHead, isIndent⟩ := records.heads line old
    obtain ⟨inTaken, -⟩ := List.getElem?_eq_some_iff.mp isHead
    refine ⟨head, ?_, isIndent⟩
    rw [lineHead_concat place.2 (records.covers.lines ▸ old), List.getElem?_append_left inTaken,
      isHead]
  by_cases atStart : scan.atLineStart = true
  · have isIndents : (scan.char source place).indents
        = scan.indents ++ [(positionAt source place.1).column - 1] := if_pos atStart
    rw [isIndents, List.length_append, List.length_singleton] at within
    rw [isIndents]
    rcases Nat.lt_succ_iff_lt_or_eq.mp within with old | rfl
    · obtain ⟨head, isHead, isIndent⟩ := earlier old
      exact ⟨head, isHead, by rw [List.getElem?_append_left old, isIndent]⟩
    · -- The character starts a line, so all that was taken in is ahead of it.
      have isHead : lineHead (taken.map Prod.snd ++ [place.2]) scan.indents.length
          = taken.length := by
        rw [records.covers.lines, lineHead_starting place.2 (records.covers.lineStart.mp atStart),
          List.length_map]
      exact ⟨place, by rw [isHead, List.getElem?_concat_length], List.getElem?_concat_length⟩
  · have isIndents : (scan.char source place).indents = scan.indents := if_neg atStart
    rw [isIndents] at within ⊢
    exact earlier within

theorem IndentScan.Records.chars (records : scan.Records source taken) (more : List (Nat × Char)) :
    (more.foldl (IndentScan.char source) scan).Records source (taken ++ more) := by
  induction more generalizing scan taken with
  | nil => rwa [List.append_nil]
  | cons place rest inductionHypothesis =>
      rw [List.foldl_cons, List.append_cons]
      exact inductionHypothesis (records.char place)

end Records

/-! ## Any chunks -/

section Chunks

variable {source : String} {content : List Chunk}

private theorem indentsOf_eq_chars (copied : ∀ chunk ∈ content, Copied source chunk) :
    indentsOf source content = ((places content).foldl (IndentScan.char source) {}).indents := by
  rw [indentsOf, scan_eq_chars copied]

/-- **The indent of a line** is the number of characters ahead of its first character, on the line
of the source that this character was copied from. -/
theorem indentsOf_getElem? (copied : ∀ chunk ∈ content, Copied source chunk) {line : Nat}
    (within : line < (cutLines (contentText content)).length) :
    ∃ offset c ahead behind,
      (places content)[lineHead (contentText content) line]? = some (offset, c)
      ∧ source.toList = ahead ++ c :: behind ∧ offset = byteSize ahead
      ∧ (indentsOf source content)[line]? = some (lastLine ahead).length := by
  have records := (IndentScan.records_start source).chars (places content)
  rw [List.nil_append] at records
  have inIndents : line < ((places content).foldl (IndentScan.char source) {}).indents.length := by
    rwa [← indentsOf_eq_chars copied, length_indentsOf]
  obtain ⟨⟨offset, c⟩, isPlace, isIndent⟩ := records.heads line inIndents
  rw [map_snd_places] at isPlace
  obtain ⟨ahead, behind, isSource, isOffset⟩ :=
    split_of_mem_places copied (List.mem_of_getElem? isPlace)
  refine ⟨offset, c, ahead, behind, isPlace, isSource, isOffset, ?_⟩
  rw [indentsOf_eq_chars copied, isIndent, positionAt_split isSource isOffset,
    Position.column_after, Nat.add_sub_cancel]

/-- **Indents do not depend on chunks.** However a content was cut when it was copied from the
source, it has one indent for each line. The indent of a line is the number of characters ahead of
its first character, on the line of the source that this character was copied from. Another content
with the same characters from the same places has the same indents. And there are as many indents as
the code has lines, unless the content is a line break: then there is one indent, and the code has no
line. -/
theorem indents_of_any_chunks (source : String) (content : List Chunk) (info : List Char) (span : Span)
    (copied : ∀ chunk ∈ content, Copied source chunk) :
    let text := contentText content
    let fence := fenceItem source info content span
    fence.indents.length = (cutLines text).length
    ∧ (∀ line < (cutLines text).length, ∃ offset c ahead behind,
        (places content)[lineHead text line]? = some (offset, c)
          ∧ source.toList = ahead ++ c :: behind ∧ offset = byteSize ahead
          ∧ fence.indents[line]? = some (lastLine ahead).length)
    ∧ (∀ other, (∀ chunk ∈ other, Copied source chunk) → places other = places content →
        (fenceItem source info other span).indents = fence.indents
          ∧ (fenceItem source info other span).code = fence.code)
    ∧ (IsBreak text → fence.indents.length = 1 ∧ Text.lineCount fence.code = 0)
    ∧ (¬ IsBreak text → fence.indents.length = Text.lineCount fence.code) := by
  intro text fence
  have isLength : fence.indents.length = (cutLines text).length := length_indentsOf source content
  have isCount : Text.lineCount fence.code = if IsBreak text then 0 else (cutLines text).length :=
    lineCount_dropFinalBreak text
  refine ⟨isLength, fun line within => indentsOf_getElem? copied within, ?_, ?_, ?_⟩
  · intro other copiedOther same
    have sameText : contentText other = contentText content := by
      rw [← map_snd_places, same, map_snd_places]
    refine ⟨?_, congrArg (fun text => String.ofList (dropFinalBreak text)) sameText⟩
    show indentsOf source other = indentsOf source content
    rw [indentsOf_eq_chars copiedOther, same, indentsOf_eq_chars copied]
  · intro isBreak
    rw [isLength, isCount, if_pos isBreak]
    exact ⟨isBreak.length_cutLines, rfl⟩
  · intro other
    rw [isLength, isCount, if_neg other]

/-- A content of two lines in a quoted fence, cut inside the first line and ahead of its line feed,
with an empty chunk in between. -/
theorem indents_of_any_chunks_quoted :
    let source := "> ```\n> é1\n>  two\n> ```\n"
    let content : List Chunk :=
      [⟨['é'], ⟨8, 10⟩⟩, ⟨[], ⟨10, 10⟩⟩, ⟨['1'], ⟨10, 11⟩⟩, ⟨['\n'], ⟨11, 12⟩⟩,
        ⟨" two\n".toList, ⟨14, 19⟩⟩]
    let whole : List Chunk := [⟨"é1\n".toList, ⟨8, 12⟩⟩, ⟨" two\n".toList, ⟨14, 19⟩⟩]
    (∀ chunk ∈ content, Copied source chunk) ∧ (∀ chunk ∈ whole, Copied source chunk)
      ∧ indentsOf source content = [2, 2] ∧ indentsOf source whole = indentsOf source content
      ∧ (fenceItem source [] content ⟨2, 25⟩).indents.length
          = Text.lineCount (fenceItem source [] content ⟨2, 25⟩).code := by
  intro source content whole
  have copied : ∀ chunk ∈ content, Copied source chunk := by decide +kernel
  have copiedWhole : ∀ chunk ∈ whole, Copied source chunk := by decide +kernel
  obtain ⟨-, -, sameIndents, -, count⟩ := indents_of_any_chunks source content [] ⟨2, 25⟩ copied
  exact ⟨copied, copiedWhole, by decide +kernel,
    (sameIndents whole copiedWhole (by decide +kernel)).1, count (by decide +kernel)⟩

end Chunks

end Tangle.Document
