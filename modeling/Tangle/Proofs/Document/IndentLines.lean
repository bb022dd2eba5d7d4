import Tangle.Proofs.Document.ContentLines

/-!
Contract: the content of a fence has one indent per line.

Owns: the number of indents that are recorded for a content, however it is cut into chunks.

Does **not** own: their values (`Tangle.Proofs.Document.FlushIndents`).

## What is known between two chunks

A chunk may end anywhere, so a line may be continued by the chunk behind it. The scan does not
remember the line; it knows whether the text so far ends one. With that, and with as many indents
as the text so far has lines, a segment behind it adds an indent exactly if it adds a line.
-/

set_option autoImplicit false

namespace Tangle.Document

open Tangle.Source
open Tangle.Markdown
open Tangle.Text (EndsLine)

private theorem endsLine_concat_iff (front : List Char) (c : Char) : EndsLine (front ++ [c]) ↔ c = '\n' := by
  constructor
  · intro ends
    rcases ends with nothing | ⟨before, isText⟩
    · simp at nothing
    · exact List.singleton_inj.mp (List.append_inj' isText rfl).2
  · intro feed
    exact Or.inr ⟨front, by rw [feed]⟩

/-- The scan has taken in `text`: it has an indent for each line, and stands where the text ends. -/
structure IndentScan.Covers (scan : IndentScan) (text : List Char) : Prop where
  lines : scan.indents.length = (cutLines text).length
  lineStart : scan.atLineStart = true ↔ EndsLine text

theorem IndentScan.covers_start : IndentScan.Covers {} [] :=
  ⟨rfl, iff_of_true rfl (Or.inl rfl)⟩

section Scan

variable (source : String) {scan : IndentScan} {ahead : List Char}

/-- Behind a text that ends a line, a segment is a line of its own. -/
theorem length_cutLines_starting (ends : EndsLine ahead) {front : List Char} (free : '\n' ∉ front)
    (c : Char) : (cutLines (ahead ++ (front ++ [c]))).length = (cutLines ahead).length + 1 := by
  rw [cutLines_append ends, cutLines_line free, List.length_append, List.length_singleton]

/-- Behind any other text, a segment continues the last line. -/
theorem length_cutLines_continuing (unended : ¬ EndsLine ahead) {front : List Char}
    (free : '\n' ∉ front) (c : Char) :
    (cutLines (ahead ++ (front ++ [c]))).length = (cutLines ahead).length := by
  rcases List.eq_nil_or_concat' ahead with rfl | ⟨before, last, rfl⟩
  · exact absurd (Or.inl rfl) unended
  · have other : last ≠ '\n' := mt (endsLine_concat_iff before last).mpr unended
    rw [← List.append_assoc, length_cutLines_concat, length_cutLines_concat, List.count_append,
      List.count_append, List.count_eq_zero_of_not_mem free]
    simp [other]

theorem IndentScan.Covers.segment (covers : scan.Covers ahead) {front : List Char}
    (free : '\n' ∉ front) (c : Char) (offset : Nat) :
    (scan.segment source offset (front ++ [c])).Covers (ahead ++ (front ++ [c])) := by
  constructor
  · unfold IndentScan.segment
    by_cases atStart : scan.atLineStart = true
    · rw [if_pos atStart, length_cutLines_starting (covers.lineStart.mp atStart) free,
        ← covers.lines, List.length_append, List.length_singleton]
    · rw [if_neg atStart, length_cutLines_continuing (mt covers.lineStart.mpr atStart) free,
        covers.lines]
  · rw [← List.append_assoc, endsLine_concat_iff]
    simp [IndentScan.segment]

/-- The induction follows the lines of the chunk; each of them is one segment. -/
theorem IndentScan.Covers.segments (verbatim : Bool) (text : List Char) :
    ∀ {scan : IndentScan} {ahead : List Char} (offset : Nat), scan.Covers ahead →
      (IndentScan.segments source verbatim offset (cutLines text) scan).Covers (ahead ++ text) := by
  induction isSize : text.length using Nat.strong_induction_on generalizing text with
  | _ size inductionHypothesis =>
      intro scan ahead offset covers
      by_cases nothing : text = []
      · rw [nothing, List.append_nil]
        exact covers
      · obtain ⟨front, c, isLine, free⟩ := take_lineLength nothing
        have isText : front ++ [c] ++ text.drop (lineLength text) = text := by
          rw [← isLine, List.take_append_drop]
        have shorter : (text.drop (lineLength text)).length < size := by
          have lengths := congrArg List.length isText
          rw [List.length_append, List.length_append, List.length_singleton, isSize] at lengths
          omega
        have rest := inductionHypothesis _ shorter (text.drop (lineLength text)) rfl
          (if verbatim then offset + Text.byteSize (front ++ [c]) else offset)
          (covers.segment source free c offset)
        rw [List.append_assoc, isText] at rest
        rw [cutLines_step nothing, isLine]
        exact rest

theorem IndentScan.Covers.chunk (covers : scan.Covers ahead) (chunk : Chunk) :
    (scan.chunk source chunk).Covers (ahead ++ chunk.text) :=
  IndentScan.Covers.segments source _ chunk.text _ covers

theorem IndentScan.Covers.chunks (covers : scan.Covers ahead) (content : List Chunk) :
    (content.foldl (IndentScan.chunk source) scan).Covers (ahead ++ contentText content) := by
  induction content generalizing scan ahead with
  | nil => simpa [contentText] using covers
  | cons chunk later inductionHypothesis =>
      have isText : ahead ++ contentText (chunk :: later)
          = ahead ++ chunk.text ++ contentText later := by
        simp [contentText]
      rw [isText, List.foldl_cons]
      exact inductionHypothesis (covers.chunk source chunk)

end Scan

/-- **One indent per line.** -/
theorem length_indentsOf (source : String) (content : List Chunk) :
    (indentsOf source content).length = (cutLines (contentText content)).length :=
  (IndentScan.covers_start.chunks source content).lines

end Tangle.Document
