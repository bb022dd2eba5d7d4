import Tangle.Proofs.Document.FlushIndents
import Tangle.Proofs.Document.IndentLines
import Tangle.Proofs.Document.Reread
import Tangle.Proofs.Text.Words

/-!
Contract: a printed fence is a whole text with one item, the fence it was printed from.

Owns: info strings that are read as they stand, and the item of a printed fence with its language,
its code, its indents and its span.

Does **not** own: where the reading of a printed fence ends (`Tangle.Proofs.Document.Printed`).

## Which languages survive

An info string is trimmed, unescaped, and cut at its first blank. A language with blanks loses what
is behind the first one, and one with a backslash or an ampersand may be read as an escape or a
reference. A backtick would keep the line from opening a fence at all. Nothing is asked of the code
but that it has no carriage return: the printed fence outgrows every run of backticks in it.
-/

set_option autoImplicit false

namespace Tangle.Markdown

/-- A language that an info string can hold: one word without escapes, references and backticks. -/
def PlainWord (language : List Char) : Prop :=
  ∀ c ∈ language, Text.isBlank c = false ∧ c ≠ Text.Symbol.backtick
    ∧ c ≠ Text.Symbol.backslash ∧ c ≠ '&'

instance : DecidablePred PlainWord := fun language =>
  List.decidableBAll (fun c => Text.isBlank c = false ∧ c ≠ Text.Symbol.backtick
    ∧ c ≠ Text.Symbol.backslash ∧ c ≠ '&') language

private theorem isBlank_of_isSpace {c : Char} (space : isSpace c = true) : Text.isBlank c = true := by
  simp only [isSpace, isPad, Bool.or_eq_true, beq_iff_eq] at space
  rcases space with ((((rfl | rfl) | rfl) | rfl) | rfl) | rfl <;> decide

section PlainWord

variable {language : List Char} (plain : PlainWord language)
include plain

theorem PlainWord.visible : ∀ c ∈ language, Text.isBlank c = false :=
  fun c isIn => (plain c isIn).1

private theorem PlainWord.not_isSpace : ∀ c ∈ language, isSpace c = false := by
  intro c isIn
  rw [Bool.eq_false_iff]
  intro space
  have visible := plain.visible c isIn
  rw [isBlank_of_isSpace space] at visible
  exact Bool.noConfusion visible

/-- A plain word stands for itself. -/
theorem PlainWord.unescape : unescape language = language := by
  induction language with
  | nil => rfl
  | cons c rest inductionHypothesis =>
      obtain ⟨⟨visible, -, noEscape, noReference⟩, others⟩ := List.forall_mem_cons.mp plain
      have noReturn : c ≠ '\r' := by
        intro isReturn
        rw [isReturn] at visible
        exact absurd visible (by decide)
      rw [Markdown.unescape, unescapeFrom.eq_def]
      simp only [beq_eq_false_iff_ne.mpr noEscape, beq_eq_false_iff_ne.mpr noReference,
        beq_eq_false_iff_ne.mpr noReturn, Bool.false_and, Bool.false_eq_true, if_false]
      exact congrArg (c :: ·) (inductionHypothesis others)

/-- **The info string of a plain word** on the line of an opening fence is the word. -/
theorem PlainWord.infoText (mark : Char) (width : Nat) (later : List Char) :
    infoText ⟨mark, width⟩ (List.replicate width mark ++ (language ++ '\n' :: later)) = language := by
  have oneLine := Document.oneLine_of_visible plain.visible
  have behind : (List.replicate width mark ++ (language ++ '\n' :: later)).drop width
      = language ++ '\n' :: later := List.drop_left' List.length_replicate
  have noPad : countWhile isPad (language ++ '\n' :: later) = 0 := by
    cases language with
    | nil => rfl
    | cons c rest =>
        have notSpace := plain.not_isSpace c List.mem_cons_self
        simp only [isSpace, Bool.or_eq_false_iff] at notSpace
        simp [countWhile, notSpace.1.1]
  have line : (language ++ '\n' :: later).take (lineLength (language ++ '\n' :: later))
      = language ++ ['\n'] := by
    rw [lineLength_append_free oneLine, List.take_length_add_append]
    simp [lineLength]
  have trimmed : Text.dropTailWhile isSpace (language ++ ['\n']) = language := by
    rw [Text.dropTailWhile_eq_rdropWhile, List.rdropWhile_concat_pos _ _ _ (by decide),
      List.rdropWhile_eq_self_iff]
    intro filled
    rw [plain.not_isSpace _ (List.getLast_mem filled)]
    exact Bool.false_ne_true
  rw [Markdown.infoText]
  simp only [behind, noPad, List.drop_zero, line, trimmed]
  exact plain.unescape

end PlainWord

end Tangle.Markdown

namespace Tangle.Document

open Tangle.Source
open Tangle.Markdown
open Tangle.Markdown.Cursor
open Tangle.Text (byteSize)

private theorem languageOf_plainWord {language : String} (plain : PlainWord language.toList) :
    languageOf language.toList = language := by
  rw [languageOf, Text.words_of_visible plain.visible]
  cases isText : language.toList with
  | nil => exact String.toList_injective (by rw [isText]; rfl)
  | cons c rest => exact String.toList_injective (by rw [isText]; simp)

/-! ## Indents of texts without carriage returns -/

theorem lostReturn_of_no_return {line : List Char} (noReturn : '\r' ∉ line) :
    lostReturn line = 0 := by
  apply lostReturn_of_not_returned
  intro returned
  obtain ⟨body, last, rfl, -⟩ := returned
  simp at noReturn

/-- In a text without carriage returns a fence in the first column has no indents but zero. -/
theorem indents_eq_zero {source : String} (noReturn : '\r' ∉ source.toList) {fence : FenceItem}
    (isItem : .fence fence ∈ items source)
    (first : (positionAt source fence.span.start).column = 1) :
    ∀ indent ∈ fence.indents, indent = 0 := by
  obtain ⟨lines, isPrefix, isIndents, -⟩ := indents_flush isItem first
  intro indent recorded
  rw [isIndents, List.mem_map] at recorded
  obtain ⟨line, member, rfl⟩ := recorded
  apply lostReturn_of_no_return
  intro isReturn
  have inLines : line ∈ cutLines source.toList := List.mem_of_mem_drop (isPrefix.subset member)
  have inText := List.mem_flatten_of_mem inLines isReturn
  rw [flatten_cutLines] at inText
  exact noReturn inText

/-! ## The printed fence -/

theorem length_cutLines_contentLines (code : String) :
    (cutLines (contentLines code)).length = Text.lineCount code := by
  unfold contentLines
  split
  · next empty =>
      rw [String.isEmpty_iff.mp empty]
      rfl
  · next visible =>
      have some_code : code.toList ≠ [] := by simpa using visible
      rw [length_cutLines_concat, Text.lineCount_of_ne_nil some_code, Text.newlineCount]

private theorem no_return_printFence {language code : String} (plain : PlainWord language.toList)
    (noReturn : '\r' ∉ code.toList) : '\r' ∉ printFence language code := by
  have inLanguage : '\r' ∉ language.toList := by
    intro isReturn
    exact absurd (plain.visible '\r' isReturn) (by decide)
  have inContent : '\r' ∉ contentLines code := by
    unfold contentLines
    split
    · simp
    · simpa using noReturn
  simp [printFence, inLanguage, inContent, List.mem_replicate, Text.Symbol.backtick]

private theorem no_return_line {code : String} (noReturn : '\r' ∉ code.toList) :
    ¬ "\r\n".toList <:+: code.toList ++ ['\n'] := by
  intro found
  have isReturn : '\r' ∈ code.toList ++ ['\n'] := found.subset (by decide)
  simp [noReturn] at isReturn

/-- A printed fence ends with its last backtick. -/
theorem trimLineBreaks_printFence {source language code : String}
    (isPrint : source.toList = printFence language code) :
    trimLineBreaks source
        ⟨0, ((Cursor.start source).advance (printFence language code).length).offset⟩
      = ⟨0, byteSize source.toList⟩ := by
  have isLast : source.toList.getLast? = some Text.Symbol.backtick := by
    rw [isPrint]
    simp [printFence, fenceWidth, List.getLast?_append, List.getLast?_cons, List.getLast?_replicate]
  have untrimmed : Text.dropTailWhile isLineBreak source.toList = source.toList := by
    have trimmed := dropTailWhile_breaks isLast (by decide) (List.forall_mem_nil _)
    rwa [List.append_nil] at trimmed
  have isWhole : (Cursor.start source).rest.take (printFence language code).length
      = source.toList := by
    rw [← isPrint]
    exact List.take_length
  have isSpan := trimLineBreaks_advance (at_start source) (printFence language code).length
  rw [isWhole, untrimmed] at isSpan
  exact isSpan.trans (congrArg (Span.mk 0) (Nat.zero_add _))

/-- The text of a printed fence has no other item. -/
theorem items_printFence {source language code : String}
    (isPrint : source.toList = printFence language code) (plain : PlainWord language.toList)
    (noReturn : '\r' ∉ code.toList) :
    ∃ content, contentText content = contentLines code
      ∧ items source = [.fence (fenceItem source language.toList content
          ⟨0, ((Cursor.start source).advance (printFence language code).length).offset⟩)] := by
  have isRest : (Cursor.start source).rest = printFence language code ++ [] := by
    rw [List.append_nil]
    exact isPrint
  have noBacktick : Text.Symbol.backtick ∉ language.toList :=
    fun tick => (plain _ tick).2.1 rfl
  have oneLine := oneLine_of_visible plain.visible
  have isInfo : infoText ⟨Text.Symbol.backtick, fenceWidth code⟩ (Cursor.start source).rest
      = language.toList := by
    rw [isRest, List.append_nil]
    exact plain.infoText _ _ _
  obtain ⟨content, isContent, isReading⟩ :=
    readBlock_printFence State.sound_start isRest noBacktick oneLine (no_return_line noReturn) rfl
  rw [isInfo] at isReading
  have some_char : (Cursor.start source).rest ≠ [] := by
    rw [isRest, printFence]
    simp [fenceWidth]
  have atEnd : ((Cursor.start source).advance
      ((printFence language code).length + (blankLine? []).getD 0)).rest = [] := by
    rw [advance_rest, ← List.drop_drop, isRest, List.drop_left, List.drop_nil]
  refine ⟨content, isContent, ?_⟩
  show itemsFrom source (source.length + 1) {} (Cursor.start source) = _
  rw [itemsFrom_reading some_char isReading rfl, itemsFrom_end atEnd]
  rfl

/-- **A printed fence reads back.** A code block without a directive, whose code has no carriage
return and whose language is a plain word, is printed as a text with one item: a fence with the
language, the code and an indent of zero for each line, that ends where the text ends. -/
theorem printed_fence_reads_back (block : CodeBlock) (bare : block.settings = none)
    (noReturn : '\r' ∉ block.code.toList) (plain : PlainWord block.language.toList) :
    items (Node.code block).print
      = [.fence
          { language := block.language
            code := block.code
            indents := List.replicate (Text.lineCount block.code) 0
            span := ⟨0, byteSize (Node.code block).print.toList⟩ }] := by
  have isPrint : (Node.code block).print.toList = printFence block.language block.code := by
    rw [print_code_toList, bare, List.nil_append]
  generalize (Node.code block).print = source at isPrint ⊢
  obtain ⟨content, isContent, isItems⟩ := items_printFence isPrint plain noReturn
  have isCode : dropFinalBreak (content.flatMap Chunk.text) = block.code.toList := by
    rw [← contentText, isContent, dropFinalBreak_contentLines (no_return_line noReturn)]
  have isIndents : indentsOf source content = List.replicate (Text.lineCount block.code) 0 := by
    rw [List.eq_replicate_iff]
    constructor
    · rw [length_indentsOf, isContent, length_cutLines_contentLines]
    · have noReturnAtAll : '\r' ∉ source.toList := by
        rw [isPrint]
        exact no_return_printFence plain noReturn
      have starts : StartsLine source (Cursor.start source) := ⟨[], rfl, rfl, Or.inl rfl⟩
      exact indents_eq_zero noReturnAtAll (isItems ▸ List.mem_cons_self) starts.column
  rw [isItems, fenceItem, languageOf_plainWord plain, isCode, isIndents,
    trimLineBreaks_printFence isPrint, String.ofList_toList]

/-- Code with a closing fence of its own, a line of four backticks, a directive, a blank line and a
line break at its end. -/
def tickedBlock : CodeBlock :=
  { language := "c++", code := "```\n  ````\n<!-- @codeblock a.ts -->\n\n~~~\n"
    span := ⟨0, 0⟩, range := default, codeRange := default, indents := []
    settingsRange := none, settings := none }

theorem printed_fence_reads_back_ticked :
    tickedBlock.settings = none ∧ '\r' ∉ tickedBlock.code.toList
    ∧ PlainWord tickedBlock.language.toList
    ∧ items "`````c++\n```\n  ````\n<!-- @codeblock a.ts -->\n\n~~~\n\n`````"
      = [.fence
          { language := "c++", code := "```\n  ````\n<!-- @codeblock a.ts -->\n\n~~~\n"
            indents := [0, 0, 0, 0, 0, 0], span := ⟨0, 56⟩ }] := by
  have noReturn : '\r' ∉ tickedBlock.code.toList := by decide +kernel
  have plain : PlainWord tickedBlock.language.toList := by decide +kernel
  have isPrint : (Node.code tickedBlock).print
      = "`````c++\n```\n  ````\n<!-- @codeblock a.ts -->\n\n~~~\n\n`````" := by decide +kernel
  have reread := printed_fence_reads_back tickedBlock rfl noReturn plain
  rw [isPrint] at reread
  exact ⟨rfl, noReturn, plain, reread.trans (by decide +kernel)⟩

end Tangle.Document
