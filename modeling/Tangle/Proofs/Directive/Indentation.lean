import Mathlib.Data.List.Forall2
import Tangle.Directive.Decode
import Tangle.Proofs.Directive.Bodies
import Tangle.Proofs.Source.Boundaries
import Tangle.Proofs.Text.Words

/-!
Contract: the indentation of a directive body that starts on the line after the keyword.

Owns: `Indented`, a text whose lines stand further right; that such a body decodes as the one it
comes from; and that indentation, measured and cut in bytes, is always cut between characters.

Does **not** own: how the YAML text is read (`Tangle.Yaml.Decode`).

## What the decoders see of a body

They look at it twice. The early answers look at the trimmed body, and these depend on its words
alone. The YAML text is what is left when the common indentation is gone; indentation that every line
has adds to the least one, so it is gone as well. Lines of blanks take no part in either.
-/

set_option autoImplicit false

namespace Tangle.Directive

open Tangle.Yaml
open Text (isBlank splitChars terminatedLines byteSize)
open Markdown.Cursor (byteSize_append)

/-! ## Lines further right -/

/-- A line and the same line `width` columns further right. An empty line stays as it is; one that
consists of the carriage return of its line break may count as empty or not. -/
def IndentedLine (width : Nat) (line moved : List Char) : Prop :=
  (line ≠ [] ∧ moved = List.replicate width ' ' ++ line)
    ∨ ((line = [] ∨ line = ['\r']) ∧ moved = line)

/-- A text and the same text with its lines `width` columns further right. -/
def Indented (width : Nat) (text moved : List Char) : Prop :=
  List.Forall₂ (IndentedLine width) (splitChars '\n' text) (splitChars '\n' moved)

/-- The text with `width` spaces ahead of each line that is not empty. -/
def indentLines (width : Nat) (text : List Char) : List Char :=
  List.intercalate ['\n'] ((splitChars '\n' text).map fun line =>
    if line.isEmpty then line else List.replicate width ' ' ++ line)

instance (width : Nat) : ∀ line moved, Decidable (IndentedLine width line moved) :=
  fun _ _ => inferInstanceAs (Decidable (_ ∨ _))

instance (width : Nat) (text moved : List Char) : Decidable (Indented width text moved) :=
  inferInstanceAs (Decidable (List.Forall₂ _ _ _))

/-- What matters of a line that stands further right: lines of blanks are as good as empty. -/
def Shifted (width : Nat) (line moved : List Char) : Prop :=
  moved = List.replicate width ' ' ++ line
    ∨ (line.all isBlank = true ∧ moved.all isBlank = true)

section Lines

variable {width : Nat} {line moved : List Char}

private theorem isPad_iff {c : Char} : isPad c = true ↔ c = ' ' ∨ c = '\t' := by
  rw [isPad, Bool.or_eq_true, beq_iff_eq, beq_iff_eq]

private theorem isBlank_of_isPad {c : Char} (pad : isPad c = true) : isBlank c = true := by
  rcases isPad_iff.mp pad with rfl | rfl <;> decide

private theorem isPad_of_mem_spaces {c : Char} (isIn : c ∈ List.replicate width ' ') : isPad c = true := by
  rw [List.eq_of_mem_replicate isIn]
  rfl

private theorem IndentedLine.words_eq (indented : IndentedLine width line moved) :
    Text.words moved = Text.words line := by
  rcases indented with ⟨-, rfl⟩ | ⟨-, rfl⟩
  · exact Text.words_blanks_append (fun c isIn => isBlank_of_isPad (isPad_of_mem_spaces isIn)) line
  · rfl

theorem IndentedLine.shifted (indented : IndentedLine width line moved) :
    Shifted width line moved := by
  rcases indented with ⟨-, isMoved⟩ | ⟨rfl | rfl, rfl⟩
  · exact Or.inl isMoved
  · exact Or.inr ⟨rfl, rfl⟩
  · exact Or.inr ⟨rfl, rfl⟩

/-- The carriage return of the line break goes with the line. -/
theorem IndentedLine.shifted_dropFinalReturn (indented : IndentedLine width line moved) :
    Shifted width (Text.dropFinalReturn line) (Text.dropFinalReturn moved) := by
  rcases indented with ⟨visible, rfl⟩ | ⟨rfl | rfl, rfl⟩
  · left
    unfold Text.dropFinalReturn
    rw [List.getLast?_append_of_ne_nil _ visible]
    split
    · exact List.dropLast_append_of_ne_nil visible
    · rfl
  · exact Or.inr ⟨rfl, rfl⟩
  · exact Or.inr ⟨rfl, rfl⟩

private theorem IndentedLine.isEmpty_eq (indented : IndentedLine width line moved) :
    moved.isEmpty = line.isEmpty := by
  rcases indented with ⟨visible, rfl⟩ | ⟨-, rfl⟩
  · rw [List.isEmpty_eq_false_iff.mpr visible, List.isEmpty_eq_false_iff]
    exact List.append_ne_nil_of_right_ne_nil _ visible
  · rfl

private theorem Shifted.all_isBlank (shifted : Shifted width line moved) :
    moved.all isBlank = line.all isBlank := by
  rcases shifted with rfl | ⟨blank, blankMoved⟩
  · have spaces : (List.replicate width ' ').all isBlank = true :=
      List.all_eq_true.mpr fun c isIn => isBlank_of_isPad (isPad_of_mem_spaces isIn)
    rw [List.all_append, spaces, Bool.true_and]
  · rw [blank, blankMoved]

private theorem Shifted.of_visible (shifted : Shifted width line moved) (visible : line.all isBlank = false) :
    moved = List.replicate width ' ' ++ line := by
  refine shifted.resolve_right fun blank => ?_
  rw [visible] at blank
  exact Bool.false_ne_true blank.1

end Lines

section Texts

variable {width : Nat} {text moved : List Char}

private theorem indented_indentLines (width : Nat) (text : List Char) :
    Indented width text (indentLines width text) := by
  rw [Indented, indentLines, Text.splitChars_intercalate]
  · rw [List.forall₂_map_right_iff, List.forall₂_same]
    intro line _
    split
    · next none => exact Or.inr ⟨Or.inl (List.isEmpty_iff.mp none), rfl⟩
    · next some => exact Or.inl ⟨fun none => some (List.isEmpty_iff.mpr none), rfl⟩
  · exact fun none => Text.splitChars_ne_nil '\n' text (List.map_eq_nil_iff.mp none)
  · refine List.forall_mem_map.mpr fun line isIn => ?_
    have free := Text.free_of_mem_splitChars isIn
    split
    · exact free
    · rw [List.mem_append, not_or]
      exact ⟨fun isSpace => absurd (List.eq_of_mem_replicate isSpace) (by decide), free⟩

/-- A line of nothing but its carriage return may stay where it is. -/
example : Indented 2 "a:\r\n\r\n  b".toList "  a:\r\n\r\n    b".toList := by decide +kernel

/-- **Indentation changes no word.** -/
theorem Indented.words_eq (indented : Indented width text moved) :
    Text.words moved = Text.words text := by
  rw [Text.words_eq_flatMap, Text.words_eq_flatMap]
  unfold Indented at indented
  generalize splitChars '\n' text = lines at indented
  generalize splitChars '\n' moved = movedLines at indented
  induction indented with
  | nil => rfl
  | cons first _ inductionHypothesis =>
      rw [List.flatMap_cons, List.flatMap_cons, first.words_eq, inductionHypothesis]

theorem Indented.shifted (indented : Indented width text moved) :
    List.Forall₂ (Shifted width) (terminatedLines text) (terminatedLines moved) := by
  rw [Text.terminatedLines, Text.terminatedLines]
  unfold Indented at indented
  generalize splitChars '\n' text = lines at indented
  generalize splitChars '\n' moved = movedLines at indented
  induction indented with
  | nil => exact .nil
  | @cons line movedLine lines movedLines first later inductionHypothesis =>
      cases later with
      | nil =>
          rw [Text.terminatedLines.walk.eq_2, Text.terminatedLines.walk.eq_2, first.isEmpty_eq]
          split
          · exact .nil
          · exact .cons first.shifted .nil
      | cons => exact .cons first.shifted_dropFinalReturn inductionHypothesis

end Texts

/-! ## The common indentation -/

section Common

variable {width : Nat} {lines movedLines : List (List Char)}

def padWidths (lines : List (List Char)) : List Nat :=
  (lines.filter fun line => !line.all isBlank).map padWidth

private theorem padWidth_spaces_append (width : Nat) (line : List Char) :
    padWidth (List.replicate width ' ' ++ line) = padWidth line + width := by
  rw [padWidth, List.takeWhile_append_of_pos fun c => isPad_of_mem_spaces, List.length_append,
    List.length_replicate, Nat.add_comm]
  rfl

/-- Indentation that all lines have adds to the width of every one. -/
theorem padWidths_shifted (shifted : List.Forall₂ (Shifted width) lines movedLines) :
    padWidths movedLines = (padWidths lines).map (· + width) := by
  unfold padWidths
  induction shifted with
  | nil => rfl
  | @cons line moved _ _ first _ inductionHypothesis =>
      rw [List.filter_cons, List.filter_cons, first.all_isBlank]
      cases visible : line.all isBlank with
      | true => exact inductionHypothesis
      | false =>
          rw [first.of_visible visible]
          exact congrArg₂ _ (padWidth_spaces_append width line) inductionHypothesis

private theorem commonIndent_eq (lines : List (List Char)) :
    commonIndent lines = ((padWidths lines).min?).getD 0 := rfl

/-- It adds to the least width, unless all lines are blank. -/
theorem commonIndent_shifted (shifted : List.Forall₂ (Shifted width) lines movedLines)
    (visible : padWidths lines ≠ []) :
    commonIndent movedLines = commonIndent lines + width := by
  obtain ⟨least, isLeast⟩ := Option.isSome_iff_exists.mp (List.isSome_min?_of_ne_nil visible)
  obtain ⟨isIn, below⟩ := List.min?_eq_some_iff.mp isLeast
  have isLeastMoved : (padWidths movedLines).min? = some (least + width) := by
    rw [padWidths_shifted shifted, List.min?_eq_some_iff]
    refine ⟨List.mem_map_of_mem isIn, List.forall_mem_map.mpr fun other isOther => ?_⟩
    exact Nat.add_le_add_right (below other isOther) width
  rw [commonIndent_eq, commonIndent_eq, isLeast, isLeastMoved]
  rfl

/-- What is left of a line when `indent` columns are cut off, with a line feed. -/
def cutLine (indent : Nat) (line : List Char) : List Char :=
  (if line.all isBlank then [] else line.drop indent) ++ ['\n']

private theorem dedent_eq (text : List Char) :
    dedent text
      = (terminatedLines text).flatMap (cutLine (commonIndent (terminatedLines text))) := rfl

/-- The cut takes the added indentation away again. -/
theorem flatMap_cutLine_shifted (shifted : List.Forall₂ (Shifted width) lines movedLines)
    (indent : Nat) :
    movedLines.flatMap (cutLine (indent + width)) = lines.flatMap (cutLine indent) := by
  induction shifted with
  | nil => rfl
  | @cons line moved _ _ first _ inductionHypothesis =>
      rw [List.flatMap_cons, List.flatMap_cons, inductionHypothesis, cutLine, cutLine,
        first.all_isBlank]
      cases visible : line.all isBlank with
      | true => rfl
      | false =>
          have isCut : moved.drop (indent + width) = line.drop indent := by
            rw [first.of_visible visible, Nat.add_comm, ← List.drop_drop]
            rw [List.drop_left' List.length_replicate]
          rw [isCut]

/-- Where all lines are blank it does not matter how much is cut. -/
theorem flatMap_cutLine_blank (blank : padWidths lines = []) (indent other : Nat) :
    lines.flatMap (cutLine indent) = lines.flatMap (cutLine other) := by
  have isBlankLine : ∀ line ∈ lines, line.all isBlank = true := by
    intro line isIn
    have dropped := List.filter_eq_nil_iff.mp (List.map_eq_nil_iff.mp blank) line isIn
    simpa using dropped
  refine List.flatMap_congr fun line isIn => ?_
  rw [cutLine, cutLine, if_pos (isBlankLine line isIn), if_pos (isBlankLine line isIn)]

end Common

/-- **Uniform indentation is removed without a trace.** -/
theorem Indented.dedent {width : Nat} {text moved : List Char}
    (indented : Indented width text moved) : dedent moved = dedent text := by
  have shifted := indented.shifted
  rw [Directive.dedent_eq, Directive.dedent_eq]
  by_cases blank : padWidths (terminatedLines text) = []
  · rw [← flatMap_cutLine_shifted shifted]
    have blankMoved : padWidths (terminatedLines moved) = [] := by
      rw [padWidths_shifted shifted, blank]
      rfl
    exact flatMap_cutLine_blank blankMoved _ _
  · rw [commonIndent_shifted shifted blank, flatMap_cutLine_shifted shifted]

/-! ## The decoders -/

section Decoders

variable {left right : String}

private theorem isEmpty_trim_of_words (same : Text.words left.toList = Text.words right.toList)
    (none : (Text.trim left).isEmpty = true) : (Text.trim right).isEmpty = true := by
  have noChar : (Text.trim left).toList = [] := by
    rw [String.isEmpty_iff.mp none]
    rfl
  rw [← Text.trim_eq_of_words same fun c isIn => absurd isIn (by simp [noChar])]
  exact none

/-- **Bodies with the same words and the same YAML text decode alike.** -/
theorem decodeSettings_congr (sameWords : Text.words left.toList = Text.words right.toList)
    (sameYaml : normalizeBody left.toList = normalizeBody right.toList) :
    decodeSettings left = decodeSettings right := by
  by_cases visible : ∀ c ∈ (Text.trim left).toList, isBlank c = false
  · rw [decodeSettings, decodeSettings, Text.trim_eq_of_words sameWords visible, sameYaml]
  · -- Several words are neither nothing nor a bare name.
    have several : ∀ {text : String}, (¬ ∀ c ∈ (Text.trim text).toList, isBlank c = false) →
        (Text.trim text).isEmpty = false ∧ isBareToken (Text.trim text) = false := by
      intro text blank
      constructor
      · refine Bool.eq_false_iff.mpr fun none => blank fun c isIn => ?_
        rw [String.isEmpty_iff.mp none] at isIn
        cases isIn
      · exact Bool.eq_false_iff.mpr fun bare => blank (isBareToken_unblank bare)
    have blankRight : ¬ ∀ c ∈ (Text.trim right).toList, isBlank c = false := by
      rwa [Text.trim_visible_iff, ← sameWords, ← Text.trim_visible_iff]
    obtain ⟨filledLeft, longLeft⟩ := several visible
    obtain ⟨filledRight, longRight⟩ := several blankRight
    rw [decodeSettings, decodeSettings, filledLeft, longLeft, filledRight, longRight, sameYaml]
    simp only [Bool.false_eq_true, if_false]

private theorem decodeConfig_congr (sameWords : Text.words left.toList = Text.words right.toList)
    (sameYaml : normalizeBody left.toList = normalizeBody right.toList) :
    decodeConfig left = decodeConfig right := by
  have sameEmpty : (Text.trim left).isEmpty = (Text.trim right).isEmpty :=
    Bool.eq_iff_iff.mpr ⟨isEmpty_trim_of_words sameWords, isEmpty_trim_of_words sameWords.symm⟩
  rw [decodeConfig, decodeConfig, sameEmpty, sameYaml]

end Decoders

section Bodies

variable {pads lineBreak : List Char}

/-- A body that starts on the line after the keyword is read without its common indentation. -/
theorem normalizeBody_broken (padded : ∀ c ∈ pads, isPad c = true)
    (breaks : lineBreak = ['\n'] ∨ lineBreak = ['\r', '\n']) (text : List Char) :
    normalizeBody (pads ++ lineBreak ++ text) = dedent text := by
  rw [normalizeBody, List.append_assoc, List.dropWhile_append_of_pos padded]
  rcases breaks with rfl | rfl
  · rfl
  · rfl

private theorem words_broken (padded : ∀ c ∈ pads, isPad c = true)
    (breaks : lineBreak = ['\n'] ∨ lineBreak = ['\r', '\n']) (text : List Char) :
    Text.words (pads ++ lineBreak ++ text) = Text.words text := by
  refine Text.words_blanks_append (fun c isIn => ?_) text
  rcases List.mem_append.mp isIn with isPadding | isBreak
  · exact isBlank_of_isPad (padded c isPadding)
  · rcases breaks with rfl | rfl
    · rw [List.mem_singleton.mp isBreak]
      decide
    · rcases List.mem_pair.mp isBreak with rfl | rfl <;> decide

end Bodies

/-! ## Indentation in bytes -/

section Bytes

variable {indent : Nat} {line : List Char}

private theorem byteSize_of_isPad {pads : List Char} (padded : ∀ c ∈ pads, isPad c = true) :
    byteSize pads = pads.length := by
  induction pads with
  | nil => rfl
  | cons c rest inductionHypothesis =>
      rw [List.forall_mem_cons] at padded
      have single : c.utf8Size = 1 := by
        rcases isPad_iff.mp padded.1 with rfl | rfl <;> rfl
      rw [byteSize, inductionHypothesis padded.2, single, Nat.add_comm]
      rfl

private theorem padBytes_eq (line : List Char) : padBytes line = padWidth line := by
  have whole : byteSize line
      = byteSize (line.takeWhile isPad) + byteSize (line.dropWhile isPad) := by
    rw [← byteSize_append, List.takeWhile_append_dropWhile]
  rw [padBytes, whole, Nat.add_sub_cancel, byteSize_of_isPad fun c => List.mem_takeWhile_imp]
  rfl

private theorem cutBytes?_byteSize (front behind : List Char) :
    cutBytes? (byteSize front) (front ++ behind) = some behind := by
  have isText : (String.ofList (front ++ behind)).toList = front ++ behind := String.toList_ofList
  have isEnd : (String.ofList (front ++ behind)).utf8ByteSize = byteSize front + byteSize behind := by
    rw [Text.utf8ByteSize_eq, isText, byteSize_append]
  have isBehind : Text.takeBytes (byteSize behind) behind = behind := by
    have whole := Text.takeBytes_byteSize behind []
    rwa [List.append_nil] at whole
  rw [cutBytes?, Source.Span.cut?_eq (by dsimp only; omega) (Source.isBoundary_of_split isText)
    (Source.isBoundary_end _), Source.Span.slice, Source.Span.chars, isText]
  dsimp only
  rw [isEnd, Nat.add_sub_cancel_left, Text.dropBytes_byteSize, isBehind, Option.map_some,
    String.toList_ofList]

/-- Within the pads of a line, bytes are characters. -/
theorem cutBytes?_of_le (within : indent ≤ padWidth line) :
    cutBytes? indent line = some (line.drop indent) := by
  have isFront : line.take indent = (line.takeWhile isPad).take indent := by
    conv_lhs => rw [← List.takeWhile_append_dropWhile (p := isPad) (l := line)]
    exact List.take_append_of_le_length within
  have size : byteSize (line.take indent) = indent := by
    rw [isFront, byteSize_of_isPad fun c isIn => List.mem_takeWhile_imp (List.mem_of_mem_take isIn),
      List.length_take]
    exact Nat.min_eq_left within
  have isCut := cutBytes?_byteSize (line.take indent) (line.drop indent)
  rwa [size, List.take_append_drop] at isCut

/-- No visible line has less than the common indentation. -/
theorem commonIndent_le {lines : List (List Char)} (isIn : line ∈ lines)
    (visible : line.all isBlank = false) : commonIndent lines ≤ padWidth line := by
  have isWidth : padWidth line ∈ padWidths lines :=
    List.mem_map_of_mem (List.mem_filter.mpr ⟨isIn, by rw [visible]; rfl⟩)
  rw [commonIndent_eq]
  exact List.min?_getD_le_of_mem isWidth

private theorem mapM_eq_some {α β : Type} {f : α → Option β} {g : α → β} {items : List α}
    (each : ∀ item ∈ items, f item = some (g item)) : items.mapM f = some (items.map g) := by
  induction items with
  | nil => rfl
  | cons first rest inductionHypothesis =>
      rw [List.forall_mem_cons] at each
      rw [List.mapM_cons, each.1, inductionHypothesis each.2]
      rfl

/-- **Dedentation never cuts within a character or behind the end of a line.** -/
theorem dedentBytes?_eq (text : List Char) : dedentBytes? text = some (dedent text) := by
  have sameWidths : padBytes = padWidth := funext padBytes_eq
  unfold dedentBytes?
  rw [sameWidths]
  refine congrArg (Option.map List.flatten) (mapM_eq_some fun line isIn => ?_)
  show _ = some (cutLine (commonIndent (terminatedLines text)) line)
  rw [cutLine]
  cases visible : line.all isBlank with
  | true => rfl
  | false =>
      exact congrArg (Option.map (· ++ ['\n'])) (cutBytes?_of_le (commonIndent_le isIn visible))

end Bytes

/-! ## Main statement -/

/-- **Uniform indentation does not matter.** A body that starts on the line behind the keyword gives
the same YAML text, the same settings or configuration and the same mistakes when all its lines stand
further right; and no text makes the removal of indentation cut where it cannot. -/
theorem uniform_indentation_ignored (pads lineBreak text moved : List Char) (width : Nat)
    (padded : ∀ c ∈ pads, isPad c = true)
    (breaks : lineBreak = ['\n'] ∨ lineBreak = ['\r', '\n'])
    (indented : Indented width text moved) :
    let flush := pads ++ lineBreak ++ text
    let shifted := pads ++ lineBreak ++ moved
    normalizeBody shifted = normalizeBody flush
      ∧ decodeSettings (String.ofList shifted) = decodeSettings (String.ofList flush)
      ∧ decodeConfig (String.ofList shifted) = decodeConfig (String.ofList flush)
      ∧ ∀ body, dedentBytes? body = some (dedent body) := by
  intro flush shifted
  have sameYaml : normalizeBody shifted = normalizeBody flush := by
    rw [normalizeBody_broken padded breaks, normalizeBody_broken padded breaks, indented.dedent]
  have sameWords : Text.words shifted = Text.words flush := by
    rw [words_broken padded breaks, words_broken padded breaks, indented.words_eq]
  refine ⟨sameYaml, ?_, ?_, dedentBytes?_eq⟩
  · apply decodeSettings_congr
    · rw [String.toList_ofList, String.toList_ofList, sameWords]
    · rw [String.toList_ofList, String.toList_ofList, sameYaml]
  · apply decodeConfig_congr
    · rw [String.toList_ofList, String.toList_ofList, sameWords]
    · rw [String.toList_ofList, String.toList_ofList, sameYaml]

/-- Lines that end in carriage return and line feed, an empty one among them, and a literal text. -/
def flushLines : List Char :=
  "file: a.ts\r\n\r\nprefix: |\r\n  one\r\n    two\r\n".toList

theorem uniform_indentation_ignored_literal :
    (∀ c ∈ [' ', '\t'], isPad c = true)
      ∧ Indented 3 flushLines (indentLines 3 flushLines)
      ∧ decodeSettings (String.ofList ([' ', '\t'] ++ ['\r', '\n'] ++ indentLines 3 flushLines))
        = .ok { file := some "a.ts", header := some "one\n  two\n" } := by
  have padded : ∀ c ∈ [' ', '\t'], isPad c = true := by simp [isPad]
  have indented := indented_indentLines 3 flushLines
  have ignored := uniform_indentation_ignored [' ', '\t'] ['\r', '\n'] flushLines
    (indentLines 3 flushLines) 3 padded (Or.inr rfl) indented
  have isFlush : decodeSettings (String.ofList ([' ', '\t'] ++ ['\r', '\n'] ++ flushLines))
      = .ok { file := some "a.ts", header := some "one\n  two\n" } := by
    decide +kernel
  exact ⟨padded, indented, ignored.2.1.trans isFlush⟩

end Tangle.Directive
