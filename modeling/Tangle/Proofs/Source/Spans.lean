import Tangle.Proofs.Markdown.Progress
import Tangle.Proofs.Text.Lines

/-!
Contract: byte offsets of a source as cuts of its characters.

Owns: `Cursor.At`, which places a cursor in a source, the characters of a span between
two such places, and which places are in the first column.

Does **not** own: which spans a document has (`Tangle.Proofs.Document.Nodes`).

Offsets are bytes, but every offset that a reader produces is the size of some initial
part of the source. For these, byte cuts are cuts between characters.
-/

set_option autoImplicit false

namespace Tangle.Text

open Tangle.Markdown.Cursor (byteSize_append)

theorem takeBytes_byteSize (first second : List Char) :
    takeBytes (byteSize first) (first ++ second) = first := by
  induction first with
  | nil =>
      cases second with
      | nil => rfl
      | cons c rest =>
          have size := c.utf8Size_pos
          rw [List.nil_append, byteSize, takeBytes, if_neg (by omega)]
  | cons c rest inductionHypothesis =>
      rw [List.cons_append, takeBytes, byteSize, if_pos (Nat.le_add_right _ _),
        Nat.add_sub_cancel_left, inductionHypothesis]

theorem dropBytes_byteSize (first second : List Char) :
    dropBytes (byteSize first) (first ++ second) = second := by
  induction first with
  | nil =>
      cases second with
      | nil => rfl
      | cons c rest =>
          have size := c.utf8Size_pos
          rw [List.nil_append, byteSize, dropBytes, if_neg (by omega)]
  | cons c rest inductionHypothesis =>
      rw [List.cons_append, dropBytes, byteSize, if_pos (Nat.le_add_right _ _),
        Nat.add_sub_cancel_left, inductionHypothesis]

private theorem takeBytes_append (bytes : Nat) (first second : List Char) :
    takeBytes (byteSize first + bytes) (first ++ second) = first ++ takeBytes bytes second := by
  induction first with
  | nil => rw [List.nil_append, List.nil_append, byteSize, Nat.zero_add]
  | cons c rest inductionHypothesis =>
      rw [List.cons_append, takeBytes, byteSize, if_pos (by omega), Nat.add_assoc,
        Nat.add_sub_cancel_left, inductionHypothesis, List.cons_append]

private theorem dropBytes_append (bytes : Nat) (first second : List Char) :
    dropBytes (byteSize first + bytes) (first ++ second) = dropBytes bytes second := by
  induction first with
  | nil => rw [List.nil_append, byteSize, Nat.zero_add]
  | cons c rest inductionHypothesis =>
      rw [List.cons_append, dropBytes, byteSize, if_pos (by omega), Nat.add_assoc,
        Nat.add_sub_cancel_left, inductionHypothesis]

private theorem takeBytes_append_of_le {bytes : Nat} {first : List Char} (within : bytes ≤ byteSize first)
    (second : List Char) : takeBytes bytes (first ++ second) = takeBytes bytes first := by
  induction first generalizing bytes with
  | nil =>
      obtain rfl := Nat.le_zero.mp within
      exact takeBytes_byteSize [] second
  | cons c rest inductionHypothesis =>
      rw [byteSize] at within
      rw [List.cons_append, takeBytes, takeBytes]
      split
      · rw [inductionHypothesis (by omega)]
      · rfl

private theorem dropBytes_append_of_le {bytes : Nat} {first : List Char} (within : bytes ≤ byteSize first)
    (second : List Char) : dropBytes bytes (first ++ second) = dropBytes bytes first ++ second := by
  induction first generalizing bytes with
  | nil =>
      obtain rfl := Nat.le_zero.mp within
      exact dropBytes_byteSize [] second
  | cons c rest inductionHypothesis =>
      rw [byteSize] at within
      rw [List.cons_append, dropBytes, dropBytes]
      split
      · rw [inductionHypothesis (by omega)]
      · rfl

theorem byteSize_takeBytes_le (bytes : Nat) (chars : List Char) :
    byteSize (takeBytes bytes chars) ≤ bytes := by
  induction chars generalizing bytes with
  | nil => exact Nat.zero_le _
  | cons c rest inductionHypothesis =>
      rw [takeBytes]
      split
      · have tail := inductionHypothesis (bytes - c.utf8Size)
        rw [byteSize]
        omega
      · exact Nat.zero_le _

private theorem byteSize_dropBytes_ge (bytes : Nat) (chars : List Char) :
    byteSize chars ≤ bytes + byteSize (dropBytes bytes chars) := by
  induction chars generalizing bytes with
  | nil => exact Nat.zero_le _
  | cons c rest inductionHypothesis =>
      rw [dropBytes]
      split
      · have tail := inductionHypothesis (bytes - c.utf8Size)
        rw [byteSize]
        omega
      · exact Nat.le_add_left _ _

theorem utf8ByteSize_eq (text : String) : text.utf8ByteSize = byteSize text.toList := by
  have listed : ∀ chars : List Char, (String.ofList chars).utf8ByteSize = byteSize chars := by
    intro chars
    induction chars with
    | nil => rfl
    | cons c rest inductionHypothesis =>
        rw [String.ofList_cons, String.utf8ByteSize_append, String.utf8ByteSize_singleton,
          inductionHypothesis, byteSize]
  rw [← listed, String.ofList_toList]

theorem takeBytes_prefix : ∀ (bytes : Nat) (chars : List Char), takeBytes bytes chars <+: chars
  | _, [] => List.prefix_rfl
  | bytes, c :: rest => by
      rw [takeBytes]
      split
      · exact List.cons_prefix_cons.mpr ⟨rfl, takeBytes_prefix _ rest⟩
      · exact List.nil_prefix

/-- Bytes enough for a passage take in the whole of it. -/
theorem prefix_takeBytes {first : List Char} {bytes : Nat} (enough : byteSize first ≤ bytes)
    (second : List Char) : first <+: takeBytes bytes (first ++ second) := by
  induction first generalizing bytes with
  | nil => exact List.nil_prefix
  | cons c rest inductionHypothesis =>
      rw [byteSize] at enough
      rw [List.cons_append, takeBytes, if_pos (by omega), List.cons_prefix_cons]
      exact ⟨rfl, inductionHypothesis (by omega)⟩

private theorem takeBytes_zero (chars : List Char) : takeBytes 0 chars = [] :=
  takeBytes_byteSize [] chars

end Tangle.Text

namespace Tangle.Source

open Tangle.Text
open Tangle.Markdown

/-! ## Places in a source -/

def At (source : String) (cursor : Cursor) : Prop :=
  ∃ ahead, source.toList = ahead ++ cursor.rest ∧ cursor.offset = byteSize ahead

theorem at_start (source : String) : At source (Cursor.start source) :=
  ⟨[], rfl, rfl⟩

variable {source : String} {cursor : Cursor}

theorem At.advance (placed : At source cursor) (count : Nat) : At source (cursor.advance count) := by
  obtain ⟨ahead, isSource, isOffset⟩ := placed
  refine ⟨ahead ++ cursor.rest.take count, ?_, ?_⟩
  · rw [isSource, List.append_assoc, Cursor.advance_rest, List.take_append_drop]
  · rw [Cursor.byteSize_append, ← isOffset]
    rfl

theorem At.reached {later : Cursor} (placed : At source cursor)
    (reached : Cursor.Reaches cursor later) : At source later := by
  obtain ⟨count, rfl⟩ := reached
  exact placed.advance count

theorem At.dropBytes (placed : At source cursor) :
    dropBytes cursor.offset source.toList = cursor.rest := by
  obtain ⟨ahead, isSource, isOffset⟩ := placed
  rw [isSource, isOffset, dropBytes_byteSize]

/-- A span that starts at a place holds characters from there on. -/
theorem At.chars_prefix (placed : At source cursor) {span : Span}
    (isStart : span.start = cursor.offset) : span.chars source <+: cursor.rest := by
  rw [Span.chars, isStart, placed.dropBytes]
  exact takeBytes_prefix _ _

/-- The characters from a place on. -/
theorem At.chars (placed : At source cursor) (passage rest : List Char)
    (isRest : cursor.rest = passage ++ rest) :
    (⟨cursor.offset, cursor.offset + byteSize passage⟩ : Span).chars source = passage := by
  simp only [Span.chars, Nat.add_sub_cancel_left]
  rw [placed.dropBytes, isRest, takeBytes_byteSize]

theorem At.chars_advance (placed : At source cursor) (count : Nat) :
    (⟨cursor.offset, (cursor.advance count).offset⟩ : Span).chars source = cursor.rest.take count :=
  placed.chars (cursor.rest.take count) (cursor.rest.drop count) (List.take_append_drop _ _).symm

theorem At.chars_end (placed : At source cursor) :
    (⟨cursor.offset, source.utf8ByteSize⟩ : Span).chars source = cursor.rest := by
  have isEnd : source.utf8ByteSize = cursor.offset + byteSize cursor.rest := by
    obtain ⟨ahead, isSource, isOffset⟩ := placed
    rw [utf8ByteSize_eq, isSource, Cursor.byteSize_append, isOffset]
  rw [isEnd]
  exact placed.chars cursor.rest [] (List.append_nil _).symm

theorem offset_advance_length {passage rest : List Char} (isRest : cursor.rest = passage ++ rest) :
    (cursor.advance passage.length).offset = cursor.offset + byteSize passage := by
  show cursor.offset + byteSize (cursor.rest.take passage.length) = _
  rw [isRest, List.take_left]

/-- A span cut behind a passage that it starts with. -/
theorem At.chars_split {passage rest : List Char} {stop : Nat}
    (placed : At source cursor) (isRest : cursor.rest = passage ++ rest)
    (before : cursor.offset + byteSize passage ≤ stop) :
    (⟨cursor.offset, stop⟩ : Span).chars source
      = passage ++ (⟨cursor.offset + byteSize passage, stop⟩ : Span).chars source := by
  have isSize : stop - cursor.offset
      = byteSize passage + (stop - (cursor.offset + byteSize passage)) := by omega
  have behind : (cursor.advance passage.length).rest = rest := by
    rw [Cursor.advance_rest, isRest, List.drop_left]
  simp only [Span.chars]
  rw [placed.dropBytes, isSize, ← offset_advance_length isRest, (placed.advance passage.length).dropBytes, behind, isRest,
    takeBytes_append]

def Span.shift (offset : Nat) (span : Span) : Span :=
  ⟨offset + span.start, offset + span.stop⟩

/-- **A span that lies in some lines** has the same characters wherever these lines
stand. -/
theorem At.chars_shift (placed : At source cursor) {lines later : List Char}
    (isRest : cursor.rest = lines ++ later) {span : Span} (within : span.stop ≤ byteSize lines) :
    (span.shift cursor.offset).chars source = span.chars (String.ofList lines) := by
  have sameSize : cursor.offset + span.stop - (cursor.offset + span.start)
      = span.stop - span.start := by omega
  obtain ⟨ahead, isSource, isOffset⟩ := placed
  simp only [Span.chars, Span.shift, sameSize, String.toList_ofList]
  rw [isSource, isOffset, dropBytes_append, isRest]
  by_cases ordered : span.start ≤ span.stop
  · have left := byteSize_dropBytes_ge span.start lines
    rw [dropBytes_append_of_le (by omega), takeBytes_append_of_le (by omega)]
  · rw [Nat.sub_eq_zero_of_le (by omega), takeBytes_zero, takeBytes_zero]

theorem chars_of_le {start stop : Nat} (before : stop ≤ start) :
    (⟨start, stop⟩ : Span).chars source = [] := by
  simp only [Span.chars, Nat.sub_eq_zero_of_le before, takeBytes_zero]

/-! ## The first column -/

theorem Position.after_concat (front : List Char) (c : Char) :
    Position.after (front ++ [c]) = (Position.after front).advance c := by
  rw [Position.after, List.foldl_append]
  rfl

private theorem Position.column_pos (chars : List Char) : 0 < (Position.after chars).column := by
  induction chars using List.reverseRecOn with
  | nil => decide
  | append_singleton front c inductionHypothesis =>
      rw [after_concat, advance]
      split
      · exact Nat.one_pos
      · exact Nat.succ_pos _

/-- Only the start of the text and what follows a line feed is in the first column. -/
theorem Position.endsLine_of_column {chars : List Char}
    (first : (Position.after chars).column = 1) : EndsLine chars := by
  induction chars using List.reverseRecOn with
  | nil => exact Or.inl rfl
  | append_singleton front c inductionHypothesis =>
      have positive := column_pos front
      rw [after_concat, advance] at first
      split at first
      · next feed => exact Or.inr ⟨front, by rw [feed]⟩
      · dsimp only at first
        omega

/-- A line starts at a place in the first column. -/
theorem At.endsLine {ahead : List Char} (isSource : source.toList = ahead ++ cursor.rest)
    (isOffset : cursor.offset = byteSize ahead)
    (first : (positionAt source cursor.offset).column = 1) : EndsLine ahead := by
  rw [positionAt, isSource, isOffset, takeBytes_byteSize] at first
  exact Position.endsLine_of_column first

end Tangle.Source
