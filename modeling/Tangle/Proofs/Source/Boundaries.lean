import Tangle.Proofs.Source.Spans

/-!
Contract: spans that can be cut out of a source.

Owns: offsets that split no character, that a span between two of them can be cut out,
`Separate`, and the characters of spans that meet.

Does **not** own: which spans a document has (`Tangle.Proofs.Document.Partition`).
-/

set_option autoImplicit false

namespace Tangle.Source

open Tangle.Text

/-! ## Boundaries -/

variable {text : String} {offset : Nat}

theorem IsBoundary.split (boundary : IsBoundary text offset) :
    ∃ ahead behind, text.toList = ahead ++ behind ∧ offset = byteSize ahead := by
  obtain ⟨behind, isText⟩ := takeBytes_prefix offset text.toList
  exact ⟨_, behind, isText.symm, boundary.symm⟩

theorem isBoundary_of_split {ahead behind : List Char} (isText : text.toList = ahead ++ behind) :
    IsBoundary text (byteSize ahead) := by
  rw [IsBoundary, isText, takeBytes_byteSize]

theorem isBoundary_zero (text : String) : IsBoundary text 0 :=
  isBoundary_of_split (List.nil_append text.toList).symm

theorem isBoundary_end (text : String) : IsBoundary text text.utf8ByteSize := by
  rw [utf8ByteSize_eq]
  exact isBoundary_of_split (List.append_nil text.toList).symm

theorem IsBoundary.le_end (boundary : IsBoundary text offset) : offset ≤ text.utf8ByteSize := by
  obtain ⟨ahead, behind, isText, isOffset⟩ := boundary.split
  rw [utf8ByteSize_eq, isText, Markdown.Cursor.byteSize_append, isOffset]
  exact Nat.le_add_right _ _

/-- Two boundaries have a run of characters between them. -/
theorem IsBoundary.between {start stop : Nat} (first : IsBoundary text start)
    (second : IsBoundary text stop) (ordered : start ≤ stop) :
    ∃ ahead passage behind, text.toList = ahead ++ (passage ++ behind)
      ∧ start = byteSize ahead ∧ stop = start + byteSize passage := by
  obtain ⟨ahead, behindFirst, isText, isStart⟩ := first.split
  obtain ⟨upTo, behind, sameText, isStop⟩ := second.split
  have early : ahead <+: upTo := by
    rcases List.prefix_or_prefix_of_prefix ⟨behindFirst, isText.symm⟩ ⟨behind, sameText.symm⟩ with
      isPrefix | ⟨passage, isAhead⟩
    · exact isPrefix
    · -- The later boundary cannot lie ahead of the earlier one, so nothing is between them.
      rw [← isAhead, Markdown.Cursor.byteSize_append] at isStart
      cases passage with
      | nil => exact ⟨[], by rw [← isAhead]; simp⟩
      | cons c rest =>
          have size := c.utf8Size_pos
          rw [byteSize] at isStart
          omega
  obtain ⟨passage, isUpTo⟩ := early
  refine ⟨ahead, passage, behind, ?_, isStart, ?_⟩
  · rw [sameText, ← isUpTo, List.append_assoc]
  · rw [isStop, ← isUpTo, Markdown.Cursor.byteSize_append, isStart]

/-- Spans that meet at a boundary have the characters of the span over both. -/
theorem chars_append {start middle stop : Nat} (first : IsBoundary text start)
    (second : IsBoundary text middle) (before : start ≤ middle) (after : middle ≤ stop) :
    (⟨start, middle⟩ : Span).chars text ++ (⟨middle, stop⟩ : Span).chars text
      = (⟨start, stop⟩ : Span).chars text := by
  obtain ⟨ahead, passage, behind, isText, rfl, rfl⟩ := first.between second before
  have placed : At text ⟨byteSize ahead, passage ++ behind⟩ := ⟨ahead, isText, rfl⟩
  have whole := placed.chars_split rfl after
  have here := placed.chars passage behind rfl
  dsimp only at whole here
  rw [whole, here]

theorem chars_whole (text : String) : (⟨0, text.utf8ByteSize⟩ : Span).chars text = text.toList :=
  (at_start text).chars_end

/-! ## Cuts -/

theorem Span.cut?_eq {span : Span} (ordered : span.start ≤ span.stop)
    (first : IsBoundary text span.start) (last : IsBoundary text span.stop) :
    span.cut? text = some (span.slice text) :=
  if_pos ⟨ordered, first, last⟩

/-! ## Spans one behind the other -/

/-- A span with something in it, between characters of the text. -/
def Span.Proper (text : String) (span : Span) : Prop :=
  span.start < span.stop ∧ IsBoundary text span.start ∧ IsBoundary text span.stop

instance (text : String) (span : Span) : Decidable (span.Proper text) :=
  inferInstanceAs (Decidable (_ ∧ _ ∧ _))

/-- Proper spans of a text that increase and do not overlap. -/
def Separate (text : String) (spans : List Span) : Prop :=
  (∀ span ∈ spans, span.Proper text) ∧ spans.Pairwise fun earlier later => earlier.stop ≤ later.start

instance (text : String) (spans : List Span) : Decidable (Separate text spans) :=
  inferInstanceAs (Decidable (_ ∧ _))

theorem separate_cons {span : Span} {rest : List Span} :
    Separate text (span :: rest)
      ↔ span.Proper text ∧ (∀ later ∈ rest, span.stop ≤ later.start) ∧ Separate text rest := by
  simp only [Separate, List.forall_mem_cons, List.pairwise_cons]
  tauto

theorem Separate.sublist {fewer spans : List Span} (separate : Separate text spans)
    (sublist : fewer.Sublist spans) : Separate text fewer :=
  ⟨fun span member => separate.1 span (sublist.subset member), separate.2.sublist sublist⟩

theorem Separate.starts {spans : List Span} (separate : Separate text spans) :
    spans.Pairwise fun earlier later => earlier.start ≤ later.start := by
  refine separate.2.imp_of_mem ?_
  intro earlier later isEarlier _ apart
  exact Nat.le_trans (Nat.le_of_lt (separate.1 earlier isEarlier).1) apart

theorem Separate.stop_le {first second : List Span} (separate : Separate text (first ++ second))
    {earlier later : Span} (isEarlier : earlier ∈ first) (isLater : later ∈ second) :
    earlier.stop ≤ later.start :=
  (List.pairwise_append.mp separate.2).2.2 earlier isEarlier later isLater

end Tangle.Source
