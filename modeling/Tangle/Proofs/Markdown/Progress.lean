import Tangle.Markdown.Block

/-!
Contract: reading Markdown only moves forward.

Owns: `Cursor.Reaches`, that every reader answers with a cursor it has reached, and
that the blocks of a text start one behind the other.

Does **not** own: what the blocks contain.

Every reader moves by `Cursor.advance`, and advances add up, so "reached from" is
one relation for all of them. A block that is kept starts on a character and is left
on a later line: that is the step which makes starts strictly increasing.
-/

set_option autoImplicit false

namespace Tangle.Markdown

open Tangle.Source

/-! ## Cursors -/

namespace Cursor

theorem byteSize_append (first second : List Char) :
    Text.byteSize (first ++ second) = Text.byteSize first + Text.byteSize second := by
  induction first with
  | nil => simp [Text.byteSize]
  | cons c rest inductionHypothesis =>
      rw [List.cons_append, Text.byteSize, Text.byteSize, inductionHypothesis, Nat.add_assoc]

theorem byteSize_pos {chars : List Char} (some_char : chars ≠ []) : 0 < Text.byteSize chars := by
  cases chars with
  | nil => exact absurd rfl some_char
  | cons c rest =>
      rw [Text.byteSize]
      have size := c.utf8Size_pos
      omega

@[simp] theorem advance_rest (cursor : Cursor) (count : Nat) :
    (cursor.advance count).rest = cursor.rest.drop count := rfl

@[simp] theorem advance_zero (cursor : Cursor) : cursor.advance 0 = cursor := rfl

theorem advance_advance (cursor : Cursor) (first second : Nat) :
    (cursor.advance first).advance second = cursor.advance (first + second) := by
  simp only [advance, List.take_add, byteSize_append, List.drop_drop, Nat.add_assoc]

def Reaches (cursor later : Cursor) : Prop :=
  ∃ count, later = cursor.advance count

theorem Reaches.refl (cursor : Cursor) : Reaches cursor cursor :=
  ⟨0, rfl⟩

theorem Reaches.trans {first second third : Cursor} (before : Reaches first second)
    (after : Reaches second third) : Reaches first third := by
  obtain ⟨m, rfl⟩ := before
  obtain ⟨n, rfl⟩ := after
  exact ⟨m + n, advance_advance first m n⟩

theorem reaches_advance (cursor : Cursor) (count : Nat) : Reaches cursor (cursor.advance count) :=
  ⟨count, rfl⟩

theorem reaches_nextLine (cursor : Cursor) : Reaches cursor cursor.nextLine :=
  reaches_advance _ _

theorem reaches_skipBlankLine (cursor : Cursor) : Reaches cursor cursor.skipBlankLine :=
  reaches_advance _ _

theorem Reaches.advance {first second : Cursor} (before : Reaches first second) (count : Nat) :
    Reaches first (second.advance count) :=
  before.trans (reaches_advance _ _)

theorem Reaches.nextLine {first second : Cursor} (before : Reaches first second) :
    Reaches first second.nextLine :=
  before.trans (reaches_nextLine _)

theorem Reaches.offset_le {first second : Cursor} (reached : Reaches first second) :
    first.offset ≤ second.offset := by
  obtain ⟨count, rfl⟩ := reached
  exact Nat.le_add_right _ _

theorem lineLength_pos {text : List Char} (some_char : text ≠ []) : 0 < lineLength text := by
  cases text with
  | nil => exact absurd rfl some_char
  | cons c rest =>
      rw [lineLength]
      split <;> omega

/-- The next line is further on, unless the text is at its end. -/
theorem offset_lt_nextLine {cursor : Cursor} (some_char : cursor.rest ≠ []) :
    cursor.offset < cursor.nextLine.offset := by
  have taken : cursor.rest.take (lineLength cursor.rest) ≠ [] := by
    have positive := lineLength_pos some_char
    simp only [ne_eq, List.take_eq_nil_iff, some_char, or_false]
    omega
  have size := byteSize_pos taken
  simp only [nextLine, advance]
  omega

end Cursor

open Cursor

/-! ## Blocks that are not kept -/

theorem reaches_textLine (cursor : Cursor) : Reaches cursor (textLine cursor) :=
  reaches_advance _ _

theorem tableRows_reaches (spine : Spine) (columns : Nat) :
    ∀ (fuel missing : Nat) (cursor : Cursor),
      Reaches cursor (tableRows spine columns fuel missing cursor)
  | 0, _, cursor => Reaches.refl cursor
  | fuel + 1, missing, cursor => by
      rw [tableRows]
      split
      · exact Reaches.refl cursor
      · dsimp only
        split
        · exact Reaches.refl cursor
        · exact ((reaches_advance _ _).trans (reaches_textLine _)).trans
            (tableRows_reaches spine columns fuel _ _)

theorem paragraphLines_reaches (spine : Spine) :
    ∀ (fuel : Nat) (cursor : Cursor), Reaches cursor (paragraphLines spine fuel cursor)
  | 0, cursor => Reaches.refl cursor
  | fuel + 1, cursor => by
      rw [paragraphLines]
      dsimp only
      split
      · exact reaches_advance _ _
      · split
        · exact Reaches.refl cursor
        · split
          · exact Reaches.refl cursor
          · exact ((reaches_advance _ _).trans (reaches_textLine _)).trans
              (paragraphLines_reaches spine fuel _)

private theorem paragraph_reaches (spine : Spine) (cursor : Cursor) :
    Reaches cursor (paragraph spine cursor) := by
  rw [paragraph]
  split
  · exact (reaches_advance _ _).trans (tableRows_reaches _ _ _ _ _)
  · exact (reaches_textLine _).trans (paragraphLines_reaches _ _ _)

theorem paragraphWithDefinitions_reaches (spine : Spine) :
    ∀ (fuel : Nat) (cursor : Cursor), Reaches cursor (paragraphWithDefinitions spine fuel cursor)
  | 0, cursor => Reaches.refl cursor
  | fuel + 1, cursor => by
      rw [paragraphWithDefinitions]
      split
      · exact paragraph_reaches spine cursor
      · dsimp only
        have behind : ∀ count, Reaches cursor (cursor.advance count).skipBlankLine :=
          fun count => (reaches_advance _ _).trans (reaches_skipBlankLine _)
        split
        · exact behind _
        · exact ((behind _).advance _).trans (paragraphWithDefinitions_reaches spine fuel _)

theorem indentedCode_reaches (spine : Spine) :
    ∀ (fuel : Nat) (cursor : Cursor) (blank : Bool),
      Reaches cursor (indentedCode spine fuel cursor blank).1
  | 0, cursor, _ => Reaches.refl cursor
  | fuel + 1, cursor, blank => by
      rw [indentedCode]
      dsimp only
      split
      · exact reaches_nextLine cursor
      · split
        · exact reaches_nextLine cursor
        · split
          · exact reaches_nextLine cursor
          · exact ((reaches_nextLine cursor).advance _).trans
              (indentedCode_reaches spine fuel _ _)

theorem metadataLines_reaches (spine : Spine) :
    ∀ (fuel : Nat) (cursor : Cursor), Reaches cursor (metadataLines spine fuel cursor)
  | 0, cursor => Reaches.refl cursor
  | fuel + 1, cursor => by
      rw [metadataLines]
      split
      · exact Reaches.refl cursor
      · split
        · exact reaches_advance _ _
        · exact ((reaches_advance cursor _).nextLine).trans (metadataLines_reaches spine fuel _)

/-! ## Blocks that are kept

They are left behind the line on which they start. -/

/-- Where a reader with `fuel` steps left is at least: behind its line once it has
taken a step. -/
def firstStop (fuel : Nat) (cursor : Cursor) : Cursor :=
  if fuel = 0 then cursor else cursor.nextLine

private theorem reaches_firstStop (fuel : Nat) (cursor : Cursor) : Reaches cursor (firstStop fuel cursor) := by
  unfold firstStop
  split
  · exact Reaches.refl cursor
  · exact reaches_nextLine cursor

theorem htmlUntil_reaches (spine : Spine) (closing : List Char) :
    ∀ (fuel : Nat) (cursor : Cursor),
      Reaches (firstStop fuel cursor) (htmlUntil spine closing fuel cursor).2
  | 0, cursor => Reaches.refl cursor
  | fuel + 1, cursor => by
      show Reaches cursor.nextLine _
      rw [htmlUntil]
      dsimp only
      split
      · exact Reaches.refl _
      · split
        · exact Reaches.refl _
        · split
          · exact Reaches.refl _
          · exact ((reaches_advance _ _).trans (reaches_firstStop fuel _)).trans
              (htmlUntil_reaches spine closing fuel _)

theorem htmlUntilBlank_reaches (spine : Spine) :
    ∀ (fuel : Nat) (cursor : Cursor),
      Reaches (firstStop fuel cursor) (htmlUntilBlank spine fuel cursor).2
  | 0, cursor => Reaches.refl cursor
  | fuel + 1, cursor => by
      show Reaches cursor.nextLine _
      rw [htmlUntilBlank]
      dsimp only
      split
      · exact Reaches.refl _
      · split
        · exact Reaches.refl _
        · split
          · exact Reaches.refl _
          · exact ((reaches_advance _ _).trans (reaches_firstStop fuel _)).trans
              (htmlUntilBlank_reaches spine fuel _)

private theorem fenceLines_reaches (spine : Spine) (fence : FenceMark) (indent : Nat) :
    ∀ (fuel : Nat) (cursor : Cursor),
      Reaches cursor (fenceLines spine fence indent fuel cursor).2.2
  | 0, cursor => Reaches.refl cursor
  | fuel + 1, cursor => by
      rw [fenceLines]
      split
      · exact Reaches.refl cursor
      · dsimp only
        split
        · exact (reaches_advance _ _).trans (reaches_skipBlankLine _)
        · exact ((reaches_advance cursor _).nextLine).trans
            (fenceLines_reaches spine fence indent fuel _)

def Block.span : Block → Span
  | html span => span
  | fence _ _ span => span

theorem htmlBlock?_span {spine : Spine} {cursor : Cursor} {block : Block} {after : Cursor}
    (read : htmlBlock? spine cursor = some (block, after)) :
    cursor.rest ≠ [] ∧ block.span.start = cursor.offset ∧ Reaches cursor.nextLine after := by
  rw [htmlBlock?] at read
  dsimp only at read
  split at read
  · next rest opens =>
      have some_char : cursor.rest ≠ [] := by rw [opens]; exact List.cons_ne_nil _ _
      split at read
      · obtain ⟨rfl, rfl⟩ := Prod.mk.injEq .. ▸ Option.some.inj read
        exact ⟨some_char, rfl, htmlUntil_reaches _ _ _ _⟩
      · split at read
        · obtain ⟨rfl, rfl⟩ := Prod.mk.injEq .. ▸ Option.some.inj read
          exact ⟨some_char, rfl, htmlUntilBlank_reaches _ _ _⟩
        · exact absurd read (by simp)
  · exact absurd read (by simp)

theorem fencedCode_span (spine : Spine) (fence : FenceMark) (indent : Nat) (cursor : Cursor) :
    (fencedCode spine fence indent cursor).1.span.start = cursor.offset
      ∧ Reaches cursor.nextLine (fencedCode spine fence indent cursor).2 :=
  ⟨rfl, fenceLines_reaches spine fence indent (cursor.rest.length + 1) cursor.nextLine⟩

/-! ## One reading -/

/-- A reading stays behind the cursor, and a block it keeps starts there and is left. -/
def Reading.Moves (cursor : Cursor) (reading : Reading) : Prop :=
  Reaches cursor reading.cursor
    ∧ ∀ block ∈ reading.block,
        cursor.offset ≤ block.span.start ∧ block.span.start < reading.cursor.offset

private theorem moves_of_no_block {cursor : Cursor} {reading : Reading} (none_kept : reading.block = none)
    (reached : Reaches cursor reading.cursor) : reading.Moves cursor := by
  refine ⟨reached, ?_⟩
  intro block kept
  rw [none_kept] at kept
  exact absurd kept (by simp)

/-- A kept block that starts at `content` and is left behind its first line. -/
theorem moves_of_block {cursor content : Cursor} {reading : Reading} {kept : Block}
    (isKept : reading.block = some kept) (ahead : Reaches cursor content)
    (some_char : content.rest ≠ []) (start : kept.span.start = content.offset)
    (left : Reaches content.nextLine reading.cursor) : reading.Moves cursor := by
  refine ⟨(ahead.trans (reaches_nextLine content)).trans left, ?_⟩
  intro block isBlock
  rw [isKept, Option.mem_some_iff] at isBlock
  subst isBlock
  have behind := offset_lt_nextLine some_char
  have reached := left.offset_le
  have before := ahead.offset_le
  omega

private theorem readLeaf_moves (state : State) (lead : Lead) (cursor : Cursor) :
    (readLeaf state lead cursor).Moves cursor := by
  rw [readLeaf]
  dsimp only
  have ahead := reaches_advance cursor (lead.spaceUpTo 4).1.taken
  split
  · exact moves_of_no_block rfl (ahead.trans (indentedCode_reaches _ _ _ _))
  · split
    · refine moves_of_no_block rfl ((ahead.nextLine).trans ?_)
      exact (metadataLines_reaches _ _ _).trans (reaches_skipBlankLine _)
    · split
      · next block after read =>
          obtain ⟨some_char, start, left⟩ := htmlBlock?_span read
          exact moves_of_block rfl ahead some_char start left
      · split
        · exact moves_of_no_block rfl (ahead.advance _)
        · split
          · exact moves_of_no_block rfl (ahead.trans (reaches_textLine _))
          · split
            · next fence opens =>
                have some_char : (cursor.advance (lead.spaceUpTo 4).1.taken).rest ≠ [] := by
                  intro nothing
                  rw [nothing] at opens
                  exact absurd opens (by simp [fence?])
                obtain ⟨start, left⟩ := fencedCode_span state.finishList.spine fence
                  (lead.spaceUpTo 4).2 (cursor.advance (lead.spaceUpTo 4).1.taken)
                exact moves_of_block rfl ahead some_char start left
            · exact moves_of_no_block rfl (ahead.trans (paragraphWithDefinitions_reaches _ _ _))

theorem readBlock_moves (state : State) (cursor : Cursor) :
    (readBlock state cursor).Moves cursor := by
  rw [readBlock]
  dsimp only
  split
  · exact moves_of_no_block rfl (reaches_advance _ _)
  · split
    · exact moves_of_no_block rfl (reaches_advance _ _)
    · exact readLeaf_moves _ _ _

/-! ## The whole text -/

theorem readBlocks_starts (fuel : Nat) :
    ∀ (state : State) (cursor : Cursor),
      (∀ block ∈ readBlocks fuel state cursor, cursor.offset ≤ block.span.start)
      ∧ (readBlocks fuel state cursor).Pairwise fun earlier later =>
          earlier.span.start < later.span.start := by
  induction fuel with
  | zero => exact fun _ _ => ⟨fun _ member => absurd member List.not_mem_nil, List.Pairwise.nil⟩
  | succ fuel inductionHypothesis =>
      intro state cursor
      rw [readBlocks]
      split
      · exact ⟨fun _ member => absurd member List.not_mem_nil, List.Pairwise.nil⟩
      · obtain ⟨reached, kept⟩ := readBlock_moves state cursor
        obtain ⟨laterStarts, laterOrder⟩ :=
          inductionHypothesis (readBlock state cursor).state (readBlock state cursor).cursor
        refine ⟨?_, ?_⟩
        · intro block member
          rcases List.mem_append.mp member with here | later
          · exact (kept block (Option.mem_toList.mp here)).1
          · exact Nat.le_trans reached.offset_le (laterStarts block later)
        · refine List.pairwise_append.mpr ⟨?_, laterOrder, ?_⟩
          · cases (readBlock state cursor).block with
            | none => exact List.Pairwise.nil
            | some block => exact List.pairwise_singleton _ _
          · intro earlier here later member
            exact Nat.lt_of_lt_of_le (kept earlier (Option.mem_toList.mp here)).2
              (laterStarts later member)

/-- **Blocks come in order.** Each kept block starts behind the start of the one before. -/
theorem blocks_starts_increasing (text : String) :
    (blocks text).Pairwise fun earlier later => earlier.span.start < later.span.start :=
  (readBlocks_starts _ _ _).2

end Tangle.Markdown
