import Tangle.Proofs.Markdown.Reading

/-!
Contract: every reading moves on, and a kept block starts on the line it is read from.

Owns: `readBlock_shorter`, which makes the number of steps irrelevant, and
`readBlock_kept`, which says where a kept block starts and by which reader it was read.

Does **not** own: the state at that place (`Tangle.Proofs.Markdown.Edge`).
-/

set_option autoImplicit false

namespace Tangle.Markdown

open Cursor

/-! ## White space ahead of a block -/

/-- Columns are taken from spaces and tabs. -/
theorem Lead.takeColumns_pads :
    ∀ (chars : List Char) (lead : Lead) (count : Nat), lead.rest = chars →
      ∃ ahead, lead.rest = ahead ++ (takeColumns chars lead count).1.rest
        ∧ ∀ c ∈ ahead, c = ' ' ∨ c = '\t'
  | chars, lead, 0, _ => ⟨[], by rw [takeColumns, List.nil_append], by simp⟩
  | [], lead, count + 1, _ => ⟨[], by rw [takeColumns, List.nil_append]; simp, by simp⟩
  | c :: rest, lead, count + 1, isRest => by
      rw [takeColumns]
      split
      · next space =>
          obtain ⟨ahead, split, pads⟩ := takeColumns_pads rest
            { lead with rest := rest, taken := lead.taken + 1 } count rfl
          refine ⟨c :: ahead, ?_, ?_⟩
          · rw [isRest, List.cons_append, ← split]
          · rintro d (_ | member)
            · exact Or.inl space
            · exact pads d (by assumption)
      · split
        · next tab =>
            obtain ⟨ahead, split, pads⟩ := takeColumns_pads rest
              { rest := rest, taken := lead.taken + 1, tabStart := lead.taken + 1
                pending := 4 - (lead.taken - lead.tabStart) % 4
                  - min (4 - (lead.taken - lead.tabStart) % 4) (count + 1) }
              (count + 1 - min (4 - (lead.taken - lead.tabStart) % 4) (count + 1)) rfl
            refine ⟨c :: ahead, ?_, ?_⟩
            · rw [isRest, List.cons_append, ← split]
            · rintro d (_ | member)
              · exact Or.inr tab
              · exact pads d (by assumption)
        · exact ⟨[], by rw [List.nil_append], by simp⟩

private theorem blankLine?_append_pads {ahead : List Char} (pads : ∀ c ∈ ahead, c = ' ' ∨ c = '\t')
    (rest : List Char) :
    blankLine? (ahead ++ rest) = (blankLine? rest).map (ahead.length + ·) := by
  have padded : ∀ c ∈ ahead, isPad c = true := by
    intro c member
    rcases pads c member with rfl | rfl <;> rfl
  have run : countWhile isPad (ahead ++ rest) = ahead.length + countWhile isPad rest := by
    rw [countWhile, List.takeWhile_append_of_pos padded, List.length_append, countWhile]
  simp only [blankLine?, run]
  rw [← List.drop_drop, List.drop_left]
  cases lineEnd? (rest.drop (countWhile isPad rest)) with
  | none => rfl
  | some ending => simp only [Option.map_some, Nat.add_assoc]

/-- A line that is not blank has something left behind its white space. -/
theorem Lead.spaceUpTo_visible {lead : Lead} (visible : blankLine? lead.rest = none) (count : Nat) :
    blankLine? (lead.spaceUpTo count).1.rest = none := by
  obtain ⟨ahead, split, pads⟩ := takeColumns_pads lead.rest
    { lead with pending := lead.pending - min lead.pending count }
    (count - min lead.pending count) rfl
  dsimp only at split
  rw [split, blankLine?_append_pads pads, Option.map_eq_none_iff] at visible
  exact visible

private theorem ne_nil_of_visible {text : List Char} (visible : blankLine? text = none) : text ≠ [] := by
  rintro rfl
  cases visible

private theorem lineEnd?_pos {text : List Char} {length : Nat} (some_char : text ≠ [])
    (ends : lineEnd? text = some length) : 0 < length := by
  unfold lineEnd? at ends
  split at ends
  · exact absurd rfl some_char
  · cases ends; decide
  · cases ends; decide
  · cases ends; decide
  · cases ends

private theorem blankLine?_pos {text : List Char} {length : Nat} (some_char : text ≠ [])
    (blank : blankLine? text = some length) : 0 < length := by
  rw [blankLine?, Option.map_eq_some_iff] at blank
  obtain ⟨ending, ends, rfl⟩ := blank
  rcases Nat.eq_zero_or_pos (countWhile isPad text) with none_pad | pads
  · rw [none_pad, List.drop_zero] at ends
    have positive := lineEnd?_pos some_char ends
    omega
  · omega

/-! ## Progress -/

theorem firstLine_pos {text : List Char} (some_char : text ≠ []) : 0 < Table.firstLine text := by
  rw [Table.firstLine]
  rcases Nat.eq_zero_or_pos (countWhile (fun c => c != '\n' && c != '\r') text) with none_run | run
  · rw [none_run, List.drop_zero]
    obtain ⟨c, rest, rfl⟩ := List.exists_cons_of_ne_nil some_char
    have ends : ∃ ending, lineEnd? (c :: rest) = some ending := by
      by_cases feed : c = '\n'
      · exact ⟨1, by rw [feed]; rfl⟩
      · by_cases ret : c = '\r'
        · subst ret
          cases rest with
          | nil => exact ⟨1, rfl⟩
          | cons d rest =>
              by_cases feed' : d = '\n'
              · exact ⟨2, by rw [feed']; rfl⟩
              · exact ⟨1, by simp [lineEnd?, feed']⟩
        · rw [countWhile_cons] at none_run
          simp [feed, ret] at none_run
    obtain ⟨ending, isEnding⟩ := ends
    have positive := lineEnd?_pos some_char isEnding
    rw [isEnding, Option.getD_some]
    omega
  · omega

private theorem advance_length_lt {cursor : Cursor} {count : Nat} (some_char : cursor.rest ≠ [])
    (positive : 0 < count) : (cursor.advance count).rest.length < cursor.rest.length := by
  have size := List.length_pos_iff.mpr some_char
  rw [advance_rest, List.length_drop]
  omega

/-- A reader that leaves the line it starts on leaves some text behind. -/
theorem length_lt_of_reaches {cursor after : Cursor} (some_char : cursor.rest ≠ [])
    (left : Reaches cursor.nextLine after) : after.rest.length < cursor.rest.length :=
  Nat.lt_of_le_of_lt (length_le_of_reaches left) (nextLine_length_lt some_char)

private theorem paragraph_shorter (spine : Spine) {cursor : Cursor} (some_char : cursor.rest ≠ []) :
    (paragraph spine cursor).rest.length < cursor.rest.length := by
  have line := firstLine_pos some_char
  rw [paragraph]
  split
  · next head started =>
      have positive : 0 < head.length := by
        rw [Table.start?] at started
        split at started
        · cases started
        · unfold Table.head? at started
          dsimp only at started
          split at started
          · cases started
          · split at started
            · cases started
            · split at started
              · rw [← Option.some.inj started]
                dsimp only
                omega
              · cases started
      exact Nat.lt_of_le_of_lt (length_le_of_reaches (tableRows_reaches spine _ _ _ _))
        (advance_length_lt some_char positive)
  · exact Nat.lt_of_le_of_lt (length_le_of_reaches (paragraphLines_reaches spine _ _))
      (advance_length_lt some_char line)

private theorem paragraphWithDefinitions_shorter (spine : Spine) {fuel : Nat} {cursor : Cursor}
    (some_char : cursor.rest ≠ []) :
    (paragraphWithDefinitions spine (fuel + 1) cursor).rest.length < cursor.rest.length := by
  rw [paragraphWithDefinitions]
  split
  · exact paragraph_shorter spine some_char
  · next length defined =>
      have positive := (Definition.length?_bounds spine defined).1
      have behind := advance_length_lt some_char positive
      have skipped := length_le_of_reaches (reaches_skipBlankLine (cursor.advance length))
      dsimp only
      split
      · omega
      · have further := length_le_of_reaches (((reaches_skipBlankLine (cursor.advance length)).advance
          ((Spine.continued spine
            { rest := (cursor.advance length).skipBlankLine.rest }).2.space 4).1.taken).trans
          (paragraphWithDefinitions_reaches spine fuel _))
        omega

private theorem thematicBreak?_pos {text : List Char} {length : Nat}
    (breaks : thematicBreak? text = some length) : 0 < length := by
  have some_char : text ≠ [] := by
    rintro rfl
    cases breaks
  have line := firstLine_pos some_char
  unfold thematicBreak? at breaks
  split at breaks
  · cases breaks
  · split at breaks
    · dsimp only at breaks
      split at breaks
      · rw [← Option.some.inj breaks]
        exact line
      · cases breaks
    · cases breaks

private theorem indentedCode_leaves (spine : Spine) (fuel : Nat) (cursor : Cursor) (blank : Bool) :
    Reaches cursor.nextLine (indentedCode spine (fuel + 1) cursor blank).1 := by
  rw [indentedCode]
  dsimp only
  split
  · exact Reaches.refl _
  · split
    · exact Reaches.refl _
    · split
      · exact Reaches.refl _
      · exact (reaches_advance _ _).trans (indentedCode_reaches spine fuel _ _)

private theorem readContent_shorter (isMetadata : List Char → Bool) (ended : State) (indent : Nat)
    {content : Cursor} (some_char : content.rest ≠ []) :
    (readContent isMetadata ended indent content).cursor.rest.length < content.rest.length := by
  rw [readContent]
  dsimp only
  split
  · exact length_lt_of_reaches some_char (indentedCode_leaves _ _ _ _)
  · split
    · exact length_lt_of_reaches some_char
        ((metadataLines_reaches _ _ _).trans (reaches_skipBlankLine _))
    · split
      · next block after read => exact length_lt_of_reaches some_char (htmlBlock?_span read).2.2
      · split
        · next length breaks => exact advance_length_lt some_char (thematicBreak?_pos breaks)
        · split
          · exact advance_length_lt some_char (firstLine_pos some_char)
          · split
            · exact length_lt_of_reaches some_char (fencedCode_span _ _ _ _).2
            · exact paragraphWithDefinitions_shorter ended.spine some_char

/-- **Every reading takes some text.** -/
theorem readBlock_shorter (state : State) {cursor : Cursor} (some_char : cursor.rest ≠ []) :
    (readBlock state cursor).cursor.rest.length < cursor.rest.length := by
  have passes := Spine.passes_continued state.spine { rest := cursor.rest }
  have follows := openContainers_follows (cursor.rest.length + 1)
    (state.keep (Spine.continued state.spine { rest := cursor.rest }).1)
    (Spine.continued state.spine { rest := cursor.rest }).2
  rw [readBlock_eq, readBlockWith]
  dsimp only
  split
  · next inner length opened =>
      rw [opened] at follows
      obtain ⟨after, blank, -, further, -, rfl⟩ := follows
      exact advance_length_lt some_char (by omega)
  · next inner lead opened =>
      rw [opened] at follows
      have leadPasses := passes.trans follows
      split
      · next length blank =>
          refine advance_length_lt some_char ?_
          rcases Nat.eq_zero_or_pos lead.taken with none_taken | taken
          · have isRest := leadPasses.rest_eq.1
            rw [none_taken, List.drop_zero] at isRest
            have positive := blankLine?_pos (by rw [isRest]; exact some_char) blank
            omega
          · omega
      · next visible =>
          have innerVisible := Lead.spaceUpTo_visible visible 4
          obtain ⟨isInner, -, -⟩ := (leadPasses.trans (Lead.passes_spaceUpTo lead 4)).rest_eq
          have some_content : (cursor.advance (lead.spaceUpTo 4).1.taken).rest ≠ [] := by
            rw [advance_rest, ← isInner]
            exact ne_nil_of_visible innerVisible
          have shorter := readContent_shorter startsMetadata inner.finishList (lead.spaceUpTo 4).2
            some_content
          have behind := length_le_of_reaches
            (reaches_advance cursor (lead.spaceUpTo 4).1.taken)
          omega

/-! ## Kept blocks -/

/-- By which reader a block was read that starts at `content`, and what it left. -/
def KeptAt (content : Cursor) (block : Block) : Prop :=
  (∃ spine after, htmlBlock? spine content = some (block, after))
    ∨ ∃ spine fence indent, fence? content.rest = some fence
        ∧ block = (fencedCode spine fence indent content).1

theorem readContent_kept {isMetadata : List Char → Bool} {ended : State} {indent : Nat}
    {content : Cursor} {block : Block}
    (kept : (readContent isMetadata ended indent content).block = some block) :
    KeptAt content block := by
  rw [readContent] at kept
  dsimp only at kept
  split at kept
  · cases kept
  · split at kept
    · cases kept
    · split at kept
      · next found after read =>
          rw [← Option.some.inj kept]
          exact Or.inl ⟨_, after, read⟩
      · split at kept
        · cases kept
        · split at kept
          · cases kept
          · split at kept
            · next fence opens =>
                rw [← Option.some.inj kept]
                exact Or.inr ⟨_, fence, indent, opens, rfl⟩
            · cases kept

theorem htmlBlock?_isFence {spine : Spine} {cursor after : Cursor} {block : Block}
    (read : htmlBlock? spine cursor = some (block, after)) : block.isFence = false := by
  rw [htmlBlock?] at read
  dsimp only at read
  split at read
  · split at read
    · rw [← (Prod.mk.inj (Option.some.inj read)).1]
      rfl
    · split at read
      · rw [← (Prod.mk.inj (Option.some.inj read)).1]
        rfl
      · cases read
  · cases read

theorem readContent_reaches (isMetadata : List Char → Bool) (ended : State) (indent : Nat)
    (content : Cursor) : Reaches content (readContent isMetadata ended indent content).cursor := by
  rw [readContent]
  dsimp only
  split
  · exact indentedCode_reaches _ _ _ _
  · split
    · exact ((reaches_nextLine _).trans (metadataLines_reaches _ _ _)).trans
        (reaches_skipBlankLine _)
    · split
      · next block after read =>
          exact (reaches_nextLine content).trans (htmlBlock?_span read).2.2
      · split
        · exact reaches_advance _ _
        · split
          · exact reaches_textLine _
          · split
            · exact (reaches_nextLine content).trans (fencedCode_span _ _ _ _).2
            · exact paragraphWithDefinitions_reaches _ _ _

/-- **A kept block starts on the line** that its reading starts on. -/
theorem readBlockWith_kept {isMetadata : List Char → Bool} {state : State} {cursor : Cursor}
    {block : Block} (kept : (readBlockWith isMetadata state cursor).block = some block) :
    ∃ ahead, ahead ≤ cursor.rest.length ∧ '\n' ∉ cursor.rest.take ahead
      ∧ KeptAt (cursor.advance ahead) block := by
  have passes := Spine.passes_continued state.spine { rest := cursor.rest }
  have follows := openContainers_follows (cursor.rest.length + 1)
    (state.keep (Spine.continued state.spine { rest := cursor.rest }).1)
    (Spine.continued state.spine { rest := cursor.rest }).2
  rw [readBlockWith] at kept
  dsimp only at kept
  split at kept
  · cases kept
  · next inner lead opened =>
      rw [opened] at follows
      split at kept
      · cases kept
      · obtain ⟨-, within, free⟩ :=
          ((passes.trans follows).trans (Lead.passes_spaceUpTo lead 4)).rest_eq
        exact ⟨_, within, free, readContent_kept kept⟩

theorem readBlock_kept {state : State} {cursor : Cursor} {block : Block}
    (kept : (readBlock state cursor).block = some block) :
    ∃ ahead, ahead ≤ cursor.rest.length ∧ '\n' ∉ cursor.rest.take ahead
      ∧ KeptAt (cursor.advance ahead) block :=
  readBlockWith_kept kept

private theorem htmlUntil_stop (spine : Spine) (closing : List Char) :
    ∀ (fuel : Nat) (cursor : Cursor),
      ∃ later, Reaches cursor later ∧ (htmlUntil spine closing fuel cursor).1 = later.offset
  | 0, cursor => ⟨cursor, Reaches.refl cursor, rfl⟩
  | fuel + 1, cursor => by
      rw [htmlUntil]
      dsimp only
      split
      · exact ⟨_, reaches_nextLine cursor, rfl⟩
      · next lead continues =>
          have inner : Reaches cursor (cursor.nextLine.advance lead.taken) :=
            (reaches_nextLine cursor).trans (reaches_advance _ _)
          split
          · exact ⟨_, reaches_nextLine cursor, rfl⟩
          · split
            · exact ⟨_, inner, rfl⟩
            · obtain ⟨later, reached, isStop⟩ := htmlUntil_stop spine closing fuel
                (cursor.nextLine.advance lead.taken)
              exact ⟨later, inner.trans reached, isStop⟩

private theorem htmlUntilBlank_stop (spine : Spine) :
    ∀ (fuel : Nat) (cursor : Cursor),
      ∃ later, Reaches cursor later ∧ (htmlUntilBlank spine fuel cursor).1 = later.offset
  | 0, cursor => ⟨cursor, Reaches.refl cursor, rfl⟩
  | fuel + 1, cursor => by
      rw [htmlUntilBlank]
      dsimp only
      split
      · exact ⟨_, reaches_nextLine cursor, rfl⟩
      · next lead continues =>
          have inner : Reaches cursor (cursor.nextLine.advance lead.taken) :=
            (reaches_nextLine cursor).trans (reaches_advance _ _)
          split
          · exact ⟨_, reaches_nextLine cursor, rfl⟩
          · split
            · exact ⟨_, inner, rfl⟩
            · obtain ⟨later, reached, isStop⟩ := htmlUntilBlank_stop spine fuel
                (cursor.nextLine.advance lead.taken)
              exact ⟨later, inner.trans reached, isStop⟩

/-- An HTML block stops at a place of the text. -/
theorem htmlBlock?_stop {spine : Spine} {cursor after : Cursor} {block : Block}
    (read : htmlBlock? spine cursor = some (block, after)) :
    ∃ later, Reaches cursor later ∧ block.span.stop = later.offset := by
  rw [htmlBlock?] at read
  dsimp only at read
  split at read
  · split at read
    · rw [← (Prod.mk.inj (Option.some.inj read)).1]
      exact htmlUntil_stop _ _ _ _
    · split at read
      · rw [← (Prod.mk.inj (Option.some.inj read)).1]
        exact htmlUntilBlank_stop _ _ _
      · cases read
  · cases read

theorem KeptAt.start {content : Cursor} {block : Block} (kept : KeptAt content block) :
    block.span.start = content.offset := by
  rcases kept with ⟨spine, after, read⟩ | ⟨spine, fence, indent, opens, rfl⟩
  · exact (htmlBlock?_span read).2.1
  · rfl

end Tangle.Markdown
