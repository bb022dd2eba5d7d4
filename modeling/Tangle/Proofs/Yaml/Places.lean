import Tangle.Yaml.Write

/-!
Contract: where a cursor stands in a text that was written.

Owns: `Cursor.At`, the view of a cursor by what is left and its column, what each step
does to it, and `Indents`, the indentation ahead of the next word of a text.

Does **not** own: what the words mean (`Tangle.Proofs.Yaml.Plain`, `Tangle.Proofs.Yaml.Quoted`).

Lines and byte offsets matter only to the age of a possible key; they are bounded, not
followed.
-/

set_option autoImplicit false

namespace Tangle.Yaml

open Write (spaces)

/-! ## Characters -/

theorem isPad_of_isBreak {c : Char} (isBroken : isBreak c = true) : isPad c = false := by
  simp only [isBreak, Bool.or_eq_true, beq_iff_eq] at isBroken
  rcases isBroken with (((rfl | rfl) | rfl) | rfl) | rfl <;> decide

theorem ne_of_isAlphanum {c d : Char} (isLetter : c.isAlphanum = true)
    (other : d.isAlphanum = false) : c ≠ d := by
  rintro rfl
  rw [isLetter] at other
  exact Bool.noConfusion other

theorem toNat_of_isAlphanum {c : Char} (isLetter : c.isAlphanum = true) :
    ((65 ≤ c.toNat ∧ c.toNat ≤ 90) ∨ (97 ≤ c.toNat ∧ c.toNat ≤ 122))
      ∨ (48 ≤ c.toNat ∧ c.toNat ≤ 57) := by
  delta Char.isAlphanum Char.isAlpha Char.isUpper Char.isLower Char.isDigit at isLetter
  simp only [Bool.or_eq_true, Bool.and_eq_true, decide_eq_true_eq, ge_iff_le,
    UInt32.le_iff_toNat_le] at isLetter
  exact isLetter

theorem isPad_of_isAlphanum {c : Char} (isLetter : c.isAlphanum = true) : isPad c = false := by
  rw [isPad, beq_false_of_ne (ne_of_isAlphanum isLetter (by decide)),
    beq_false_of_ne (ne_of_isAlphanum isLetter (by decide)), Bool.or_self]

theorem isBreak_of_isAlphanum {c : Char} (isLetter : c.isAlphanum = true) : isBreak c = false := by
  simp only [isBreak, Bool.or_eq_false_iff]
  refine ⟨⟨⟨⟨?_, ?_⟩, ?_⟩, ?_⟩, ?_⟩ <;>
    exact beq_false_of_ne (ne_of_isAlphanum isLetter (by decide))

/-- A break that is one character and enters a value as it stands. -/
structure Lasting (c : Char) : Prop where
  breaks : isBreak c = true
  notReturn : c ≠ '\r'
  notNextLine : c ≠ '\u0085'

theorem Lasting.cases {c : Char} (lasts : Lasting c) : c = '\n' ∨ c = '\u2028' ∨ c = '\u2029' := by
  have breaks := lasts.breaks
  simp only [isBreak, Bool.or_eq_true, beq_iff_eq] at breaks
  rcases breaks with (((isFeed | isReturn) | isNextLine) | isLine) | isParagraph
  · exact Or.inl isFeed
  · exact absurd isReturn lasts.notReturn
  · exact absurd isNextLine lasts.notNextLine
  · exact Or.inr (Or.inl isLine)
  · exact Or.inr (Or.inr isParagraph)

theorem lasting_feed : Lasting '\n' :=
  ⟨by decide, by decide, by decide⟩

/-- What needs no escape and breaks a line lasts. -/
theorem lasting_of_printable {c : Char} (prints : Write.isPrintable c = true)
    (breaks : isBreak c = true) : Lasting c := by
  refine ⟨breaks, ?_, ?_⟩
  · rintro rfl
    exact absurd prints (by decide)
  · rintro rfl
    exact absurd prints (by decide)

def isStart (c : Char) : Bool :=
  !(isPad c || isBreak c || c == '#' || c == '\ufeff')

theorem isStart_iff {c : Char} :
    isStart c = true ↔ isPad c = false ∧ isBreak c = false ∧ c ≠ '#' ∧ c ≠ '\ufeff' := by
  simp [isStart, and_assoc]

def Stops (text : List Char) : Prop :=
  ∀ c ∈ text.head?, isPad c = false ∧ isBreak c = false

theorem stops_cons {c : Char} {rest : List Char} (unpadded : isPad c = false)
    (unbroken : isBreak c = false) : Stops (c :: rest) := by
  rintro d ⟨⟩
  exact ⟨unpadded, unbroken⟩

/-! ## The front of a text -/

/-- Spaces in front of a text. -/
theorem exists_spaces (chars : List Char) :
    ∃ count rest, chars = spaces count ++ rest ∧ rest.head? ≠ some ' ' := by
  induction chars with
  | nil => exact ⟨0, [], rfl, by simp⟩
  | cons c rest inductionHypothesis =>
      by_cases isSpace : c = ' '
      · obtain ⟨count, behind, rfl, stops⟩ := inductionHypothesis
        exact ⟨count + 1, behind, by rw [isSpace]; rfl, stops⟩
      · exact ⟨0, c :: rest, rfl, by simpa using isSpace⟩

/-- Breaks in front of a text. -/
theorem exists_breaks (chars : List Char) :
    ∃ breaks rest, chars = breaks ++ rest ∧ (∀ c ∈ breaks, isBreak c = true)
      ∧ ∀ c ∈ rest.head?, isBreak c = false := by
  induction chars with
  | nil => exact ⟨[], [], rfl, by simp, by simp⟩
  | cons c rest inductionHypothesis =>
      cases broken : isBreak c with
      | true =>
          obtain ⟨breaks, behind, rfl, all, stops⟩ := inductionHypothesis
          exact ⟨c :: breaks, behind, rfl, List.forall_mem_cons.mpr ⟨broken, all⟩, stops⟩
      | false => exact ⟨[], c :: rest, rfl, by simp, by rintro d ⟨⟩; exact broken⟩

/-- The line in front of a text. -/
theorem exists_unbroken (chars : List Char) :
    ∃ line behind, chars = line ++ behind ∧ (∀ c ∈ line, isBreak c = false)
      ∧ ∀ c ∈ behind.head?, isBreak c = true := by
  induction chars with
  | nil => exact ⟨[], [], rfl, by simp, by simp⟩
  | cons c rest inductionHypothesis =>
      cases broken : isBreak c with
      | true => exact ⟨[], c :: rest, rfl, by simp, by rintro d ⟨⟩; exact broken⟩
      | false =>
          obtain ⟨line, behind, rfl, all, opens⟩ := inductionHypothesis
          exact ⟨c :: line, behind, rfl, List.forall_mem_cons.mpr ⟨broken, all⟩, opens⟩

/-- Spaces up to column `column`, where `rest` starts a token or is all there is. -/
structure Indents (text : List Char) (column : Nat) (rest : List Char) : Prop where
  spaced : text = spaces column ++ rest
  starts : ∀ c ∈ rest.head?, isStart c = true
  ends : rest = [] → column = 0

namespace Indents

variable {text rest : List Char} {column : Nat}

theorem stops (indents : Indents text column rest) : Stops rest := by
  intro c isHead
  have isStarting := isStart_iff.mp (indents.starts c isHead)
  exact ⟨isStarting.1, isStarting.2.1⟩

theorem nil : Indents [] 0 [] :=
  ⟨rfl, by simp, fun _ => rfl⟩

theorem of_start {c : Char} (starts : isStart c = true) (column : Nat) (rest : List Char) :
    Indents (spaces column ++ c :: rest) column (c :: rest) :=
  ⟨rfl, by rintro d ⟨⟩; exact starts, by simp⟩

end Indents

/-! ## Cursors -/

namespace Cursor

structure At (cursor : Cursor) (rest : List Char) (column : Nat) : Prop where
  rest : cursor.rest = rest
  column : cursor.mark.column = column

variable {cursor : Cursor} {rest : List Char} {column : Nat}

theorem At.peek? (stands : cursor.At rest column) : cursor.peek? = rest.head? := by
  rw [Cursor.peek?, stands.rest]

theorem At.atChar {c d : Char} (stands : cursor.At (c :: rest) column) :
    cursor.atChar d = (c == d) := by
  rw [Cursor.atChar, stands.peek?, List.head?_cons]
  rfl

theorem At.ahead? (stands : cursor.At rest column) (distance : Nat) :
    cursor.ahead? distance = rest[distance]? := by
  rw [Cursor.ahead?, stands.rest]

theorem At.isEnd {c : Char} (stands : cursor.At (c :: rest) column) : cursor.isEnd = false := by
  rw [Cursor.isEnd, stands.rest, List.isEmpty_cons]

/-- Document markers stand in the first column. -/
theorem At.no_documentMarker (stands : cursor.At rest column) (inside : 0 < column) (c : Char) :
    cursor.atDocumentMarker c = false := by
  have apart : (cursor.mark.column == 0) = false := by
    rw [stands.column]
    exact beq_false_of_ne (Nat.ne_of_gt inside)
  rw [atDocumentMarker, apart, Bool.false_and, Bool.false_and]

theorem At.no_anyDocumentMarker (stands : cursor.At rest column) (inside : 0 < column) :
    cursor.atAnyDocumentMarker = false := by
  rw [atAnyDocumentMarker, stands.no_documentMarker inside, stands.no_documentMarker inside,
    Bool.or_self]

theorem At.no_documentMarker_of_ne {c d : Char} (stands : cursor.At (c :: rest) column)
    (other : d ≠ c) : cursor.atDocumentMarker d = false := by
  rw [atDocumentMarker, stands.rest, List.isPrefixOf_cons_cons, beq_false_of_ne other, Bool.false_and,
    Bool.and_false, Bool.false_and]

theorem At.no_anyDocumentMarker_of_isAlphanum {c : Char} (stands : cursor.At (c :: rest) column)
    (isLetter : c.isAlphanum = true) : cursor.atAnyDocumentMarker = false := by
  rw [atAnyDocumentMarker,
    stands.no_documentMarker_of_ne (ne_of_isAlphanum isLetter (by decide)).symm,
    stands.no_documentMarker_of_ne (ne_of_isAlphanum isLetter (by decide)).symm, Bool.or_self]

theorem At.skip {c : Char} (stands : cursor.At (c :: rest) column) :
    cursor.skip.At rest (column + 1) := by
  constructor
  · rw [Cursor.skip, stands.rest]
  · rw [Cursor.skip, stands.rest, ← stands.column]

theorem At.skipMany (word : List Char) :
    ∀ {cursor : Cursor} {column : Nat}, cursor.At (word ++ rest) column →
      (Cursor.skipMany word.length cursor).At rest (column + word.length) := by
  induction word with
  | nil => exact fun stands => stands
  | cons c word inductionHypothesis =>
      intro cursor column stands
      have behind := inductionHypothesis stands.skip
      rwa [Nat.add_assoc, Nat.add_comm 1] at behind

theorem takeWhile_of_stop {keep : Char → Bool} {word rest : List Char}
    (kept : ∀ c ∈ word, keep c = true) (stopped : ∀ c ∈ rest.head?, keep c = false) :
    (word ++ rest).takeWhile keep = word := by
  rw [List.takeWhile_append_of_pos kept]
  have none : rest.takeWhile keep = [] := by
    cases rest with
    | nil => rfl
    | cons c rest => rw [List.takeWhile_cons, if_neg (by simp [stopped c rfl])]
  rw [none, List.append_nil]

theorem At.skipWhile (keep : Char → Bool) (word : List Char)
    (stands : cursor.At (word ++ rest) column) (kept : ∀ c ∈ word, keep c = true)
    (stopped : ∀ c ∈ rest.head?, keep c = false) :
    (cursor.skipWhile keep).At rest (column + word.length) := by
  rw [Cursor.skipWhile, stands.rest, takeWhile_of_stop kept stopped]
  exact At.skipMany word stands

theorem At.skipLine {c : Char} (stands : cursor.At (c :: rest) column) (lasts : Lasting c) :
    cursor.skipLine.At rest 0 := by
  have step : cursor.skipLine
      = ⟨rest, ⟨cursor.mark.index + c.utf8Size, cursor.mark.line + 1, 0⟩⟩ := by
    rw [Cursor.skipLine.eq_def, stands.rest]
    split
    · next pair => exact absurd (List.cons.inj pair).1 lasts.notReturn
    · next other =>
        obtain ⟨rfl, rfl⟩ := List.cons.inj other
        rw [if_pos lasts.breaks]
    · next none => exact absurd none (List.cons_ne_nil c rest)
  rw [step]
  exact ⟨rfl, rfl⟩

theorem At.breakText {c : Char} (stands : cursor.At (c :: rest) column) (lasts : Lasting c) :
    cursor.breakText = [c] := by
  rw [Cursor.breakText, stands.peek?, List.head?_cons]
  rcases lasts.cases with rfl | rfl | rfl <;> decide

/-! ## Lines and bytes passed -/

theorem skip_line (cursor : Cursor) : cursor.skip.mark.line = cursor.mark.line := by
  rw [Cursor.skip]
  split <;> rfl

private theorem skip_index_le (cursor : Cursor) : cursor.skip.mark.index ≤ cursor.mark.index + 4 := by
  rw [Cursor.skip]
  split
  · omega
  · next c rest _ =>
      have small : c.utf8Size ≤ 4 := Char.utf8Size_le_four c
      exact Nat.add_le_add_left small _

theorem skipMany_line (count : Nat) (cursor : Cursor) :
    (Cursor.skipMany count cursor).mark.line = cursor.mark.line := by
  induction count generalizing cursor with
  | zero => rfl
  | succ count inductionHypothesis =>
      rw [Cursor.skipMany, inductionHypothesis, skip_line]

theorem skipMany_index_le (count : Nat) (cursor : Cursor) :
    (Cursor.skipMany count cursor).mark.index ≤ cursor.mark.index + 4 * count := by
  induction count generalizing cursor with
  | zero => exact Nat.le_refl _
  | succ count inductionHypothesis =>
      have behind := inductionHypothesis cursor.skip
      have first := skip_index_le cursor
      rw [Cursor.skipMany]
      omega

end Cursor

end Tangle.Yaml
