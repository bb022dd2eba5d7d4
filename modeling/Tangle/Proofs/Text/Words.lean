import Tangle.Proofs.Text.Lines

/-!
Contract: the words of a text, and what they tell about the text without its blank ends.

Owns: that blanks next to a blank or at an end change no word, the words of a text line by line, and
that a trimmed text without blanks is the only word.

Does **not** own: which texts are read by their words (`Tangle.Proofs.Directive.Indentation`).
-/

set_option autoImplicit false

namespace Tangle.Text

/-! ## Words between blanks -/

theorem walk_of_visible {text : List Char} (visible : ∀ c ∈ text, isBlank c = false)
    (word : List Char) :
    words.walk word text
      = if (word.reverse ++ text).isEmpty then [] else [word.reverse ++ text] := by
  induction text generalizing word with
  | nil => simp [words.walk]
  | cons c rest inductionHypothesis =>
      rw [List.forall_mem_cons] at visible
      rw [words.walk, if_neg (by simp [visible.1]), inductionHypothesis visible.2]
      simp

/-- Text without blanks is one word, or nothing. -/
theorem words_of_visible {text : List Char} (visible : ∀ c ∈ text, isBlank c = false) :
    words text = if text.isEmpty then [] else [text] :=
  walk_of_visible visible []

private theorem walk_append_blank {c : Char} (blank : isBlank c = true) (front behind word : List Char) :
    words.walk word (front ++ c :: behind) = words.walk word front ++ words behind := by
  induction front generalizing word with
  | nil =>
      show words.walk word (c :: behind) = words.walk word [] ++ words behind
      rw [words, words.walk.eq_2, if_pos blank, words.walk.eq_1]
      split
      · rfl
      · rfl
  | cons d rest inductionHypothesis =>
      rw [List.cons_append, words.walk, words.walk]
      split
      · split
        · exact inductionHypothesis []
        · rw [inductionHypothesis [], List.cons_append]
      · exact inductionHypothesis (d :: word)

/-- **A blank ends one word and starts another.** -/
theorem words_append_blank {c : Char} (blank : isBlank c = true) (front behind : List Char) :
    words (front ++ c :: behind) = words front ++ words behind :=
  walk_append_blank blank front behind []

theorem words_blanks_append {blanks : List Char} (blank : ∀ c ∈ blanks, isBlank c = true)
    (text : List Char) : words (blanks ++ text) = words text := by
  induction blanks with
  | nil => rfl
  | cons c rest inductionHypothesis =>
      rw [List.forall_mem_cons] at blank
      rw [List.cons_append, ← inductionHypothesis blank.2]
      exact words_append_blank blank.1 [] (rest ++ text)

private theorem words_append_blanks {blanks : List Char} (blank : ∀ c ∈ blanks, isBlank c = true)
    (text : List Char) : words (text ++ blanks) = words text := by
  cases blanks with
  | nil => rw [List.append_nil]
  | cons c rest =>
      rw [List.forall_mem_cons] at blank
      have nothing : words rest = [] := by
        rw [← List.append_nil rest, words_blanks_append blank.2]
        rfl
      rw [words_append_blank blank.1, nothing, List.append_nil]

private theorem words_ne_nil {text : List Char} {c : Char} (isIn : c ∈ text) (visible : isBlank c = false) :
    words text ≠ [] := by
  have walked : ∀ (text word : List Char), word ≠ [] ∨ c ∈ text → words.walk word text ≠ [] := by
    intro text
    induction text with
    | nil =>
        intro word found
        rw [words.walk, if_neg (by simpa using found.resolve_right List.not_mem_nil)]
        exact List.cons_ne_nil _ _
    | cons d rest inductionHypothesis =>
        intro word found
        rw [words.walk]
        split
        · next blank =>
            split
            · next none =>
                refine inductionHypothesis [] (Or.inr ?_)
                rcases found with isWord | isHere
                · exact absurd (List.isEmpty_iff.mp none) isWord
                · rcases List.mem_cons.mp isHere with rfl | later
                  · rw [visible] at blank
                    cases blank
                  · exact later
            · exact List.cons_ne_nil _ _
        · exact inductionHypothesis (d :: word) (Or.inl (List.cons_ne_nil d word))
  exact walked text [] (Or.inr isIn)

/-- **The words of a text are those of its lines.** -/
theorem words_eq_flatMap (text : List Char) :
    words text = (splitChars '\n' text).flatMap words := by
  have walked : ∀ (text word first : List Char) (others : List (List Char)),
      splitChars '\n' text = first :: others →
        words.walk word text = words.walk word first ++ others.flatMap words := by
    intro text
    induction text with
    | nil =>
        intro word first others isSplit
        obtain ⟨rfl, rfl⟩ := List.cons.inj isSplit
        exact (List.append_nil _).symm
    | cons c rest inductionHypothesis =>
        intro word first others isSplit
        obtain ⟨next, later, isRest⟩ := List.exists_cons_of_ne_nil (splitChars_ne_nil '\n' rest)
        by_cases feed : c = '\n'
        · subst feed
          rw [splitChars_mark, isRest] at isSplit
          obtain ⟨rfl, rfl⟩ := List.cons.inj isSplit
          rw [← List.nil_append ('\n' :: rest), walk_append_blank (by decide)]
          exact congrArg _ (inductionHypothesis [] next later isRest)
        · obtain ⟨piece, pieces, isPiece, isWhole⟩ := splitChars_cons_of_ne feed rest
          rw [isWhole] at isSplit
          obtain ⟨rfl, rfl⟩ := List.cons.inj isSplit
          rw [words.walk, words.walk]
          split
          · split
            · exact inductionHypothesis [] piece pieces isPiece
            · rw [inductionHypothesis [] piece pieces isPiece, List.cons_append]
          · exact inductionHypothesis (c :: word) piece pieces isPiece
  obtain ⟨first, others, isSplit⟩ := List.exists_cons_of_ne_nil (splitChars_ne_nil '\n' text)
  rw [isSplit]
  exact walked text [] first others isSplit

/-! ## Trimmed texts -/

/-- Trimming takes blanks from both ends. -/
theorem exists_trim (text : String) :
    ∃ front behind, text.toList = front ++ (trim text).toList ++ behind
      ∧ (∀ c ∈ front, isBlank c = true) ∧ ∀ c ∈ behind, isBlank c = true := by
  refine ⟨text.toList.takeWhile isBlank, (text.toList.dropWhile isBlank).rtakeWhile isBlank,
    ?_, fun c => List.mem_takeWhile_imp, fun c => List.mem_rtakeWhile_imp⟩
  rw [trim_toList, List.append_assoc, List.rdropWhile_append_rtakeWhile,
    List.takeWhile_append_dropWhile]

private theorem words_trim (text : String) : words (trim text).toList = words text.toList := by
  obtain ⟨front, behind, isText, blankFront, blankBehind⟩ := exists_trim text
  rw [isText, words_append_blanks blankBehind, words_blanks_append blankFront]

private theorem trim_head (text : String) {c : Char} (isHead : (trim text).toList.head? = some c) :
    isBlank c = false := by
  rw [trim_toList] at isHead
  obtain ⟨behind, isText⟩ := List.rdropWhile_prefix isBlank (text.toList.dropWhile isBlank)
  have unblank := List.head?_dropWhile_not isBlank text.toList
  rw [← isText, List.head?_append, isHead] at unblank
  simpa using unblank

private theorem trim_last (text : String) {c : Char} (isLast : (trim text).toList.getLast? = some c) :
    isBlank c = false := by
  rw [trim_toList, List.rdropWhile, List.getLast?_reverse] at isLast
  have unblank := List.head?_dropWhile_not isBlank (text.toList.dropWhile isBlank).reverse
  rw [isLast] at unblank
  simpa using unblank

/-- A trimmed text with a blank has a word on either side of it. -/
theorem two_le_words_trim {text : String} {c : Char} (isIn : c ∈ (trim text).toList)
    (blank : isBlank c = true) : 2 ≤ (words text.toList).length := by
  obtain ⟨front, behind, isTrim⟩ := List.append_of_mem isIn
  have wordAhead : words front ≠ [] := by
    cases front with
    | nil =>
        rw [trim_head text (by rw [isTrim]; rfl)] at blank
        cases blank
    | cons first rest =>
        exact words_ne_nil List.mem_cons_self (trim_head text (by rw [isTrim]; rfl))
  have wordBehind : words behind ≠ [] := by
    rcases List.eq_nil_or_concat' behind with rfl | ⟨rest, last, rfl⟩
    · rw [trim_last text (by rw [isTrim, List.getLast?_concat])] at blank
      cases blank
    · refine words_ne_nil (List.mem_append_right _ List.mem_cons_self) (trim_last text ?_)
      rw [isTrim, ← List.cons_append, ← List.append_assoc, List.getLast?_concat]
  rw [← words_trim, isTrim, words_append_blank blank, List.length_append]
  have first := List.length_pos_iff.mpr wordAhead
  have second := List.length_pos_iff.mpr wordBehind
  omega

/-- **A trimmed text has no blanks** exactly if there is one word or none. -/
theorem trim_visible_iff (text : String) :
    (∀ c ∈ (trim text).toList, isBlank c = false) ↔ (words text.toList).length ≤ 1 := by
  constructor
  · intro visible
    rw [← words_trim, words_of_visible visible]
    split
    · exact Nat.zero_le 1
    · exact Nat.le_refl 1
  · intro few c isIn
    rw [← Bool.not_eq_true]
    intro blank
    have several := two_le_words_trim isIn blank
    omega

/-- **Texts with the same word** are the same when they are trimmed. -/
theorem trim_eq_of_words {left right : String} (same : words left.toList = words right.toList)
    (visible : ∀ c ∈ (trim left).toList, isBlank c = false) : trim left = trim right := by
  have visibleRight : ∀ c ∈ (trim right).toList, isBlank c = false := by
    rw [trim_visible_iff, ← same]
    exact (trim_visible_iff left).mp visible
  rw [← words_trim left, ← words_trim right, words_of_visible visible,
    words_of_visible visibleRight] at same
  apply String.toList_inj.mp
  split at same
  · next none =>
      split at same
      · next noneRight => rw [List.isEmpty_iff.mp none, List.isEmpty_iff.mp noneRight]
      · cases same
  · split at same
    · cases same
    · exact (List.cons.inj same).1

end Tangle.Text
