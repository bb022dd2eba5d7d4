import Mathlib.Data.List.DropRight
import Tangle.Text.Basic

/-!
Contract: how the line structure of a text follows from the pieces it is put
together from.

Owns: the pieces of a concatenation, the number of pieces, and what trimming
leaves at the end of a text.

Does **not** own: rendered blocks (`Tangle.Proofs.Generate.Layout`).

## Why one lemma carries the rest

A text that is put together from pieces has no marks of its own at the joints:
the last line of one piece runs on into the first line of the next. What runs on
is `spill`, the part of the second piece ahead of its first line feed, and
`splitChars_append_getElem?` is the only place where a joint is looked at.
-/

set_option autoImplicit false

namespace Tangle.Text

/-- The part of a text that stands ahead of its first `mark`. -/
def spill (mark : Char) (chars : List Char) : List Char :=
  chars.takeWhile (· ≠ mark)

@[simp] theorem spill_mark (mark : Char) (rest : List Char) : spill mark (mark :: rest) = [] := by
  simp [spill]

theorem splitChars_ne_nil (mark : Char) (chars : List Char) : splitChars mark chars ≠ [] := by
  cases chars with
  | nil => simp [splitChars]
  | cons c rest =>
      rw [splitChars]
      split
      · simp
      · split <;> simp

theorem splitChars_mark (mark : Char) (rest : List Char) :
    splitChars mark (mark :: rest) = [] :: splitChars mark rest := by
  simp [splitChars]

/-- A character that is no mark goes to the front of the first piece. -/
theorem splitChars_cons_of_ne {mark c : Char} (other : c ≠ mark) (rest : List Char) :
    ∃ piece pieces, splitChars mark rest = piece :: pieces
      ∧ splitChars mark (c :: rest) = (c :: piece) :: pieces := by
  obtain ⟨piece, pieces, split⟩ := List.exists_cons_of_ne_nil (splitChars_ne_nil mark rest)
  refine ⟨piece, pieces, split, ?_⟩
  rw [splitChars, if_neg other, split]

theorem splitChars_length (mark : Char) (chars : List Char) :
    (splitChars mark chars).length = chars.count mark + 1 := by
  induction chars with
  | nil => rfl
  | cons c rest inductionHypothesis =>
      by_cases isMark : c = mark
      · subst isMark
        rw [splitChars_mark, List.length_cons, inductionHypothesis, List.count_cons_self]
      · obtain ⟨piece, pieces, split, splitCons⟩ := splitChars_cons_of_ne isMark rest
        rw [split, List.length_cons] at inductionHypothesis
        rw [splitCons, List.length_cons, inductionHypothesis, List.count_cons_of_ne isMark]

/-- **Marks separate.** Pieces on the two sides of a mark know nothing of each
other. -/
theorem splitChars_append_mark (mark : Char) (left right : List Char) :
    splitChars mark (left ++ mark :: right) = splitChars mark left ++ splitChars mark right := by
  induction left with
  | nil => rw [List.nil_append, splitChars_mark]; rfl
  | cons c rest inductionHypothesis =>
      by_cases isMark : c = mark
      · subst isMark
        rw [List.cons_append, splitChars_mark, splitChars_mark, inductionHypothesis,
          List.cons_append]
      · obtain ⟨piece, pieces, split, splitCons⟩ := splitChars_cons_of_ne isMark rest
        rw [splitCons, List.cons_append, splitChars, if_neg isMark, inductionHypothesis, split]
        rfl

/-- A text without marks is one piece. -/
theorem splitChars_of_free {mark : Char} {chars : List Char} (free : mark ∉ chars) :
    splitChars mark chars = [chars] := by
  induction chars with
  | nil => rfl
  | cons c rest inductionHypothesis =>
      rw [List.mem_cons, not_or] at free
      rw [splitChars, if_neg (Ne.symm free.1), inductionHypothesis free.2]

/-- Pieces that are put together with marks between them are found again. -/
theorem splitChars_intercalate {mark : Char} {pieces : List (List Char)} (some : pieces ≠ [])
    (free : ∀ piece ∈ pieces, mark ∉ piece) :
    splitChars mark ([mark].intercalate pieces) = pieces := by
  induction pieces with
  | nil => exact absurd rfl some
  | cons first rest inductionHypothesis =>
      obtain ⟨freeFirst, freeRest⟩ := List.forall_mem_cons.mp free
      by_cases only : rest = []
      · rw [only, List.intercalate_singleton, splitChars_of_free freeFirst]
      · rw [List.intercalate_cons_of_ne_nil only, List.append_assoc]
        show splitChars mark (first ++ mark :: [mark].intercalate rest) = first :: rest
        rw [splitChars_append_mark, splitChars_of_free freeFirst, inductionHypothesis only freeRest]
        rfl

/-- A text without marks that starts ahead of a mark ends ahead of it. -/
theorem prefix_append_mark_iff {mark : Char} {sought : List Char} (free : mark ∉ sought)
    (line later : List Char) : sought <+: line ++ mark :: later ↔ sought <+: line := by
  constructor
  · intro found
    rcases List.prefix_or_prefix_of_prefix found (List.prefix_append line (mark :: later))
      with within | ⟨rest, rfl⟩
    · exact within
    · rw [List.prefix_append_right_inj] at found
      cases rest with
      | nil => simp
      | cons first rest =>
          rw [List.cons_prefix_cons] at found
          simp [found.1] at free
  · intro found
    exact found.trans (List.prefix_append _ _)

/-- Pieces consist of characters of the text. -/
theorem mem_of_mem_splitChars {mark : Char} {chars piece : List Char}
    (member : piece ∈ splitChars mark chars) {c : Char} (isIn : c ∈ piece) : c ∈ chars := by
  induction chars generalizing piece with
  | nil => rwa [List.mem_singleton.mp member] at isIn
  | cons first rest inductionHypothesis =>
      by_cases isMark : first = mark
      · rw [isMark, splitChars_mark, List.mem_cons] at member
        rcases member with rfl | later
        · exact absurd isIn List.not_mem_nil
        · exact List.mem_cons_of_mem _ (inductionHypothesis later isIn)
      · obtain ⟨head, pieces, split, splitCons⟩ := splitChars_cons_of_ne isMark rest
        rw [splitCons, List.mem_cons] at member
        rw [split] at inductionHypothesis
        rcases member with rfl | later
        · rcases List.mem_cons.mp isIn with rfl | inHead
          · exact List.mem_cons_self
          · exact List.mem_cons_of_mem _ (inductionHypothesis List.mem_cons_self inHead)
        · exact List.mem_cons_of_mem _ (inductionHypothesis (List.mem_cons_of_mem _ later) isIn)

/-- No piece holds a mark. -/
theorem free_of_mem_splitChars {mark : Char} {chars piece : List Char}
    (member : piece ∈ splitChars mark chars) : mark ∉ piece := by
  induction chars generalizing piece with
  | nil =>
      rw [List.mem_singleton.mp member]
      exact List.not_mem_nil
  | cons c rest inductionHypothesis =>
      by_cases isMark : c = mark
      · rw [isMark, splitChars_mark, List.mem_cons] at member
        rcases member with rfl | later
        · exact List.not_mem_nil
        · exact inductionHypothesis later
      · obtain ⟨first, pieces, split, splitCons⟩ := splitChars_cons_of_ne isMark rest
        rw [splitCons, List.mem_cons] at member
        rcases member with rfl | later
        · rw [List.mem_cons, not_or]
          exact ⟨Ne.symm isMark, inductionHypothesis (split ▸ List.mem_cons_self)⟩
        · exact inductionHypothesis (split ▸ List.mem_cons_of_mem _ later)

theorem splitChars_head (mark : Char) (chars : List Char) :
    (splitChars mark chars).head? = some (spill mark chars) := by
  induction chars with
  | nil => rfl
  | cons c rest inductionHypothesis =>
      by_cases isMark : c = mark
      · subst isMark
        rw [splitChars_mark, spill_mark, List.head?_cons]
      · obtain ⟨piece, pieces, split, splitCons⟩ := splitChars_cons_of_ne isMark rest
        rw [split, List.head?_cons, Option.some.injEq] at inductionHypothesis
        rw [splitCons, List.head?_cons, inductionHypothesis]
        simp [spill, isMark]

/-- **The joint.** Up to its last piece a text keeps its pieces whatever follows it;
the last one is continued by the spill of what follows. -/
theorem splitChars_append_getElem? (mark : Char) (text later : List Char) :
    ∀ index, index ≤ text.count mark →
      (splitChars mark (text ++ later))[index]?
        = ((splitChars mark text)[index]?).map fun piece =>
            if index = text.count mark then piece ++ spill mark later else piece := by
  induction text with
  | nil =>
      intro index bound
      have atStart : index = 0 := by simpa using bound
      subst atStart
      rw [List.nil_append, ← List.head?_eq_getElem?, splitChars_head]
      rfl
  | cons c rest inductionHypothesis =>
      intro index bound
      by_cases isMark : c = mark
      · subst isMark
        rw [List.cons_append, splitChars_mark, splitChars_mark]
        rw [List.count_cons_self] at bound ⊢
        cases index with
        | zero => simp
        | succ before =>
            rw [List.getElem?_cons_succ, List.getElem?_cons_succ,
              inductionHypothesis before (by omega)]
            simp only [Nat.add_right_cancel_iff]
      · rw [List.count_cons_of_ne isMark] at bound ⊢
        obtain ⟨piece, pieces, split, splitCons⟩ := splitChars_cons_of_ne isMark rest
        obtain ⟨joined, others, splitJoined, splitConsJoined⟩ :=
          splitChars_cons_of_ne isMark (rest ++ later)
        have inner := inductionHypothesis index bound
        rw [splitJoined, split] at inner
        rw [List.cons_append, splitConsJoined, splitCons]
        cases index with
        | zero =>
            rw [List.getElem?_cons_zero, List.getElem?_cons_zero, Option.map_some,
              Option.some.injEq] at inner
            rw [List.getElem?_cons_zero, List.getElem?_cons_zero, Option.map_some, inner]
            split <;> rfl
        | succ before =>
            rw [List.getElem?_cons_succ, List.getElem?_cons_succ] at inner
            rw [List.getElem?_cons_succ, List.getElem?_cons_succ, inner]

/-! ## Whole lines

Headers, footers and separators are made of whole lines: they are empty, or they
end with a line feed. Whatever follows them starts a line of its own. -/

/-- A text that leaves its reader at the start of a line. -/
def EndsLine (chars : List Char) : Prop :=
  chars = [] ∨ ∃ before, chars = before ++ ['\n']

theorem EndsLine.append {first second : List Char} (firstEnds : EndsLine first)
    (secondEnds : EndsLine second) : EndsLine (first ++ second) := by
  rcases secondEnds with rfl | ⟨before, rfl⟩
  · rwa [List.append_nil]
  · exact Or.inr ⟨first ++ before, (List.append_assoc _ _ _).symm⟩

/-- What is left of whole lines still ends a line. -/
theorem EndsLine.drop {text : List Char} (ends : EndsLine text) (count : Nat) :
    EndsLine (text.drop count) := by
  rcases ends with rfl | ⟨start, rfl⟩
  · exact Or.inl List.drop_nil
  · by_cases within : count ≤ start.length
    · exact Or.inr ⟨start.drop count, List.drop_append_of_le_length within⟩
    · refine Or.inl (List.drop_eq_nil_of_le ?_)
      rw [List.length_append, List.length_singleton]
      omega

/-- Behind whole lines the pieces of a text are counted on. -/
theorem splitChars_behind_lines {before : List Char} (ends : EndsLine before) (text : List Char)
    (index : Nat) :
    (splitChars '\n' (before ++ text))[before.count '\n' + index]?
      = (splitChars '\n' text)[index]? := by
  rcases ends with rfl | ⟨start, rfl⟩
  · simp
  · have joined : start ++ ['\n'] ++ text = start ++ '\n' :: text := by simp
    have lines : (start ++ ['\n']).count '\n' = (splitChars '\n' start).length := by
      rw [splitChars_length, List.count_append]
      rfl
    rw [joined, splitChars_append_mark, lines, List.getElem?_append_right (by omega)]
    congr 1
    omega

/-! ## A passage on lines of its own -/

/-- `passage` stands in `text` from line `start` on, counted from one; nothing is
ahead of it on its first line, and `runOn` follows it on its last line. -/
def StandsAt (text passage : List Char) (start : Nat) (runOn : List Char) : Prop :=
  ∃ lead later, text = lead ++ passage ++ later ∧ EndsLine lead
    ∧ start = lead.count '\n' + 1 ∧ runOn = spill '\n' later

/-- The lines of a passage are lines of the text it stands in. -/
theorem StandsAt.getElem? {text passage runOn : List Char} {start : Nat}
    (stands : StandsAt text passage start runOn) {index : Nat}
    (bound : index ≤ passage.count '\n') :
    (splitChars '\n' text)[start + index - 1]?
      = ((splitChars '\n' passage)[index]?).map fun line =>
          if index = passage.count '\n' then line ++ runOn else line := by
  obtain ⟨lead, later, rfl, ends, rfl, rfl⟩ := stands
  have shifted : lead.count '\n' + 1 + index - 1 = lead.count '\n' + index := by omega
  rw [shifted, List.append_assoc, splitChars_behind_lines ends,
    splitChars_append_getElem? _ _ _ index bound]

/-- A passage ends before the text it stands in does. -/
theorem StandsAt.within {text passage runOn : List Char} {start : Nat}
    (stands : StandsAt text passage start runOn) :
    1 ≤ start ∧ start + passage.count '\n' ≤ (splitChars '\n' text).length := by
  obtain ⟨lead, later, rfl, -, rfl, -⟩ := stands
  rw [splitChars_length, List.count_append, List.count_append]
  omega

/-! ## Lines and counts of strings -/

theorem splitLines_length (text : String) : (splitLines text).length = newlineCount text + 1 := by
  rw [splitLines, List.length_map, splitChars_length]
  rfl

theorem newlineCount_append (first second : String) :
    newlineCount (first ++ second) = newlineCount first + newlineCount second := by
  rw [newlineCount, String.toList_append, List.count_append]
  rfl

theorem lineCount_le (text : String) : lineCount text ≤ newlineCount text + 1 := by
  unfold lineCount
  split <;> omega

theorem lineCount_of_ne_nil {text : String} (visible : text.toList ≠ []) :
    lineCount text = newlineCount text + 1 := by
  rw [lineCount, if_neg (by simpa using visible)]

theorem lineCount_pos_iff (text : String) : 0 < lineCount text ↔ text.toList ≠ [] := by
  unfold lineCount
  split <;> simp_all

/-! ## Trimming -/

theorem dropTailWhile_eq_rdropWhile (drop : Char → Bool) (chars : List Char) :
    dropTailWhile drop chars = chars.rdropWhile drop := rfl

private theorem trimEnd_toList (text : String) :
    (trimEnd text).toList = text.toList.rdropWhile isBlank := by
  rw [trimEnd, mapChars, String.toList_ofList, dropTailWhile_eq_rdropWhile]

theorem trim_toList (text : String) :
    (trim text).toList = (text.toList.dropWhile isBlank).rdropWhile isBlank := by
  rw [trim, trimEnd_toList, trimStart, mapChars, String.toList_ofList]

/-- A space ahead of a word is trimmed. -/
theorem trim_space_append {word : String} (unblank : ∀ c ∈ word.toList, isBlank c = false) :
    trim (" " ++ word) = word := by
  refine String.toList_injective ?_
  rw [trim_toList, String.toList_append]
  show ((' ' :: word.toList).dropWhile isBlank).rdropWhile isBlank = _
  rw [List.dropWhile_cons_of_pos (by decide)]
  have still : word.toList.dropWhile isBlank = word.toList := by
    rw [List.dropWhile_eq_self_iff]
    intro filled
    rw [unblank _ (List.getElem_mem filled)]
    exact Bool.false_ne_true
  rw [still, List.rdropWhile_eq_self_iff]
  intro filled
  rw [unblank _ (List.getLast_mem filled)]
  exact Bool.false_ne_true

private theorem mem_dropWhile_of_not {chars : List Char} {drop : Char → Bool} {c : Char} (isIn : c ∈ chars)
    (kept : drop c = false) : c ∈ chars.dropWhile drop := by
  rw [← List.takeWhile_append_dropWhile (p := drop) (l := chars), List.mem_append] at isIn
  refine isIn.resolve_left fun isTaken => ?_
  rw [List.mem_takeWhile_imp isTaken] at kept
  exact Bool.noConfusion kept

/-- Trimming keeps what is not blank. -/
theorem mem_trim {text : String} {c : Char} (isIn : c ∈ text.toList) (visible : isBlank c = false) :
    c ∈ (trim text).toList := by
  rw [trim_toList, List.rdropWhile, List.mem_reverse]
  exact mem_dropWhile_of_not (List.mem_reverse.mpr (mem_dropWhile_of_not isIn visible)) visible

theorem trimEnd_eq_nil_iff (text : String) :
    (trimEnd text).toList = [] ↔ allBlank text = true := by
  rw [trimEnd_toList, List.rdropWhile_eq_nil_iff, allBlank, List.all_eq_true]

/-- A line feed behind a trimmed text is trimmed away again. -/
theorem trimEnd_trimEnd_append_newline (text : String) :
    trimEnd (trimEnd text ++ "\n") = trimEnd text := by
  apply String.toList_inj.mp
  rw [trimEnd_toList, String.toList_append, trimEnd_toList]
  have newline : "\n".toList = ['\n'] := rfl
  rw [newline, List.rdropWhile_concat_pos _ _ _ (by decide), List.rdropWhile_idempotent]

end Tangle.Text
