import Tangle.Proofs.Text.Lines
import Tangle.Text.Replace

/-!
Contract: substitution and the pieces of a text.

Owns: that a substitution which neither searches for a mark nor inserts one acts on the pieces
between the marks, one by one.

Does **not** own: the rules of a block (`Tangle.Proofs.Generate.LocalRules`).

## What a mark does to the search

An occurrence that starts ahead of a mark ends ahead of it, because the text searched for does not
hold the mark. So the characters still to be skipped never reach across a mark, and behind it the
search starts afresh. That is the invariant of `replaceFrom_append_mark`: `skip` is at most what is
left of the piece.
-/

set_option autoImplicit false

namespace Tangle.Text

private theorem replaceFrom_of_found {find insert rest : List Char} {c : Char} (found : find <+: c :: rest) :
    replaceFrom find insert 0 (c :: rest)
      = insert ++ replaceFrom find insert (find.length - 1) rest := by
  rw [replaceFrom, if_pos (List.isPrefixOf_iff_prefix.mpr found)]

private theorem replaceFrom_of_not_found {find insert rest : List Char} {c : Char}
    (notFound : ¬ find <+: c :: rest) :
    replaceFrom find insert 0 (c :: rest) = c :: replaceFrom find insert 0 rest := by
  rw [replaceFrom, if_neg (mt List.isPrefixOf_iff_prefix.mp notFound)]

section Search

variable {mark : Char} {find : List Char} (insert : List Char)
  (searching : find ≠ []) (free : mark ∉ find)
include searching free

/-- **The search starts afresh behind a mark.** -/
theorem replaceFrom_append_mark (line later : List Char) :
    ∀ skip, skip ≤ line.length →
      replaceFrom find insert skip (line ++ mark :: later)
        = replaceFrom find insert skip line ++ mark :: replaceFrom find insert 0 later := by
  induction line with
  | nil =>
      intro skip bound
      have nothing : skip = 0 := by simpa using bound
      have notHere : ¬ find <+: mark :: later := by
        intro found
        exact searching (List.prefix_nil.mp ((prefix_append_mark_iff free [] later).mp found))
      rw [nothing, List.nil_append, replaceFrom_of_not_found notHere]
      rfl
  | cons c rest inductionHypothesis =>
      intro skip bound
      cases skip with
      | succ before =>
          rw [List.cons_append, replaceFrom, replaceFrom]
          apply inductionHypothesis
          simpa using bound
      | zero =>
          have sameSearch := prefix_append_mark_iff free (c :: rest) later
          rw [List.cons_append] at sameSearch ⊢
          by_cases found : find <+: c :: rest
          · have fits : find.length - 1 ≤ rest.length := by
              have shorter := found.length_le
              rw [List.length_cons] at shorter
              omega
            rw [replaceFrom_of_found (sameSearch.mpr found),
              replaceFrom_of_found found, inductionHypothesis _ fits, List.append_assoc]
          · rw [replaceFrom_of_not_found (mt sameSearch.mp found),
              replaceFrom_of_not_found found, inductionHypothesis 0 (Nat.zero_le _)]
            rfl

private theorem replaceChars_append_mark (line later : List Char) :
    replaceChars find insert (line ++ mark :: later)
      = replaceChars find insert line ++ mark :: replaceChars find insert later := by
  have visible : ¬ find.isEmpty = true := by simpa using searching
  rw [replaceChars, replaceChars, replaceChars, if_neg visible, if_neg visible, if_neg visible]
  exact replaceFrom_append_mark insert searching free line later 0 (Nat.zero_le _)

end Search

/-- Whatever is not inserted was there before. -/
theorem not_mem_replaceFrom {mark : Char} {find insert : List Char} (absent : mark ∉ insert) :
    ∀ (text : List Char) (skip : Nat), mark ∉ text → mark ∉ replaceFrom find insert skip text := by
  intro text
  induction text with
  | nil => simp [replaceFrom]
  | cons c rest inductionHypothesis =>
      intro skip free
      rw [List.mem_cons, not_or] at free
      cases skip with
      | succ before =>
          rw [replaceFrom]
          exact inductionHypothesis before free.2
      | zero =>
          by_cases found : find <+: c :: rest
          · rw [replaceFrom_of_found found, List.mem_append, not_or]
            exact ⟨absent, inductionHypothesis _ free.2⟩
          · rw [replaceFrom_of_not_found found, List.mem_cons, not_or]
            exact ⟨free.1, inductionHypothesis 0 free.2⟩

/-- **Substitution within pieces.** The induction is on the number of marks: the text has none, or
it is cut at its first one. -/
theorem splitChars_replaceChars {mark : Char} {find insert : List Char} (searching : find ≠ [])
    (free : mark ∉ find) (absent : mark ∉ insert) (text : List Char) :
    splitChars mark (replaceChars find insert text)
      = (splitChars mark text).map (replaceChars find insert) := by
  have ofFree : ∀ line : List Char, mark ∉ line → mark ∉ replaceChars find insert line := by
    intro line lineFree
    rw [replaceChars, if_neg (by simpa using searching)]
    exact not_mem_replaceFrom absent line 0 lineFree
  induction marks : text.count mark generalizing text with
  | zero =>
      have textFree : mark ∉ text := List.count_eq_zero.mp marks
      rw [splitChars_of_free (ofFree text textFree), splitChars_of_free textFree]
      rfl
  | succ fewer inductionHypothesis =>
      have marked : mark ∈ text := List.count_pos_iff.mp (by omega)
      obtain ⟨line, later, rfl, lineFree⟩ := List.eq_append_cons_of_mem marked
      have left : later.count mark = fewer := by
        rw [List.count_append, List.count_cons_self, List.count_eq_zero_of_not_mem lineFree] at marks
        omega
      rw [replaceChars_append_mark insert searching free, splitChars_append_mark,
        splitChars_append_mark, List.map_append, inductionHypothesis later left,
        splitChars_of_free (ofFree line lineFree), splitChars_of_free lineFree]
      rfl

theorem splitLines_replace {find insert : String} (searching : find ≠ "")
    (free : '\n' ∉ find.toList) (absent : '\n' ∉ insert.toList) (text : String) :
    splitLines (replace find insert text) = (splitLines text).map (replace find insert) := by
  have visible : find.toList ≠ [] := by simpa using searching
  simp only [splitLines, replace, String.toList_ofList,
    splitChars_replaceChars visible free absent, List.map_map]
  apply List.map_congr_left
  intro line _
  simp [replace]

/-- One character in place of another is put there wherever the other stands. -/
theorem replaceFrom_char (find insert : Char) (text : List Char) :
    replaceFrom [find] [insert] 0 text = text.map fun c => if c = find then insert else c := by
  induction text with
  | nil => rfl
  | cons c rest inductionHypothesis =>
      by_cases same : c = find
      · subst same
        have found : [c] <+: c :: rest := List.prefix_append [c] rest
        rw [replaceFrom_of_found found, List.map_cons, if_pos rfl, ← inductionHypothesis]
        rfl
      · rw [replaceFrom_of_not_found fun found => same (List.cons_prefix_cons.mp found).1.symm,
          List.map_cons, if_neg same, inductionHypothesis]

end Tangle.Text
