import Tangle.Proofs.Markdown.HtmlLine

/-!
Contract: which block a line starts is answered by that line.

Owns: for headings, fences, metadata ends, list items, table rows and destinations,
and for the rules on what interrupts a paragraph, that text behind the line does not
matter.

Does **not** own: HTML openings (`Tangle.Proofs.Markdown.HtmlLine`), or readers that go
on to a second line (`Tangle.Proofs.Markdown.Region`).
-/

set_option autoImplicit false

namespace Tangle.Markdown

variable {text later : List Char}

/-! ## Headings, fences, metadata -/

theorem isHeading_append (shut : Shut text later) : isHeading (text ++ later) = isHeading text := by
  have behind := shut.behind (· == '#') rfl
  simp only [isHeading, countWhile_append shut (· == '#') rfl, drop_countWhile_append]
  cases isRest : text.drop (countWhile (· == '#') text) with
  | nil =>
      rw [isRest] at behind
      rw [behind.later_eq_nil]
      rfl
  | cons c rest => rfl

theorem underline?_append (shut : Shut text later) :
    underline? (text ++ later) = underline? text := by
  cases text with
  | nil => rw [shut.later_eq_nil]; rfl
  | cons c rest =>
      rw [List.cons_append, underline?, underline?]
      by_cases mark : (c == '=' || c == '-') = true
      · rw [if_pos mark, if_pos mark]
        have stops : ('\n' == c) = false := by
          rw [beq_eq_false_iff_ne]
          rintro rfl
          exact absurd mark (by decide)
        have run := countWhile_append shut (· == c) stops
        have behind := blankLine?_append (shut.behind (· == c) stops)
        rw [← drop_countWhile_append] at behind
        rw [List.cons_append] at run behind
        simp only [run, behind]
      · rw [if_neg mark, if_neg mark]

theorem fence?_append (shut : Shut text later) : fence? (text ++ later) = fence? text := by
  cases text with
  | nil => rw [shut.later_eq_nil]; rfl
  | cons c rest =>
      rw [List.cons_append, fence?, fence?]
      by_cases mark : (c == Text.Symbol.backtick || c == '~') = true
      · rw [if_pos mark, if_pos mark]
        have stops : ('\n' == c) = false := by
          rw [beq_eq_false_iff_ne]
          rintro rfl
          exact absurd mark (by decide)
        have run := countWhile_append shut (· == c) stops
        have behind := take_lineLength_append (shut.behind (· == c) stops)
        rw [← drop_countWhile_append] at behind
        rw [List.cons_append] at run behind
        simp only [run, behind]
      · rw [if_neg mark, if_neg mark]

/-- Behind marks that are no line feeds, and the spaces that follow them. -/
theorem lineEnd?_behind_marks (shut : Shut text later) {mark : Char} (other : mark ≠ '\n')
    {width : Nat} (run : countWhile (· == mark) text = width) :
    countWhile (· == ' ') ((text ++ later).drop width) = countWhile (· == ' ') (text.drop width)
      ∧ lineEnd? ((text ++ later).drop (width + countWhile (· == ' ') (text.drop width)))
        = lineEnd? (text.drop (width + countWhile (· == ' ') (text.drop width))) := by
  subst run
  have stops : ('\n' == mark) = false := beq_eq_false_iff_ne.mpr (Ne.symm other)
  have behind := shut.behind (· == mark) stops
  rw [← List.drop_drop, ← List.drop_drop, drop_countWhile_append]
  refine ⟨countWhile_append behind (· == ' ') rfl, ?_⟩
  rw [drop_countWhile_append]
  exact lineEnd?_append (behind.behind (· == ' ') rfl)

theorem metadataEnd?_append (shut : Shut text later) :
    metadataEnd? (text ++ later) = metadataEnd? text := by
  simp only [metadataEnd?, countWhile_append shut (· == '-') rfl,
    countWhile_append shut (· == '.') rfl]
  by_cases hyphens : countWhile (· == '-') text = 3
  · obtain ⟨spaces, ends⟩ := lineEnd?_behind_marks shut (by decide) hyphens
    simp only [spaces, ends]
  · by_cases dots : countWhile (· == '.') text = 3
    · obtain ⟨spaces, ends⟩ := lineEnd?_behind_marks shut (by decide) dots
      simp only [spaces, ends]
    · simp only [hyphens, dots, decide_false, Bool.or_self, Bool.false_eq_true, if_false]

/-! ## List items -/

/-- The mark, number and width of a list marker, whatever follows it. -/
def itemMark? (text : List Char) : Option (Char × Nat × Nat) :=
  match text with
  | [] => none
  | c :: _ =>
      if isBullet c then some (c, 0, 1)
      else
        let digits := (text.take 9).takeWhile Char.isDigit
        if digits.isEmpty then none
        else
          match text.drop digits.length with
          | mark :: _ =>
              if mark == '.' || mark == ')' then
                some (mark, digits.foldl (fun value d => value * 10 + (d.toNat - 48)) 0,
                  digits.length + 1)
              else none
          | [] => none

def behindItem? (behind : List Char) : Option (List Char) :=
  if !(behind.head?.any fun c => c == ' ' || c == '\t') && (lineEnd? behind).isNone then none
  else if (blankLine? behind).isSome then some behind
  else some (behind.drop (countWhile (fun c => c == ' ' || c == '\t') behind))

private theorem listItem?_eq (text : List Char) :
    listItem? text = (itemMark? text).bind fun found =>
      (behindItem? (text.drop found.2.2)).map fun behind => (found.1, found.2.1, behind) := by
  show (match itemMark? text with | none => none | some (mark, number, width) => _) = _
  cases itemMark? text with
  | none => rfl
  | some found =>
      obtain ⟨mark, number, width⟩ := found
      simp only [Option.bind_some, behindItem?]
      split
      · rfl
      · split <;> rfl

private theorem takeWhile_take (keep : Char → Bool) (text : List Char) (count : Nat) :
    (text.take count).takeWhile keep = (text.takeWhile keep).take count := by
  induction text generalizing count with
  | nil => simp
  | cons c rest inductionHypothesis =>
      cases count with
      | zero => simp
      | succ count =>
          rw [List.take_succ_cons, List.takeWhile_cons, List.takeWhile_cons]
          split
          · rw [List.take_succ_cons, inductionHypothesis]
          · rw [List.take_nil]

/-- A list marker lies on its line. -/
theorem itemMark?_append (shut : Shut text later) :
    itemMark? (text ++ later) = itemMark? text
      ∧ ∀ found ∈ itemMark? text,
          found.2.2 ≤ text.length ∧ Shut (text.drop found.2.2) later := by
  cases text with
  | nil =>
      rw [shut.later_eq_nil]
      simp [itemMark?]
  | cons c rest =>
      have digitsAlike := takeWhile_append_shut shut Char.isDigit (by decide)
      rw [List.cons_append] at digitsAlike ⊢
      rw [itemMark?, itemMark?]
      by_cases bullet : isBullet c
      · rw [if_pos bullet, if_pos bullet]
        refine ⟨rfl, ?_⟩
        simp only [Option.mem_some_iff, forall_eq', List.length_cons, List.drop_succ_cons,
          List.drop_zero]
        refine ⟨by omega, shut.tail ?_⟩
        rintro rfl
        exact absurd bullet (by decide)
      · rw [if_neg bullet, if_neg bullet, takeWhile_take, takeWhile_take, digitsAlike]
        generalize isDigits : ((c :: rest).takeWhile Char.isDigit).take 9 = digits
        -- The digits are a start of the line, so they hold no line feed.
        have lead : digits <+: c :: rest := by
          rw [← isDigits]
          exact (List.take_prefix _ _).trans (List.takeWhile_prefix _)
        have free : '\n' ∉ (c :: rest).take digits.length := by
          rw [List.prefix_iff_eq_take.mp lead |>.symm, ← isDigits]
          intro feed
          have digit := List.all_eq_true.mp List.all_takeWhile _ (List.mem_of_mem_take feed)
          exact absurd digit (by decide)
        have behind := shut.drop free
        dsimp only
        rw [← List.cons_append, List.drop_append_of_le_length lead.length_le]
        split
        · simp
        · cases atMark : (c :: rest).drop digits.length with
          | nil =>
              rw [atMark] at behind
              rw [behind.later_eq_nil]
              simp
          | cons mark more =>
              rw [List.cons_append]
              dsimp only
              by_cases ends : (mark == '.' || mark == ')') = true
              · rw [if_pos ends]
                refine ⟨rfl, ?_⟩
                simp only [Option.mem_some_iff, forall_eq']
                rw [← List.drop_drop, atMark, List.drop_succ_cons, List.drop_zero]
                rw [atMark] at behind
                have size := congrArg List.length atMark
                rw [List.length_drop] at size
                refine ⟨by simp only [List.length_cons] at size ⊢; omega, behind.tail ?_⟩
                rintro rfl
                exact absurd ends (by decide)
              · rw [if_neg ends]
                simp

private theorem behindItem?_append (shut : Shut text later) :
    RestAlike later (behindItem? text) (behindItem? (text ++ later)) := by
  unfold behindItem?
  rw [head?_append_shut shut, lineEnd?_append shut, blankLine?_append shut,
    countWhile_append shut (fun c => c == ' ' || c == '\t') rfl, drop_countWhile_append]
  split
  · exact ⟨rfl, by simp⟩
  · split
    · exact ⟨rfl, by simpa using shut⟩
    · exact ⟨rfl, by simpa using shut.behind (fun c => c == ' ' || c == '\t') rfl⟩

private theorem listItem?_append (shut : Shut text later) :
    listItem? (text ++ later)
        = (listItem? text).map (fun found => (found.1, found.2.1, found.2.2 ++ later))
      ∧ ∀ found ∈ listItem? text, Shut found.2.2 later := by
  obtain ⟨markAlike, lies⟩ := itemMark?_append shut
  rw [listItem?_eq, listItem?_eq, markAlike]
  cases isMark : itemMark? text with
  | none => simp
  | some found =>
      obtain ⟨inside, behind⟩ := lies found (by simp [isMark])
      obtain ⟨alike, restShut⟩ := behindItem?_append behind
      simp only [Option.bind_some]
      rw [List.drop_append_of_le_length inside, alike]
      refine ⟨by simp [Option.map_map, Function.comp_def], ?_⟩
      intro item isItem
      obtain ⟨rest, isRest, rfl⟩ := Option.map_eq_some_iff.mp isItem
      exact restShut rest isRest

/-! ## Interruptions -/

def itemInterrupts (text : List Char) (inside : Bool) : Bool :=
  match listItem? text with
  | some (mark, number, behind) =>
      !inside || ((isBullet mark || number == 1) && (blankLine? behind).isNone)
  | none => false

private theorem itemInterrupts_append (shut : Shut text later) (inside : Bool) :
    itemInterrupts (text ++ later) inside = itemInterrupts text inside := by
  obtain ⟨itemAlike, itemShut⟩ := listItem?_append shut
  unfold itemInterrupts
  rw [itemAlike]
  cases isItem : listItem? text with
  | none => rfl
  | some found =>
      have behind := blankLine?_append (itemShut found isItem)
      simp only [Option.map_some, behind]

def htmlInterrupts (text : List Char) : Bool :=
  match text with
  | '<' :: rest => (Html.closing? rest).isSome || Html.startsBlockElement rest
  | _ => false

private theorem htmlInterrupts_append (shut : Shut text later) :
    htmlInterrupts (text ++ later) = htmlInterrupts text := by
  cases text with
  | nil => rw [shut.later_eq_nil]; rfl
  | cons c rest =>
      rw [List.cons_append]
      by_cases bracket : c = '<'
      · subst bracket
        have tailShut := shut.tail (by decide)
        simp only [htmlInterrupts, Html.closing?_append tailShut,
          Html.startsBlockElement_append tailShut]
      · simp [htmlInterrupts, bracket]

theorem interrupts_eq (text : List Char) (inside : Bool) :
    interrupts text inside
      = ((lineEnd? text).isSome || (thematicBreak? text).isSome || isHeading text
        || (fence? text).isSome || text.head? == some '>' || itemInterrupts text inside
        || htmlInterrupts text) := rfl

theorem interrupts_append (shut : Shut text later) (inside : Bool) :
    interrupts (text ++ later) inside = interrupts text inside := by
  rw [interrupts_eq, interrupts_eq, lineEnd?_append shut, thematicBreak?_append shut,
    isHeading_append shut, fence?_append shut, head?_append_shut shut,
    itemInterrupts_append shut, htmlInterrupts_append shut]

/-! ## Table rows -/

namespace Table

theorem firstLine_append (shut : Shut text later) : firstLine (text ++ later) = firstLine text := by
  simp only [firstLine, countWhile_append shut (fun c => c != '\n' && c != '\r') rfl,
    drop_countWhile_append,
    lineEnd?_append (shut.behind (fun c => c != '\n' && c != '\r') rfl)]

private theorem pipesFrom_append :
    ∀ {text : List Char} (escaped : Bool) (found : Pipes), Shut text later →
      Shut found.behind later →
      pipesFrom escaped (text ++ later) ⟨found.count, found.behind ++ later⟩
          = ⟨(pipesFrom escaped text found).count, (pipesFrom escaped text found).behind ++ later⟩
        ∧ Shut (pipesFrom escaped text found).behind later
  | [], escaped, found, shut, foundShut => by
      rw [shut.later_eq_nil]
      exact ⟨by simp [pipesFrom], Shut.nil _⟩
  | c :: rest, escaped, found, shut, foundShut => by
      rw [List.cons_append, pipesFrom, pipesFrom]
      by_cases ends : (c == '\n' || c == '\r') = true
      · rw [if_pos ends, if_pos ends]
        exact ⟨rfl, foundShut⟩
      · have tailShut : Shut rest later := by
          refine shut.tail ?_
          rintro rfl
          exact ends (by decide)
        rw [if_neg ends, if_neg ends]
        split
        · exact pipesFrom_append false ⟨found.count + 1, rest⟩ tailShut tailShut
        · exact pipesFrom_append _ found tailShut foundShut

theorem pipes_append (shut : Shut text later) :
    pipes (text ++ later) = ⟨(pipes text).count, (pipes text).behind ++ later⟩
      ∧ Shut (pipes text).behind later :=
  pipesFrom_append false { behind := text } shut shut

private theorem cells_append (shut : Shut text later) (leading : Bool) :
    cells leading (pipes (text ++ later)) = cells leading (pipes text) := by
  obtain ⟨alike, behind⟩ := pipes_append shut
  simp only [cells, alike, blankLine?_append behind]

theorem headerCells_append (shut : Shut text later) :
    headerCells (text ++ later) = headerCells text := by
  rw [headerCells, countWhile_append shut isPad rfl, drop_countWhile_append,
    head?_append_shut (shut.behind isPad rfl), cells_append shut]
  rfl

theorem rowCells_append (shut : Shut text later) : rowCells (text ++ later) = rowCells text := by
  rw [rowCells, head?_append_shut shut, cells_append shut]
  rfl

/-- The columns and length of a delimiter row, from its first visible character on. -/
def delimiters? (body : List Char) : Option (Nat × Nat) :=
  let opening := body.head? == some '|'
  let cells := if opening then body.drop 1 else body
  let line := cells.takeWhile fun c => c != '\n' && c != '\r'
  match Delimiters.read { pipe := opening } line with
  | none => none
  | some row =>
      let columns := if row.fresh then row.columns else row.columns + 1
      let hyphen := if row.fresh then row.hyphen else row.hyphen && row.hyphenHere
      if row.pipe && hyphen then
        some (columns, (if opening then 1 else 0) + line.length
          + (lineEnd? (cells.drop line.length)).getD 0)
      else none

private theorem delimiters?_append (shut : Shut text later) :
    delimiters? (text ++ later) = delimiters? text := by
  have line : ∀ {cells : List Char}, Shut cells later →
      ((cells ++ later).takeWhile fun c => c != '\n' && c != '\r')
          = cells.takeWhile (fun c => c != '\n' && c != '\r')
        ∧ lineEnd? ((cells ++ later).drop
              (cells.takeWhile fun c => c != '\n' && c != '\r').length)
          = lineEnd? (cells.drop (cells.takeWhile fun c => c != '\n' && c != '\r').length) := by
    intro cells cellsShut
    have behind := cellsShut.behind (fun c => c != '\n' && c != '\r') rfl
    have moved := drop_countWhile_append (fun c => c != '\n' && c != '\r') cells later
    rw [countWhile] at behind moved
    rw [moved]
    exact ⟨takeWhile_append_shut cellsShut _ rfl, lineEnd?_append behind⟩
  unfold delimiters?
  rw [head?_append_shut shut]
  by_cases opening : (text.head? == some '|') = true
  · cases text with
    | nil => simp at opening
    | cons c rest =>
        have tailShut : Shut rest later := by
          refine shut.tail ?_
          rintro rfl
          simp at opening
        simp only [opening, if_true, List.cons_append, List.drop_succ_cons, List.drop_zero,
          (line tailShut).1, (line tailShut).2]
  · simp only [opening, if_false, (line shut).1, (line shut).2, Bool.false_eq_true]

theorem delimiters?_le {columns length : Nat} (read : delimiters? text = some (columns, length)) :
    length ≤ text.length := by
  have line : ∀ cells : List Char,
      (cells.takeWhile fun c => c != '\n' && c != '\r').length
        + (lineEnd? (cells.drop (cells.takeWhile fun c => c != '\n' && c != '\r').length)).getD 0
          ≤ cells.length := by
    intro cells
    have run := countWhile_le (fun c => c != '\n' && c != '\r') cells
    rw [countWhile] at run
    cases ends : lineEnd? (cells.drop (cells.takeWhile fun c => c != '\n' && c != '\r').length) with
    | none => simpa using run
    | some ending =>
        have within := lineEnd?_le ends
        rw [List.length_drop] at within
        rw [Option.getD_some]
        omega
  unfold delimiters? at read
  dsimp only at read
  split at read
  · cases read
  · rw [Option.ite_none_right_eq_some] at read
    obtain ⟨-, rfl⟩ := Prod.mk.injEq .. ▸ Option.some.inj read.2
    by_cases opening : (text.head? == some '|') = true
    · simp only [opening, if_true]
      have within := line (text.drop 1)
      have some_char : text.length ≠ 0 := by
        intro nothing
        rw [List.length_eq_zero_iff.mp nothing] at opening
        exact absurd opening (by decide)
      rw [List.length_drop] at within
      omega
    · simp only [opening, Bool.false_eq_true, if_false]
      have within := line text
      omega

theorem delimiterRow?_eq (text : List Char) :
    delimiterRow? text =
      if (indentation 4 text).2 > 3 || (text.drop (indentation 4 text).1).isEmpty then none
      else (delimiters? (text.drop (indentation 4 text).1)).map fun found =>
        (found.1, (indentation 4 text).1 + found.2) := by
  unfold delimiterRow? delimiters?
  obtain ⟨skipped, width⟩ := indentation 4 text
  dsimp only
  split
  · rfl
  · cases opening : (text.drop skipped).head? == some '|' with
    | true =>
        simp only [if_true]
        cases Delimiters.read _ _ with
        | none => rfl
        | some row =>
            dsimp only
            split <;> split <;> simp [List.drop_drop, Nat.add_assoc]
    | false =>
        simp only [Bool.false_eq_true, if_false]
        cases Delimiters.read _ _ with
        | none => rfl
        | some row =>
            dsimp only
            split <;> split <;> simp [List.drop_drop, Nat.add_assoc]

theorem indentation_append (shut : Shut text later) :
    indentation 4 (text ++ later) = indentation 4 text
      ∧ (indentation 4 text).1 ≤ text.length
      ∧ Shut (text.drop (indentation 4 text).1) later := by
  have alike := @Lead.spaceUpTo_before { rest := text } later shut 4
  obtain ⟨isRest, inside, -⟩ := (Lead.passes_spaceUpTo { rest := text } 4).rest_eq
  have behind := (Lead.passes_spaceUpTo { rest := text } 4).shut shut
  rw [isRest] at behind
  refine ⟨?_, inside, behind⟩
  unfold indentation
  rw [show ({ rest := text ++ later } : Lead) = Lead.before { rest := text } later from rfl, alike]
  rfl

theorem delimiterRow?_append (shut : Shut text later) :
    delimiterRow? (text ++ later) = delimiterRow? text := by
  obtain ⟨alike, inside, behind⟩ := indentation_append shut
  have empty : ((text.drop (indentation 4 text).1) ++ later).isEmpty
      = (text.drop (indentation 4 text).1).isEmpty := by
    cases isBody : text.drop (indentation 4 text).1 with
    | nil =>
        rw [isBody] at behind
        rw [behind.later_eq_nil]
        rfl
    | cons c rest => rfl
  rw [delimiterRow?_eq, delimiterRow?_eq, alike, List.drop_append_of_le_length inside, empty,
    delimiters?_append behind]

end Table

/-! ## Destinations -/

namespace Definition

private theorem pointedDestination?_append :
    ∀ (fuel more length : Nat) {text : List Char}, text.length < fuel → text.length < more →
      Shut text later →
      pointedDestination? more length (text ++ later) = pointedDestination? fuel length text
  | fuel + 1, more + 1, length, text, enough, enoughMore, shut => by
      cases text with
      | nil => rw [shut.later_eq_nil]; rfl
      | cons c rest =>
          rw [List.cons_append, pointedDestination?, pointedDestination?]
          by_cases ends : (c == '\n' || c == '\r' || c == '<') = true
          · rw [if_pos ends, if_pos ends]
          · have tailShut : Shut rest later := by
              refine shut.tail ?_
              rintro rfl
              exact ends (by decide)
            rw [List.length_cons] at enough enoughMore
            rw [if_neg ends, if_neg ends, head?_append_shut tailShut]
            split
            · rfl
            · split
              · next escapes =>
                  rw [Bool.and_eq_true] at escapes
                  cases rest with
                  | nil => simp at escapes
                  | cons d rest =>
                      have other : d ≠ '\n' := by
                        rintro rfl
                        exact absurd escapes.2 (by rw [List.head?_cons]; decide)
                      rw [List.length_cons] at enough enoughMore
                      exact pointedDestination?_append fuel more _ (by omega) (by omega)
                        (tailShut.tail other)
              · exact pointedDestination?_append fuel more _ (by omega) (by omega) tailShut

private theorem bareDestination?_append :
    ∀ (fuel more length nesting : Nat) {text : List Char}, text.length < fuel →
      text.length < more → Shut text later →
      bareDestination? more length nesting (text ++ later)
        = bareDestination? fuel length nesting text
  | fuel + 1, more + 1, length, nesting, text, enough, enoughMore, shut => by
      cases text with
      | nil => rw [shut.later_eq_nil]; rfl
      | cons c rest =>
          rw [List.cons_append, bareDestination?, bareDestination?]
          by_cases ends : c.toNat ≤ 0x20
          · rw [if_pos ends, if_pos ends]
          · have tailShut : Shut rest later := by
              refine shut.tail ?_
              rintro rfl
              exact ends (by decide)
            rw [List.length_cons] at enough enoughMore
            have onward : ∀ length nesting,
                bareDestination? more length nesting (rest ++ later)
                  = bareDestination? fuel length nesting rest :=
              fun length nesting =>
                bareDestination?_append fuel more length nesting (by omega) (by omega) tailShut
            rw [if_neg ends, if_neg ends, head?_append_shut tailShut]
            simp only [onward]
            split
            · rfl
            · split
              · rfl
              · split
                · next escapes =>
                    rw [Bool.and_eq_true] at escapes
                    cases rest with
                    | nil => simp at escapes
                    | cons d rest =>
                        have other : d ≠ '\n' := by
                          rintro rfl
                          exact absurd escapes.2 (by rw [List.head?_cons]; decide)
                        rw [List.length_cons] at enough enoughMore
                        exact bareDestination?_append fuel more _ _ (by omega) (by omega)
                          (tailShut.tail other)
                · rfl

theorem destination?_append (shut : Shut text later) :
    destination? (text ++ later) = destination? text := by
  cases text with
  | nil => rw [shut.later_eq_nil]; rfl
  | cons c rest =>
      by_cases bracket : c = '<'
      · subst bracket
        refine pointedDestination?_append _ _ 1 (Nat.lt_succ_self _) ?_ (shut.tail (by decide))
        show rest.length < (rest ++ later).length + 1
        rw [List.length_append]
        omega
      · have bare : ∀ tail : List Char, destination? (c :: tail)
            = bareDestination? ((c :: tail).length + 1) 0 0 (c :: tail) := by
          intro tail
          unfold destination?
          split
          · next eq => exact absurd (List.cons.inj eq).1 bracket
          · rfl
        rw [List.cons_append, bare, bare, ← List.cons_append]
        refine bareDestination?_append _ _ 0 0 (Nat.lt_succ_self _) ?_ shut
        rw [List.length_append]
        omega

end Definition

end Tangle.Markdown
