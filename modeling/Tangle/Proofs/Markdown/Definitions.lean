import Tangle.Proofs.Markdown.Region

/-!
Contract: the extent of a reference definition does not depend on what follows the
lines it stands on.

Owns: labels, gaps, titles and whole definitions in a longer text, and that each of
them ends within the text.

Does **not** own: the paragraph behind the definitions (`Tangle.Proofs.Markdown.Reading`).

A definition may go on over several lines. Each new line is asked whether it halts, with
one exception: a backslash in a label takes the line break behind it along. This is why
`Fits` asks for a last break that is not escaped.
-/

set_option autoImplicit false

namespace Tangle.Markdown.Definition

variable {text later : List Char} (spine : Spine)

/-! ## Labels -/

/-- What reading a label gives at the end of a line: the length of the line's end with the
markers and pads of the next line, and the text behind them. -/
def labelBreak? (text : List Char) (ending : Nat) : Option (Nat × List Char) :=
  let next := text.drop ending
  match continueLine? spine next with
  | none => none
  | some markers =>
      let content := next.drop markers
      let more := countWhile isPad content
      if (lineEnd? (content.drop more)).isSome then none
      else some (ending + markers + more, content.drop more)

private theorem labelBreak?_append {ending : Nat} (within : ending ≤ text.length) (fits : Fits text later) :
    labelBreak? spine (text ++ later) ending
        = (labelBreak? spine text ending).map (fun found => (found.1, found.2 ++ later))
      ∧ ∀ found ∈ labelBreak? spine text ending,
          found.2 = text.drop found.1 ∧ found.1 ≤ text.length ∧ Shut found.2 later := by
  unfold labelBreak?
  have nextFits := fits.drop ending
  simp only [List.drop_append_of_le_length within, continueLine?_append spine nextFits]
  cases continues : continueLine? spine (text.drop ending) with
  | none => simp
  | some markers =>
      have markersWithin := continueLine?_le spine continues
      have contentFits := nextFits.drop markers
      have contentShut : Shut ((text.drop ending).drop markers) later := by
        rcases nextFits.shut_or_halts with nextShut | ⟨nothing, -⟩
        · exact continueLine?_shut spine continues nextShut
        · rw [nothing, continueLine?_halts spine Halts.nil] at continues
          cases continues
      have behind := contentShut.behind isPad rfl
      simp only [List.drop_append_of_le_length markersWithin,
        countWhile_append contentShut isPad rfl, drop_countWhile_append, lineEnd?_append behind]
      split
      · simp
      · refine ⟨rfl, ?_⟩
        simp only [Option.mem_some_iff, forall_eq']
        have run := countWhile_le isPad ((text.drop ending).drop markers)
        rw [List.length_drop] at markersWithin
        rw [List.length_drop, List.length_drop] at run
        refine ⟨by rw [List.drop_drop, List.drop_drop, Nat.add_assoc], by omega, behind⟩

/-- A line break in a label takes at least the characters of the line's end. -/
theorem labelBreak?_passes {ending : Nat} {found : Nat × List Char}
    (read : labelBreak? spine text ending = some found) : ending ≤ found.1 := by
  unfold labelBreak? at read
  dsimp only at read
  split at read
  · cases read
  · split at read
    · cases read
    · rw [← Option.some.inj read]
      omega

/-- Reading goes on behind white space, which may hold a line end. -/
def labelSpace? (fuel : Nat) (label : Label) (text : List Char) : Option Nat :=
  let pads := countWhile isPad text
  let behind := text.drop pads
  match lineEnd? behind with
  | some ending =>
      if ending = 0 then none
      else (labelBreak? spine behind ending).bind fun found =>
        label? spine fuel (label.pass (pads + found.1)) found.2
  | none => label? spine fuel (label.pass pads) behind

private theorem label?_cons (fuel : Nat) (label : Label) (c : Char) (rest : List Char) :
    label? spine (fuel + 1) label (c :: rest) =
      if label.counted ≥ Label.limit then none
      else if c == '[' then none
      else if c == ']' then if label.visible then some (label.length + 1) else none
      else if c == Text.Symbol.backslash then
        match rest with
        | [] => none
        | d :: behind => label? spine fuel (label.takeEscaped d) behind
      else if isSpace c then labelSpace? spine fuel label (c :: rest)
      else label? spine fuel (label.take c) rest := by
  rw [label?.eq_def]
  dsimp only
  split
  · rfl
  · refine if_congr Iff.rfl rfl (if_congr Iff.rfl rfl (if_congr Iff.rfl rfl ?_))
    refine if_congr Iff.rfl ?_ rfl
    unfold labelSpace? labelBreak?
    dsimp only
    cases lineEnd? ((c :: rest).drop (countWhile isPad (c :: rest))) with
    | none => rfl
    | some ending =>
        dsimp only
        split
        · rfl
        · cases continueLine? spine
              (((c :: rest).drop (countWhile isPad (c :: rest))).drop ending) with
          | none => rfl
          | some markers =>
              dsimp only
              split
              · rfl
              · simp only [Option.bind_some, Nat.add_assoc]

/-- **Labels** are read the same in a longer text. -/
theorem label?_append :
    ∀ (fuel more : Nat) (label : Label) {text : List Char}, text.length < fuel →
      text.length < more → Shut text later → Fits text later →
      label? spine more label (text ++ later) = label? spine fuel label text
  | fuel + 1, more + 1, label, [], _, _, shut, _ => by
      rw [shut.later_eq_nil, List.append_nil, label?, label?]
  | fuel + 1, more + 1, label, c :: rest, enough, enoughMore, shut, fits => by
      have onward : ∀ (label : Label) {tail : List Char}, tail.length < (c :: rest).length →
          Shut tail later → Fits tail later →
          label? spine more label (tail ++ later) = label? spine fuel label tail :=
        fun label {tail} shorter tailShut tailFits =>
          label?_append fuel more label (by omega) (by omega) tailShut tailFits
      have tailFits : Fits rest later := fits.drop 1
      rw [List.cons_append, label?_cons, label?_cons]
      refine if_congr Iff.rfl rfl (if_congr Iff.rfl rfl (if_congr Iff.rfl rfl ?_))
      by_cases escape : (c == Text.Symbol.backslash) = true
      · rw [if_pos escape, if_pos escape]
        have isBackslash : c = Text.Symbol.backslash := beq_iff_eq.mp escape
        subst isBackslash
        have restShut := shut.tail (by decide)
        cases rest with
        | nil => rw [restShut.later_eq_nil]; rfl
        | cons d behind =>
            -- An escaped break at the end of the lines is what `Fits` excludes.
            have behindShut : Shut behind later := by
              cases behind with
              | cons e more => exact (tailFits.drop 1).shut (List.cons_ne_nil e more)
              | nil =>
                  rcases fits with nothing | ⟨ends, unescaped, -⟩
                  · exact Or.inr nothing
                  · rcases ends with none_left | ⟨start, isText⟩
                    · cases none_left
                    · have lastIs := congrArg List.getLast? isText
                      rw [List.getLast?_append] at lastIs
                      simp only [List.getLast?_cons_cons, List.getLast?_singleton,
                        Option.some_or, Option.some.injEq] at lastIs
                      subst lastIs
                      exact absurd List.suffix_rfl unescaped
            rw [List.cons_append]
            exact onward _ (by simp only [List.length_cons]; omega) behindShut (tailFits.drop 1)
      · rw [if_neg escape, if_neg escape]
        by_cases space : isSpace c = true
        · rw [if_pos space, if_pos space, ← List.cons_append]
          have behind := shut.behind isPad rfl
          have behindFits := fits.drop (countWhile isPad (c :: rest))
          simp only [labelSpace?, countWhile_append shut isPad rfl, drop_countWhile_append,
            lineEnd?_append behind]
          cases ends : lineEnd? ((c :: rest).drop (countWhile isPad (c :: rest))) with
          | none =>
              -- No line end here, so the white space is a pad and has been passed.
              refine onward _ ?_ behind behindFits
              have pad : isPad c = true := by
                by_cases isPadC : isPad c = true
                · exact isPadC
                · rw [countWhile_cons, if_neg isPadC, List.drop_zero] at ends
                  have other : c = '\n' ∨ c = '\r' := by
                    simpa [isSpace, isPadC] using space
                  rcases other with rfl | rfl
                  · cases ends
                  · unfold lineEnd? at ends
                    split at ends <;> simp_all
              rw [countWhile_cons, if_pos pad, List.drop_succ_cons, List.length_drop,
                List.length_cons]
              omega
          | some ending =>
              dsimp only
              split
              · rfl
              · next some_break =>
                  obtain ⟨alike, found⟩ := labelBreak?_append spine (lineEnd?_le ends) behindFits
                  rw [alike]
                  cases isBreak : labelBreak? spine ((c :: rest).drop
                      (countWhile isPad (c :: rest))) ending with
                  | none => rfl
                  | some place =>
                      obtain ⟨isRest, within, placeShut⟩ := found place isBreak
                      have passed := labelBreak?_passes spine isBreak
                      simp only [Option.map_some, Option.bind_some]
                      refine onward _ ?_ placeShut ?_
                      · rw [isRest, List.length_drop, List.length_drop]
                        rw [List.length_drop] at within
                        simp only [List.length_cons] at within ⊢
                        omega
                      · rw [isRest]
                        exact behindFits.drop _
        · rw [if_neg space, if_neg space]
          have other : c ≠ '\n' := by
            rintro rfl
            exact space (by decide)
          exact onward _ (by simp only [List.length_cons]; omega) (shut.tail other) tailFits

/-- `length` characters of `text`, counted on from `start`, of which the last one is
`closing`. -/
def ClosesAt (closing : Char) (text : List Char) (start length : Nat) : Prop :=
  ∃ ahead rest, text = ahead ++ closing :: rest ∧ length = start + ahead.length + 1

theorem ClosesAt.here (closing : Char) (rest : List Char) (start : Nat) :
    ClosesAt closing (closing :: rest) start (start + 1) :=
  ⟨[], rest, rfl, rfl⟩

theorem ClosesAt.behind {closing : Char} {start length n : Nat}
    (closes : ClosesAt closing (text.drop n) (start + n) length) (within : n ≤ text.length) :
    ClosesAt closing text start length := by
  obtain ⟨ahead, rest, split, isLength⟩ := closes
  refine ⟨text.take n ++ ahead, rest, ?_, ?_⟩
  · rw [List.append_assoc, ← split, List.take_append_drop]
  · rw [List.length_append, List.length_take, Nat.min_eq_left within]
    omega

/-- A label ends with its bracket. -/
theorem label?_closes :
    ∀ (fuel : Nat) (label : Label) {text : List Char} {length : Nat},
      label? spine fuel label text = some length → ClosesAt ']' text label.length length
  | 0, _, _, _, read => by cases read
  | fuel + 1, label, [], length, read => by
      rw [label?] at read
      split at read <;> cases read
  | fuel + 1, label, c :: rest, length, read => by
      rw [label?_cons] at read
      split at read
      · cases read
      · split at read
        · cases read
        · split at read
          · next isClosing =>
              split at read
              · rw [← Option.some.inj read, beq_iff_eq.mp isClosing]
                exact ClosesAt.here ']' rest _
              · cases read
          · split at read
            · cases rest with
              | nil => cases read
              | cons d behind =>
                  refine ClosesAt.behind (n := 2) (label?_closes fuel _ read) ?_
                  simp
            · split at read
              · unfold labelSpace? at read
                dsimp only at read
                have run := countWhile_le isPad (c :: rest)
                split at read
                · next ending ends =>
                    split at read
                    · cases read
                    · rw [Option.bind_eq_some_iff] at read
                      obtain ⟨place, isBreak, read⟩ := read
                      have fits : Fits ((c :: rest).drop (countWhile isPad (c :: rest))) [] :=
                        Or.inl rfl
                      obtain ⟨isRest, within, -⟩ :=
                        (labelBreak?_append spine (lineEnd?_le ends) fits).2 place isBreak
                      have closes := label?_closes fuel _ read
                      rw [isRest, List.drop_drop] at closes
                      rw [List.length_drop] at within
                      exact ClosesAt.behind closes (by omega)
                · exact ClosesAt.behind (label?_closes fuel _ read) run
              · exact ClosesAt.behind (n := 1) (label?_closes fuel _ read) (by simp)

/-! ## Gaps -/

theorem gap?_append :
    ∀ (fuel more length breaks : Nat) {text : List Char}, 1 < fuel + breaks → 1 < more + breaks →
      0 < fuel → 0 < more → Shut text later → Fits text later →
      gap? spine more length breaks (text ++ later) = gap? spine fuel length breaks text
  | fuel + 1, more + 1, length, breaks, text, enough, enoughMore, _, _, shut, fits => by
      have behind := shut.behind isPad rfl
      rw [gap?, gap?]
      simp only [countWhile_append shut isPad rfl, drop_countWhile_append, lineEnd?_append behind]
      cases ends : lineEnd? (text.drop (countWhile isPad text)) with
      | none => rfl
      | some ending =>
          dsimp only
          split
          · rfl
          · next first =>
              have within := lineEnd?_le ends
              have nextFits := (fits.drop (countWhile isPad text)).drop ending
              rw [List.drop_append_of_le_length within]
              rcases nextFits.shut_or_halts with nextShut | ⟨nothing, halts⟩
              · have passes := Spine.passes_continued spine
                  { rest := (text.drop (countWhile isPad text)).drop ending }
                have leadShut := passes.shut nextShut
                have indentedPasses := passes.trans (Lead.passes_space _ 4)
                have indentedShut := indentedPasses.shut nextShut
                have indentedFits := nextFits.drop ((Spine.continued spine
                  { rest := (text.drop (countWhile isPad text)).drop ending }).2.space 4).1.taken
                rw [← indentedPasses.rest_eq.1] at indentedFits
                simp only [Spine.continued_append spine nextShut, Lead.space_before leadShut,
                  Lead.before_rest, Lead.before_taken,
                  endsParagraph_append spine indentedShut indentedFits,
                  underline?_append indentedShut]
                split
                · rfl
                · exact gap?_append fuel more _ _ (by omega) (by omega) (by omega) (by omega)
                    indentedShut indentedFits
              · rw [nothing, List.nil_append]
                simp only [halts.continued, halts.space, endsParagraph_halts spine halts,
                  Halts.nil.continued, Halts.nil.space, endsParagraph_halts spine Halts.nil]
                rfl

/-- A gap ends at a character that is neither white space nor a line end. -/
theorem gap?_visible :
    ∀ (fuel length breaks : Nat) {text : List Char} {width total : Nat},
      gap? spine fuel length breaks text = some (width, total) →
      length ≤ width ∧ width - length ≤ text.length
        ∧ lineEnd? (text.drop (width - length)) = none
  | 0, _, _, _, _, _, read => by cases read
  | fuel + 1, length, breaks, text, width, total, read => by
      have run := countWhile_le isPad text
      rw [gap?] at read
      dsimp only at read
      split at read
      · next visible =>
          obtain ⟨rfl, rfl⟩ := Prod.mk.injEq .. ▸ Option.some.inj read
          rw [Nat.add_sub_cancel_left]
          exact ⟨Nat.le_add_right _ _, run, visible⟩
      · next ending ends =>
          split at read
          · cases read
          · split at read
            · cases read
            · have within := lineEnd?_le ends
              have passes := (Spine.passes_continued spine
                { rest := (text.drop (countWhile isPad text)).drop ending }).trans
                  (Lead.passes_space _ 4)
              obtain ⟨isRest, leadWithin, -⟩ := passes.rest_eq
              obtain ⟨ahead, bound, visible⟩ := gap?_visible fuel _ _ read
              rw [isRest, List.length_drop, List.length_drop, List.length_drop] at bound
              rw [isRest, List.drop_drop, List.drop_drop, List.drop_drop] at visible
              rw [List.length_drop] at within
              rw [List.length_drop, List.length_drop] at leadWithin
              refine ⟨by omega, by omega, ?_⟩
              rw [← visible]
              congr 2
              omega

/-! ## Titles -/

/-- A title goes on behind a line end, unless the next line ends it or is blank. -/
def titleBreak? (text : List Char) : Option (Nat × List Char) :=
  let ending := (lineEnd? text).getD 1
  match continueLine? spine (text.drop ending) with
  | none => none
  | some markers =>
      if (blankLine? ((text.drop ending).drop markers)).isSome then none
      else some (ending + markers, (text.drop ending).drop markers)

private theorem titleBody?_cons (closing c : Char) (fuel length : Nat) (rest : List Char) :
    titleBody? spine closing (fuel + 1) length (c :: rest) =
      if c == closing then some (length + 1)
      else if c == '(' && closing == ')' then none
      else if c == '\n' || c == '\r' then
        (titleBreak? spine (c :: rest)).bind fun found =>
          titleBody? spine closing fuel (length + found.1) found.2
      else if c == Text.Symbol.backslash && rest.head?.any isPunctuation then
        titleBody? spine closing fuel (length + 2) (rest.drop 1)
      else titleBody? spine closing fuel (length + 1) rest := by
  rw [titleBody?.eq_def]
  dsimp only
  refine if_congr Iff.rfl rfl (if_congr Iff.rfl rfl (if_congr Iff.rfl ?_ rfl))
  unfold titleBreak?
  dsimp only
  cases continueLine? spine ((c :: rest).drop ((lineEnd? (c :: rest)).getD 1)) with
  | none => rfl
  | some markers =>
      dsimp only
      split
      · rfl
      · simp only [Option.bind_some, Nat.add_assoc]

private theorem titleBreak?_append {c : Char} (shut : Shut (c :: text) later)
    (fits : Fits (c :: text) later) :
    titleBreak? spine (c :: text ++ later)
        = (titleBreak? spine (c :: text)).map (fun found => (found.1, found.2 ++ later))
      ∧ ∀ found ∈ titleBreak? spine (c :: text),
          found.2 = (c :: text).drop found.1 ∧ found.1 ≤ (c :: text).length
            ∧ Shut found.2 later := by
  unfold titleBreak?
  have within : (lineEnd? (c :: text)).getD 1 ≤ (c :: text).length := by
    cases ends : lineEnd? (c :: text) with
    | none => simp
    | some ending => exact lineEnd?_le ends
  have nextFits := fits.drop ((lineEnd? (c :: text)).getD 1)
  simp only [lineEnd?_append shut, List.drop_append_of_le_length within,
    continueLine?_append spine nextFits]
  cases continues : continueLine? spine ((c :: text).drop ((lineEnd? (c :: text)).getD 1)) with
  | none => simp
  | some markers =>
      have markersWithin := continueLine?_le spine continues
      have contentShut : Shut (((c :: text).drop ((lineEnd? (c :: text)).getD 1)).drop markers)
          later := by
        rcases nextFits.shut_or_halts with nextShut | ⟨nothing, -⟩
        · exact continueLine?_shut spine continues nextShut
        · rw [nothing, continueLine?_halts spine Halts.nil] at continues
          cases continues
      simp only [List.drop_append_of_le_length markersWithin, blankLine?_append contentShut]
      split
      · simp
      · refine ⟨rfl, ?_⟩
        simp only [Option.mem_some_iff, forall_eq']
        rw [List.length_drop] at markersWithin
        exact ⟨by rw [List.drop_drop], by omega, contentShut⟩

/-- A line end in a title takes at least one character. -/
theorem titleBreak?_pos {c : Char} {found : Nat × List Char}
    (isEnd : (c == '\n' || c == '\r') = true)
    (read : titleBreak? spine (c :: text) = some found) : 0 < found.1 := by
  have positive : 0 < (lineEnd? (c :: text)).getD 1 := by
    rw [Bool.or_eq_true, beq_iff_eq, beq_iff_eq] at isEnd
    rcases isEnd with rfl | rfl
    · exact Nat.one_pos
    · unfold lineEnd?
      split <;> simp_all
  unfold titleBreak? at read
  dsimp only at read
  split at read
  · cases read
  · split at read
    · cases read
    · rw [← Option.some.inj read]
      dsimp only
      omega

/-- **Titles** are read the same in a longer text. -/
theorem titleBody?_append (closing : Char) :
    ∀ (fuel more length : Nat) {text : List Char}, text.length < fuel → text.length < more →
      Shut text later → Fits text later →
      titleBody? spine closing more length (text ++ later)
        = titleBody? spine closing fuel length text
  | fuel + 1, more + 1, length, [], _, _, shut, _ => by
      rw [shut.later_eq_nil, List.append_nil, titleBody?, titleBody?]
  | fuel + 1, more + 1, length, c :: rest, enough, enoughMore, shut, fits => by
      have onward : ∀ (length : Nat) {tail : List Char}, tail.length < (c :: rest).length →
          Shut tail later → Fits tail later →
          titleBody? spine closing more length (tail ++ later)
            = titleBody? spine closing fuel length tail :=
        fun length {tail} shorter tailShut tailFits =>
          titleBody?_append closing fuel more length (by omega) (by omega) tailShut tailFits
      rw [List.cons_append, titleBody?_cons, titleBody?_cons]
      refine if_congr Iff.rfl rfl (if_congr Iff.rfl rfl ?_)
      by_cases isEnd : (c == '\n' || c == '\r') = true
      · rw [if_pos isEnd, if_pos isEnd, ← List.cons_append]
        obtain ⟨alike, found⟩ := titleBreak?_append spine shut fits
        rw [alike]
        cases isBreak : titleBreak? spine (c :: rest) with
        | none => rfl
        | some place =>
            obtain ⟨isRest, within, placeShut⟩ := found place isBreak
            have positive := titleBreak?_pos spine isEnd isBreak
            simp only [Option.map_some, Option.bind_some]
            refine onward _ ?_ placeShut ?_
            · rw [isRest, List.length_drop]
              simp only [List.length_cons] at within ⊢
              omega
            · rw [isRest]
              exact fits.drop _
      · have restShut : Shut rest later := by
          refine shut.tail ?_
          rintro rfl
          exact isEnd (by decide)
        have restFits : Fits rest later := fits.drop 1
        rw [if_neg isEnd, if_neg isEnd, head?_append_shut restShut]
        by_cases escape : (c == Text.Symbol.backslash && rest.head?.any isPunctuation) = true
        · rw [if_pos escape, if_pos escape]
          cases rest with
          | nil => simp at escape
          | cons d behind =>
              have other : d ≠ '\n' := by
                rintro rfl
                rw [Bool.and_eq_true] at escape
                exact absurd escape.2 (by rw [List.head?_cons]; decide)
              refine onward _ ?_ (restShut.tail other) (restFits.drop 1)
              show behind.length < behind.length + 1 + 1
              omega
        · rw [if_neg escape, if_neg escape]
          exact onward _ (by simp only [List.length_cons]; omega) restShut restFits

/-- A title ends with its closing mark. -/
theorem titleBody?_closes (closing : Char) :
    ∀ (fuel start : Nat) {text : List Char} {length : Nat},
      titleBody? spine closing fuel start text = some length → ClosesAt closing text start length
  | 0, _, _, _, read => by cases read
  | fuel + 1, start, [], length, read => by
      rw [titleBody?] at read
      cases read
  | fuel + 1, start, c :: rest, length, read => by
      rw [titleBody?_cons] at read
      split at read
      · next isClosing =>
          rw [← Option.some.inj read, beq_iff_eq.mp isClosing]
          exact ClosesAt.here closing rest start
      · split at read
        · cases read
        · split at read
          · rw [Option.bind_eq_some_iff] at read
            obtain ⟨place, isBreak, read⟩ := read
            have fits : Fits (c :: rest) [] := Or.inl rfl
            obtain ⟨isRest, within, -⟩ :=
              (titleBreak?_append spine (Shut.nil _) fits).2 place isBreak
            have closes := titleBody?_closes closing fuel _ read
            rw [isRest] at closes
            exact closes.behind within
          · split at read
            · next escape =>
                cases rest with
                | nil => simp at escape
                | cons d behind =>
                    exact ClosesAt.behind (n := 2) (titleBody?_closes closing fuel _ read) (by simp)
            · exact ClosesAt.behind (n := 1) (titleBody?_closes closing fuel _ read) (by simp)

/-- Behind a closing mark that is no line feed, the line still ends in the text. -/
theorem ClosesAt.shut {closing : Char} {length : Nat} (closes : ClosesAt closing text 0 length)
    (other : closing ≠ '\n') (fits : Fits text later) :
    length ≤ text.length ∧ Shut (text.drop length) later := by
  obtain ⟨ahead, rest, rfl, isLength⟩ := closes
  have place : (ahead ++ closing :: rest).drop length = rest := by
    rw [isLength, Nat.zero_add, ← List.drop_drop, List.drop_left, List.drop_succ_cons,
      List.drop_zero]
  rw [place, isLength, List.length_append, List.length_cons]
  exact ⟨by omega, fits.shut_behind other⟩

private theorem title?_append (shut : Shut text later) (fits : Fits text later) :
    title? spine (text ++ later) = title? spine text := by
  cases text with
  | nil => rw [shut.later_eq_nil]; rfl
  | cons c rest =>
      have onward : ∀ closing : Char, c ≠ '\n' →
          titleBody? spine closing ((rest ++ later).length + 1) 1 (rest ++ later)
            = titleBody? spine closing (rest.length + 1) 1 rest := by
        intro closing other
        refine titleBody?_append spine closing _ _ 1 (Nat.lt_succ_self _) ?_ (shut.tail other)
          (fits.drop 1)
        rw [List.length_append]
        omega
      rw [List.cons_append, title?, title?]
      split
      · next quote =>
          refine onward c ?_
          rintro rfl
          exact absurd quote (by decide)
      · split
        · next bracket =>
            refine onward ')' ?_
            rintro rfl
            exact absurd bracket (by decide)
        · rfl

private theorem title?_closes {length : Nat} (read : title? spine text = some length) :
    ∃ closing, closing ≠ '\n' ∧ ClosesAt closing text 0 length := by
  cases text with
  | nil => cases read
  | cons c rest =>
      rw [title?] at read
      split at read
      · next quote =>
          refine ⟨c, ?_, ClosesAt.behind (n := 1) (titleBody?_closes spine c _ _ read) (by simp)⟩
          rintro rfl
          exact absurd quote (by decide)
      · split at read
        · exact ⟨')', by decide, ClosesAt.behind (n := 1) (titleBody?_closes spine ')' _ _ read)
            (by simp)⟩
        · cases read

/-! ## Whole definitions -/

/-- Behind a gap of the whole text. -/
theorem gap?_place {width total : Nat} (fits : Fits text later)
    (read : gap? spine (text.length + 2) 0 0 text = some (width, total)) :
    width ≤ text.length ∧ Shut (text.drop width) later := by
  obtain ⟨-, within, visible⟩ := gap?_visible spine _ _ _ read
  exact ⟨within, (fits.drop width).shut_of_visible visible⟩

private theorem gap?_whole_append (shut : Shut text later) (fits : Fits text later) :
    gap? spine ((text ++ later).length + 2) 0 0 (text ++ later)
      = gap? spine (text.length + 2) 0 0 text :=
  gap?_append spine _ _ 0 0 (by omega) (by omega) (by omega) (by omega) shut fits

private theorem ending?_append (shut : Shut text later) (fits : Fits text later) :
    ending? spine (text ++ later) = ending? spine text := by
  unfold ending?
  rw [gap?_whole_append spine shut fits]
  cases gapped : gap? spine (text.length + 2) 0 0 text with
  | none => rfl
  | some found =>
      obtain ⟨width, breaks⟩ := found
      obtain ⟨within, behindShut⟩ := gap?_place spine fits gapped
      have behindFits := fits.drop width
      dsimp only
      split
      · rfl
      · rw [List.drop_append_of_le_length within, title?_append spine behindShut behindFits]
        cases titled : title? spine (text.drop width) with
        | none => rfl
        | some length =>
            obtain ⟨closing, other, closes⟩ := title?_closes spine titled
            obtain ⟨titleWithin, titleShut⟩ := closes.shut other behindFits
            dsimp only
            rw [List.drop_append_of_le_length titleWithin, blankLine?_append titleShut]

private theorem ending?_le {length : Nat} (read : ending? spine text = some length) :
    length ≤ text.length := by
  have fits : Fits text [] := Or.inl rfl
  unfold ending? at read
  split at read
  · rw [← Option.some.inj read]
    exact Nat.zero_le _
  · next width breaks gapped =>
      obtain ⟨within, -⟩ := gap?_place spine fits gapped
      have untitled : ∀ {n : Nat}, (if breaks > 0 then some 0 else none) = some n →
          n ≤ text.length := by
        intro n answer
        split at answer
        · rw [← Option.some.inj answer]
          exact Nat.zero_le _
        · cases answer
      split at read
      · cases read
      · dsimp only at read
        split at read
        · exact untitled read
        · next titleLength titled =>
            obtain ⟨closing, other, closes⟩ := title?_closes spine titled
            obtain ⟨titleWithin, -⟩ := closes.shut other (fits.drop width)
            split at read
            · next rest blank =>
                have blankWithin := blankLine?_le blank
                rw [List.length_drop] at titleWithin
                rw [List.length_drop, List.length_drop] at blankWithin
                rw [← Option.some.inj read]
                omega
            · exact untitled read

private theorem pointedDestination?_line :
    ∀ (fuel start : Nat) {text : List Char} {length : Nat},
      pointedDestination? fuel start text = some length →
      start ≤ length ∧ length - start ≤ text.length ∧ '\n' ∉ text.take (length - start)
  | 0, _, _, _, read => by cases read
  | fuel + 1, start, [], _, read => by cases read
  | fuel + 1, start, c :: rest, length, read => by
      rw [pointedDestination?] at read
      split at read
      · cases read
      · next goesOn =>
          have other : ¬ '\n' = c := by
            rintro rfl
            exact goesOn (by decide)
          split at read
          · rw [← Option.some.inj read, Nat.add_sub_cancel_left]
            simpa using other
          · split at read
            · next escape =>
                cases rest with
                | nil => simp at escape
                | cons d behind =>
                    rw [Bool.and_eq_true] at escape
                    have second : ¬ '\n' = d := by
                      rintro rfl
                      exact absurd escape.2 (by rw [List.head?_cons]; decide)
                    obtain ⟨ahead, within, free⟩ := pointedDestination?_line fuel _ read
                    have size : length - start = length - (start + 2) + 1 + 1 := by omega
                    rw [size, List.take_succ_cons, List.take_succ_cons]
                    simp only [List.length_cons, List.mem_cons, not_or]
                    exact ⟨by omega, by simp at within; omega, other, second, free⟩
            · obtain ⟨ahead, within, free⟩ := pointedDestination?_line fuel _ read
              have size : length - start = length - (start + 1) + 1 := by omega
              rw [size, List.take_succ_cons]
              simp only [List.length_cons, List.mem_cons, not_or]
              exact ⟨by omega, by omega, other, free⟩

private theorem bareDestination?_line :
    ∀ (fuel start nesting : Nat) {text : List Char} {length : Nat},
      bareDestination? fuel start nesting text = some length →
      start ≤ length ∧ length - start ≤ text.length ∧ '\n' ∉ text.take (length - start)
  | 0, _, _, _, _, read => by cases read
  | fuel + 1, start, nesting, text, length, read => by
      have stops : ∀ {n : Nat}, some start = some n →
          start ≤ n ∧ n - start ≤ text.length ∧ '\n' ∉ text.take (n - start) := by
        intro n answer
        rw [← Option.some.inj answer]
        simp
      rw [bareDestination?.eq_def] at read
      dsimp only at read
      split at read
      · split at read
        · exact stops read
        · cases read
      · next c rest =>
          split at read
          · split at read
            · exact stops read
            · cases read
          · next goesOn =>
              have other : ¬ '\n' = c := by
                rintro rfl
                exact goesOn (by decide)
              have onward : ∀ {nesting : Nat},
                  bareDestination? fuel (start + 1) nesting rest = some length →
                  start ≤ length ∧ length - start ≤ (c :: rest).length
                    ∧ '\n' ∉ (c :: rest).take (length - start) := by
                intro nesting answer
                obtain ⟨ahead, within, free⟩ := bareDestination?_line fuel _ _ answer
                have size : length - start = length - (start + 1) + 1 := by omega
                rw [size, List.take_succ_cons]
                simp only [List.length_cons, List.mem_cons, not_or]
                exact ⟨by omega, by omega, other, free⟩
              split at read
              · split at read
                · cases read
                · exact onward read
              · split at read
                · split at read
                  · exact stops read
                  · exact onward read
                · split at read
                  · next escape =>
                      cases rest with
                      | nil => simp at escape
                      | cons d behind =>
                          rw [Bool.and_eq_true] at escape
                          have second : ¬ '\n' = d := by
                            rintro rfl
                            exact absurd escape.2 (by rw [List.head?_cons]; decide)
                          obtain ⟨ahead, within, free⟩ := bareDestination?_line fuel _ _ read
                          have size : length - start = length - (start + 2) + 1 + 1 := by omega
                          rw [size, List.take_succ_cons, List.take_succ_cons]
                          simp only [List.length_cons, List.mem_cons, not_or]
                          exact ⟨by omega, by simp at within; omega, other, second, free⟩
                  · exact onward read

/-- A destination lies on its line. -/
theorem destination?_line {length : Nat} (read : destination? text = some length) :
    length ≤ text.length ∧ '\n' ∉ text.take length := by
  unfold destination? at read
  split at read
  · next rest =>
      obtain ⟨ahead, within, free⟩ := pointedDestination?_line _ _ read
      have size : length = length - 1 + 1 := by omega
      rw [size, List.take_succ_cons, List.length_cons, List.mem_cons, not_or]
      exact ⟨by omega, by decide, free⟩
  · obtain ⟨-, within, free⟩ := bareDestination?_line _ _ _ read
    exact ⟨within, free⟩

/-- The part of a definition behind the colon. -/
def bodyLength? (body : List Char) : Option Nat :=
  (gap? spine (body.length + 2) 0 0 body).bind fun gap =>
    (destination? (body.drop gap.1)).bind fun destination =>
      if destination = 0 then none
      else (ending? spine ((body.drop gap.1).drop destination)).map fun rest =>
        gap.1 + destination + rest

private theorem length?_cons (rest : List Char) :
    length? spine ('[' :: rest) =
      (label? spine (rest.length + 1) {} rest).bind fun label =>
        if (rest.drop label).head? != some ':' then none
        else (bodyLength? spine ((rest.drop label).drop 1)).map fun body => 1 + label + 1 + body := by
  simp only [length?, bodyLength?, Option.bind_eq_bind]
  cases label? spine (rest.length + 1) {} rest with
  | none => rfl
  | some label =>
      simp only [Option.bind_some]
      split
      · rfl
      · cases gap? spine (((rest.drop label).drop 1).length + 2) 0 0 ((rest.drop label).drop 1) with
        | none => rfl
        | some gap =>
            simp only [Option.bind_some]
            cases destination? (((rest.drop label).drop 1).drop gap.1) with
            | none => rfl
            | some destination =>
                simp only [Option.bind_some]
                split
                · rfl
                · cases ending? spine (((rest.drop label).drop 1).drop gap.1 |>.drop destination) with
                  | none => rfl
                  | some ending => simp [Nat.add_assoc]

private theorem bodyLength?_append (shut : Shut text later) (fits : Fits text later) :
    bodyLength? spine (text ++ later) = bodyLength? spine text := by
  unfold bodyLength?
  rw [gap?_whole_append spine shut fits]
  cases gapped : gap? spine (text.length + 2) 0 0 text with
  | none => rfl
  | some gap =>
      obtain ⟨within, placeShut⟩ := gap?_place spine fits gapped
      simp only [Option.bind_some]
      rw [List.drop_append_of_le_length within, destination?_append placeShut]
      cases led : destination? (text.drop gap.1) with
      | none => rfl
      | some destination =>
          obtain ⟨destinationWithin, free⟩ := destination?_line led
          simp only [Option.bind_some]
          rw [List.drop_append_of_le_length destinationWithin,
            ending?_append spine (placeShut.drop free) ((fits.drop gap.1).drop destination)]

private theorem bodyLength?_le {length : Nat} (read : bodyLength? spine text = some length) :
    length ≤ text.length := by
  rw [bodyLength?, Option.bind_eq_some_iff] at read
  obtain ⟨gap, gapped, read⟩ := read
  rw [Option.bind_eq_some_iff] at read
  obtain ⟨destination, led, read⟩ := read
  split at read
  · cases read
  · rw [Option.map_eq_some_iff] at read
    obtain ⟨ending, ended, rfl⟩ := read
    obtain ⟨gapWithin, -⟩ := gap?_place spine (Or.inl rfl : Fits text []) gapped
    obtain ⟨destinationWithin, -⟩ := destination?_line led
    have endingWithin := ending?_le spine ended
    rw [List.length_drop] at destinationWithin
    rw [List.length_drop, List.length_drop] at endingWithin
    omega

/-- **The extent of a definition** is the same in a longer text. -/
theorem length?_append (shut : Shut text later) (fits : Fits text later) :
    length? spine (text ++ later) = length? spine text := by
  cases text with
  | nil => rw [shut.later_eq_nil]; rfl
  | cons c rest =>
      by_cases bracket : c = '['
      · subst bracket
        have restShut := shut.tail (by decide)
        have restFits : Fits rest later := fits.drop 1
        have labels : label? spine ((rest ++ later).length + 1) {} (rest ++ later)
            = label? spine (rest.length + 1) {} rest := by
          refine label?_append spine _ _ {} (Nat.lt_succ_self _) ?_ restShut restFits
          rw [List.length_append]
          omega
        rw [List.cons_append, length?_cons, length?_cons, labels]
        cases labelled : label? spine (rest.length + 1) {} rest with
        | none => rfl
        | some label =>
            obtain ⟨within, behindShut⟩ :=
              (label?_closes spine _ _ labelled).shut (by decide) restFits
            have behindFits := restFits.drop label
            simp only [Option.bind_some]
            rw [List.drop_append_of_le_length within, head?_append_shut behindShut]
            cases isBehind : rest.drop label with
            | nil => rfl
            | cons d body =>
                rw [isBehind] at behindShut behindFits
                by_cases colon : d = ':'
                · subst colon
                  simp only [List.cons_append, List.drop_succ_cons, List.drop_zero]
                  rw [bodyLength?_append spine (behindShut.tail (by decide)) (behindFits.drop 1)]
                · have noColon : ((d :: body).head? != some ':') = true := by simpa using colon
                  rw [if_pos noColon, if_pos noColon]
      · have none_here : ∀ tail : List Char, length? spine (c :: tail) = none := by
          intro tail
          unfold length?
          split
          · next eq => exact absurd (List.cons.inj eq).1 bracket
          · rfl
        rw [List.cons_append, none_here, none_here]

theorem length?_bounds {length : Nat} (read : length? spine text = some length) :
    0 < length ∧ length ≤ text.length := by
  cases text with
  | nil => cases read
  | cons c rest =>
      by_cases bracket : c = '['
      · subst bracket
        rw [length?_cons, Option.bind_eq_some_iff] at read
        obtain ⟨label, labelled, read⟩ := read
        obtain ⟨labelWithin, -⟩ := (label?_closes spine _ _ labelled).shut (by decide)
          (Or.inl rfl : Fits rest [])
        split at read
        · cases read
        · next colon =>
            rw [Option.map_eq_some_iff] at read
            obtain ⟨body, bodied, rfl⟩ := read
            have bodyWithin := bodyLength?_le spine bodied
            have some_left : (rest.drop label).length ≠ 0 := by
              intro nothing
              rw [List.length_eq_zero_iff.mp nothing] at colon
              exact colon rfl
            rw [List.length_drop] at some_left
            rw [List.length_drop, List.length_drop] at bodyWithin
            rw [List.length_cons]
            omega
      · unfold length? at read
        split at read
        · next eq => exact absurd (List.cons.inj eq).1 bracket
        · cases read

end Tangle.Markdown.Definition
