import Tangle.Proofs.Yaml.Plain

/-!
Contract: a text that is written in literal form is read back as that text.

Owns: the indentation of content lines, the empty lines between them, and what the hints
in the header do to the breaks at the end.

Does **not** own: which texts are written so (`Tangle.Yaml.Write.style`).

The reader keeps three parts of the content apart: the lines up to the last visible one,
the break behind it, and the breaks after that. Together they are the text, with a line
feed at its end if it had no break there; `chomped_closed` says which hint gives it back.
-/

set_option autoImplicit false

namespace Tangle.Yaml.Block

open Write (spaces literalBody literalHints)

/-! ## Indentation -/

/-- Spaces are stepped over to where the line is deep enough or has no more of them. -/
theorem skipIndent_at {indent : Nat} {rest : List Char} (count : Nat) :
    ∀ {cursor : Cursor} {column fuel : Nat}, cursor.At (spaces count ++ rest) column →
      (indent = 0 ∨ column + count ≤ indent) →
      (rest.head? ≠ some ' ' ∨ indent ≠ 0 ∧ column + count = indent) → count ≤ fuel →
      (skipIndent indent fuel cursor).At rest (column + count) := by
  induction count with
  | zero =>
      intro cursor column fuel stands _ stops _
      cases fuel with
      | zero => exact stands
      | succ fuel =>
          have stays : ((indent == 0 || decide (cursor.mark.column < indent)) && cursor.atChar ' ')
              = false := by
            rcases stops with noSpace | ⟨known, reached⟩
            · have notAt : cursor.atChar ' ' = false := by
                rw [Cursor.atChar, stands.peek?]
                exact beq_false_of_ne noSpace
              rw [notAt, Bool.and_false]
            · rw [stands.column, beq_false_of_ne known, Bool.false_or,
                decide_eq_false (by omega), Bool.false_and]
          rw [skipIndent, if_neg (by rw [stays]; exact Bool.false_ne_true)]
          exact stands
  | succ count inductionHypothesis =>
      intro cursor column fuel stands bounded stops fits
      obtain ⟨fuel, rfl⟩ := Nat.exists_eq_succ_of_ne_zero (by omega : fuel ≠ 0)
      have atSpace : cursor.At (' ' :: (spaces count ++ rest)) column := stands
      have goesOn : ((indent == 0 || decide (cursor.mark.column < indent)) && cursor.atChar ' ')
          = true := by
        rw [atSpace.atChar, stands.column, beq_self_eq_true, Bool.and_true, Bool.or_eq_true,
          beq_iff_eq, decide_eq_true_iff]
        omega
      rw [Nat.succ_eq_add_one, skipIndent, if_pos goesOn]
      have stops' : rest.head? ≠ some ' ' ∨ indent ≠ 0 ∧ column + 1 + count = indent := by
        rcases stops with noSpace | reached
        · exact Or.inl noSpace
        · exact Or.inr (by omega)
      have behind :=
        @inductionHypothesis _ _ fuel atSpace.skip (by omega) stops' (by omega)
      rwa [Nat.add_assoc, Nat.add_comm 1] at behind

/-- Where the indentation has been stepped over, a tab or a break would be special. -/
theorem readBreaks_step {indent : Nat} {start : Mark} {fuel : Nat} {breaks : Breaks}
    {cursor : Cursor} {rest : List Char} {column : Nat}
    (isSkipped : skipIndent indent (breaks.cursor.rest.length + 1) breaks.cursor = cursor)
    (stands : cursor.At rest column) (noTab : rest.head? ≠ some '\t') :
    readBreaks indent start (fuel + 1) breaks
      = if rest.head?.any isBreak then
          readBreaks indent start fuel
            ⟨cursor.skipLine, breaks.text ++ cursor.breakText, max breaks.widest column,
              cursor.skipLine.mark⟩
        else .ok { breaks with cursor := cursor, widest := max breaks.widest column } := by
  have notAt : cursor.atChar '\t' = false := by
    rw [Cursor.atChar, stands.peek?]
    exact beq_false_of_ne noTab
  rw [readBreaks]
  simp only [isSkipped, notAt, Bool.and_false, Bool.false_eq_true, if_false, stands.peek?,
    stands.column]
  cases rest <;> rfl

/-- Empty lines up to a line that starts in column `count`. -/
theorem readBreaks_at {indent : Nat} {start : Mark} {rest : List Char} {count : Nat}
    (bounded : indent = 0 ∨ count ≤ indent)
    (stops : rest.head? ≠ some ' ' ∨ indent ≠ 0 ∧ count = indent)
    (solid : ∀ c ∈ rest.head?, isBreak c = false) (noTab : rest.head? ≠ some '\t')
    (lines : List Char) : ∀ (breaks : Breaks) {fuel : Nat},
    breaks.cursor.At (lines ++ (spaces count ++ rest)) 0 → (∀ c ∈ lines, Lasting c) →
      lines.length < fuel →
      ∃ cursor stop, readBreaks indent start fuel breaks
          = .ok ⟨cursor, breaks.text ++ lines, max breaks.widest count, stop⟩
        ∧ cursor.At rest count := by
  induction lines with
  | nil =>
      intro breaks fuel stands _ fits
      obtain ⟨fuel, rfl⟩ := Nat.exists_eq_succ_of_ne_zero (Nat.ne_of_gt fits)
      have deep : count ≤ breaks.cursor.rest.length + 1 := by
        rw [stands.rest]
        simp [spaces]
        omega
      have reached := @skipIndent_at indent rest count breaks.cursor 0 _ stands
        (by rwa [Nat.zero_add]) (by rwa [Nat.zero_add]) deep
      rw [Nat.zero_add] at reached
      refine ⟨_, breaks.stop, ?_, reached⟩
      have unbroken : rest.head?.any isBreak = false := by
        cases rest with
        | nil => rfl
        | cons c rest => exact solid c rfl
      rw [Nat.succ_eq_add_one, readBreaks_step rfl reached noTab,
        if_neg (by rw [unbroken]; exact Bool.false_ne_true), List.append_nil]
  | cons c lines inductionHypothesis =>
      intro breaks fuel stands lasting fits
      obtain ⟨fuel, rfl⟩ := Nat.exists_eq_succ_of_ne_zero (Nat.ne_of_gt (Nat.zero_lt_of_lt fits))
      have lasts := lasting c (List.mem_cons_self ..)
      have notSpace : c ≠ ' ' := by
        rintro rfl
        exact absurd lasts.breaks (by decide)
      have notTab : c ≠ '\t' := by
        rintro rfl
        exact absurd lasts.breaks (by decide)
      have reached := @skipIndent_at indent (c :: (lines ++ (spaces count ++ rest))) 0
        breaks.cursor 0 (breaks.cursor.rest.length + 1) stands (Or.inr (Nat.zero_le _))
        (Or.inl (by simpa using notSpace)) (Nat.zero_le _)
      obtain ⟨cursor, stop, isRead, stands'⟩ :=
        @inductionHypothesis
          ⟨(skipIndent indent (breaks.cursor.rest.length + 1) breaks.cursor).skipLine,
            breaks.text ++ [c], max breaks.widest 0, _⟩
          fuel (reached.skipLine lasts) (fun d isIn => lasting d (List.mem_cons_of_mem c isIn))
          (by simpa using fits)
      refine ⟨cursor, stop, ?_, stands'⟩
      rw [Nat.succ_eq_add_one, readBreaks_step rfl reached (by simpa using notTab), List.head?_cons,
        Option.any_some, if_pos lasts.breaks, reached.breakText lasts, isRead]
      simp

/-! ## Lines as they are written -/

theorem literalBody_breaks (indent : Nat) (lines rest : List Char)
    (broken : ∀ c ∈ lines, isBreak c = true) :
    literalBody indent true (lines ++ rest) = lines ++ literalBody indent true rest := by
  induction lines with
  | nil => rfl
  | cons c lines inductionHypothesis =>
      rw [List.cons_append, literalBody, if_pos (broken c (List.mem_cons_self ..)),
        inductionHypothesis fun d isIn => broken d (List.mem_cons_of_mem c isIn), List.cons_append]

private theorem literalBody_line (indent : Nat) (line rest : List Char)
    (unbroken : ∀ c ∈ line, isBreak c = false) :
    literalBody indent false (line ++ rest) = line ++ literalBody indent false rest := by
  induction line with
  | nil => rfl
  | cons c line inductionHypothesis =>
      rw [List.cons_append, literalBody, if_neg (by simp [unbroken c (List.mem_cons_self ..)]),
        inductionHypothesis fun d isIn => unbroken d (List.mem_cons_of_mem c isIn)]
      rfl

/-- A line with visible text is indented. -/
theorem literalBody_opened {indent : Nat} {words : List Char} (filled : words ≠ [])
    (solid : ∀ c ∈ words.head?, isBreak c = false) :
    literalBody indent true words = spaces indent ++ literalBody indent false words := by
  obtain ⟨c, rest, rfl⟩ := List.exists_cons_of_ne_nil filled
  have unbroken := solid c rfl
  simp [literalBody, unbroken]

private theorem head?_literalBody {indent : Nat} {words later : List Char} (filled : words ≠ [])
    (solid : ∀ c ∈ words.head?, isBreak c = false) :
    (literalBody indent false words ++ later).head? = words.head? := by
  obtain ⟨c, rest, rfl⟩ := List.exists_cons_of_ne_nil filled
  have unbroken := solid c rfl
  simp [literalBody, unbroken]

def closing (chars : List Char) : List Char :=
  if chars.getLast?.all isBreak then [] else ['\n']

private theorem closing_of_breaks {lines : List Char} (broken : ∀ c ∈ lines, isBreak c = true) :
    closing lines = [] := by
  refine if_pos ?_
  cases isLast : lines.getLast? with
  | none => rfl
  | some c => exact broken c (List.mem_of_getLast? isLast)

private theorem closing_append {front words : List Char} (filled : words ≠ []) :
    closing (front ++ words) = closing words := by
  rw [closing, closing, List.getLast?_append, List.getLast?_eq_some_getLast filled, Option.some_or]

/-- A text that goes on behind a break is closed as what follows the break. -/
theorem closing_break {front more : List Char} {c : Char} (breaks : isBreak c = true) :
    closing (front ++ c :: more) = closing more := by
  cases more with
  | nil =>
      rw [closing, List.getLast?_concat, Option.all_some, if_pos breaks]
      rfl
  | cons d more =>
      have isSplit : front ++ c :: d :: more = (front ++ [c]) ++ d :: more := by
        rw [List.append_assoc, List.singleton_append]
      rw [isSplit, closing_append (List.cons_ne_nil d more)]

private theorem closing_unbroken {line : List Char} (filled : line ≠ [])
    (unbroken : ∀ c ∈ line, isBreak c = false) : closing line = ['\n'] := by
  rw [closing, List.getLast?_eq_some_getLast filled, Option.all_some,
    unbroken _ (List.getLast_mem filled), if_neg Bool.false_ne_true]

private theorem length_le_literalBody (indent : Nat) (chars : List Char) :
    ∀ opened, chars.length ≤ (literalBody indent opened chars).length := by
  induction chars with
  | nil => exact fun _ => Nat.zero_le _
  | cons c chars inductionHypothesis =>
      intro opened
      rw [literalBody]
      split
      · exact Nat.succ_le_succ (inductionHypothesis true)
      · have behind := inductionHypothesis false
        simp only [List.length_append, List.length_cons]
        omega

/-! ## Content -/

section

variable {indent next : Nat} {start : Mark} {tail rest : List Char}

/-- The empty lines ahead of what is left of a text, up to its next visible line or to the
token behind it. -/
theorem readBreaks_written (indents : Indents tail next rest) (shallow : next < indent)
    (chars : List Char) (lasting : ∀ c ∈ chars, isBreak c = true → Lasting c) (noTab : '\t' ∉ chars)
    (breaks : Breaks) {fuel : Nat}
    (stands : breaks.cursor.At (literalBody indent true chars ++ (closing chars ++ tail)) 0)
    (fits : chars.length < fuel) :
    ∃ lines words cursor widest stop, chars = lines ++ words ∧ (∀ c ∈ lines, isBreak c = true)
      ∧ (∀ c ∈ words.head?, isBreak c = false)
      ∧ readBreaks indent start fuel breaks = .ok ⟨cursor, breaks.text ++ lines, widest, stop⟩
      ∧ (words = [] ∧ cursor.At rest next
        ∨ words ≠ []
          ∧ cursor.At (literalBody indent false words ++ (closing words ++ tail)) indent) := by
  obtain ⟨lines, words, rfl, broken, solid⟩ := exists_breaks chars
  have lasts : ∀ c ∈ lines, Lasting c := fun c isIn =>
    lasting c (List.mem_append_left words isIn) (broken c isIn)
  have linesFit : lines.length < fuel := by
    rw [List.length_append] at fits
    omega
  rw [literalBody_breaks indent lines words broken, List.append_assoc] at stands
  by_cases filled : words = []
  · subst filled
    rw [List.append_nil, closing_of_breaks broken, literalBody, List.nil_append, List.nil_append,
      indents.spaced] at stands
    have notBlank : ∀ c ∈ rest.head?, c ≠ ' ' ∧ c ≠ '\t' := by
      intro c isHead
      have unpadded := (indents.stops c isHead).1
      simpa [isPad] using unpadded
    obtain ⟨cursor, stop, isRead, stands'⟩ :=
      @readBreaks_at indent start rest next (Or.inr (by omega))
        (Or.inl fun isSpace => (notBlank _ isSpace).1 rfl)
        (fun c isHead => (indents.stops c isHead).2) (fun isTab => (notBlank _ isTab).2 rfl) lines
        breaks fuel stands lasts linesFit
    exact ⟨lines, [], cursor, _, stop, rfl, broken, solid, isRead, Or.inl ⟨rfl, stands'⟩⟩
  · rw [closing_append filled, literalBody_opened filled solid, List.append_assoc] at stands
    have sameHead : (literalBody indent false words ++ (closing words ++ tail)).head?
        = words.head? := head?_literalBody filled solid
    have notTab : words.head? ≠ some '\t' := fun isTab =>
      noTab (List.mem_append_right lines (List.mem_of_head? isTab))
    obtain ⟨cursor, stop, isRead, stands'⟩ :=
      @readBreaks_at indent start _ indent (Or.inr (Nat.le_refl _))
        (Or.inr ⟨by omega, rfl⟩) (by rw [sameHead]; exact solid) (by rw [sameHead]; exact notTab)
        lines breaks fuel stands lasts linesFit
    exact ⟨lines, words, cursor, _, stop, rfl, broken, solid, isRead, Or.inr ⟨filled, stands'⟩⟩

/-- Content ends at a token that is not deep enough. -/
theorem readContent_ends {content : Content} (stands : content.cursor.At rest next)
    (apart : next ≠ indent) (fuel : Nat) :
    readContent true indent start fuel content = .ok content := by
  cases fuel with
  | zero => rfl
  | succ fuel =>
      rw [readContent]
      simp only [stands.peek?, stands.column]
      cases rest with
      | nil => rfl
      | cons c rest => exact if_pos (bne_iff_ne.mpr apart)

def Content.nextLine (content : Content) (line : List Char) : Cursor :=
  (Cursor.skipMany line.length content.cursor).skipLine

/-- One visible line and the empty lines behind it. -/
theorem readContent_line {content : Content} {line more : List Char} {c : Char} {breaks : Breaks}
    {fuel : Nat} (stands : content.cursor.At (line ++ c :: more) indent) (filled : line ≠ [])
    (unbroken : ∀ d ∈ line, isBreak d = false) (lasts : Lasting c)
    (isRead : readBreaks indent start (more.length + 1)
      { cursor := content.nextLine line, stop := (content.nextLine line).mark } = .ok breaks) :
    ∃ leadBlank, readContent true indent start (fuel + 1) content
      = readContent true indent start fuel
          { value := content.value ++ (content.lead ++ content.trail) ++ line
            lead := [c], trail := breaks.text, leadBlank := leadBlank
            cursor := breaks.cursor, stop := breaks.stop } := by
  obtain ⟨d, line, rfl⟩ := List.exists_cons_of_ne_nil filled
  have isLine : (d :: (line ++ c :: more)).takeWhile (fun e => !isBreak e) = d :: line := by
    refine @Cursor.takeWhile_of_stop _ (d :: line) (c :: more)
      (fun e isIn => by rw [unbroken e isIn]; rfl) ?_
    rintro e ⟨⟩
    rw [lasts.breaks]
    rfl
  have atBreak := Cursor.At.skipMany (d :: line) stands
  have after := atBreak.skipLine lasts
  refine ⟨isPad d, ?_⟩
  rw [readContent]
  rw [List.cons_append] at stands
  simp only [stands.peek?, stands.column, stands.rest, List.head?_cons, bne_self_eq_false,
    Bool.false_eq_true, if_false, isLine, atBreak.breakText lasts, after.rest]
  rw [Content.nextLine] at isRead
  rw [isRead]
  rfl

/-- The first line of what is left of a text, with the break behind it. -/
theorem exists_line {words : List Char} (filled : words ≠ [])
    (solid : ∀ c ∈ words.head?, isBreak c = false)
    (lasting : ∀ c ∈ words, isBreak c = true → Lasting c) :
    ∃ line c more, line ≠ [] ∧ (∀ d ∈ line, isBreak d = false) ∧ Lasting c
      ∧ words ++ closing words = line ++ c :: (more ++ closing more)
      ∧ literalBody indent false words ++ closing words
          = line ++ c :: (literalBody indent true more ++ closing more)
      ∧ more.length < words.length ∧ ∀ d ∈ more, d ∈ words := by
  obtain ⟨line, behind, rfl, unbroken, opens⟩ := exists_unbroken words
  have lineFilled : line ≠ [] := by
    rintro rfl
    obtain ⟨c, rest, rfl⟩ := List.exists_cons_of_ne_nil filled
    have broken : isBreak c = true := opens c rfl
    rw [solid c rfl] at broken
    exact Bool.noConfusion broken
  cases behind with
  | nil =>
      refine ⟨line, '\n', [], lineFilled, unbroken, lasting_feed, ?_, ?_, ?_, by simp⟩
      · rw [List.append_nil, closing_unbroken lineFilled unbroken]
        rfl
      · rw [literalBody_line indent line [] unbroken, List.append_nil,
          closing_unbroken lineFilled unbroken, literalBody, List.append_nil]
        rfl
      · rw [List.append_nil]
        exact List.length_pos_iff.mpr lineFilled
  | cons c more =>
      have broken : isBreak c = true := opens c rfl
      have isIn : c ∈ line ++ c :: more := List.mem_append_right line (List.mem_cons_self ..)
      refine ⟨line, c, more, lineFilled, unbroken, lasting c isIn broken, ?_, ?_, ?_, ?_⟩
      · rw [closing_break broken, List.append_assoc, List.cons_append]
      · rw [closing_break broken, literalBody_line indent line _ unbroken, literalBody,
          if_pos broken, List.append_assoc, List.cons_append]
      · rw [List.length_append, List.length_cons]
        omega
      · exact fun d isMore => List.mem_append_right line (List.mem_cons_of_mem c isMore)

/-- What has been read of a text: its lines up to the last visible one, and the breaks
behind that. -/
structure Finished (text : List Char) (content : Content) : Prop where
  joined : content.value ++ (content.lead ++ content.trail) = text
  breaks : ∀ c ∈ content.lead ++ content.trail, isBreak c = true
  visible : ∀ c ∈ content.value.getLast?, isBreak c = false
  led : content.lead = [] → content.value = []

/-- The lines of a text from a visible one on. -/
theorem readContent_words (indents : Indents tail next rest) (shallow : next < indent) :
    ∀ {fuel : Nat} {words : List Char} {content : Content}, words ≠ [] →
      (∀ c ∈ words.head?, isBreak c = false) → (∀ c ∈ words, isBreak c = true → Lasting c) →
      '\t' ∉ words →
      content.cursor.At (literalBody indent false words ++ (closing words ++ tail)) indent →
      words.length < fuel →
      ∃ done, readContent true indent start fuel content = .ok done ∧ done.cursor.At rest next
        ∧ Finished (content.value ++ (content.lead ++ content.trail) ++ (words ++ closing words))
            done := by
  intro fuel
  induction fuel with
  | zero => exact fun _ _ _ _ _ fits => absurd fits (Nat.not_lt_zero _)
  | succ fuel inductionHypothesis =>
      intro words content filled solid lasting noTab stands fits
      obtain ⟨line, c, more, lineFilled, unbroken, lasts, isText, isWritten, shorter, inside⟩ :=
        @exists_line indent words filled solid lasting
      rw [← List.append_assoc, isWritten, List.append_assoc, List.cons_append, List.append_assoc]
        at stands
      have after : (content.nextLine line).At
          (literalBody indent true more ++ (closing more ++ tail)) 0 :=
        (Cursor.At.skipMany line stands).skipLine lasts
      have lasting' : ∀ d ∈ more, isBreak d = true → Lasting d := fun d isIn =>
        lasting d (inside d isIn)
      have fits' : more.length < (literalBody indent true more ++ (closing more ++ tail)).length + 1 := by
        have enough := length_le_literalBody indent more true
        rw [List.length_append]
        omega
      obtain ⟨lines, words', cursor, widest, stop, rfl, broken, solid', isRead, lands⟩ :=
        readBreaks_written indents shallow more lasting' (fun isTab => noTab (inside _ isTab))
          { cursor := content.nextLine line, stop := (content.nextLine line).mark } after fits'
      obtain ⟨leadBlank, step⟩ :=
        @readContent_line indent start content line _ c _ fuel stands lineFilled unbroken lasts isRead
      rw [step, isText]
      rcases lands with ⟨rfl, atNext⟩ | ⟨filled', atWords⟩
      · refine ⟨_, readContent_ends atNext (by omega) fuel, atNext, ?_⟩
        rw [List.append_nil, closing_of_breaks broken]
        refine ⟨by simp, ?_, ?_, by simp⟩
        · intro d isIn
          rcases List.mem_append.mp isIn with isLead | isTrail
          · rw [List.mem_singleton.mp isLead]
            exact lasts.breaks
          · exact broken d (by simpa using isTrail)
        · intro d isLast
          rw [List.getLast?_append, List.getLast?_eq_some_getLast lineFilled, Option.some_or] at isLast
          rw [← Option.some.inj isLast]
          exact unbroken _ (List.getLast_mem lineFilled)
      · obtain ⟨done, isDone, atNext, finished⟩ :=
          @inductionHypothesis words'
            ⟨content.value ++ (content.lead ++ content.trail) ++ line, [c], [] ++ lines, leadBlank,
              cursor, stop⟩ filled' solid'
            (fun d isIn => lasting' d (List.mem_append_right lines isIn))
            (fun isTab => noTab (inside _ (List.mem_append_right lines isTab))) atWords
            (by rw [List.length_append] at shorter; omega)
        refine ⟨done, isDone, atNext, ?_⟩
        rw [closing_append filled']
        simpa using finished

end

/-! ## Hints -/

/-- What becomes of the breaks at the end of a text. -/
def chompingOf (chars : List Char) : Chomping :=
  match chars.reverse with
  | [] => .strip
  | [only] => if isBreak only then .keep else .strip
  | last :: previous :: _ =>
      if !isBreak last then .strip else if isBreak previous then .keep else .clip

def chompingMark : Chomping → List Char
  | .strip => ['-']
  | .clip => []
  | .keep => ['+']

def needsIndent (chars : List Char) : Bool :=
  chars.head?.any fun c => c == ' ' || isBreak c

private theorem literalHints_eq (chars : List Char) :
    literalHints chars
      = (if needsIndent chars then ['2'] else []) ++ chompingMark (chompingOf chars) := by
  have isDigit : Nat.toDigits 10 Write.indentStep = ['2'] := by decide
  rw [literalHints, isDigit, chompingOf]
  congr 1
  generalize chars.reverse = ended
  rcases ended with _ | ⟨last, _ | ⟨previous, rest⟩⟩
  · rfl
  · cases broken : isBreak last <;> simp [broken, chompingMark]
  · cases broken : isBreak last <;> cases double : isBreak previous <;>
      simp [broken, double, chompingMark]

private theorem chompingOf_concat (front : List Char) (last : Char) :
    chompingOf (front ++ [last])
      = if isBreak last then (if front.getLast?.all isBreak then .keep else .clip) else .strip := by
  rw [chompingOf, List.reverse_concat, ← List.head?_reverse]
  generalize front.reverse = ended
  rcases ended with _ | ⟨previous, rest⟩
  · rfl
  · cases broken : isBreak last <;> cases double : isBreak previous <;> simp [broken, double]

/-- Behind the last visible character there is no break. -/
theorem eq_nil_of_visible {value breaks front : List Char} {c : Char}
    (joined : value ++ breaks = front) (isLast : front.getLast? = some c)
    (visible : isBreak c = false) (broken : ∀ d ∈ breaks, isBreak d = true) : breaks = [] := by
  cases ended : breaks.getLast? with
  | none => exact List.getLast?_eq_none_iff.mp ended
  | some d =>
      rw [← joined, List.getLast?_append, ended, Option.some_or, Option.some.injEq] at isLast
      subst isLast
      rw [broken d (List.mem_of_getLast? ended)] at visible
      exact Bool.noConfusion visible

/-- The hint gives a text back from its lines and the breaks behind them. -/
theorem chomped_closed {chars : List Char} {content : Content} (filled : chars ≠ [])
    (finished : Finished (chars ++ closing chars) content) :
    chomped (chompingOf chars) content = chars := by
  obtain ⟨joined, broken, visible, led⟩ := finished
  obtain ⟨front, last, rfl⟩ : ∃ front last, chars = front ++ [last] :=
    ⟨_, _, (List.dropLast_concat_getLast filled).symm⟩
  rw [closing, List.getLast?_concat, Option.all_some] at joined
  rw [chompingOf_concat]
  cases ends : isBreak last with
  | false =>
      -- The break behind the last line was added; without it the text is left.
      rw [ends, if_neg Bool.false_ne_true] at joined
      rw [if_neg Bool.false_ne_true, chomped]
      cases ended : (content.lead ++ content.trail).getLast? with
      | none =>
          rw [List.getLast?_eq_none_iff.mp ended, List.append_nil] at joined
          have isFeed := visible '\n' (by rw [joined, List.getLast?_concat]; rfl)
          exact absurd isFeed (by decide)
      | some c =>
          obtain ⟨before, isSplit⟩ := List.getLast?_eq_some_iff.mp ended
          rw [isSplit, ← List.append_assoc] at joined
          have same := List.append_inj' joined rfl
          rw [isSplit] at broken
          have none := eq_nil_of_visible same.1 (List.getLast?_concat ..) ends fun d isIn =>
            broken d (List.mem_append_left _ isIn)
          rw [← same.1, none, List.append_nil]
  | true =>
      rw [ends, if_pos rfl, List.append_nil] at joined
      rw [if_pos rfl]
      cases double : front.getLast?.all isBreak with
      | true => rw [if_pos rfl, chomped, List.append_assoc, joined]
      | false =>
          rw [if_neg Bool.false_ne_true, chomped]
          cases isPrevious : front.getLast? with
          | none => rw [isPrevious] at double; exact Bool.noConfusion double
          | some previous =>
              rw [isPrevious, Option.all_some] at double
              cases ended : content.trail.getLast? with
              | none => rwa [List.getLast?_eq_none_iff.mp ended, List.append_nil] at joined
              | some c =>
                  obtain ⟨before, isSplit⟩ := List.getLast?_eq_some_iff.mp ended
                  rw [isSplit, ← List.append_assoc, ← List.append_assoc, List.append_assoc content.value]
                    at joined
                  have same := (List.append_inj' joined rfl).1
                  rw [isSplit, ← List.append_assoc] at broken
                  have none := eq_nil_of_visible same isPrevious double fun d isIn =>
                    broken d (List.mem_append_left _ isIn)
                  have noLead := (List.append_eq_nil_iff.mp none).1
                  rw [none, led noLead, List.append_nil] at same
                  rw [← same] at isPrevious
                  exact absurd isPrevious (by simp)

/-! ## The header -/

section

variable {start : Mark} {cursor : Cursor} {column : Nat} {more : List Char}

private theorem chomping?_at {c : Char} (stands : cursor.At (c :: more) column) :
    chomping? cursor.peek? = chomping? (some c) := by
  rw [stands.peek?, List.head?_cons]

private theorem increment?_none {c : Char} (stands : cursor.At (c :: more) column)
    (notDigit : c.isDigit = false) : increment? start cursor = .ok none := by
  rw [increment?, stands.peek?, List.head?_cons]
  simp [notDigit]

private theorem increment?_two (stands : cursor.At ('2' :: more) column) :
    increment? start cursor = .ok (some 2) := by
  rw [increment?, stands.peek?]
  rfl

/-- A chomping hint on its own. -/
theorem hints_chomping (chomping : Chomping)
    (stands : cursor.At (chompingMark chomping ++ '\n' :: more) column) :
    ∃ after column', hints start cursor = .ok (chomping, none, after)
      ∧ after.At ('\n' :: more) column' := by
  cases chomping with
  | clip =>
      refine ⟨cursor, column, ?_, stands⟩
      rw [hints, chomping?_at stands, increment?_none stands (by decide)]
      rfl
  | strip =>
      refine ⟨cursor.skip, _, ?_, stands.skip⟩
      rw [hints, chomping?_at stands]
      dsimp only [chomping?]
      rw [increment?_none stands.skip (by decide)]
      rfl
  | keep =>
      refine ⟨cursor.skip, _, ?_, stands.skip⟩
      rw [hints, chomping?_at stands]
      dsimp only [chomping?]
      rw [increment?_none stands.skip (by decide)]
      rfl

/-- A chomping hint behind the hint for the indentation. -/
theorem hints_indent (chomping : Chomping)
    (stands : cursor.At ('2' :: (chompingMark chomping ++ '\n' :: more)) column) :
    ∃ after column', hints start cursor = .ok (chomping, some 2, after)
      ∧ after.At ('\n' :: more) column' := by
  rw [hints, chomping?_at stands, increment?_two stands]
  dsimp only [bind, Except.bind]
  cases chomping with
  | clip =>
      rw [chomping?_at stands.skip]
      exact ⟨cursor.skip, _, rfl, stands.skip⟩
  | strip =>
      rw [chomping?_at stands.skip]
      exact ⟨cursor.skip.skip, _, rfl, stands.skip.skip⟩
  | keep =>
      rw [chomping?_at stands.skip]
      exact ⟨cursor.skip.skip, _, rfl, stands.skip.skip⟩

private theorem hints_written (chars : List Char)
    (stands : cursor.At (literalHints chars ++ '\n' :: more) column) :
    ∃ after column', hints start cursor
        = .ok (chompingOf chars, if needsIndent chars then some 2 else none, after)
      ∧ after.At ('\n' :: more) column' := by
  rw [literalHints_eq, List.append_assoc] at stands
  cases hinted : needsIndent chars with
  | true =>
      rw [hinted, if_pos rfl] at stands
      exact hints_indent _ stands
  | false =>
      rw [hinted, if_neg Bool.false_ne_true] at stands
      exact hints_chomping _ stands

end

/-! ## Scalars -/

section

variable {start : Mark} {cursor : Cursor} {column parent next : Nat} {chars tail rest : List Char}

def hintedIndent (chars : List Char) (parent : Nat) : Nat :=
  if needsIndent chars then parent + 2 else 0

/-- The lines ahead of the first visible one, with or without a hint. -/
theorem readBreaks_first (indents : Indents tail next rest) (shallow : next ≤ parent)
    (lasting : ∀ c ∈ chars, isBreak c = true → Lasting c) (noTab : '\t' ∉ chars)
    (filled : chars ≠ []) (breaks : Breaks) (fresh : breaks.widest = 0) {fuel : Nat}
    (stands : breaks.cursor.At (literalBody (parent + 2) true chars ++ (closing chars ++ tail)) 0)
    (fits : chars.length < fuel) :
    ∃ lines words cursor widest stop, chars = lines ++ words ∧ (∀ c ∈ lines, isBreak c = true)
      ∧ (∀ c ∈ words.head?, isBreak c = false)
      ∧ readBreaks (hintedIndent chars parent) start fuel breaks
          = .ok ⟨cursor, breaks.text ++ lines, widest, stop⟩
      ∧ settleIndent (hintedIndent chars parent) parent widest = parent + 2
      ∧ (words = [] ∧ cursor.At rest next
        ∨ words ≠ []
          ∧ cursor.At (literalBody (parent + 2) false words ++ (closing words ++ tail))
              (parent + 2)) := by
  cases hinted : needsIndent chars with
  | true =>
      rw [hintedIndent, hinted, if_pos rfl]
      obtain ⟨lines, words, cursor, widest, stop, isSplit, broken, solid, isRead, lands⟩ :=
        readBreaks_written indents (by omega : next < parent + 2) chars lasting noTab breaks stands
          fits
      exact ⟨lines, words, cursor, widest, stop, isSplit, broken, solid, isRead,
        if_pos (by simp), lands⟩
  | false =>
      rw [hintedIndent, hinted, if_neg Bool.false_ne_true]
      have heads : ∀ c ∈ chars.head?, c ≠ ' ' ∧ isBreak c = false := by
        intro c isHead
        rw [needsIndent, isHead, Option.any_some, Bool.or_eq_false_iff] at hinted
        exact ⟨by simpa using hinted.1, hinted.2⟩
      have solid : ∀ c ∈ chars.head?, isBreak c = false := fun c isHead => (heads c isHead).2
      have sameHead : (literalBody (parent + 2) false chars ++ (closing chars ++ tail)).head?
          = chars.head? := head?_literalBody filled solid
      rw [literalBody_opened filled solid, List.append_assoc] at stands
      obtain ⟨cursor, stop, isRead, stands'⟩ :=
        @readBreaks_at 0 start _ (parent + 2) (Or.inl rfl)
          (Or.inl (by rw [sameHead]; exact fun isSpace => (heads _ isSpace).1 rfl))
          (by rw [sameHead]; exact solid)
          (by rw [sameHead]; exact fun isTab => noTab (List.mem_of_head? isTab)) [] breaks fuel stands
          (by simp) (Nat.zero_lt_of_lt fits)
      refine ⟨[], chars, cursor, _, stop, rfl, by simp, solid, isRead, ?_, Or.inr ⟨filled, stands'⟩⟩
      rw [fresh, settleIndent, if_neg (by decide)]
      omega

/-- A header, the lines ahead of the first visible one, and the content make a scalar. -/
theorem scan_of_parts {header : Cursor} {more : List Char} {breaks : Breaks} {content : Content}
    {chomping : Chomping} {indent : Nat} (hinted : Bool)
    (isHints : hints cursor.mark cursor.skip = .ok (chomping, if hinted then some 2 else none, header))
    (atBreak : header.At ('\n' :: more) column)
    (isBreaks : readBreaks (if hinted then parent + 2 else 0) cursor.mark (more.length + 1)
      { cursor := header.skipLine, stop := header.skipLine.mark } = .ok breaks)
    (settled : settleIndent (if hinted then parent + 2 else 0) parent breaks.widest = indent)
    (isContent : readContent true indent cursor.mark (more.length + 1)
      { trail := breaks.text, cursor := breaks.cursor, stop := breaks.stop } = .ok content) :
    scan true parent cursor
      = .ok (⟨.scalar (String.ofList (chomped chomping content)) .literal, cursor.mark, content.stop⟩,
          content.cursor) := by
  subst settled
  have noPad : header.skipWhile isPad = header := by
    rw [Cursor.skipWhile, atBreak.rest]
    rfl
  have noComment : header.atChar '#' = false := atBreak.atChar
  have ends : Cursor.breakOrEnd header.peek? = true := by rw [atBreak.peek?]; rfl
  rw [scan, isHints]
  simp only [bind, Except.bind, pure, Except.pure, noPad, noComment, ends, Bool.false_eq_true,
    if_false, if_true, Bool.not_true, (atBreak.skipLine lasting_feed).rest]
  cases hinted with
  | false =>
      simp only [Bool.false_eq_true, if_false] at isBreaks isContent ⊢
      simp only [isBreaks, isContent]
  | true =>
      have nonnegative : (parent : Int) ≥ 0 := Int.natCast_nonneg parent
      simp only [if_true] at isBreaks isContent ⊢
      simp only [if_pos nonnegative, Int.toNat_natCast, isBreaks, isContent]

/-- A text in literal form is read back, up to the next token behind it. -/
theorem scan_literal (allowed : (Write.traits chars).literalAllowed = true) (filled : chars ≠ [])
    (indents : Indents tail next rest) (shallow : next ≤ parent)
    (stands : cursor.At ('|' :: (literalHints chars ++ '\n' ::
      (literalBody (parent + 2) true chars ++ (closing chars ++ tail)))) column) :
    ∃ token after, scan true parent cursor = .ok (token, after)
      ∧ token.kind = .scalar (String.ofList chars) .literal ∧ after.At rest next := by
  simp only [Write.Traits.literalAllowed, Write.traits, Bool.not_eq_true', Bool.or_eq_false_iff]
    at allowed
  have printable : ∀ c ∈ chars, Write.isPrintable c = true := by simpa using allowed.2
  have lasting : ∀ c ∈ chars, isBreak c = true → Lasting c := fun c isIn =>
    lasting_of_printable (printable c isIn)
  have noTab : '\t' ∉ chars := fun isIn => absurd (printable _ isIn) (by decide)
  obtain ⟨header, column', isHints, atBreak⟩ := hints_written chars stands.skip
  have fits : chars.length
      < (literalBody (parent + 2) true chars ++ (closing chars ++ tail)).length + 1 := by
    have enough := length_le_literalBody (parent + 2) chars true
    rw [List.length_append]
    omega
  obtain ⟨lines, words, first, widest, stop, isSplit, broken, solid, isBreaks, settled, lands⟩ :=
    readBreaks_first indents shallow lasting noTab filled
      { cursor := header.skipLine, stop := header.skipLine.mark } rfl (atBreak.skipLine lasting_feed)
      fits
  have isContent : ∃ content, readContent true (parent + 2) cursor.mark
        ((literalBody (parent + 2) true chars ++ (closing chars ++ tail)).length + 1)
        { trail := [] ++ lines, cursor := first, stop := stop } = .ok content
      ∧ content.cursor.At rest next ∧ Finished (chars ++ closing chars) content := by
    rcases lands with ⟨rfl, atNext⟩ | ⟨wordsFilled, atWords⟩
    · rw [List.append_nil] at isSplit
      subst isSplit
      refine ⟨_, readContent_ends atNext (by omega) _, atNext, ?_, ?_, ?_, fun _ => rfl⟩
      · rw [closing_of_breaks broken, List.append_nil]
        rfl
      · exact fun c isIn => broken c (by simpa using isIn)
      · simp
    · obtain ⟨content, isRead, atNext, finished⟩ :=
        @readContent_words (parent + 2) next cursor.mark tail rest indents (by omega) _ words
          { trail := [] ++ lines, cursor := first, stop := stop } wordsFilled solid
          (fun c isIn => lasting c (by rw [isSplit]; exact List.mem_append_right lines isIn))
          (fun isTab => noTab (by rw [isSplit]; exact List.mem_append_right lines isTab)) atWords
          (Nat.lt_of_le_of_lt (by rw [isSplit, List.length_append]; omega) fits)
      refine ⟨content, isRead, atNext, ?_⟩
      rw [isSplit, closing_append wordsFilled]
      simpa using finished
  obtain ⟨content, isRead, atNext, finished⟩ := isContent
  refine ⟨_, content.cursor,
    scan_of_parts (needsIndent chars) isHints atBreak isBreaks settled isRead, ?_, atNext⟩
  rw [chomped_closed filled finished]

end

end Tangle.Yaml.Block
