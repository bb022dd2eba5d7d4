import Tangle.Proofs.Yaml.Places

/-!
Contract: a text that is written plain is read back as that text.

Owns: what a gap takes in, where words end, and the texts that plain form is allowed for.

Does **not** own: whether a plain text stands for something other than itself
(`Tangle.Yaml.Resolve`), or the token around it (`Tangle.Proofs.Yaml.Tokens`).

A word ends at a space or at the end of the line, and a gap inside a line is kept as it
stands; so the reader puts together again what it took apart.
-/

set_option autoImplicit false

namespace Tangle.Yaml

open Write (spaces)

/-! ## Gaps -/

namespace Gap

variable {limit : Option Int} {gap : Gap} {rest : List Char} {column : Nat}

private theorem read_stops (stands : gap.cursor.At rest column) (stops : Stops rest) (fuel : Nat) :
    read limit fuel gap = (gap, true) := by
  cases fuel with
  | zero => rfl
  | succ fuel =>
      rw [read.eq_def]
      dsimp only
      rw [stands.peek?]
      cases rest with
      | nil => rfl
      | cons c rest =>
          obtain ⟨unpadded, unbroken⟩ := stops c rfl
          simp [unpadded, unbroken]

/-- One pad or break; only a tab can violate the indentation. -/
theorem read_step {c : Char} (stands : gap.cursor.At (c :: rest) column)
    (blank : isPad c = true ∨ isBreak c = true) (notTab : c ≠ '\t') (fuel : Nat) :
    read limit (fuel + 1) gap = read limit fuel gap.step := by
  have steady : ∀ limit, gap.tabViolates limit = false := by
    intro limit
    have apart : (c == '\t') = false := beq_false_of_ne notTab
    rw [tabViolates, stands.atChar, apart, Bool.and_false, Bool.false_and]
  rw [read.eq_def]
  dsimp only
  rw [stands.peek?, List.head?_cons]
  dsimp only
  rw [if_pos (Bool.or_eq_true_iff.mpr blank)]
  cases limit with
  | none => rfl
  | some limit =>
      dsimp only
      rw [steady, if_neg Bool.false_ne_true]

private theorem step_space (stands : gap.cursor.At (' ' :: rest) column) :
    gap.step
      = { gap with
          cursor := gap.cursor.skip
          pads := if gap.broken then gap.pads else gap.pads ++ [' '] } := by
  rw [step, stands.peek?]
  rfl

private theorem step_broken {c : Char} (stands : gap.cursor.At (c :: rest) column) (lasts : Lasting c)
    (broken : gap.broken = true) :
    gap.step = { gap with cursor := gap.cursor.skipLine, trail := gap.trail ++ [c] } := by
  rw [step, stands.peek?, List.head?_cons, stands.breakText lasts]
  dsimp only
  rw [if_neg (by simp [isPad_of_isBreak lasts.breaks]), if_pos broken]

private theorem step_first {c : Char} (stands : gap.cursor.At (c :: rest) column) (lasts : Lasting c)
    (unbroken : gap.broken = false) :
    gap.step
      = { gap with
          cursor := gap.cursor.skipLine, pads := [], lead := [c], broken := true } := by
  rw [step, stands.peek?, List.head?_cons, stands.breakText lasts]
  dsimp only
  rw [if_neg (by simp [isPad_of_isBreak lasts.breaks]), if_neg (by simp [unbroken])]

/-- Spaces are kept until the line is broken. -/
theorem read_spaces (limit : Option Int) (count : Nat) : ∀ (gap : Gap) {column fuel : Nat},
    gap.cursor.At (spaces count ++ rest) column → Stops rest → count ≤ fuel →
      ∃ after, read limit fuel gap
          = ({ gap with
               cursor := after
               pads := if gap.broken then gap.pads else gap.pads ++ spaces count }, true)
        ∧ after.At rest (column + count) := by
  induction count with
  | zero =>
      intro gap column fuel stands stops _
      refine ⟨gap.cursor, ?_, stands⟩
      rw [read_stops stands stops]
      simp [spaces]
  | succ count inductionHypothesis =>
      intro gap column fuel stands stops fits
      obtain ⟨fuel, rfl⟩ := Nat.exists_eq_succ_of_ne_zero (by omega : fuel ≠ 0)
      have atSpace : gap.cursor.At (' ' :: (spaces count ++ rest)) column := stands
      rw [Nat.succ_eq_add_one, read_step atSpace (Or.inl rfl) (by decide), step_space atSpace]
      obtain ⟨after, isRead, stands'⟩ :=
        inductionHypothesis
          { gap with
            cursor := gap.cursor.skip
            pads := if gap.broken then gap.pads else gap.pads ++ [' '] }
          atSpace.skip stops (by omega : count ≤ fuel)
      refine ⟨after, ?_, by rw [Nat.add_assoc, Nat.add_comm 1] at stands'; exact stands'⟩
      rw [isRead]
      cases isBroken : gap.broken <;> simp [spaces, List.replicate_succ]

/-- Behind the first break every break is kept and no space is. -/
theorem read_broken (breaks : List Char) (count : Nat) : ∀ (gap : Gap) {fuel : Nat},
    gap.broken = true → gap.cursor.At (breaks ++ (spaces count ++ rest)) 0 →
      (∀ c ∈ breaks, Lasting c) → Stops rest → breaks.length + count ≤ fuel →
      ∃ after, read limit fuel gap
          = ({ gap with cursor := after, trail := gap.trail ++ breaks }, true)
        ∧ after.At rest count := by
  induction breaks with
  | nil =>
      intro gap fuel broken stands _ stops fits
      obtain ⟨after, isRead, stands'⟩ :=
        read_spaces limit count gap stands stops (by simpa using fits)
      refine ⟨after, ?_, by simpa using stands'⟩
      rw [isRead, if_pos broken, List.append_nil]
  | cons c breaks inductionHypothesis =>
      intro gap fuel broken stands lasting stops fits
      rw [List.length_cons] at fits
      obtain ⟨fuel, rfl⟩ := Nat.exists_eq_succ_of_ne_zero (by omega : fuel ≠ 0)
      have lasts : Lasting c := lasting c (List.mem_cons_self ..)
      have notTab : c ≠ '\t' := by
        rintro rfl
        exact absurd lasts.breaks (by decide)
      rw [Nat.succ_eq_add_one, read_step stands (Or.inr lasts.breaks) notTab,
        step_broken stands lasts broken]
      obtain ⟨after, isRead, stands'⟩ :=
        inductionHypothesis
          { gap with cursor := gap.cursor.skipLine, trail := gap.trail ++ [c] }
          broken (stands.skipLine lasts) (fun d isIn => lasting d (List.mem_cons_of_mem c isIn))
          stops (by omega : breaks.length + count ≤ fuel)
      refine ⟨after, ?_, stands'⟩
      rw [isRead, List.append_assoc, List.singleton_append]

/-- A gap that starts with a break. -/
theorem read_line (limit : Option Int) (gap : Gap) {c : Char} {breaks : List Char}
    {count fuel : Nat} (stands : gap.cursor.At (c :: (breaks ++ (spaces count ++ rest))) column)
    (unbroken : gap.broken = false) (lasting : ∀ d ∈ c :: breaks, Lasting d) (stops : Stops rest)
    (fits : breaks.length + count < fuel) :
    ∃ after, read limit fuel gap
        = (⟨after, [], [c], gap.trail ++ breaks, true⟩, true) ∧ after.At rest count := by
  obtain ⟨fuel, rfl⟩ := Nat.exists_eq_succ_of_ne_zero (by omega : fuel ≠ 0)
  have lasts : Lasting c := lasting c (List.mem_cons_self ..)
  have notTab : c ≠ '\t' := by
    rintro rfl
    exact absurd lasts.breaks (by decide)
  rw [Nat.succ_eq_add_one, read_step stands (Or.inr lasts.breaks) notTab,
    step_first stands lasts unbroken]
  exact read_broken breaks count
    { gap with cursor := gap.cursor.skipLine, pads := [], lead := [c], broken := true }
    rfl (stands.skipLine lasts) (fun d isIn => lasting d (List.mem_cons_of_mem c isIn)) stops
    (by omega)

end Gap

/-! ## Words -/

namespace Plain

variable {limit : Int} {start : Mark} {progress : Progress} {column fuel : Nat}

private theorem endsWord_block (c : Char) (next : Option Char) :
    endsWord false c next
      = (isPad c || isBreak c || (c == ':' && Cursor.blankOrEnd next)) := by
  simp [endsWord, strayColon]

/-- What has been read once a word has been taken in. -/
def Progress.behindWord (progress : Progress) (word : List Char) : Progress :=
  let after := Cursor.skipMany word.length progress.gap.cursor
  { value := progress.value ++ progress.gap.folded ++ word, stop := after.mark
    gap := { cursor := after } }

def behindWord (limit : Int) (start : Mark) (fuel : Nat) (next : List Char) (progress : Progress) :
    Except SyntaxError Progress :=
  match next.head? with
  | none => .ok progress
  | some c =>
      if isPad c || isBreak c then
        match Gap.read (some limit) (next.length + 1) progress.gap with
        | (gap, false) =>
            .error { problem := .tabViolatesIndentation, mark := gap.cursor.mark,
                     activity := some (.plainScalar, start) }
        | (gap, true) =>
            if (gap.cursor.mark.column : Int) < limit then .ok { progress with gap := gap }
            else read false limit start fuel { progress with gap := gap }
      else .ok progress

private theorem read_word {run next : List Char}
    (stands : progress.gap.cursor.At (run ++ next) column)
    (noMarker : progress.gap.cursor.atAnyDocumentMarker = false)
    (isWord : word false (run ++ next) = run) (filled : run ≠ []) (noComment : run.head? ≠ some '#') :
    read false limit start (fuel + 1) progress
      = behindWord limit start fuel next (progress.behindWord run) := by
  obtain ⟨c, rest, rfl⟩ := List.exists_cons_of_ne_nil filled
  have after := Cursor.At.skipMany (c :: rest) stands
  have apart : progress.gap.cursor.atChar '#' = false := by
    rw [stands.atChar]
    exact beq_false_of_ne fun isHash => noComment (by rw [isHash, List.head?_cons])
  rw [read]
  simp only [noMarker, apart, stands.rest, isWord, strayColon,
    Bool.false_and, Bool.or_self, Bool.false_eq_true, if_false, List.isEmpty_cons, Bool.not_false,
    Bool.true_and, decide_eq_true_eq]
  rw [after.peek?, after.rest, behindWord]
  cases next <;> rfl

/-- At the end of a line the scalar ends too when the next token is not deep enough. -/
theorem behindWord_line {tail rest : List Char} {next : Nat} (indents : Indents tail next rest)
    (shallow : (next : Int) < limit) (stands : progress.gap.cursor.At ('\n' :: tail) column)
    (unbroken : progress.gap.broken = false) :
    ∃ gap, behindWord limit start fuel ('\n' :: tail) progress = .ok { progress with gap := gap }
      ∧ gap.broken = true ∧ gap.cursor.At rest next := by
  have atLine : progress.gap.cursor.At ('\n' :: ([] ++ (spaces next ++ rest))) column := by
    rw [List.nil_append, ← indents.spaced]
    exact stands
  have fits : ([] : List Char).length + next < ('\n' :: tail).length + 1 := by
    rw [indents.spaced]
    simp [spaces]
    omega
  have lasting : ∀ c ∈ ['\n'], Lasting c := by
    intro c isIn
    rw [List.mem_singleton.mp isIn]
    exact lasting_feed
  obtain ⟨cursor, isRead, atNext⟩ :=
    Gap.read_line (some limit) progress.gap atLine unbroken lasting indents.stops fits
  refine ⟨⟨cursor, [], ['\n'], progress.gap.trail ++ [], true⟩, ?_, rfl, atNext⟩
  rw [behindWord, List.head?_cons]
  dsimp only
  rw [if_pos (by decide), isRead]
  dsimp only
  rw [if_pos (by rw [atNext.column]; exact shallow)]

/-- Within a line the gap is taken in and the next word goes on. -/
theorem behindWord_gap {words : List Char} {count : Nat}
    (stands : progress.gap.cursor.At (spaces (count + 1) ++ words) column) (stops : Stops words)
    (unbroken : progress.gap.broken = false) (deep : limit ≤ column) :
    ∃ cursor, behindWord limit start fuel (spaces (count + 1) ++ words) progress
        = read false limit start fuel
            { progress with
              gap := { progress.gap with
                       cursor := cursor, pads := progress.gap.pads ++ spaces (count + 1) } }
      ∧ cursor.At words (column + (count + 1)) := by
  have fits : count + 1 ≤ (spaces (count + 1) ++ words).length + 1 := by
    simp [spaces]
    omega
  obtain ⟨cursor, isRead, atWords⟩ :=
    Gap.read_spaces (some limit) (count + 1) progress.gap stands stops fits
  refine ⟨cursor, ?_, atWords⟩
  rw [behindWord, isRead]
  simp only [spaces, List.replicate_succ, List.cons_append, List.head?_cons]
  rw [if_pos (by decide), if_neg (by rw [atWords.column]; omega), unbroken]
  rfl

def OneLine (chars : List Char) : Prop :=
  ∀ c ∈ chars, isBreak c = false ∧ c ≠ '\t'

theorem OneLine.append {left right : List Char} (flat : OneLine (left ++ right)) :
    OneLine left ∧ OneLine right :=
  ⟨fun c isIn => flat c (List.mem_append_left right isIn),
    fun c isIn => flat c (List.mem_append_right left isIn)⟩

private theorem blankOrEnd_of_colon {before next : Option Char}
    (quiet : Write.indicates before ':' next = false) : Cursor.blankOrEnd next = false := by
  cases blank : Cursor.blankOrEnd next with
  | false => rfl
  | true => cases before <;> simp [Write.indicates, blank] at quiet

/-- Behind a text on one line the line ends, so only its own spaces end its words. -/
theorem word_line (chars tail : List Char) (flat : OneLine chars) :
    ∀ {before : Option Char}, Write.anyIndicator before chars = false →
      word false (chars ++ '\n' :: tail) = chars.takeWhile (· != ' ') := by
  induction chars with
  | nil => exact fun _ => rfl
  | cons c rest inductionHypothesis =>
      intro before quiet
      rw [Write.anyIndicator, Bool.or_eq_false_iff] at quiet
      obtain ⟨unbroken, notTab⟩ := flat c (List.mem_cons_self ..)
      have sameNext : Cursor.blankOrEnd (rest ++ '\n' :: tail).head?
          = Cursor.blankOrEnd rest.head? := by
        cases rest <;> rfl
      have noColon : (c == ':' && Cursor.blankOrEnd rest.head?) = false := by
        by_cases isColon : c = ':'
        · subst isColon
          rw [blankOrEnd_of_colon quiet.1, Bool.and_false]
        · rw [beq_false_of_ne isColon, Bool.false_and]
      have isPadded : isPad c = (c == ' ') := by
        rw [isPad, beq_false_of_ne notTab, Bool.or_false]
      rw [List.cons_append, word, endsWord_block, sameNext, noColon, unbroken, isPadded,
        List.takeWhile_cons,
        inductionHypothesis (fun d isIn => flat d (List.mem_cons_of_mem c isIn)) quiet.2]
      cases isSpace : c == ' ' <;> simp [isSpace, bne]

private theorem anyIndicator_append {before : Option Char} {left right : List Char}
    (quiet : Write.anyIndicator before (left ++ right) = false) :
    Write.anyIndicator (left.getLast?.or before) right = false := by
  induction left generalizing before with
  | nil => simpa using quiet
  | cons c rest inductionHypothesis =>
      rw [List.cons_append, Write.anyIndicator, Bool.or_eq_false_iff] at quiet
      have behind := inductionHypothesis quiet.2
      rw [List.getLast?_cons]
      cases isLast : rest.getLast? <;> simpa [isLast] using behind

/-- No comment starts behind a space of a text without indicators. -/
theorem no_comment_behind_space {chars : List Char}
    (quiet : Write.anyIndicator (some ' ') chars = false) : chars.head? ≠ some '#' := by
  cases chars with
  | nil => simp
  | cons c rest =>
      rintro ⟨⟩
      rw [Write.anyIndicator, Bool.or_eq_false_iff] at quiet
      exact absurd quiet.1 (by simp [Write.indicates, Cursor.blankOrEnd, isPad])

/-- The word in front of a text and the gap behind it. -/
theorem exists_run (chars : List Char) :
    ∃ run behind, chars = run ++ behind ∧ (∀ c ∈ run, c ≠ ' ')
      ∧ (behind = [] ∨ ∃ count words, behind = spaces (count + 1) ++ words
          ∧ words.head? ≠ some ' ') := by
  induction chars with
  | nil => exact ⟨[], [], rfl, by simp, Or.inl rfl⟩
  | cons c rest inductionHypothesis =>
      by_cases isSpace : c = ' '
      · obtain ⟨count, words, rfl, stops⟩ := exists_spaces rest
        subst isSpace
        exact ⟨[], spaces (count + 1) ++ words, rfl, by simp, Or.inr ⟨count, words, rfl, stops⟩⟩
      · obtain ⟨run, behind, rfl, noSpace, opens⟩ := inductionHypothesis
        exact ⟨c :: run, behind, rfl, List.forall_mem_cons.mpr ⟨isSpace, noSpace⟩, opens⟩

/-- The rest of a text from the start of a word on, up to the next token behind its line. -/
theorem read_line {tail rest : List Char} {next : Nat} (indents : Indents tail next rest)
    (shallow : (next : Int) < limit) :
    ∀ {fuel : Nat} {chars : List Char} {before : Option Char} {progress : Progress} {column : Nat},
      progress.gap.cursor.At (chars ++ '\n' :: tail) column → 0 < column → limit ≤ column →
      chars ≠ [] → chars.head? ≠ some ' ' → chars.head? ≠ some '#' →
      chars.getLast? ≠ some ' ' → OneLine chars →
      Write.anyIndicator before chars = false → chars.length < fuel →
      ∃ done, read false limit start fuel progress = .ok done
        ∧ done.value = progress.value ++ progress.gap.folded ++ chars
        ∧ done.gap.broken = true ∧ done.gap.cursor.At rest next := by
  intro fuel
  induction fuel with
  | zero => exact fun _ _ _ _ _ _ _ _ _ fits => absurd fits (Nat.not_lt_zero _)
  | succ fuel inductionHypothesis =>
      intro chars before progress column stands inside deep filled noSpace noComment noTrail flat
        quiet fits
      have isWord := word_line chars tail flat quiet
      obtain ⟨run, behind, rfl, noSpaces, opens⟩ := exists_run chars
      have isRun : (run ++ behind).takeWhile (· != ' ') = run := by
        refine Cursor.takeWhile_of_stop (fun c isIn => by simpa using noSpaces c isIn) ?_
        rcases opens with rfl | ⟨count, words, rfl, _⟩
        · simp
        · rintro c ⟨⟩
          decide
      rw [isRun, List.append_assoc] at isWord
      rw [List.append_assoc] at stands
      have runFilled : run ≠ [] := by
        rintro rfl
        rcases opens with rfl | ⟨count, words, rfl, _⟩
        · exact filled rfl
        · exact noSpace rfl
      have sameHead : (run ++ behind).head? = run.head? := by
        cases run with
        | nil => exact absurd rfl runFilled
        | cons c run => rfl
      rw [read_word stands (stands.no_anyDocumentMarker inside) isWord runFilled
        (sameHead ▸ noComment)]
      have after := Cursor.At.skipMany run stands
      rcases opens with rfl | ⟨count, words, rfl, noPad⟩
      · obtain ⟨gap, isRead, broken, atNext⟩ :=
          @behindWord_line limit start (progress.behindWord run) _ fuel tail rest next indents
            shallow after rfl
        refine ⟨_, isRead, ?_, broken, atNext⟩
        rw [List.append_nil]
        rfl
      · have wordsFilled : words ≠ [] := by
          rintro rfl
          apply noTrail
          rw [List.append_nil, spaces, List.replicate_succ', ← List.append_assoc,
            List.getLast?_concat]
        have flatWords := flat.append.2.append.2
        have stops : Stops (words ++ '\n' :: tail) := by
          obtain ⟨c, words, rfl⟩ := List.exists_cons_of_ne_nil wordsFilled
          obtain ⟨unbroken, notTab⟩ := flatWords c (List.mem_cons_self ..)
          refine stops_cons ?_ unbroken
          simpa [isPad, notTab] using noPad
        have quietWords : Write.anyIndicator (some ' ') words = false := by
          rw [← List.append_assoc] at quiet
          have behind := anyIndicator_append quiet
          rwa [spaces, List.replicate_succ', ← List.append_assoc, List.getLast?_concat] at behind
        have wordsEnd : words.getLast? ≠ some ' ' := by
          intro isLast
          apply noTrail
          rw [List.getLast?_append, List.getLast?_append, isLast]
          rfl
        rw [List.append_assoc] at after ⊢
        obtain ⟨cursor, isRead, atWords⟩ :=
          @behindWord_gap limit start (progress.behindWord run) _ fuel _ count after stops rfl
            (by omega)
        obtain ⟨done, isDone, value, broken, atNext⟩ :=
          @inductionHypothesis words (some ' ')
            { progress.behindWord run with
              gap := { (progress.behindWord run).gap with
                       cursor := cursor
                       pads := (progress.behindWord run).gap.pads ++ spaces (count + 1) } }
            _ atWords (by omega) (by omega) wordsFilled noPad (no_comment_behind_space quietWords)
            wordsEnd flatWords quietWords (by simp [spaces] at fits; omega)
        refine ⟨done, isRead.trans isDone, ?_, broken, atNext⟩
        rw [value]
        simp [Progress.behindWord, Gap.folded]

/-! ## Scalars -/

structure Bare (chars : List Char) : Prop where
  noLead : chars.head? ≠ some ' '
  noTrail : chars.getLast? ≠ some ' '
  flat : OneLine chars
  quiet : Write.anyIndicator none chars = false
  printable : ∀ c ∈ chars, Write.isPrintable c = true

theorem bare_of_allowed {chars : List Char} (allowed : (Write.traits chars).plainAllowed = true) :
    Bare chars := by
  simp only [Write.Traits.plainAllowed, Write.traits, Bool.not_eq_true', Bool.or_eq_false_iff]
    at allowed
  obtain ⟨⟨⟨⟨⟨⟨⟨⟨lead, _⟩, trail⟩, _⟩, _⟩, _⟩, special⟩, breaks⟩, ⟨_, quiet⟩⟩ := allowed
  have printable : ∀ c ∈ chars, Write.isPrintable c = true := by simpa using special
  refine ⟨?_, ?_, ?_, quiet, printable⟩
  · intro isSpace
    rw [isSpace] at lead
    exact absurd lead (by decide)
  · intro isSpace
    rw [isSpace] at trail
    exact absurd trail (by decide)
  · intro c isIn
    refine ⟨by simpa using List.any_eq_false.mp breaks c isIn, ?_⟩
    rintro rfl
    exact absurd (printable _ isIn) (by decide)

/-- The first character of a text without indicators is no indicator. -/
theorem Bare.head {chars : List Char} (bare : Bare chars) :
    ∀ c ∈ chars.head?, Write.indicates none c (chars.drop 1).head? = false := by
  cases chars with
  | nil => simp
  | cons c rest =>
      rintro d ⟨⟩
      have quiet := bare.quiet
      rw [Write.anyIndicator, Bool.or_eq_false_iff] at quiet
      exact quiet.1

theorem Bare.noComment {chars : List Char} (bare : Bare chars) : chars.head? ≠ some '#' := by
  intro isHash
  exact absurd (bare.head '#' isHash) (by simp [Write.indicates])

variable {cursor : Cursor} {indent : Int}

/-- A text in plain form is read back, together with the gap up to the next token. -/
theorem scan_bare {chars tail rest : List Char} {next : Nat} (bare : Bare chars)
    (filled : chars ≠ []) (stands : cursor.At (chars ++ '\n' :: tail) column) (inside : 0 < column)
    (deep : indent < column) (indents : Indents tail next rest) (shallow : (next : Int) ≤ indent) :
    ∃ token after, scan false indent cursor = .ok (token, after, true)
      ∧ token.kind = .scalar (String.ofList chars) .plain ∧ after.At rest next := by
  have fits : chars.length < cursor.rest.length + 1 := by
    rw [stands.rest, List.length_append]
    omega
  obtain ⟨done, isRead, value, broken, atNext⟩ :=
    @read_line (indent + 1) cursor.mark tail rest next indents (by omega) _ chars none
      { stop := cursor.mark, gap := { cursor := cursor } } column stands inside (by omega) filled
      bare.noLead bare.noComment bare.noTrail bare.flat bare.quiet fits
  refine ⟨⟨.scalar (String.ofList chars) .plain, cursor.mark, done.stop⟩, done.gap.cursor, ?_, rfl,
    atNext⟩
  rw [scan, isRead]
  show Except.ok _ = _
  rw [value, broken]
  rfl

/-- A word that a colon ends. -/
theorem word_key {name more : List Char} (letters : ∀ c ∈ name, c.isAlphanum = true)
    (blank : Cursor.blankOrEnd more.head? = true) : word false (name ++ ':' :: more) = name := by
  induction name with
  | nil => simp [word, endsWord_block, blank]
  | cons c rest inductionHypothesis =>
      have isLetter := letters c (List.mem_cons_self ..)
      have goesOn : ∀ next, endsWord false c next = false := by
        intro next
        rw [endsWord_block, isPad_of_isAlphanum isLetter, isBreak_of_isAlphanum isLetter,
          beq_false_of_ne (ne_of_isAlphanum isLetter (by decide))]
        rfl
      rw [List.cons_append, word, goesOn, if_neg Bool.false_ne_true,
        inductionHypothesis fun d isIn => letters d (List.mem_cons_of_mem c isIn)]

/-- The name of a field is read up to its colon, and its line goes on. -/
theorem scan_key {name more : List Char} (filled : name ≠ [])
    (letters : ∀ c ∈ name, c.isAlphanum = true) (blank : Cursor.blankOrEnd more.head? = true)
    (stands : cursor.At (name ++ ':' :: more) column) :
    ∃ token, scan false indent cursor = .ok (token, Cursor.skipMany name.length cursor, false)
      ∧ token.kind = .scalar (String.ofList name) .plain := by
  have isWord := word_key letters blank
  have noComment : name.head? ≠ some '#' := by
    intro isHash
    exact absurd (letters '#' (List.mem_of_head? isHash)) (by decide)
  have noMarker : cursor.atAnyDocumentMarker = false := by
    obtain ⟨c, rest, rfl⟩ := List.exists_cons_of_ne_nil filled
    exact stands.no_anyDocumentMarker_of_isAlphanum (letters c (List.mem_cons_self ..))
  refine ⟨⟨.scalar (String.ofList name) .plain, cursor.mark,
    (Cursor.skipMany name.length cursor).mark⟩, ?_, rfl⟩
  rw [scan, @read_word (indent + 1) cursor.mark { stop := cursor.mark, gap := { cursor := cursor } }
    column cursor.rest.length name (':' :: more) stands noMarker isWord filled noComment]
  rfl

end Plain

end Tangle.Yaml
