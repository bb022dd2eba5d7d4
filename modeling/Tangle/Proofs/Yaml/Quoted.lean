import Mathlib.Algebra.Group.Nat.Defs
import Tangle.Proofs.Yaml.Plain

/-!
Contract: a text that is written between quotes is read back as that text.

Owns: hexadecimal codes, escapes, and both kinds of quotes.

Does **not** own: which texts are quoted (`Tangle.Yaml.Write.style`).

Between quotation marks every text can be written. Between apostrophes a line can only be
broken by a separator, and spaces around it would be lost; `Tangle.Yaml.Write.Traits` keeps
such texts away.
-/

set_option autoImplicit false

namespace Tangle.Yaml

open Write (spaces hexDigits escaped escapeLetter? doubleBody singleBody)

/-! ## Hexadecimal codes -/

def upperDigit (digit : Nat) : Char :=
  (Nat.digitChar digit).toUpper

private theorem hexValue?_upperDigit {digit : Nat} (small : digit < 16) :
    hexValue? (upperDigit digit) = some digit := by
  have all : ∀ digit : Fin 16, hexValue? (upperDigit digit) = some digit.val := by decide
  exact all ⟨digit, small⟩

private theorem hexDigits_length {width code : Nat} (wide : 0 < width) (fits : code < 16 ^ width) :
    (hexDigits width code).length = width := by
  have bounded := (Nat.length_toDigits_le_iff (by decide : 1 < 16) wide).mpr fits
  simp only [hexDigits, List.length_append, List.length_replicate, List.length_map]
  omega

/-- The last digit of a code stands for its remainder. -/
theorem hexDigits_succ {width code : Nat} (wide : 0 < width) :
    hexDigits (width + 1) code = hexDigits width (code / 16) ++ [upperDigit (code % 16)] := by
  by_cases small : code < 16
  · rw [hexDigits, hexDigits, Nat.toDigits_of_lt_base small, Nat.div_eq_of_lt small,
      Nat.mod_eq_of_lt small, Nat.toDigits_of_lt_base (by decide : 0 < 16)]
    obtain ⟨width, rfl⟩ := Nat.exists_eq_succ_of_ne_zero (Nat.ne_of_gt wide)
    simp only [List.map_cons, List.map_nil, List.length_singleton, Nat.succ_eq_add_one,
      Nat.add_sub_cancel]
    rw [List.replicate_succ']
    rfl
  · have large : 16 ≤ code := Nat.le_of_not_lt small
    rw [hexDigits, hexDigits, Nat.toDigits_of_base_le (by decide) large]
    simp only [List.map_append, List.map_cons, List.map_nil, List.length_append, List.length_map,
      List.length_singleton, Nat.add_sub_add_right, List.append_assoc]
    rfl

private theorem hexNumber?_append (digits rest : List Char) (count : Nat) :
    ∀ value, hexNumber? (digits.length + count) value (digits ++ rest)
      = (hexNumber? digits.length value digits).bind fun total => hexNumber? count total rest := by
  induction digits with
  | nil => simp [hexNumber?]
  | cons c digits inductionHypothesis =>
      intro value
      rw [List.length_cons, Nat.add_right_comm, List.cons_append, hexNumber?, hexNumber?]
      cases hexValue? c with
      | none => rfl
      | some digit => exact inductionHypothesis _

/-- A code is read back from its digits. -/
theorem hexNumber?_hexDigits (rest : List Char) : ∀ {width code : Nat}, 0 < width →
    code < 16 ^ width → hexNumber? width 0 (hexDigits width code ++ rest) = some code
  | 1, code, _, fits => by
      rw [hexDigits, Nat.toDigits_of_lt_base (by simpa using fits)]
      show hexNumber? 1 0 (upperDigit code :: rest) = _
      rw [hexNumber?, hexValue?_upperDigit (by simpa using fits)]
      simp [hexNumber?]
  | width + 2, code, _, fits => by
      have fits' : code / 16 < 16 ^ (width + 1) := by
        rw [Nat.div_lt_iff_lt_mul (by decide)]
        rwa [Nat.pow_succ] at fits
      have length := hexDigits_length (Nat.succ_pos width) fits'
      have front := hexNumber?_hexDigits [] (Nat.succ_pos width) fits'
      have joined := hexNumber?_append (hexDigits (width + 1) (code / 16))
        (upperDigit (code % 16) :: rest) 1 0
      rw [List.append_nil] at front
      rw [length, front] at joined
      rw [hexDigits_succ (Nat.succ_pos width), List.append_assoc, List.singleton_append, joined]
      have small : code % 16 < 16 := Nat.mod_lt _ (by decide)
      simp only [Option.bind_some, hexNumber?, hexValue?_upperDigit small, Option.some.injEq]
      omega

namespace Quoted

/-! ## Escapes -/

/-- The letter of an escape stands for the character that it was chosen for. -/
theorem escape?_letter {c letter : Char} (isLetter : escapeLetter? c = some letter) :
    escape? letter = some (.character c) ∧ isBreak letter = false := by
  have isChar : ∀ code, c.toNat = code → c = Char.ofNat code := by
    rintro code rfl
    exact (Char.ofNat_toNat c).symm
  rw [escapeLetter?] at isLetter
  split at isLetter
  case h_16 => exact absurd isLetter (by simp)
  all_goals
    next isCode =>
      rw [isChar _ isCode, ← Option.some.inj isLetter]
      decide

variable {start : Mark} {state : Run} {rest : List Char} {column : Nat}

private theorem run_letter {c letter : Char} (isLetter : escapeLetter? c = some letter)
    (stands : state.cursor.At (Text.Symbol.backslash :: letter :: rest) column) (fuel : Nat) :
    run false start (fuel + 1) state
      = run false start fuel
          { state with cursor := state.cursor.skip.skip, value := state.value ++ [c] } := by
  obtain ⟨isEscape, unbroken⟩ := escape?_letter isLetter
  rw [run, stands.rest]
  dsimp only
  rw [if_neg (by decide), if_neg Bool.false_ne_true, if_neg (by decide), if_pos (by decide),
    if_neg (by simp [unbroken]), isEscape]

/-- A code of `width` digits behind its mark. -/
theorem run_code {c mark : Char} {width : Nat} (isMark : escape? mark = some (.code width))
    (unbroken : isBreak mark = false) (wide : 0 < width) (fits : c.toNat < 16 ^ width)
    (stands : state.cursor.At
      (Text.Symbol.backslash :: mark :: (hexDigits width c.toNat ++ rest)) column) (fuel : Nat) :
    run false start (fuel + 1) state
      = run false start fuel
          { state with
            cursor := Cursor.skipMany width state.cursor.skip.skip
            value := state.value ++ [c] } := by
  rw [run, stands.rest]
  dsimp only
  rw [if_neg (by decide), if_neg Bool.false_ne_true, if_neg (by decide), if_pos (by decide),
    if_neg (by simp [unbroken]), isMark]
  dsimp only
  rw [hexNumber?_hexDigits rest wide fits]
  dsimp only
  rw [if_pos (show c.toNat.isValidChar from c.valid), Char.ofNat_toNat]

/-- The character behind an escape is read back. -/
theorem run_escaped {c : Char} (stands : state.cursor.At (escaped c ++ rest) column) (fuel : Nat) :
    ∃ cursor, run false start (fuel + 1) state
        = run false start fuel { state with cursor := cursor, value := state.value ++ [c] }
      ∧ cursor.At rest (column + (escaped c).length) := by
  have coded : ∀ {mark : Char} {width : Nat}, escape? mark = some (.code width) →
      isBreak mark = false → 0 < width → c.toNat < 16 ^ width →
      escaped c = Text.Symbol.backslash :: mark :: hexDigits width c.toNat →
      ∃ cursor, run false start (fuel + 1) state
          = run false start fuel { state with cursor := cursor, value := state.value ++ [c] }
        ∧ cursor.At rest (column + (escaped c).length) := by
    intro mark width isMark unbroken wide fits isEscaped
    rw [isEscaped] at stands ⊢
    refine ⟨_, run_code isMark unbroken wide fits stands fuel, ?_⟩
    have behind := Cursor.At.skipMany (hexDigits width c.toNat) stands.skip.skip
    rw [hexDigits_length wide fits] at behind
    simp only [List.length_cons, hexDigits_length wide fits]
    rwa [Nat.add_assoc column 1 1, Nat.add_assoc, Nat.add_comm 2] at behind
  cases isLetter : escapeLetter? c with
  | some letter =>
      have isEscaped : escaped c = [Text.Symbol.backslash, letter] := by
        rw [escaped, isLetter]
      rw [isEscaped] at stands ⊢
      exact ⟨_, run_letter isLetter stands fuel, stands.skip.skip⟩
  | none =>
      by_cases narrow : c.toNat ≤ 0xFF
      · exact coded (by decide : escape? 'x' = some (.code 2)) (by decide) (by decide) (by omega)
          (by simp [escaped, isLetter, narrow])
      · by_cases middle : c.toNat ≤ 0xFFFF
        · exact coded (by decide : escape? 'u' = some (.code 4)) (by decide) (by decide) (by omega)
            (by simp [escaped, isLetter, narrow, middle])
        · have bounded : c.toNat < 16 ^ 8 := by
            rcases (show c.toNat.isValidChar from c.valid) with small | ⟨_, small⟩ <;> omega
          exact coded (by decide : escape? 'U' = some (.code 8)) (by decide) (by decide) bounded
            (by simp [escaped, isLetter, narrow, middle])

/-! ## Between quotation marks -/

def needsEscape (c : Char) : Bool :=
  !Write.isPrintable c || isBreak c || c == Text.Symbol.quote || c == Text.Symbol.backslash

private theorem doubleBody_cons (c : Char) (chars : List Char) :
    doubleBody (c :: chars) = (if needsEscape c then escaped c else [c]) ++ doubleBody chars := by
  rw [doubleBody, List.flatMap_cons]
  rfl

private theorem doubleBody_append (left right : List Char) :
    doubleBody (left ++ right) = doubleBody left ++ doubleBody right := by
  rw [doubleBody, List.flatMap_append]
  rfl

private theorem doubleBody_spaces (count : Nat) : doubleBody (spaces count) = spaces count := by
  induction count with
  | zero => rfl
  | succ count inductionHypothesis =>
      rw [spaces, List.replicate_succ, doubleBody_cons, if_neg (by decide)]
      exact congrArg _ inductionHypothesis

private theorem length_le_doubleBody (chars : List Char) : chars.length ≤ (doubleBody chars).length := by
  induction chars with
  | nil => exact Nat.le_refl _
  | cons c chars inductionHypothesis =>
      have filled : 1 ≤ (if needsEscape c then escaped c else [c]).length := by
        split
        · simp [escaped]
        · exact Nat.le_refl _
      rw [doubleBody_cons, List.length_append, List.length_cons]
      omega

/-- Where a run ends: at a pad, a break or the closing quote. -/
def Ends (single : Bool) : List Char → Prop
  | [] => False
  | c :: rest =>
      isPad c = true ∨ isBreak c = true
        ∨ c = (if single then Text.Symbol.apostrophe else Text.Symbol.quote)
          ∧ (single = true → rest.head? ≠ some Text.Symbol.apostrophe)

private theorem run_ends {single : Bool} (stands : state.cursor.At rest column) (ends : Ends single rest)
    (fuel : Nat) : run single start fuel state = .ok state := by
  cases fuel with
  | zero => rfl
  | succ fuel =>
      rw [run, stands.rest]
      cases rest with
      | nil => rfl
      | cons c rest =>
          dsimp only
          rcases ends with padded | broken | ⟨closes, undoubled⟩
          · rw [if_pos (by simp [padded])]
          · rw [if_pos (by simp [broken])]
          · cases single with
            | true =>
                rw [if_neg (by subst closes; decide), if_pos rfl, if_pos (by subst closes; decide),
                  if_neg (by simpa using undoubled rfl)]
            | false =>
                rw [if_neg (by subst closes; decide), if_neg Bool.false_ne_true,
                  if_pos (by subst closes; decide)]

private theorem run_raw {c : Char} (stands : state.cursor.At (c :: rest) column)
    (unpadded : isPad c = false) (bare : needsEscape c = false) (fuel : Nat) :
    run false start (fuel + 1) state
      = run false start fuel
          { state with cursor := state.cursor.skip, value := state.value ++ [c] } := by
  simp only [needsEscape, Bool.or_eq_false_iff] at bare
  obtain ⟨⟨⟨_, unbroken⟩, noQuote⟩, noBackslash⟩ := bare
  rw [run, stands.rest]
  simp [unpadded, unbroken, noQuote, noBackslash]

/-- A word without spaces, escaped where needed. -/
theorem run_double (start : Mark) (word : List Char) : ∀ (state : Run) {column fuel : Nat},
    state.cursor.At (doubleBody word ++ rest) column → (∀ c ∈ word, c ≠ ' ') → Ends false rest →
      word.length ≤ fuel →
      ∃ cursor column', run false start fuel state
          = .ok { state with cursor := cursor, value := state.value ++ word }
        ∧ cursor.At rest column' ∧ column ≤ column' := by
  induction word with
  | nil =>
      intro state column fuel stands _ ends _
      refine ⟨state.cursor, column, ?_, stands, Nat.le_refl _⟩
      rw [run_ends stands ends, List.append_nil]
  | cons c word inductionHypothesis =>
      intro state column fuel stands noSpace ends fits
      rw [List.length_cons] at fits
      obtain ⟨fuel, rfl⟩ := Nat.exists_eq_succ_of_ne_zero (by omega : fuel ≠ 0)
      have step : ∃ cursor column', run false start (fuel + 1) state
            = run false start fuel { state with cursor := cursor, value := state.value ++ [c] }
          ∧ cursor.At (doubleBody word ++ rest) column' ∧ column ≤ column' := by
        rw [doubleBody_cons, List.append_assoc] at stands
        cases needs : needsEscape c with
        | true =>
            rw [if_pos needs] at stands
            obtain ⟨cursor, isRun, stands'⟩ := run_escaped stands fuel
            exact ⟨cursor, _, isRun, stands', by omega⟩
        | false =>
            rw [if_neg (by simp [needs])] at stands
            have unpadded : isPad c = false := by
              rw [isPad, beq_false_of_ne (noSpace c (List.mem_cons_self ..)), Bool.false_or]
              refine beq_false_of_ne ?_
              rintro rfl
              exact absurd needs (by decide)
            exact ⟨_, _, run_raw stands unpadded needs fuel, stands.skip, by omega⟩
      obtain ⟨cursor, column', isRun, stands', ahead⟩ := step
      obtain ⟨cursor', column'', isRun', stands'', ahead'⟩ :=
        inductionHypothesis { state with cursor := cursor, value := state.value ++ [c] } stands'
          (fun d isIn => noSpace d (List.mem_cons_of_mem c isIn)) ends (by omega : word.length ≤ fuel)
      refine ⟨cursor', column'', ?_, stands'', by omega⟩
      rw [Nat.succ_eq_add_one, isRun, isRun', List.append_assoc, List.singleton_append]

def mark (single : Bool) : Char :=
  if single then Text.Symbol.apostrophe else Text.Symbol.quote

section

variable {single : Bool} {value text : List Char} {cursor : Cursor} {fuel : Nat}

/-- A run up to the closing mark ends the scalar. -/
theorem read_closes (stands : cursor.At text column) (inside : 0 < column) (filled : text ≠ [])
    (isRun : run single start (text.length + 1) { cursor := cursor, value := value } = .ok state)
    {column' : Nat} (closes : state.cursor.At (mark single :: rest) column') :
    read single start (fuel + 1) value cursor = .ok (state.value, state.cursor) := by
  obtain ⟨c, text, rfl⟩ := List.exists_cons_of_ne_nil filled
  have isClosing : state.cursor.atChar (if single then Text.Symbol.apostrophe else Text.Symbol.quote)
      = true := by
    rw [closes.atChar]
    exact beq_self_eq_true _
  rw [read, if_neg (by simp [stands.no_anyDocumentMarker inside]), if_neg (by simp [stands.isEnd]),
    stands.rest, isRun]
  dsimp only
  rw [if_pos isClosing]

/-- A run up to a gap goes on behind it. -/
theorem read_gap (stands : cursor.At text column) (inside : 0 < column) (filled : text ≠ [])
    (isRun : run single start (text.length + 1) { cursor := cursor, value := value } = .ok state)
    {c : Char} {column' : Nat} (goesOn : state.cursor.At (c :: rest) column') (open_ : c ≠ mark single)
    {gap : Gap}
    (isGap : Gap.read none ((c :: rest).length + 1)
      { cursor := state.cursor, broken := state.escapedBreak } = (gap, true)) :
    read single start (fuel + 1) value cursor
      = read single start fuel (state.value ++ gap.folded) gap.cursor := by
  obtain ⟨d, text, rfl⟩ := List.exists_cons_of_ne_nil filled
  have notClosing : state.cursor.atChar (if single then Text.Symbol.apostrophe else Text.Symbol.quote)
      = false := by
    rw [goesOn.atChar]
    exact beq_false_of_ne open_
  rw [read, if_neg (by simp [stands.no_anyDocumentMarker inside]), if_neg (by simp [stands.isEnd]),
    stands.rest, isRun]
  dsimp only
  rw [if_neg (by simp [notClosing]), goesOn.rest, isGap]

private theorem stops_doubleBody {words tail : List Char} (noLead : words.head? ≠ some ' ') :
    Stops (doubleBody words ++ Text.Symbol.quote :: tail) := by
  cases words with
  | nil => exact stops_cons (by decide) (by decide)
  | cons c words =>
      rw [doubleBody_cons]
      cases needs : needsEscape c with
      | true => exact stops_cons (by decide) (by decide)
      | false =>
          have bare := needs
          simp only [needsEscape, Bool.or_eq_false_iff] at bare
          refine stops_cons ?_ bare.1.1.2
          have notTab : c ≠ '\t' := by
            rintro rfl
            exact absurd needs (by decide)
          simpa [isPad, notTab] using noLead

/-- Quotation marks keep every text. -/
theorem read_double (tail : List Char) : ∀ {fuel : Nat} {chars value : List Char}
    {cursor : Cursor} {column : Nat},
    cursor.At (doubleBody chars ++ Text.Symbol.quote :: tail) column → 0 < column →
      chars.length < fuel →
      ∃ cursor' column', read false start fuel value cursor = .ok (value ++ chars, cursor')
        ∧ cursor'.At (Text.Symbol.quote :: tail) column' := by
  intro fuel
  induction fuel with
  | zero => exact fun _ _ fits => absurd fits (Nat.not_lt_zero _)
  | succ fuel inductionHypothesis =>
      intro chars value cursor column stands inside fits
      obtain ⟨word, behind, rfl, noSpace, opens⟩ := Plain.exists_run chars
      have wordFits : word.length ≤ (doubleBody (word ++ behind) ++ Text.Symbol.quote :: tail).length
          + 1 := by
        have enough := length_le_doubleBody (word ++ behind)
        rw [List.length_append] at enough
        rw [List.length_append]
        omega
      have filled : doubleBody (word ++ behind) ++ Text.Symbol.quote :: tail ≠ [] := by simp
      rcases opens with rfl | ⟨count, words, rfl, noLead⟩
      · have ends : Ends false (Text.Symbol.quote :: tail) := Or.inr (Or.inr ⟨rfl, by simp⟩)
        have atWord := stands
        rw [List.append_nil] at atWord
        obtain ⟨cursor', column', isRun, closes, _⟩ :=
          run_double start word { cursor := cursor, value := value } atWord noSpace ends
            wordFits
        refine ⟨cursor', column', ?_, closes⟩
        rw [read_closes stands inside filled isRun closes, List.append_nil]
      · have stops : Stops (doubleBody words ++ Text.Symbol.quote :: tail) :=
          stops_doubleBody noLead
        have ends : Ends false (spaces (count + 1) ++ (doubleBody words ++ Text.Symbol.quote :: tail)) :=
          Or.inl rfl
        have atWord := stands
        rw [doubleBody_append, doubleBody_append, doubleBody_spaces, List.append_assoc,
          List.append_assoc] at atWord
        obtain ⟨cursor', column', isRun, goesOn, ahead⟩ :=
          run_double start word { cursor := cursor, value := value } atWord noSpace ends wordFits
        obtain ⟨behind, isGap, atWords⟩ :=
          Gap.read_spaces none (count + 1) { cursor := cursor' } goesOn stops
            (by simp [spaces]; omega :
              count + 1 ≤ (spaces (count + 1)
                ++ (doubleBody words ++ Text.Symbol.quote :: tail)).length + 1)
        obtain ⟨closing, column'', isRead, closes⟩ :=
          @inductionHypothesis words ((value ++ word) ++ spaces (count + 1)) behind _ atWords
            (by omega) (by simp [spaces] at fits; omega)
        refine ⟨closing, column'', ?_, closes⟩
        rw [read_gap stands inside filled isRun goesOn (by decide) isGap, ← List.append_assoc,
          ← List.append_assoc]
        exact isRead

end

/-! ## Between apostrophes -/

def doubled (c : Char) : List Char :=
  if c == Text.Symbol.apostrophe then [c, c] else [c]

private theorem singleBody_word (indent : Nat) (word behind : List Char)
    (unbroken : ∀ c ∈ word, isBreak c = false) :
    singleBody indent false (word ++ behind)
      = word.flatMap doubled ++ singleBody indent false behind := by
  induction word with
  | nil => rfl
  | cons c word inductionHypothesis =>
      rw [List.cons_append, singleBody, if_neg (by simp [unbroken c (List.mem_cons_self ..)]),
        inductionHypothesis fun d isIn => unbroken d (List.mem_cons_of_mem c isIn),
        List.flatMap_cons, if_neg Bool.false_ne_true, List.nil_append, List.append_assoc]
      rfl

private theorem singleBody_spaces (indent count : Nat) (behind : List Char) :
    singleBody indent false (spaces count ++ behind)
      = spaces count ++ singleBody indent false behind := by
  have isSpace : ∀ c ∈ spaces count, c = ' ' := fun c isIn => (List.mem_replicate.mp isIn).2
  have undoubled : (spaces count).flatMap doubled = spaces count := by
    induction count with
    | zero => rfl
    | succ count inductionHypothesis =>
        rw [spaces, List.replicate_succ, List.flatMap_cons]
        exact congrArg _ (inductionHypothesis fun c isIn => (List.mem_replicate.mp isIn).2)
  rw [singleBody_word indent _ behind fun c isIn => by rw [isSpace c isIn]; decide, undoubled]

private theorem singleBody_opened (indent : Nat) (breaks behind : List Char)
    (broken : ∀ c ∈ breaks, isBreak c = true) (stops : ∀ c ∈ behind.head?, isBreak c = false) :
    singleBody indent true (breaks ++ behind)
      = breaks ++ (spaces indent ++ singleBody indent false behind) := by
  induction breaks with
  | nil =>
      cases behind with
      | nil => simp [singleBody]
      | cons c behind =>
          have unbroken := stops c rfl
          simp [singleBody, unbroken]
  | cons c breaks inductionHypothesis =>
      rw [List.cons_append, singleBody, if_pos (broken c (List.mem_cons_self ..)),
        inductionHypothesis fun d isIn => broken d (List.mem_cons_of_mem c isIn), List.cons_append]

/-- A line that is broken goes on at the indentation. -/
theorem singleBody_breaks {indent : Nat} {c : Char} {breaks behind : List Char}
    (broken : ∀ d ∈ c :: breaks, isBreak d = true) (stops : ∀ d ∈ behind.head?, isBreak d = false) :
    singleBody indent false (c :: (breaks ++ behind))
      = c :: (breaks ++ (spaces indent ++ singleBody indent false behind)) := by
  rw [singleBody, if_pos (broken c (List.mem_cons_self ..)),
    singleBody_opened indent breaks behind (fun d isIn => broken d (List.mem_cons_of_mem c isIn))
      stops]

private theorem run_doubled {c : Char} (stands : state.cursor.At (doubled c ++ rest) column)
    (unpadded : isPad c = false) (unbroken : isBreak c = false) (fuel : Nat) :
    ∃ cursor, run true start (fuel + 1) state
        = run true start fuel { state with cursor := cursor, value := state.value ++ [c] }
      ∧ cursor.At rest (column + (doubled c).length) := by
  by_cases isMark : c = Text.Symbol.apostrophe
  · subst isMark
    refine ⟨state.cursor.skip.skip, ?_, stands.skip.skip⟩
    rw [run, stands.rest]
    rfl
  · have single : doubled c = [c] := by rw [doubled, beq_false_of_ne isMark]; rfl
    rw [single] at stands ⊢
    refine ⟨state.cursor.skip, ?_, stands.skip⟩
    rw [run, stands.rest]
    simp [unpadded, unbroken, isMark]

private theorem run_single (start : Mark) (word : List Char) : ∀ (state : Run) {column fuel : Nat},
    state.cursor.At (word.flatMap doubled ++ rest) column →
      (∀ c ∈ word, isPad c = false ∧ isBreak c = false) → Ends true rest → word.length ≤ fuel →
      ∃ cursor column', run true start fuel state
          = .ok { state with cursor := cursor, value := state.value ++ word }
        ∧ cursor.At rest column' ∧ column ≤ column' := by
  induction word with
  | nil =>
      intro state column fuel stands _ ends _
      refine ⟨state.cursor, column, ?_, stands, Nat.le_refl _⟩
      rw [run_ends stands ends, List.append_nil]
  | cons c word inductionHypothesis =>
      intro state column fuel stands solid ends fits
      rw [List.length_cons] at fits
      obtain ⟨fuel, rfl⟩ := Nat.exists_eq_succ_of_ne_zero (by omega : fuel ≠ 0)
      rw [List.flatMap_cons, List.append_assoc] at stands
      obtain ⟨unpadded, unbroken⟩ := solid c (List.mem_cons_self ..)
      obtain ⟨cursor, isRun, stands'⟩ := run_doubled stands unpadded unbroken fuel
      obtain ⟨cursor', column', isRun', stands'', ahead⟩ :=
        inductionHypothesis { state with cursor := cursor, value := state.value ++ [c] } stands'
          (fun d isIn => solid d (List.mem_cons_of_mem c isIn)) ends (by omega : word.length ≤ fuel)
      refine ⟨cursor', column', ?_, stands'', by omega⟩
      rw [Nat.succ_eq_add_one, isRun, isRun', List.append_assoc, List.singleton_append]

/-- What apostrophes ask of a text: no line feed, nothing to escape, and no space beside
a break. -/
structure Framed (chars : List Char) : Prop where
  noFeed : '\n' ∉ chars
  printable : ∀ c ∈ chars, Write.isPrintable c = true
  noSpaceBreak : Write.anyPair Write.isSpace isBreak chars = false
  noBreakSpace : Write.anyPair isBreak Write.isSpace chars = false

private theorem anyPair_append {first second : Char → Bool} {left right : List Char}
    (none : Write.anyPair first second (left ++ right) = false) :
    Write.anyPair first second right = false := by
  induction left with
  | nil => exact none
  | cons c left inductionHypothesis =>
      apply inductionHypothesis
      rw [List.cons_append] at none
      cases joined : left ++ right with
      | nil => rfl
      | cons d rest =>
          rw [joined, Write.anyPair, Bool.or_eq_false_iff] at none
          exact none.2

theorem Framed.append {left right : List Char} (framed : Framed (left ++ right)) : Framed right :=
  ⟨fun isIn => framed.noFeed (List.mem_append_right left isIn),
    fun c isIn => framed.printable c (List.mem_append_right left isIn),
    anyPair_append framed.noSpaceBreak, anyPair_append framed.noBreakSpace⟩

/-- Two neighbours, of which one ends a part and the other starts the next. -/
theorem anyPair_joint {first second : Char → Bool} {left right : List Char} {c d : Char}
    (none : Write.anyPair first second (left ++ right) = false) (isLast : left.getLast? = some c)
    (isHead : right.head? = some d) (isFirst : first c = true) : second d = false := by
  obtain ⟨front, rfl⟩ := List.getLast?_eq_some_iff.mp isLast
  obtain ⟨rest, rfl⟩ := List.head?_eq_some_iff.mp isHead
  rw [List.append_assoc] at none
  have pair := anyPair_append none
  rw [List.singleton_append, Write.anyPair, Bool.or_eq_false_iff, isFirst, Bool.true_and] at pair
  exact pair.1

/-- The word in front of a text, and the spaces or the breaks behind it. -/
theorem exists_word (chars : List Char) :
    ∃ word behind, chars = word ++ behind ∧ (∀ c ∈ word, c ≠ ' ' ∧ isBreak c = false)
      ∧ (behind = []
        ∨ (∃ count words, behind = spaces (count + 1) ++ words ∧ words.head? ≠ some ' ')
        ∨ ∃ c breaks words, behind = c :: (breaks ++ words)
            ∧ (∀ d ∈ c :: breaks, isBreak d = true) ∧ ∀ d ∈ words.head?, isBreak d = false) := by
  induction chars with
  | nil => exact ⟨[], [], rfl, by simp, Or.inl rfl⟩
  | cons c rest inductionHypothesis =>
      by_cases isSpace : c = ' '
      · obtain ⟨count, words, rfl, stops⟩ := exists_spaces rest
        subst isSpace
        exact ⟨[], spaces (count + 1) ++ words, rfl, by simp,
          Or.inr (Or.inl ⟨count, words, rfl, stops⟩)⟩
      · cases broken : isBreak c with
        | true =>
            obtain ⟨breaks, words, rfl, all, stops⟩ := exists_breaks rest
            exact ⟨[], c :: (breaks ++ words), rfl, by simp,
              Or.inr (Or.inr ⟨c, breaks, words, rfl, List.forall_mem_cons.mpr ⟨broken, all⟩, stops⟩)⟩
        | false =>
            obtain ⟨word, behind, rfl, solid, opens⟩ := inductionHypothesis
            exact ⟨c :: word, behind, rfl, List.forall_mem_cons.mpr ⟨⟨isSpace, broken⟩, solid⟩, opens⟩

theorem Framed.unpadded {chars : List Char} (framed : Framed chars) {c : Char} (isIn : c ∈ chars)
    (notSpace : c ≠ ' ') : isPad c = false := by
  have notTab : c ≠ '\t' := by
    rintro rfl
    exact absurd (framed.printable _ isIn) (by decide)
  rw [isPad, beq_false_of_ne notSpace, beq_false_of_ne notTab, Bool.or_self]

private theorem length_le_singleBody (indent : Nat) (chars : List Char) :
    ∀ opened, chars.length ≤ (singleBody indent opened chars).length := by
  induction chars with
  | nil => exact fun _ => Nat.zero_le _
  | cons c chars inductionHypothesis =>
      intro opened
      rw [singleBody]
      split
      · exact Nat.succ_le_succ (inductionHypothesis true)
      · have behind := inductionHypothesis false
        have filled : 1 ≤ (doubled c).length := by
          rw [doubled]
          split <;> simp
        simp only [List.length_append, List.length_cons]
        simp only [doubled] at filled
        omega

section

variable {indent : Nat} {tail : List Char}

private theorem stops_singleBody {words : List Char}
    (solid : ∀ c ∈ words.head?, isPad c = false ∧ isBreak c = false) :
    Stops (singleBody indent false words ++ Text.Symbol.apostrophe :: tail) := by
  cases words with
  | nil => exact stops_cons (by decide) (by decide)
  | cons c words =>
      obtain ⟨unpadded, unbroken⟩ := solid c rfl
      rw [singleBody, if_neg (by simp [unbroken]), if_neg Bool.false_ne_true, List.nil_append]
      split <;> exact stops_cons unpadded unbroken

variable {word words value : List Char} {cursor : Cursor} {fuel : Nat}

theorem Framed.solid {behind : List Char} (framed : Framed (word ++ behind))
    (solid : ∀ c ∈ word, c ≠ ' ' ∧ isBreak c = false) :
    ∀ c ∈ word, isPad c = false ∧ isBreak c = false := fun c isIn =>
  ⟨framed.unpadded (List.mem_append_left behind isIn) (solid c isIn).1, (solid c isIn).2⟩

private theorem word_fits (behind : List Char) :
    word.length
      ≤ (singleBody indent false (word ++ behind) ++ Text.Symbol.apostrophe :: tail).length + 1 := by
  have enough := length_le_singleBody indent (word ++ behind) false
  rw [List.length_append] at enough
  rw [List.length_append]
  omega

/-- A word and the spaces behind it. -/
theorem read_single_spaces {count : Nat} (framed : Framed (word ++ (spaces (count + 1) ++ words)))
    (solid : ∀ c ∈ word, c ≠ ' ' ∧ isBreak c = false) (noLead : words.head? ≠ some ' ')
    (stands : cursor.At (singleBody indent false (word ++ (spaces (count + 1) ++ words))
      ++ Text.Symbol.apostrophe :: tail) column) (inside : 0 < column) :
    ∃ after column', read true start (fuel + 1) value cursor
        = read true start fuel (value ++ word ++ spaces (count + 1)) after
      ∧ after.At (singleBody indent false words ++ Text.Symbol.apostrophe :: tail) column'
      ∧ 0 < column' := by
  have framedBehind := framed.append
  have solidWords : ∀ c ∈ words.head?, isPad c = false ∧ isBreak c = false := by
    intro c isHead
    have isLast : (spaces (count + 1)).getLast? = some ' ' := by
      rw [spaces, List.replicate_succ', List.getLast?_concat]
    refine ⟨framedBehind.append.unpadded (List.mem_of_head? isHead) ?_,
      anyPair_joint framedBehind.noSpaceBreak isLast isHead (by decide)⟩
    rintro rfl
    exact noLead isHead
  have atWord := stands
  rw [singleBody_word indent word _ fun c isIn => (solid c isIn).2, singleBody_spaces,
    List.append_assoc, List.append_assoc] at atWord
  obtain ⟨cursor', column', isRun, goesOn, ahead⟩ :=
    run_single start word { cursor := cursor, value := value } atWord (framed.solid solid)
      (Or.inl rfl) (word_fits _)
  have fits : count + 1 ≤ (spaces (count + 1) ++ (singleBody indent false words
      ++ Text.Symbol.apostrophe :: tail)).length + 1 := by
    simp [spaces]
    omega
  obtain ⟨after, isGap, atWords⟩ :=
    Gap.read_spaces none (count + 1) { cursor := cursor' } goesOn (stops_singleBody solidWords) fits
  refine ⟨after, _, ?_, atWords, by omega⟩
  rw [read_gap stands inside (by simp) isRun goesOn (by decide) isGap]
  rfl

/-- A word and the breaks behind it, which are separators. -/
theorem read_single_breaks {c : Char} {breaks : List Char} (deep : 0 < indent)
    (framed : Framed (word ++ (c :: (breaks ++ words))))
    (solid : ∀ d ∈ word, d ≠ ' ' ∧ isBreak d = false) (broken : ∀ d ∈ c :: breaks, isBreak d = true)
    (noLead : ∀ d ∈ words.head?, isBreak d = false)
    (stands : cursor.At (singleBody indent false (word ++ (c :: (breaks ++ words)))
      ++ Text.Symbol.apostrophe :: tail) column) (inside : 0 < column) :
    ∃ after column', read true start (fuel + 1) value cursor
        = read true start fuel (value ++ word ++ (c :: breaks)) after
      ∧ after.At (singleBody indent false words ++ Text.Symbol.apostrophe :: tail) column'
      ∧ 0 < column' := by
  have framedBehind := framed.append
  have lasting : ∀ d ∈ c :: breaks, Lasting d := fun d isIn =>
    lasting_of_printable (framedBehind.printable d (List.mem_append_left words isIn)) (broken d isIn)
  have solidWords : ∀ d ∈ words.head?, isPad d = false ∧ isBreak d = false := by
    intro d isHead
    refine ⟨?_, noLead d isHead⟩
    have isLast := List.getLast?_eq_some_getLast (List.cons_ne_nil c breaks)
    have afterBreak := @anyPair_joint _ _ (c :: breaks) words _ d framedBehind.noBreakSpace isLast
      isHead (broken _ (List.getLast_mem _))
    refine framedBehind.unpadded
      (List.mem_cons_of_mem c (List.mem_append_right breaks (List.mem_of_head? isHead))) ?_
    rintro rfl
    exact absurd afterBreak (by decide)
  have atWord := stands
  rw [singleBody_word indent word _ fun d isIn => (solid d isIn).2,
    singleBody_breaks broken noLead] at atWord
  simp only [List.cons_append, List.append_assoc] at atWord
  obtain ⟨cursor', column', isRun, goesOn, ahead⟩ :=
    run_single start word { cursor := cursor, value := value } atWord (framed.solid solid)
      (Or.inr (Or.inl (broken c (List.mem_cons_self ..)))) (word_fits _)
  have fits : breaks.length + indent < (c :: (breaks ++ (spaces indent
      ++ (singleBody indent false words ++ Text.Symbol.apostrophe :: tail)))).length + 1 := by
    simp [spaces]
    omega
  obtain ⟨after, isGap, atWords⟩ :=
    Gap.read_line none { cursor := cursor' } goesOn rfl lasting (stops_singleBody solidWords) fits
  refine ⟨after, indent, ?_, atWords, deep⟩
  have notMark : c ≠ mark true := by
    rintro rfl
    exact absurd (broken _ (List.mem_cons_self ..)) (by decide)
  have notFeed : c ≠ '\n' := by
    rintro rfl
    exact framedBehind.noFeed (List.mem_cons_self ..)
  rw [read_gap stands inside (by simp) isRun goesOn notMark isGap]
  simp [Gap.folded, notFeed]

/-- Apostrophes keep the texts that are allowed between them. -/
theorem read_single (deep : 0 < indent) (undoubled : tail.head? ≠ some Text.Symbol.apostrophe) :
    ∀ {fuel : Nat} {chars value : List Char} {cursor : Cursor} {column : Nat}, Framed chars →
      cursor.At (singleBody indent false chars ++ Text.Symbol.apostrophe :: tail) column →
      0 < column → chars.length < fuel →
      ∃ cursor' column', read true start fuel value cursor = .ok (value ++ chars, cursor')
        ∧ cursor'.At (Text.Symbol.apostrophe :: tail) column' := by
  intro fuel
  induction fuel with
  | zero => exact fun _ _ _ fits => absurd fits (Nat.not_lt_zero _)
  | succ fuel inductionHypothesis =>
      intro chars value cursor column framed stands inside fits
      obtain ⟨word, behind, rfl, solid, opens⟩ := exists_word chars
      rcases opens with rfl | ⟨count, words, rfl, noLead⟩ | ⟨c, breaks, words, rfl, broken, noLead⟩
      · have atWord := stands
        rw [singleBody_word indent word [] fun c isIn => (solid c isIn).2, List.append_assoc] at atWord
        have ends : Ends true (Text.Symbol.apostrophe :: tail) :=
          Or.inr (Or.inr ⟨rfl, fun _ => undoubled⟩)
        obtain ⟨cursor', column', isRun, closes, _⟩ :=
          run_single start word { cursor := cursor, value := value } atWord (framed.solid solid) ends
            (word_fits _)
        refine ⟨cursor', column', ?_, closes⟩
        rw [read_closes stands inside (by simp) isRun closes, List.append_nil]
      · obtain ⟨after, column', step, atWords, inside'⟩ :=
          read_single_spaces framed solid noLead stands inside
        obtain ⟨closing, column'', isRead, closes⟩ :=
          inductionHypothesis framed.append.append atWords inside' (by simp [spaces] at fits; omega)
        refine ⟨closing, column'', ?_, closes⟩
        rw [step, isRead, List.append_assoc, List.append_assoc]
      · obtain ⟨after, column', step, atWords, inside'⟩ :=
          read_single_breaks deep framed solid broken noLead stands inside
        rw [← List.cons_append] at framed
        obtain ⟨closing, column'', isRead, closes⟩ :=
          inductionHypothesis framed.append.append atWords inside' (by simp at fits; omega)
        refine ⟨closing, column'', ?_, closes⟩
        rw [step, isRead, List.append_assoc, List.append_assoc, List.cons_append]

end

/-! ## Scalars -/

theorem framed_of_allowed {chars : List Char} (allowed : (Write.traits chars).singleAllowed = true)
    (noFeed : '\n' ∉ chars) : Framed chars := by
  simp only [Write.Traits.singleAllowed, Write.traits, Bool.not_eq_true', Bool.or_eq_false_iff]
    at allowed
  obtain ⟨⟨noBreakSpace, noSpaceBreak⟩, special⟩ := allowed
  exact ⟨noFeed, by simpa using special, noSpaceBreak, noBreakSpace⟩

variable {chars tail : List Char} {cursor : Cursor}

private theorem scan_of_read {single : Bool} {closing : Cursor}
    (isRead : read single cursor.mark (cursor.rest.length + 2) [] cursor.skip = .ok (chars, closing))
    (closes : closing.At (mark single :: tail) column) :
    ∃ token, scan single cursor = .ok (token, closing.skip)
      ∧ token.kind = .scalar (String.ofList chars)
          (if single then .singleQuoted else .doubleQuoted)
      ∧ closing.skip.At tail (column + 1) := by
  refine ⟨⟨.scalar (String.ofList chars) (if single then .singleQuoted else .doubleQuoted),
    cursor.mark, closing.skip.mark⟩, ?_, rfl, closes.skip⟩
  rw [scan, isRead]
  rfl

theorem scan_single {indent : Nat} (framed : Framed chars) (deep : 0 < indent)
    (undoubled : tail.head? ≠ some Text.Symbol.apostrophe)
    (stands : cursor.At (Text.Symbol.apostrophe :: (singleBody indent false chars
      ++ Text.Symbol.apostrophe :: tail)) column) :
    ∃ token after column', scan true cursor = .ok (token, after)
      ∧ token.kind = .scalar (String.ofList chars) .singleQuoted ∧ after.At tail column' := by
  have fits : chars.length < cursor.rest.length + 2 := by
    have enough := length_le_singleBody indent chars false
    rw [stands.rest, List.length_cons, List.length_append]
    omega
  obtain ⟨closing, column', isRead, closes⟩ :=
    @read_single cursor.mark indent tail deep undoubled _ chars [] cursor.skip _ framed stands.skip
      (Nat.succ_pos column) fits
  obtain ⟨token, isScan, kind, stands'⟩ := scan_of_read isRead closes
  exact ⟨token, _, _, isScan, kind, stands'⟩

theorem scan_double
    (stands : cursor.At
      (Text.Symbol.quote :: (doubleBody chars ++ Text.Symbol.quote :: tail)) column) :
    ∃ token after column', scan false cursor = .ok (token, after)
      ∧ token.kind = .scalar (String.ofList chars) .doubleQuoted ∧ after.At tail column' := by
  have fits : chars.length < cursor.rest.length + 2 := by
    have enough := length_le_doubleBody chars
    rw [stands.rest, List.length_cons, List.length_append]
    omega
  obtain ⟨closing, column', isRead, closes⟩ :=
    @read_double cursor.mark tail _ chars [] cursor.skip _ stands.skip (Nat.succ_pos column) fits
  obtain ⟨token, isScan, kind, stands'⟩ := scan_of_read isRead closes
  exact ⟨token, _, _, isScan, kind, stands'⟩

end Quoted

end Tangle.Yaml
