import Mathlib.Data.List.InsertIdx
import Mathlib.Logic.Relation
import Tangle.Proofs.Yaml.Literal
import Tangle.Proofs.Yaml.Quoted

/-!
Contract: what the scanner makes of the parts of a written document, one token at a time.

Owns: the view of a scanner at rest, the steps over dashes, field names and scalars, and
why the fuel of a run is enough.

Does **not** own: whole documents (`Tangle.Proofs.Yaml.Document`).

## Parking

Block collections end late: the scanner notices the end of a list or record when the next
token turns out to stand further left. A scanner that is `Parked` stands ahead of a token
with all that the step over it will close first; `Parked.close` moves one end of a
collection from what is still to come to what has been read.
-/

set_option autoImplicit false

namespace Tangle.Yaml.Scanner

open Write (spaces)

/-! ## Views -/

def Lax (keys : List (Option SimpleKey)) : Prop :=
  ∃ key, keys = [key] ∧ ∀ candidate ∈ key, candidate.required = false

/-- The scanner outside of flow collections: the tokens so far, the indentation, whether a
key may start, and where the cursor stands. -/
structure Stands (scanner : Scanner) (allowed : Bool) (kinds : List TokenKind) (indent : Int)
    (indents : List Int) (rest : List Char) (column : Nat) : Prop where
  kinds : scanner.tokens.map Token.kind = kinds
  block : scanner.flowLevel = 0
  indent : scanner.indent = indent
  indents : scanner.indents = indents
  allowed : scanner.keyAllowed = allowed
  cursor : scanner.cursor.At rest column

variable {scanner : Scanner} {allowed : Bool} {kinds : List TokenKind} {indent : Int}
  {indents : List Int} {rest : List Char} {column : Nat}

theorem Stands.not_inFlow (stands : scanner.Stands allowed kinds indent indents rest column) :
    scanner.inFlow = false := by
  rw [inFlow, stands.block]
  rfl

/-- Keys that need not be completed are forgotten without an error. -/
theorem dropStale_lax (lax : Lax scanner.keys) :
    ∃ keys, scanner.dropStale = .ok { scanner with keys := keys } ∧ Lax keys := by
  obtain ⟨key, isKeys, free⟩ := lax
  refine ⟨[key.filter fun candidate => !isStale scanner.cursor.mark candidate], ?_,
    _, rfl, fun candidate isIn => free candidate (Option.mem_filter_iff.mp isIn).1⟩
  have none : (([key].reverse.filterMap id).find? fun candidate =>
      isStale scanner.cursor.mark candidate && candidate.required) = none := by
    cases key with
    | none => rfl
    | some candidate => simp [free candidate rfl]
  rw [dropStale, isKeys, none]
  rfl

/-- A key on the same line and not far back stays open. -/
theorem dropStale_fresh {key : SimpleKey} (isKeys : scanner.keys = [some key])
    (fresh : isStale scanner.cursor.mark key = false) : scanner.dropStale = .ok scanner := by
  have none : (([some key].reverse.filterMap id).find? fun candidate =>
      isStale scanner.cursor.mark candidate && candidate.required) = none := by
    simp [fresh]
  have same : [some key].map (Option.filter fun candidate => !isStale scanner.cursor.mark candidate)
      = [some key] := by
    simp [Option.filter, fresh]
  rw [dropStale, isKeys, none]
  show Except.ok { scanner with keys := _ } = _
  rw [same, ← isKeys]

/-! ## To the next token -/

/-- What one round finds ahead of a token: no byte order mark, no comment and no break. -/
theorem toNextToken_round {cursor : Cursor} (fuel : Nat)
    (noMark : scanner.cursor.atChar '\ufeff' = false)
    (isSkipped : (scanner.cursor.skipWhile fun c =>
      c == ' ' || ((scanner.inFlow || !scanner.keyAllowed) && c == '\t')) = cursor)
    (noComment : cursor.atChar '#' = false) :
    scanner.toNextToken (fuel + 1)
      = if cursor.peek?.any isBreak then
          toNextToken fuel
            { scanner with
              cursor := cursor.skipLine
              keyAllowed := if scanner.inFlow then scanner.keyAllowed else true }
        else { scanner with cursor := cursor } := by
  rw [toNextToken]
  simp only [noMark, Bool.and_false, Bool.false_eq_true, if_false, isSkipped, noComment]

/-- Spaces up to a token, or up to the end of the text. -/
theorem skip_spaces {cursor : Cursor} (count : Nat) (tabs : Bool)
    (stands : cursor.At (spaces count ++ rest) column) (stops : Stops rest) :
    (cursor.skipWhile fun c => c == ' ' || (tabs && c == '\t')).At rest (column + count) := by
  have length : (spaces count).length = count := List.length_replicate
  have behind := Cursor.At.skipWhile (fun c => c == ' ' || (tabs && c == '\t')) (spaces count) stands
    (fun c isIn => by rw [(List.mem_replicate.mp isIn).2]; rfl)
    (fun c isHead => by
      have unpadded := (stops c isHead).1
      rw [isPad, Bool.or_eq_false_iff] at unpadded
      rw [unpadded.1, unpadded.2, Bool.and_false, Bool.or_self])
  rwa [length] at behind

private theorem atChar_spaces {cursor : Cursor} {count : Nat} {c : Char}
    (stands : cursor.At (spaces count ++ rest) column)
    (starts : ∀ d ∈ rest.head?, isStart d = true) (notStart : isStart c = false)
    (notSpace : c ≠ ' ') : cursor.atChar c = false := by
  rw [Cursor.atChar, stands.peek?]
  refine beq_false_of_ne fun isHead => ?_
  cases count with
  | zero =>
      rw [starts c isHead] at notStart
      exact Bool.noConfusion notStart
  | succ count => exact notSpace (Option.some.inj isHead).symm

/-- Over spaces to the next token of the line. -/
theorem toNextToken_spaces (count : Nat) (stands : scanner.cursor.At (spaces count ++ rest) column)
    (starts : ∀ c ∈ rest.head?, isStart c = true) (fuel : Nat) :
    ∃ cursor, scanner.toNextToken (fuel + 1) = { scanner with cursor := cursor }
      ∧ cursor.At rest (column + count) := by
  have stops : Stops rest := fun c isHead =>
    have parts := isStart_iff.mp (starts c isHead)
    ⟨parts.1, parts.2.1⟩
  have behind := skip_spaces count (scanner.inFlow || !scanner.keyAllowed) stands stops
  refine ⟨_, ?_, behind⟩
  have noComment := @atChar_spaces rest _ _ 0 '#' behind starts (by decide) (by decide)
  have unbroken : (scanner.cursor.skipWhile fun c =>
      c == ' ' || ((scanner.inFlow || !scanner.keyAllowed) && c == '\t')).peek?.any isBreak
        = false := by
    rw [behind.peek?]
    cases rest with
    | nil => rfl
    | cons c rest => exact (stops c rfl).2
  rw [toNextToken_round fuel (atChar_spaces stands starts (by decide) (by decide)) rfl noComment,
    if_neg (by rw [unbroken]; exact Bool.false_ne_true)]

/-- Over the end of a line to the next token, where a key may start. -/
theorem toNextToken_line {tail : List Char} {next : Nat}
    (stands : scanner.cursor.At ('\n' :: tail) column) (block : scanner.flowLevel = 0)
    (indented : Indents tail next rest) (fuel : Nat) :
    ∃ cursor, scanner.toNextToken (fuel + 2)
        = { scanner with cursor := cursor, keyAllowed := true }
      ∧ cursor.At rest next := by
  have here : (scanner.cursor.skipWhile fun c =>
      c == ' ' || ((scanner.inFlow || !scanner.keyAllowed) && c == '\t')) = scanner.cursor := by
    rw [Cursor.skipWhile, stands.rest, List.takeWhile_cons, if_neg (by simp)]
    rfl
  have atLine : scanner.cursor.skipLine.At (spaces next ++ rest) 0 := by
    rw [← indented.spaced]
    exact stands.skipLine lasting_feed
  have outside : scanner.inFlow = false := by rw [inFlow, block]; rfl
  have breaks : scanner.cursor.peek?.any isBreak = true := by rw [stands.peek?]; rfl
  obtain ⟨cursor, isNext, atNext⟩ :=
    @toNextToken_spaces
      { scanner with
        cursor := scanner.cursor.skipLine
        keyAllowed := if scanner.inFlow then scanner.keyAllowed else true }
      rest 0 next atLine indented.starts fuel
  refine ⟨cursor, ?_, by rwa [Nat.zero_add] at atNext⟩
  rw [toNextToken_round (fuel + 1) stands.atChar here stands.atChar, if_pos breaks, isNext, outside]
  rfl

/-! ## Pauses -/

/-- The scanner once it has come to the next token, before it closes collections. -/
def Pauses (scanner paused : Scanner) : Prop :=
  ∃ fresh, scanner.dropStale = .ok fresh
    ∧ (fresh.toNextToken (fresh.cursor.rest.length + 1)).dropStale = .ok paused

/-- Ahead of a token, with the ends of collections that the step over it will add first. -/
def Parked (scanner : Scanner) (allowed : Bool) (kinds : List TokenKind) (indent : Int)
    (indents : List Int) (rest : List Char) (column : Nat) : Prop :=
  rest.length ≤ scanner.cursor.rest.length
    ∧ ∃ paused ahead : Scanner, Pauses scanner paused ∧ paused.cursor.At rest column
      ∧ ahead.Stands allowed kinds indent indents rest column ∧ Lax ahead.keys
      ∧ paused.unrollIndent column = ahead.unrollIndent column

private theorem Stands.with_keys (stands : scanner.Stands allowed kinds indent indents rest column)
    (keys : List (Option SimpleKey)) :
    ({ scanner with keys := keys } : Scanner).Stands allowed kinds indent indents rest column :=
  ⟨stands.kinds, stands.block, stands.indent, stands.indents, stands.allowed, stands.cursor⟩

private theorem Stands.with_allowed (stands : scanner.Stands allowed kinds indent indents rest column)
    (allowed' : Bool) :
    ({ scanner with keyAllowed := allowed' } : Scanner).Stands allowed' kinds indent indents rest
      column :=
  ⟨stands.kinds, stands.block, stands.indent, stands.indents, rfl, stands.cursor⟩

private theorem Stands.with_cursor {text : List Char} {column' : Nat} {cursor : Cursor}
    (stands : scanner.Stands allowed kinds indent indents text column)
    (reached : cursor.At rest column') :
    ({ scanner with cursor := cursor } : Scanner).Stands allowed kinds indent indents rest column' :=
  ⟨stands.kinds, stands.block, stands.indent, stands.indents, stands.allowed, reached⟩

/-- Spaces ahead of a token of the same line. -/
theorem Stands.parked (count : Nat)
    (stands : scanner.Stands allowed kinds indent indents (spaces count ++ rest) column)
    (lax : Lax scanner.keys) (starts : ∀ c ∈ rest.head?, isStart c = true) :
    scanner.Parked allowed kinds indent indents rest (column + count) := by
  obtain ⟨keys, isFresh, lax⟩ := dropStale_lax lax
  obtain ⟨cursor, isNext, reached⟩ :=
    @toNextToken_spaces { scanner with keys := keys } rest column count stands.cursor starts
      scanner.cursor.rest.length
  have stands' := (stands.with_keys keys).with_cursor reached
  obtain ⟨keys', isPaused, lax'⟩ :=
    @dropStale_lax { scanner with cursor := cursor, keys := keys } lax
  refine ⟨by rw [stands.cursor.rest, List.length_append]; omega, _, _, ⟨_, isFresh, ?_⟩, ?_,
    stands'.with_keys keys', lax', rfl⟩
  · rw [isNext]
    exact isPaused
  · exact reached

/-- The end of a line ahead of a token. -/
theorem Stands.parked_line {tail : List Char} {next : Nat}
    (stands : scanner.Stands allowed kinds indent indents ('\n' :: tail) column)
    (lax : Lax scanner.keys) (indented : Indents tail next rest) :
    scanner.Parked true kinds indent indents rest next := by
  obtain ⟨keys, isFresh, lax⟩ := dropStale_lax lax
  obtain ⟨cursor, isNext, reached⟩ :=
    @toNextToken_line { scanner with keys := keys } rest column tail next stands.cursor stands.block
      indented tail.length
  have stands' : ({ scanner with cursor := cursor, keys := keys, keyAllowed := true } : Scanner).Stands
      true kinds indent indents rest next :=
    ⟨stands.kinds, stands.block, stands.indent, stands.indents, rfl, reached⟩
  obtain ⟨keys', isPaused, lax'⟩ :=
    @dropStale_lax { scanner with cursor := cursor, keys := keys, keyAllowed := true } lax
  refine ⟨?_, _, _, ⟨_, isFresh, ?_⟩, ?_, stands'.with_keys keys', lax', rfl⟩
  · rw [stands.cursor.rest, List.length_cons, indented.spaced, List.length_append]
    omega
  · rw [stands.cursor.rest, List.length_cons, isNext]
    exact isPaused
  · exact reached

/-- Nothing is closed ahead of a token that is deep enough. -/
theorem unrollIndent_deep (deep : scanner.indent ≤ (column : Int)) :
    scanner.unrollIndent column = scanner := by
  rw [unrollIndent]
  split
  · rfl
  · cases isIndents : scanner.indents with
    | nil => rfl
    | cons outer rest => rw [unrollIndent.close, if_pos deep]

/-- The scanner as the step over the next token finds it. -/
def Settles (scanner settled : Scanner) : Prop :=
  ∃ paused, Pauses scanner paused ∧ paused.unrollIndent paused.cursor.mark.column = settled

theorem Parked.settles (parked : scanner.Parked allowed kinds indent indents rest column)
    (deep : indent ≤ (column : Int)) :
    ∃ settled, Settles scanner settled
      ∧ settled.Stands allowed kinds indent indents rest column ∧ Lax settled.keys := by
  obtain ⟨_, paused, ahead, isPaused, reached, stands, lax, same⟩ := parked
  have still : ahead.unrollIndent column = ahead :=
    unrollIndent_deep (by rw [stands.indent]; exact deep)
  exact ⟨ahead, ⟨paused, isPaused, by rw [reached.column, same, still]⟩, stands, lax⟩

/-- A collection ends ahead of a token that stands further left. -/
theorem Parked.close {outer : Int}
    (parked : scanner.Parked allowed kinds indent (outer :: indents) rest column)
    (shallow : (column : Int) < indent) :
    scanner.Parked allowed (kinds ++ [.blockEnd]) outer indents rest column := by
  obtain ⟨bounded, paused, ahead, isPaused, reached, stands, lax, same⟩ := parked
  refine ⟨bounded, paused,
    { ahead with
      tokens := ahead.tokens ++ [⟨.blockEnd, ahead.cursor.mark, ahead.cursor.mark⟩]
      indent := outer, indents := indents }, isPaused, reached, ?_, lax, ?_⟩
  · refine ⟨?_, stands.block, rfl, rfl, stands.allowed, stands.cursor⟩
    rw [List.map_append, stands.kinds]
    rfl
  · rw [same, unrollIndent, unrollIndent, if_neg (by simp [stands.not_inFlow]), stands.indents,
      unrollIndent.close, if_neg (by rw [stands.indent]; omega)]
    exact (if_neg (by simpa [inFlow] using stands.block)).symm

/-! ## Runs -/

def Advances (scanner later : Scanner) : Prop :=
  ∃ settled c, Settles scanner settled ∧ settled.cursor.peek? = some c
    ∧ settled.fetchAt c = .ok later ∧ later.cursor.rest.length < scanner.cursor.rest.length

private theorem run_advances {later : Scanner} (advances : Advances scanner later) (fuel delivered : Nat) :
    ∃ delivered', run (fuel + 1) delivered scanner = run fuel delivered' later := by
  obtain ⟨settled, c, ⟨paused, ⟨fresh, isFresh, isPaused⟩, isSettled⟩, isNext, isFetched, _⟩ := advances
  have fetches : fresh.fetch = .ok (later, false) := by
    rw [fetch, isPaused]
    dsimp only [bind, Except.bind]
    rw [isSettled, isNext]
    dsimp only
    rw [isFetched]
    rfl
  refine ⟨fresh.ready, ?_⟩
  rw [run, isFresh]
  dsimp only
  rw [fetches]

/-- The characters that are left are fuel enough. -/
theorem run_walks {later : Scanner} (walks : Relation.ReflTransGen Advances scanner later) :
    ∀ fuel delivered, scanner.cursor.rest.length < fuel →
      ∃ fuel' delivered', later.cursor.rest.length < fuel'
        ∧ run fuel delivered scanner = run fuel' delivered' later := by
  induction walks using Relation.ReflTransGen.head_induction_on with
  | refl => exact fun fuel delivered enough => ⟨fuel, delivered, enough, rfl⟩
  | head advances _ inductionHypothesis =>
      intro fuel delivered enough
      obtain ⟨fuel, rfl⟩ := Nat.exists_eq_succ_of_ne_zero (Nat.ne_of_gt (Nat.zero_lt_of_lt enough))
      obtain ⟨delivered', isRun⟩ := run_advances advances fuel delivered
      obtain ⟨_, _, _, _, _, shorter⟩ := advances
      obtain ⟨fuel', delivered'', enough', isRun'⟩ :=
        inductionHypothesis fuel delivered' (by omega)
      exact ⟨fuel', delivered'', enough', by rw [← isRun', ← isRun]⟩

/-- A step from a parked scanner, given what it does where the token starts. -/
theorem Parked.advances {c : Char}
    (parked : scanner.Parked allowed kinds indent indents (c :: rest) column)
    (deep : indent ≤ (column : Int))
    {Reached : Scanner → Prop}
    (fetches : ∀ settled : Scanner,
      settled.Stands allowed kinds indent indents (c :: rest) column → Lax settled.keys →
        ∃ later, settled.fetchAt c = .ok later ∧ later.cursor.rest.length ≤ rest.length
          ∧ Reached later) :
    ∃ later, Advances scanner later ∧ Reached later := by
  obtain ⟨settled, settles, stands, lax⟩ := parked.settles deep
  obtain ⟨later, isFetched, shorter, reached⟩ := fetches settled stands lax
  refine ⟨later, ⟨settled, c, settles, by rw [stands.cursor.peek?]; rfl, isFetched, ?_⟩, reached⟩
  have bounded := parked.1
  rw [List.length_cons] at bounded
  omega

/-! ## Parts of a step -/

theorem removeKey_lax (lax : Lax scanner.keys) :
    scanner.removeKey = .ok { scanner with keys := [none] } := by
  obtain ⟨key, isKeys, free⟩ := lax
  rw [removeKey, isKeys]
  cases key with
  | none =>
      dsimp only
      rw [← isKeys]
  | some candidate =>
      dsimp only
      rw [if_neg (by rw [free candidate rfl]; exact Bool.false_ne_true)]

theorem lax_none : Lax [none] :=
  ⟨none, rfl, by simp⟩

theorem Stands.pushMark {c : Char}
    (stands : scanner.Stands allowed kinds indent indents (c :: rest) column) (kind : TokenKind) :
    (scanner.pushMark kind 1).Stands allowed (kinds ++ [kind]) indent indents rest (column + 1) := by
  refine ⟨?_, stands.block, stands.indent, stands.indents, stands.allowed, stands.cursor.skip⟩
  show (scanner.tokens ++ [_]).map Token.kind = _
  rw [List.map_append, stands.kinds]
  rfl

def opening (kind : TokenKind) (indent : Int) (column : Nat) : List TokenKind :=
  if indent < column then [kind] else []

/-- The indentations around a collection that was opened when it is deeper. -/
def around (indent : Int) (column : Nat) (indents : List Int) : List Int :=
  if indent < column then indent :: indents else indents

private theorem insertIdx_between {α : Type} (front behind : List α) (item : α) :
    (front ++ behind).insertIdx front.length item = front ++ item :: behind := by
  induction front with
  | nil => rfl
  | cons first front inductionHypothesis =>
      rw [List.cons_append, List.length_cons, List.insertIdx_succ_cons, inductionHypothesis,
        List.cons_append]

/-- Opens a collection ahead of token `number`, or behind all of them. -/
theorem Stands.rollIndent {front behind : List TokenKind} (kind : TokenKind) (mark : Mark)
    (number : Option Nat) (start : Nat)
    (stands : scanner.Stands allowed (front ++ behind) indent indents rest column)
    (bounded : indent ≤ (start : Int))
    (isNumber : number = some front.length ∨ number = none ∧ behind = []) :
    (scanner.rollIndent start number kind mark).Stands allowed
      (front ++ opening kind indent start ++ behind) start (around indent start indents) rest
      column := by
  by_cases deeper : indent < (start : Int)
  · have opens : ¬ (scanner.inFlow || decide ((start : Int) ≤ scanner.indent)) = true := by
      rw [stands.not_inFlow, stands.indent]
      simpa using deeper
    rw [Scanner.rollIndent, if_neg opens, opening, around, if_pos deeper, if_pos deeper]
    refine ⟨?_, stands.block, rfl, ?_, stands.allowed, stands.cursor⟩
    · rcases isNumber with rfl | ⟨rfl, rfl⟩
      · show (scanner.tokens.insertIdx front.length _).map Token.kind = _
        rw [List.map_insertIdx, stands.kinds, insertIdx_between, List.append_assoc]
        rfl
      · show (scanner.tokens ++ [_]).map Token.kind = _
        rw [List.map_append, stands.kinds, List.append_nil, List.append_nil]
        rfl
    · show scanner.indent :: scanner.indents = _
      rw [stands.indent, stands.indents]
  · have isSame : indent = (start : Int) := by omega
    have stays : (scanner.inFlow || decide ((start : Int) ≤ scanner.indent)) = true := by
      rw [stands.indent, isSame, decide_eq_true (Int.le_refl _), Bool.or_true]
    rw [Scanner.rollIndent, if_pos stays, opening, around, if_neg deeper, if_neg deeper,
      List.append_nil, ← isSame]
    exact stands

private theorem rollIndent_keys (start : Nat) (number : Option Nat) (kind : TokenKind) (mark : Mark) :
    (scanner.rollIndent start number kind mark).keys = scanner.keys := by
  rw [Scanner.rollIndent]
  split <;> rfl

/-! ## Dashes -/

/-- The dash of an entry, which opens its list when that is deeper. -/
theorem fetchAt_dash
    (stands : scanner.Stands true kinds indent indents ('-' :: ' ' :: rest) column)
    (lax : Lax scanner.keys) (bounded : indent ≤ (column : Int)) :
    ∃ later, scanner.fetchAt '-' = .ok later
      ∧ later.Stands true (kinds ++ opening .blockSequenceStart indent column ++ [.blockEntry]) column
          (around indent column indents) (' ' :: rest) (column + 1)
      ∧ Lax later.keys := by
  have noStart : scanner.cursor.atDocumentMarker '-' = false := by
    rw [Cursor.atDocumentMarker, stands.cursor.rest]
    simp
  have noEnd : scanner.cursor.atDocumentMarker '.' = false :=
    stands.cursor.no_documentMarker_of_ne (by decide)
  have isNext : scanner.cursor.ahead? 1 = some ' ' := stands.cursor.ahead? 1
  have noDirective : (scanner.cursor.mark.column == 0 && '-' == '%') = false := Bool.and_false _
  have isEntry : scanner.fetchAt '-' = scanner.fetchBlockEntry := by
    rw [fetchAt, isNext, noStart, noEnd, noDirective]
    rfl
  have stands' : scanner.Stands true (kinds ++ []) indent indents ('-' :: ' ' :: rest) column := by
    rw [List.append_nil]
    exact stands
  have rolled := stands'.rollIndent .blockSequenceStart scanner.cursor.mark none column bounded
    (Or.inr ⟨rfl, rfl⟩)
  have isOpen : scanner.openBlock .blockSequenceStart .sequenceEntryNotAllowed
      = .ok (scanner.rollIndent column none .blockSequenceStart scanner.cursor.mark) := by
    rw [openBlock, stands.not_inFlow, stands.allowed, stands.cursor.column]
    rfl
  have isFree := removeKey_lax ((rollIndent_keys column none .blockSequenceStart
    scanner.cursor.mark).symm ▸ lax)
  have pushed := (rolled.with_keys [none]).pushMark .blockEntry
  rw [List.append_nil] at pushed
  refine ⟨_, ?_, pushed.with_allowed true, lax_none⟩
  rw [isEntry, fetchBlockEntry, isOpen]
  show (Scanner.removeKey _ >>= _) = _
  rw [isFree]
  rfl

/-! ## Names and colons -/

theorem saveKey_barred (stands : scanner.Stands false kinds indent indents rest column) :
    scanner.saveKey = .ok scanner := by
  rw [saveKey, stands.allowed]
  rfl

def keyHere (scanner : Scanner) : SimpleKey :=
  ⟨scanner.tokens.length, scanner.cursor.mark, scanner.indent == (scanner.cursor.mark.column : Int)⟩

private theorem saveKey_allowed (stands : scanner.Stands true kinds indent indents rest column)
    (lax : Lax scanner.keys) :
    scanner.saveKey = .ok { scanner with keys := [some scanner.keyHere] } := by
  rw [saveKey, if_neg (by rw [stands.allowed]; decide), stands.not_inFlow]
  show (scanner.removeKey >>= _) = _
  rw [removeKey_lax lax]
  rfl

/-- A question mark, a colon or a dash that is no indicator has no blank behind it. -/
theorem spaced_false : ∀ {question colon dash spaced : Bool},
    ((question || colon || dash) && spaced) = false →
      (question && spaced) = false ∧ (colon && spaced) = false ∧ (dash && spaced) = false := by
  decide

private theorem startsPlain_quiet {c : Char} {next : Option Char} (unpadded : isPad c = false)
    (unbroken : isBreak c = false) (quiet : Write.indicates none c next = false) :
    startsPlain false c next = true := by
  simp only [Write.indicates, Bool.or_eq_false_iff] at quiet
  obtain ⟨⟨⟨⟨⟨flow, marks⟩, apostrophe⟩, quote⟩, backtick⟩, spaced⟩ := quiet
  have isList : "-?:#&*!|>%@".toList = '-' :: '?' :: ':' :: "#&*!|>%@".toList := by decide
  have unlisted : isIndicator c = (c == '-' || (c == '?' || (c == ':' || false))) := by
    rw [isIndicator, flow, isList, List.contains_cons, List.contains_cons, List.contains_cons, marks,
      apostrophe, quote, backtick]
    simp
  have padded : Cursor.blankOrEnd next = false → next.any isPad = false := by
    cases next with
    | none => exact fun _ => rfl
    | some d => exact fun unspaced => (Bool.or_eq_false_iff.mp unspaced).1
  rw [startsPlain, unpadded, unbroken, unlisted]
  cases blank : Cursor.blankOrEnd next with
  | false =>
      rw [padded blank]
      cases c == '-' <;> cases c == '?' <;> cases c == ':' <;> rfl
  | true =>
      rw [blank, Bool.and_true] at spaced
      simp only [Bool.or_eq_false_iff] at spaced
      rw [spaced.1.1, spaced.1.2, spaced.2]
      rfl

/-- A character that is no indicator starts a plain scalar. -/
theorem fetchAt_plain {c : Char}
    (stands : scanner.Stands allowed kinds indent indents (c :: rest) column)
    (noDirective : (scanner.cursor.mark.column == 0 && c == '%') = false)
    (noStart : scanner.cursor.atDocumentMarker '-' = false)
    (noEnd : scanner.cursor.atDocumentMarker '.' = false) (unpadded : isPad c = false)
    (unbroken : isBreak c = false) (quiet : Write.indicates none c rest.head? = false) :
    scanner.fetchAt c = scanner.fetchPlain := by
  have isNext : scanner.cursor.ahead? 1 = rest.head? := by
    rw [stands.cursor.ahead?, List.head?_eq_getElem?]
    rfl
  have starts := startsPlain_quiet unpadded unbroken quiet
  simp only [Write.indicates, isFlowMark, Bool.or_eq_false_iff] at quiet
  obtain ⟨⟨⟨⟨⟨⟨⟨⟨⟨comma, openBracket⟩, closeBracket⟩, openBrace⟩, closeBrace⟩, marks⟩, apostrophe⟩,
    quote⟩, backtick⟩, spaced⟩ := quiet
  obtain ⟨question, colon, dash⟩ := spaced_false spaced
  have noMark : ∀ d ∈ "#&*!|>%@".toList, (c == d) = false := by
    intro d isIn
    refine beq_false_of_ne ?_
    rintro rfl
    rw [List.contains_iff_mem.mpr isIn] at marks
    exact Bool.noConfusion marks
  rw [fetchAt]
  simp only [isNext, noDirective, noStart, noEnd, openBracket, openBrace, closeBracket, closeBrace,
    comma, dash, question, colon, stands.not_inFlow, Bool.false_or, noMark '*' (by decide),
    noMark '&' (by decide), noMark '!' (by decide), noMark '|' (by decide), noMark '>' (by decide),
    apostrophe, quote, starts, Bool.false_eq_true, if_false, if_true, Bool.false_and]

private theorem indicates_letter {c : Char} (isLetter : c.isAlphanum = true) (next : Option Char) :
    Write.indicates none c next = false := by
  have apart : ∀ d : Char, d.isAlphanum = false → (c == d) = false := fun d other =>
    beq_false_of_ne (ne_of_isAlphanum isLetter other)
  have unlisted : "#&*!|>%@".toList.contains c = false := by
    have others : "#&*!|>%@".toList.all (fun d => !d.isAlphanum) = true := by decide
    rw [Bool.eq_false_iff]
    intro isListed
    have other := List.all_eq_true.mp others c (List.contains_iff_mem.mp isListed)
    rw [isLetter] at other
    exact Bool.noConfusion other
  simp only [Write.indicates, isFlowMark, unlisted, apart _ (by decide : ','.isAlphanum = false),
    apart _ (by decide : '['.isAlphanum = false), apart _ (by decide : ']'.isAlphanum = false),
    apart _ (by decide : Text.Symbol.openBrace.isAlphanum = false),
    apart _ (by decide : Text.Symbol.closeBrace.isAlphanum = false),
    apart _ (by decide : Text.Symbol.apostrophe.isAlphanum = false),
    apart _ (by decide : Text.Symbol.quote.isAlphanum = false),
    apart _ (by decide : Text.Symbol.backtick.isAlphanum = false),
    apart _ (by decide : '?'.isAlphanum = false), apart _ (by decide : ':'.isAlphanum = false),
    apart _ (by decide : '-'.isAlphanum = false), Bool.or_self, Bool.false_and]

/-- Names of fields: a word of letters and digits, short enough for a key. -/
structure IsName (name : List Char) : Prop where
  filled : name ≠ []
  letters : ∀ c ∈ name, c.isAlphanum = true
  short : name.length ≤ 256

/-- A scanner behind the name of a field, with the key noted that started there. -/
structure BehindName (scanner : Scanner) (kinds : List TokenKind) (indent : Int)
    (indents : List Int) (rest : List Char) (column width : Nat) : Prop where
  stands : scanner.Stands false kinds indent indents rest (column + width)
  key : ∃ key, scanner.keys = [some key] ∧ key.number + 1 = kinds.length ∧ key.mark.column = column
    ∧ isStale scanner.cursor.mark key = false

private theorem fetchAt_name {c : Char} {name more : List Char} (isName : IsName (c :: name))
    (blank : Cursor.blankOrEnd more.head? = true)
    (stands : scanner.Stands true kinds indent indents (c :: (name ++ ':' :: more)) column)
    (lax : Lax scanner.keys) :
    ∃ later, scanner.fetchAt c = .ok later
      ∧ later.BehindName (kinds ++ [.scalar (String.ofList (c :: name)) .plain]) indent indents
          (':' :: more) column (c :: name).length := by
  have isLetter := isName.letters c (List.mem_cons_self ..)
  have noDirective : (scanner.cursor.mark.column == 0 && c == '%') = false := by
    rw [beq_false_of_ne (ne_of_isAlphanum isLetter (by decide : '%'.isAlphanum = false)),
      Bool.and_false]
  have isPlain : scanner.fetchAt c = scanner.fetchPlain :=
    fetchAt_plain stands noDirective
      (stands.cursor.no_documentMarker_of_ne (ne_of_isAlphanum isLetter (by decide)).symm)
      (stands.cursor.no_documentMarker_of_ne (ne_of_isAlphanum isLetter (by decide)).symm)
      (isPad_of_isAlphanum isLetter) (isBreak_of_isAlphanum isLetter) (indicates_letter isLetter _)
  obtain ⟨token, isScan, kind⟩ :=
    @Plain.scan_key column scanner.cursor indent (c :: name) more isName.filled isName.letters blank
      stands.cursor
  have behind := Cursor.At.skipMany (c :: name) stands.cursor
  have isFetched : scanner.fetchPlain
      = .ok { ({ scanner with keys := [some scanner.keyHere] } : Scanner).push token with
              cursor := Cursor.skipMany (c :: name).length scanner.cursor, keyAllowed := false } := by
    rw [fetchPlain, saveKey_allowed stands lax]
    show (Plain.scan scanner.inFlow scanner.indent scanner.cursor >>= _) = _
    rw [stands.not_inFlow, stands.indent, isScan]
    rfl
  refine ⟨_, isPlain.trans isFetched, ⟨?_, stands.block, stands.indent, stands.indents, rfl, behind⟩,
    scanner.keyHere, rfl, ?_, stands.cursor.column, ?_⟩
  · show (scanner.tokens ++ [token]).map Token.kind = _
    rw [List.map_append, stands.kinds, List.map_singleton, kind]
  · rw [List.length_append, ← stands.kinds, List.length_map]
    rfl
  · have sameLine := Cursor.skipMany_line (c :: name).length scanner.cursor
    have near := Cursor.skipMany_index_le (c :: name).length scanner.cursor
    have short := isName.short
    show (decide _ || decide _) = false
    rw [Bool.or_eq_false_iff, decide_eq_false_iff_not, decide_eq_false_iff_not]
    refine ⟨?_, ?_⟩
    · show ¬ scanner.cursor.mark.line < _
      rw [sameLine]
      exact Nat.lt_irrefl _
    · show ¬ scanner.cursor.mark.index + 1024
        < (Cursor.skipMany (c :: name).length scanner.cursor).mark.index
      omega

private theorem toNextToken_start {c : Char} (stands : scanner.cursor.At (c :: rest) column)
    (starts : isStart c = true) (fuel : Nat) : scanner.toNextToken (fuel + 1) = scanner := by
  obtain ⟨unpadded, unbroken, notComment, notMark⟩ := isStart_iff.mp starts
  rw [isPad, Bool.or_eq_false_iff] at unpadded
  have here : (scanner.cursor.skipWhile fun c =>
      c == ' ' || ((scanner.inFlow || !scanner.keyAllowed) && c == '\t')) = scanner.cursor := by
    rw [Cursor.skipWhile, stands.rest, List.takeWhile_cons, if_neg (by simp [unpadded])]
    rfl
  rw [toNextToken_round fuel (stands.atChar.trans (beq_false_of_ne notMark)) here
      (stands.atChar.trans (beq_false_of_ne notComment)),
    if_neg (by rw [stands.peek?, List.head?_cons, Option.any_some, unbroken]; decide)]

section

variable {kind : TokenKind} {more : List Char} {width : Nat}

/-- Behind a name the scanner is at the colon already. -/
theorem BehindName.settles (behind : scanner.BehindName kinds indent indents (':' :: more) column width)
    (bounded : indent ≤ (column : Int)) : Settles scanner scanner := by
  obtain ⟨key, isKeys, _, _, fresh⟩ := behind.key
  have isFresh := dropStale_fresh isKeys fresh
  have isNext := toNextToken_start behind.stands.cursor (by decide) scanner.cursor.rest.length
  refine ⟨scanner, ⟨scanner, isFresh, by rw [isNext]; exact isFresh⟩, unrollIndent_deep ?_⟩
  rw [behind.stands.indent, behind.stands.cursor.column]
  omega

/-- The colon behind a name puts the key ahead of the name and opens the record when that
is deeper. -/
theorem BehindName.fetchAt_colon
    (behind : scanner.BehindName (kinds ++ [kind]) indent indents (':' :: more) column width)
    (bounded : indent ≤ (column : Int)) (blank : Cursor.blankOrEnd more.head? = true) :
    ∃ later, scanner.fetchAt ':' = .ok later
      ∧ later.Stands false
          (kinds ++ opening .blockMappingStart indent column ++ [.key, kind] ++ [.value]) column
          (around indent column indents) more (column + width + 1)
      ∧ Lax later.keys := by
  obtain ⟨key, isKeys, number, keyColumn, _⟩ := behind.key
  have stands := behind.stands
  have isNumber : key.number = kinds.length := by
    rw [List.length_append, List.length_singleton] at number
    omega
  have isNext : scanner.cursor.ahead? 1 = more.head? := by
    rw [stands.cursor.ahead?, List.head?_eq_getElem?]
    rfl
  have noDirective : (scanner.cursor.mark.column == 0 && ':' == '%') = false := Bool.and_false _
  have isValue : scanner.fetchAt ':' = scanner.fetchValue := by
    rw [fetchAt, isNext, stands.cursor.no_documentMarker_of_ne (by decide : '-' ≠ ':'),
      stands.cursor.no_documentMarker_of_ne (by decide : '.' ≠ ':'), noDirective, blank,
      stands.not_inFlow]
    rfl
  have keyed : ({ scanner with
        tokens := scanner.tokens.insertIdx key.number ⟨.key, key.mark, key.mark⟩
        keys := [none] } : Scanner).Stands false (kinds ++ [.key, kind]) indent indents (':' :: more)
      (column + width) := by
    refine ⟨?_, stands.block, stands.indent, stands.indents, stands.allowed, stands.cursor⟩
    show (scanner.tokens.insertIdx key.number _).map Token.kind = _
    rw [List.map_insertIdx, stands.kinds, isNumber, insertIdx_between]
  have rolled := keyed.rollIndent .blockMappingStart key.mark (some key.number) column bounded
    (Or.inl (by rw [isNumber]))
  have pushed := rolled.pushMark .value
  refine ⟨_, ?_, pushed.with_allowed false, ?_⟩
  · rw [isValue, fetchValue, isKeys]
    dsimp only
    rw [keyColumn]
  · show Lax (Scanner.rollIndent _ column (some key.number) .blockMappingStart key.mark).keys
    rw [rollIndent_keys]
    exact lax_none

end

/-! ## Scalars -/

/-- A key that is noted deeper than the indentation need not be completed. -/
theorem saveKey_lax (stands : scanner.Stands allowed kinds indent indents rest column)
    (lax : Lax scanner.keys) (deep : indent < (column : Int)) :
    ∃ keys, scanner.saveKey = .ok { scanner with keys := keys } ∧ Lax keys := by
  cases allowed with
  | false => exact ⟨scanner.keys, saveKey_barred stands, lax⟩
  | true =>
      refine ⟨_, saveKey_allowed stands lax, some scanner.keyHere, rfl, ?_⟩
      rintro candidate ⟨⟩
      rw [keyHere, stands.indent, stands.cursor.column]
      exact beq_false_of_ne (Int.ne_of_lt deep)

theorem Stands.push {token : Token} {kind : TokenKind} {cursor : Cursor} {text : List Char}
    {column' : Nat} {keys : List (Option SimpleKey)} (allowed' : Bool)
    (stands : scanner.Stands allowed kinds indent indents rest column) (isKind : token.kind = kind)
    (reached : cursor.At text column') :
    ({ ({ scanner with keys := keys } : Scanner).push token with
       cursor := cursor, keyAllowed := allowed' } : Scanner).Stands allowed' (kinds ++ [kind]) indent
      indents text column' := by
  refine ⟨?_, stands.block, stands.indent, stands.indents, rfl, reached⟩
  show (scanner.tokens ++ [token]).map Token.kind = _
  rw [List.map_append, stands.kinds, List.map_singleton, isKind]

section

variable {parent next : Nat} {chars tail : List Char}

/-- A text in plain form. -/
theorem fetchAt_bare {c : Char} (bare : Plain.Bare (c :: chars))
    (stands : scanner.Stands allowed kinds parent indents (c :: (chars ++ '\n' :: tail)) column)
    (lax : Lax scanner.keys) (deep : parent < column) (indented : Indents tail next rest)
    (shallow : next ≤ parent) :
    ∃ later, scanner.fetchAt c = .ok later
      ∧ later.Stands true (kinds ++ [.scalar (String.ofList (c :: chars)) .plain]) parent indents rest
          next
      ∧ Lax later.keys := by
  have inside : 0 < column := Nat.zero_lt_of_lt deep
  have noDirective : (scanner.cursor.mark.column == 0 && c == '%') = false := by
    rw [stands.cursor.column, beq_false_of_ne (Nat.ne_of_gt inside), Bool.false_and]
  obtain ⟨unbroken, notTab⟩ := bare.flat c (List.mem_cons_self ..)
  have unpadded : isPad c = false := by
    rw [isPad, beq_false_of_ne notTab, Bool.or_false]
    exact beq_false_of_ne fun isSpace => bare.noLead (by rw [isSpace, List.head?_cons])
  have sameNext : Cursor.blankOrEnd (chars ++ '\n' :: tail).head? = Cursor.blankOrEnd chars.head? := by
    cases chars <;> rfl
  have quiet : Write.indicates none c (chars ++ '\n' :: tail).head? = false := by
    have alone := bare.head c rfl
    simp only [Write.indicates] at alone ⊢
    rw [sameNext]
    exact alone
  have isPlain : scanner.fetchAt c = scanner.fetchPlain :=
    fetchAt_plain stands noDirective (stands.cursor.no_documentMarker inside _)
      (stands.cursor.no_documentMarker inside _) unpadded unbroken quiet
  obtain ⟨keys, isSaved, lax'⟩ := saveKey_lax stands lax (by omega)
  obtain ⟨token, after, isScan, kind, reached⟩ :=
    Plain.scan_bare bare (List.cons_ne_nil c chars) stands.cursor inside
      (by omega : (parent : Int) < column) indented (by omega)
  refine ⟨_, ?_, @Stands.push _ _ _ _ _ _ _ token _ after _ _ keys true stands kind reached, lax'⟩
  rw [isPlain, fetchPlain, isSaved]
  show (Plain.scan scanner.inFlow scanner.indent scanner.cursor >>= _) = _
  rw [stands.not_inFlow, stands.indent, isScan]
  rfl

/-- A text between quotes, read as `scan` says. -/
theorem fetchAt_quoted {c : Char} {single : Bool} {kind : TokenKind} {more : List Char}
    (isMark : c = Quoted.mark single)
    (stands : scanner.Stands allowed kinds parent indents (c :: more) column) (lax : Lax scanner.keys)
    (deep : parent < column)
    (scans : ∃ token after column', Quoted.scan single scanner.cursor = .ok (token, after)
      ∧ token.kind = kind ∧ after.At tail column') :
    ∃ later column', scanner.fetchAt c = .ok later
      ∧ later.Stands false (kinds ++ [kind]) parent indents tail column' ∧ Lax later.keys := by
  have inside : 0 < column := Nat.zero_lt_of_lt deep
  have noDirective : ∀ d, (scanner.cursor.mark.column == 0 && d == '%') = false := fun d => by
    rw [stands.cursor.column, beq_false_of_ne (Nat.ne_of_gt inside), Bool.false_and]
  have isKeyed : scanner.fetchAt c = scanner.fetchKeyed fun s => Quoted.scan single s.cursor := by
    subst isMark
    rw [fetchAt, noDirective, stands.cursor.no_documentMarker inside,
      stands.cursor.no_documentMarker inside]
    cases single <;> rfl
  obtain ⟨keys, isSaved, lax'⟩ := saveKey_lax stands lax (by omega)
  obtain ⟨token, after, column', isScan, isKind, reached⟩ := scans
  refine ⟨_, column', ?_, @Stands.push _ _ _ _ _ _ _ token _ after _ _ keys false stands isKind reached,
    lax'⟩
  rw [isKeyed, fetchKeyed, isSaved]
  show (Quoted.scan single scanner.cursor >>= _) = _
  rw [isScan]
  rfl

/-- A text in literal form. -/
theorem fetchAt_literal (allowed' : (Write.traits chars).literalAllowed = true) (filled : chars ≠ [])
    (stands : scanner.Stands allowed kinds parent indents ('|' :: (Write.literalHints chars ++ '\n' ::
      (Write.literalBody (parent + 2) true chars ++ (Block.closing chars ++ tail)))) column)
    (lax : Lax scanner.keys) (deep : parent < column) (indented : Indents tail next rest)
    (shallow : next ≤ parent) :
    ∃ later, scanner.fetchAt '|' = .ok later
      ∧ later.Stands true (kinds ++ [.scalar (String.ofList chars) .literal]) parent indents rest next
      ∧ Lax later.keys := by
  have inside : 0 < column := Nat.zero_lt_of_lt deep
  have noDirective : (scanner.cursor.mark.column == 0 && '|' == '%') = false := Bool.and_false _
  have isBlock : scanner.fetchAt '|' = scanner.fetchBlockScalar true := by
    rw [fetchAt, noDirective, stands.cursor.no_documentMarker inside,
      stands.cursor.no_documentMarker inside, stands.not_inFlow]
    rfl
  obtain ⟨token, after, isScan, kind, reached⟩ :=
    Block.scan_literal allowed' filled indented shallow stands.cursor
  refine ⟨_, ?_, @Stands.push _ _ _ _ _ _ _ token _ after _ _ [none] true stands kind reached,
    lax_none⟩
  rw [isBlock, fetchBlockScalar, removeKey_lax lax]
  show (Block.scan true scanner.indent scanner.cursor >>= _) = _
  rw [stands.indent, isScan]
  rfl

end

/-! ## Steps over the parts of a document -/

theorem Stands.length_le {text : List Char}
    (stands : scanner.Stands allowed kinds indent indents rest column)
    (shorter : rest.length ≤ text.length) : scanner.cursor.rest.length ≤ text.length := by
  rw [stands.cursor.rest]
  exact shorter

theorem Parked.entry (parked : scanner.Parked true kinds indent indents ('-' :: ' ' :: rest) column)
    (bounded : indent ≤ (column : Int)) :
    ∃ later, Advances scanner later
      ∧ later.Stands true (kinds ++ opening .blockSequenceStart indent column ++ [.blockEntry]) column
          (around indent column indents) (' ' :: rest) (column + 1)
      ∧ Lax later.keys := by
  refine parked.advances bounded fun settled stands lax => ?_
  obtain ⟨later, isFetched, stands', lax'⟩ := fetchAt_dash stands lax bounded
  exact ⟨later, isFetched, stands'.length_le (Nat.le_refl _), stands', lax'⟩

/-- A name and its colon, which are two steps. -/
theorem Parked.field {name more : List Char} (isName : IsName name)
    (blank : Cursor.blankOrEnd more.head? = true)
    (parked : scanner.Parked true kinds indent indents (name ++ ':' :: more) column)
    (bounded : indent ≤ (column : Int)) :
    ∃ later, Relation.ReflTransGen Advances scanner later
      ∧ later.Stands false
          (kinds ++ opening .blockMappingStart indent column
            ++ [.key, .scalar (String.ofList name) .plain] ++ [.value]) column
          (around indent column indents) more (column + name.length + 1)
      ∧ Lax later.keys := by
  obtain ⟨c, name, rfl⟩ := List.exists_cons_of_ne_nil isName.filled
  have fetches : ∀ settled : Scanner,
      settled.Stands true kinds indent indents (c :: (name ++ ':' :: more)) column →
      Lax settled.keys → ∃ later, settled.fetchAt c = .ok later
        ∧ later.cursor.rest.length ≤ (name ++ ':' :: more).length
        ∧ later.BehindName (kinds ++ [.scalar (String.ofList (c :: name)) .plain]) indent indents
            (':' :: more) column (c :: name).length := by
    intro settled stands lax
    obtain ⟨later, isFetched, behind⟩ := fetchAt_name isName blank stands lax
    exact ⟨later, isFetched, behind.stands.length_le (by rw [List.length_append]; omega), behind⟩
  obtain ⟨named, first, behind⟩ := parked.advances bounded fetches
  obtain ⟨later, isFetched, stands, lax⟩ := behind.fetchAt_colon bounded blank
  refine ⟨later, (Relation.ReflTransGen.single first).tail ?_, stands, lax⟩
  refine ⟨named, ':', behind.settles bounded, by rw [behind.stands.cursor.peek?]; rfl, isFetched, ?_⟩
  rw [stands.cursor.rest, behind.stands.cursor.rest, List.length_cons]
  exact Nat.lt_succ_self _

section

variable {parent next : Nat} {tail : List Char}

theorem Parked.bare {chars : List Char} (bare : Plain.Bare chars) (filled : chars ≠ [])
    (parked : scanner.Parked allowed kinds parent indents (chars ++ '\n' :: tail) column)
    (deep : parent < column) (indented : Indents tail next rest) (shallow : next ≤ parent) :
    ∃ later, Advances scanner later
      ∧ later.Parked true (kinds ++ [.scalar (String.ofList chars) .plain]) parent indents rest
          next := by
  obtain ⟨c, chars, rfl⟩ := List.exists_cons_of_ne_nil filled
  refine parked.advances (by omega) fun settled stands lax => ?_
  obtain ⟨later, isFetched, stands', lax'⟩ := fetchAt_bare bare stands lax deep indented shallow
  refine ⟨later, isFetched, stands'.length_le ?_, stands'.parked 0 lax' indented.starts⟩
  rw [indented.spaced]
  simp
  omega

/-- How a text can be written, and what is known of it then. -/
theorem style_cases (text : String) :
    Write.style text = .plain ∧ text.toList ≠ [] ∧ Write.needsQuotes text = false
        ∧ (Write.traits text.toList).plainAllowed = true
      ∨ Write.style text = .singleQuoted ∧ (Write.traits text.toList).singleAllowed = true
        ∧ '\n' ∉ text.toList
      ∨ Write.style text = .literal ∧ (Write.traits text.toList).literalAllowed = true
        ∧ text.toList ≠ []
      ∨ Write.style text = .doubleQuoted := by
  rw [Write.style]
  cases feeds : text.toList.contains '\n' with
  | true =>
      have filled : text.toList ≠ [] := by
        intro isEmpty
        rw [isEmpty] at feeds
        exact Bool.noConfusion feeds
      rw [if_pos rfl]
      cases allowed : (Write.traits text.toList).literalAllowed with
      | true => exact Or.inr (Or.inr (Or.inl ⟨if_pos rfl, rfl, filled⟩))
      | false => exact Or.inr (Or.inr (Or.inr (if_neg Bool.false_ne_true)))
  | false =>
      have noFeed : '\n' ∉ text.toList := fun isIn => by
        rw [List.contains_iff_mem.mpr isIn] at feeds
        exact Bool.noConfusion feeds
      rw [if_neg Bool.false_ne_true]
      cases isEmpty : text.isEmpty with
      | true =>
          have isNil : text.toList = [] := by
            rw [String.isEmpty_iff.mp isEmpty]
            rfl
          refine Or.inr (Or.inl ⟨if_pos rfl, ?_, noFeed⟩)
          rw [isNil]
          decide
      | false =>
          have filled : text.toList ≠ [] := by
            intro isNil
            rw [String.toList_eq_nil_iff.mp isNil] at isEmpty
            exact absurd isEmpty (by decide)
          rw [if_neg Bool.false_ne_true]
          cases plain : !Write.needsQuotes text && (Write.traits text.toList).plainAllowed with
          | true =>
              rw [Bool.and_eq_true, Bool.not_eq_true'] at plain
              exact Or.inl ⟨if_pos rfl, filled, plain.1, plain.2⟩
          | false =>
              rw [if_neg Bool.false_ne_true]
              cases allowed : (Write.traits text.toList).singleAllowed with
              | true => exact Or.inr (Or.inl ⟨if_pos rfl, rfl, noFeed⟩)
              | false => exact Or.inr (Or.inr (Or.inr (if_neg Bool.false_ne_true)))

theorem scalar_plain {text : String} (indent : Nat) (isStyle : Write.style text = .plain) :
    Write.scalar indent text ++ tail = text.toList ++ '\n' :: tail := by
  simp [Write.scalar, isStyle]

theorem scalar_single {text : String} (indent : Nat) (isStyle : Write.style text = .singleQuoted) :
    Write.scalar indent text ++ tail
      = Quoted.mark true :: (Write.singleBody indent false text.toList
          ++ Text.Symbol.apostrophe :: '\n' :: tail) := by
  simp [Write.scalar, isStyle, Quoted.mark]

theorem scalar_double {text : String} (indent : Nat) (isStyle : Write.style text = .doubleQuoted) :
    Write.scalar indent text ++ tail
      = Quoted.mark false :: (Write.doubleBody text.toList ++ Text.Symbol.quote :: '\n' :: tail) := by
  simp [Write.scalar, isStyle, Quoted.mark]

theorem scalar_literal {text : String} (indent : Nat) (isStyle : Write.style text = .literal)
    (filled : text.toList ≠ []) :
    Write.scalar indent text ++ tail
      = '|' :: (Write.literalHints text.toList ++ '\n' ::
          (Write.literalBody indent true text.toList ++ (Block.closing text.toList ++ tail))) := by
  have closes : (if text.toList.getLast?.any isBreak then [] else ['\n'])
      = Block.closing text.toList := by
    rw [Block.closing, List.getLast?_eq_some_getLast filled]
    rfl
  simp [Write.scalar, isStyle, closes]

/-- A text between quotes ends ahead of the end of its line. -/
theorem Parked.quoted {single : Bool} {kind : TokenKind} {more : List Char}
    (parked : scanner.Parked allowed kinds parent indents (Quoted.mark single :: more) column)
    (deep : parent < column) (indented : Indents tail next rest)
    (shorter : tail.length < more.length)
    (scans : ∀ cursor : Cursor, cursor.At (Quoted.mark single :: more) column →
      ∃ token after column', Quoted.scan single cursor = .ok (token, after) ∧ token.kind = kind
        ∧ after.At ('\n' :: tail) column') :
    ∃ later, Advances scanner later
      ∧ later.Parked true (kinds ++ [kind]) parent indents rest next := by
  refine parked.advances (by omega) fun settled stands lax => ?_
  obtain ⟨later, column', isFetched, stands', lax'⟩ :=
    fetchAt_quoted rfl stands lax deep (scans _ stands.cursor)
  exact ⟨later, isFetched, stands'.length_le shorter, stands'.parked_line lax' indented⟩

/-- A text in any form. -/
theorem Parked.text {text : String}
    (parked : scanner.Parked allowed kinds parent indents (Write.scalar (parent + 2) text ++ tail)
      column)
    (deep : parent < column) (indented : Indents tail next rest) (shallow : next ≤ parent) :
    ∃ later, Advances scanner later
      ∧ later.Parked true (kinds ++ [.scalar text (Write.style text)]) parent indents rest next := by
  rcases style_cases text with ⟨isStyle, filled, _, allowed'⟩ | ⟨isStyle, allowed', noFeed⟩
    | ⟨isStyle, allowed', filled⟩ | isStyle
  · rw [scalar_plain _ isStyle] at parked
    have step := parked.bare (Plain.bare_of_allowed allowed') filled deep indented shallow
    rwa [String.ofList_toList, ← isStyle] at step
  · rw [scalar_single _ isStyle] at parked
    rw [isStyle]
    refine parked.quoted deep indented (by simp; omega) fun cursor stands => ?_
    have undoubled : ('\n' :: tail).head? ≠ some Text.Symbol.apostrophe := by
      rw [List.head?_cons]
      decide
    have scans := Quoted.scan_single (Quoted.framed_of_allowed allowed' noFeed)
      (Nat.succ_pos (parent + 1)) undoubled stands
    rwa [String.ofList_toList] at scans
  · rw [scalar_literal _ isStyle filled] at parked
    rw [isStyle]
    refine parked.advances (by omega) fun settled stands lax => ?_
    obtain ⟨later, isFetched, stands', lax'⟩ :=
      fetchAt_literal allowed' filled stands lax deep indented shallow
    rw [String.ofList_toList] at stands'
    refine ⟨later, isFetched, stands'.length_le ?_, stands'.parked 0 lax' indented.starts⟩
    rw [indented.spaced]
    simp
    omega
  · rw [scalar_double _ isStyle] at parked
    rw [isStyle]
    refine parked.quoted deep indented (by simp; omega) fun cursor stands => ?_
    have scans := Quoted.scan_double stands
    rwa [String.ofList_toList] at scans

end

end Tangle.Yaml.Scanner
