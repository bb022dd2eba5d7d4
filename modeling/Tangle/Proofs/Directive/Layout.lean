import Tangle.Directive.Decode
import Tangle.Proofs.Text.Lines
import Tangle.Proofs.Yaml.Document

/-!
Contract: the lines of a written document, and what the removal of indentation leaves of
them.

Owns: `Legible`, the condition on a text under which each of its lines is kept, and
`dedent_document`.

Does **not** own: what is read from the document (`Tangle.Proofs.Directive.Trees`).

A tree is written from the middle of a line on: a name or a dash stands ahead of it. So two
predicates follow the writer. `Laid` texts are whole lines, each of them empty or visible;
a text `Completes` a line when its first line may be anything and the others are laid.
-/

set_option autoImplicit false

namespace Tangle.Directive

open Tangle.Yaml
open Write (Tree spaces)
open Text (isBlank splitChars terminatedLines)

/-! ## Lines -/

def Visible (line : List Char) : Prop :=
  ∃ c ∈ line, isBlank c = false

instance (line : List Char) : Decidable (Visible line) :=
  List.decidableBEx (fun c => isBlank c = false) line

/-- Whole lines, each of them empty or visible. -/
inductive Laid : List Char → Prop
  | nil : Laid []
  | line {line rest : List Char} (flat : '\n' ∉ line) (shown : line = [] ∨ Visible line)
      (others : Laid rest) : Laid (line ++ '\n' :: rest)

/-- The end of a line, and whole lines behind it. -/
def Completes (text : List Char) : Prop :=
  ∃ line rest, text = line ++ '\n' :: rest ∧ '\n' ∉ line ∧ Laid rest

section

variable {text front behind : List Char}

theorem Laid.append (first : Laid front) (second : Laid behind) : Laid (front ++ behind) := by
  induction first with
  | nil => exact second
  | line flat shown _ inductionHypothesis =>
      rw [List.append_assoc, List.cons_append]
      exact .line flat shown inductionHypothesis

theorem Completes.append (completes : Completes text) (laid : Laid behind) :
    Completes (text ++ behind) := by
  obtain ⟨line, rest, rfl, flat, others⟩ := completes
  exact ⟨line, rest ++ behind, by simp, flat, others.append laid⟩

theorem Completes.ahead (completes : Completes text) (flat : '\n' ∉ front) :
    Completes (front ++ text) := by
  obtain ⟨line, rest, rfl, flat', others⟩ := completes
  refine ⟨front ++ line, rest, by simp, ?_, others⟩
  exact fun isIn => (List.mem_append.mp isIn).elim flat flat'

theorem Completes.cons {c : Char} (completes : Completes text) (notFeed : c ≠ '\n') :
    Completes (c :: text) :=
  @Completes.ahead text [c] completes fun isIn => notFeed (List.mem_singleton.mp isIn).symm

theorem Completes.laid (completes : Completes text) (flat : '\n' ∉ front) (shown : Visible front) :
    Laid (front ++ text) := by
  obtain ⟨c, isIn, visible⟩ := shown
  obtain ⟨line, rest, rfl, flat', others⟩ := completes
  rw [← List.append_assoc]
  refine .line ?_ (Or.inr ⟨c, List.mem_append_left _ isIn, visible⟩) others
  exact fun isIn => (List.mem_append.mp isIn).elim flat flat'

private theorem completes_feed : Completes ['\n'] :=
  ⟨[], [], rfl, List.not_mem_nil, .nil⟩

end

/-! ## Indentation -/

theorem terminatedLines_line {line rest : List Char} (flat : '\n' ∉ line) (noReturn : '\r' ∉ line) :
    terminatedLines (line ++ '\n' :: rest) = line :: terminatedLines rest := by
  have keeps : Text.dropFinalReturn line = line := by
    rw [Text.dropFinalReturn, if_neg]
    exact fun isLast => noReturn (List.mem_of_getLast? isLast)
  obtain ⟨first, others, isRest⟩ := List.exists_cons_of_ne_nil (Text.splitChars_ne_nil '\n' rest)
  rw [terminatedLines, terminatedLines, Text.splitChars_append_mark, Text.splitChars_of_free flat, isRest]
  show Text.dropFinalReturn line :: terminatedLines.walk (first :: others) = _
  rw [keeps]

/-- Lines that are empty or visible are kept where there is nothing to remove. -/
theorem Laid.flatMap_terminatedLines {text : List Char} (laid : Laid text)
    (noReturn : '\r' ∉ text) :
    ((terminatedLines text).flatMap fun line =>
      (if line.all isBlank then [] else line.drop 0) ++ ['\n']) = text := by
  induction laid with
  | nil => rfl
  | @line line rest flat shown _ inductionHypothesis =>
      rw [List.mem_append, List.mem_cons, not_or, not_or] at noReturn
      rw [terminatedLines_line flat noReturn.1, List.flatMap_cons,
        inductionHypothesis noReturn.2.2]
      have kept : (if line.all isBlank then [] else line.drop 0) = line := by
        rcases shown with rfl | ⟨c, isIn, visible⟩
        · rfl
        · rw [if_neg, List.drop_zero]
          intro blank
          rw [List.all_eq_true.mp blank c isIn] at visible
          exact Bool.noConfusion visible
      rw [kept, List.append_assoc]
      rfl

private theorem commonIndent_flush {line : List Char} {lines : List (List Char)} (shown : Visible line)
    (flush : padWidth line = 0) : commonIndent (line :: lines) = 0 := by
  obtain ⟨c, isIn, visible⟩ := shown
  have keeps : line.all isBlank = false := List.all_eq_false.mpr ⟨c, isIn, by simp [visible]⟩
  rw [commonIndent, List.filter_cons_of_pos (by rw [keeps]; rfl), List.map_cons, flush]
  have least : ∀ widths : List Nat, (0 :: widths).min? = some 0 := fun widths => by
    rw [List.min?_eq_some_iff]
    exact ⟨List.mem_cons_self .., fun width _ => Nat.zero_le width⟩
  rw [least]
  rfl

/-- Whole lines of which the first is visible and not indented stay as they are. -/
theorem Laid.dedent {line rest : List Char} (laid : Laid (line ++ '\n' :: rest)) (flat : '\n' ∉ line)
    (shown : Visible line) (flush : padWidth line = 0) (noReturn : '\r' ∉ line ++ '\n' :: rest) :
    dedent (line ++ '\n' :: rest) = line ++ '\n' :: rest := by
  have noReturn' : '\r' ∉ line := fun isIn => noReturn (List.mem_append_left _ isIn)
  have lines := @terminatedLines_line line rest flat noReturn'
  have flushes : commonIndent (terminatedLines (line ++ '\n' :: rest)) = 0 := by
    rw [lines]
    exact commonIndent_flush shown flush
  rw [Directive.dedent, flushes]
  exact laid.flatMap_terminatedLines noReturn

/-! ## Literals -/

/-- A text of which no line is lost: in literal form, none of its lines is of blanks only, and
it ends in no break but a line feed. -/
def Legible (text : String) : Prop :=
  Write.style text = .literal →
    (∀ line ∈ splitChars '\n' text.toList, line = [] ∨ Visible line)
      ∧ ∀ c ∈ text.toList.getLast?, isBreak c = true → c = '\n'

instance (text : String) : Decidable (Legible text) :=
  have : Decidable (∀ line ∈ splitChars '\n' text.toList, line = [] ∨ Visible line) :=
    List.decidableBAll (fun line => line = [] ∨ Visible line) _
  have : Decidable (∀ c ∈ text.toList.getLast?, isBreak c = true → c = '\n') :=
    Option.decidableForallMem _
  inferInstanceAs (Decidable (Write.style text = .literal → _ ∧ _))

section

variable {line : List Char} (indent : Nat)

private theorem literalBody_flat (flat : '\n' ∉ line) :
    ∀ opened, '\n' ∉ Write.literalBody indent opened line := by
  induction line with
  | nil => exact fun _ => List.not_mem_nil
  | cons c rest inductionHypothesis =>
      rw [List.mem_cons, not_or] at flat
      intro opened
      rw [Write.literalBody]
      split
      · rw [List.mem_cons, not_or]
        exact ⟨flat.1, inductionHypothesis flat.2 true⟩
      · rw [List.mem_append, not_or, List.mem_cons, not_or]
        refine ⟨?_, flat.1, inductionHypothesis flat.2 false⟩
        split
        · exact fun isIn => absurd (List.mem_replicate.mp isIn).2 (by decide)
        · exact List.not_mem_nil

/-- Literal form only adds to a line. -/
theorem mem_literalBody {c : Char} (isIn : c ∈ line) :
    ∀ opened, c ∈ Write.literalBody indent opened line := by
  induction line with
  | nil => cases isIn
  | cons d rest inductionHypothesis =>
      intro opened
      rw [Write.literalBody]
      split
      · rcases List.mem_cons.mp isIn with rfl | isIn
        · exact List.mem_cons_self ..
        · exact List.mem_cons_of_mem _ (inductionHypothesis isIn true)
      · refine List.mem_append_right _ ?_
        rcases List.mem_cons.mp isIn with rfl | isIn
        · exact List.mem_cons_self ..
        · exact List.mem_cons_of_mem _ (inductionHypothesis isIn false)

private theorem literalBody_feed (rest : List Char) : ∀ opened,
    Write.literalBody indent opened (line ++ '\n' :: rest)
      = Write.literalBody indent opened line ++ '\n' :: Write.literalBody indent true rest := by
  induction line with
  | nil =>
      intro opened
      exact if_pos (by decide)
  | cons c line inductionHypothesis =>
      intro opened
      rw [List.cons_append, Write.literalBody, Write.literalBody]
      split
      · rw [inductionHypothesis true]
        rfl
      · rw [inductionHypothesis false, List.append_assoc]
        rfl

/-- The lines of a literal are empty or visible where those of the text are. -/
theorem literalBody_shown (shown : line = [] ∨ Visible line) :
    Write.literalBody indent true line = [] ∨ Visible (Write.literalBody indent true line) := by
  rcases shown with rfl | ⟨c, isIn, visible⟩
  · exact Or.inl rfl
  · exact Or.inr ⟨c, mem_literalBody indent isIn true, visible⟩

end

/-- Either one line, or a line and its feed ahead of the other lines. -/
theorem splitChars_cases (chars : List Char) :
    ('\n' ∉ chars ∧ splitChars '\n' chars = [chars])
      ∨ ∃ line rest, chars = line ++ '\n' :: rest ∧ '\n' ∉ line
        ∧ splitChars '\n' chars = line :: splitChars '\n' rest := by
  by_cases isIn : '\n' ∈ chars
  · obtain ⟨line, rest, isChars, flat⟩ := List.eq_append_cons_of_mem isIn
    refine Or.inr ⟨line, rest, isChars, flat, ?_⟩
    rw [isChars, Text.splitChars_append_mark, Text.splitChars_of_free flat]
    rfl
  · exact Or.inl ⟨isIn, Text.splitChars_of_free isIn⟩

private theorem laid_literal (indent : Nat) {chars : List Char}
    (shown : ∀ line ∈ splitChars '\n' chars, line = [] ∨ Visible line)
    (ends : ∀ c ∈ chars.getLast?, isBreak c = true → c = '\n') :
    Laid (Write.literalBody indent true chars ++ Block.closing chars) := by
  induction length : chars.length using Nat.strongRecOn generalizing chars with
  | ind length' inductionHypothesis =>
      rcases splitChars_cases chars with ⟨flat, isOne⟩ | ⟨line, rest, rfl, flat, isMore⟩
      · rw [isOne] at shown
        have shownAll := shown chars (List.mem_singleton_self _)
        by_cases isNil : chars = []
        · rw [isNil]
          exact .nil
        · have closes : Block.closing chars = ['\n'] := by
            rw [Block.closing, List.getLast?_eq_some_getLast isNil, Option.all_some]
            refine if_neg fun breaks => flat ?_
            rw [← ends _ (List.getLast?_eq_some_getLast isNil) breaks]
            exact List.getLast_mem isNil
          rw [closes]
          exact .line (literalBody_flat indent flat true) (literalBody_shown indent shownAll) .nil
      · rw [isMore] at shown
        obtain ⟨shownFirst, shownMore⟩ := List.forall_mem_cons.mp shown
        have endsMore : ∀ c ∈ rest.getLast?, isBreak c = true → c = '\n' := by
          intro c isLast
          refine ends c ?_
          rw [List.getLast?_append, List.getLast?_cons, Option.mem_def.mp isLast]
          rfl
        have others := inductionHypothesis rest.length
          (by rw [← length, List.length_append, List.length_cons]; omega) shownMore endsMore rfl
        rw [literalBody_feed, Block.closing_break (by decide), List.append_assoc, List.cons_append]
        exact .line (literalBody_flat indent flat true) (literalBody_shown indent shownFirst) others

/-! ## Trees -/

theorem singleBody_flat (indent : Nat) {chars : List Char} (flat : '\n' ∉ chars) :
    ∀ opened, '\n' ∉ Write.singleBody indent opened chars := by
  have spaced : '\n' ∉ spaces indent := fun isIn =>
    absurd (List.mem_replicate.mp isIn).2 (by decide)
  induction chars with
  | nil =>
      rintro (_ | _)
      · exact List.not_mem_nil
      · exact spaced
  | cons c rest inductionHypothesis =>
      rw [List.mem_cons, not_or] at flat
      have behind := inductionHypothesis flat.2
      intro opened
      rw [Write.singleBody]
      split
      · rw [List.mem_cons, not_or]
        exact ⟨flat.1, behind true⟩
      · rw [List.mem_append, not_or, List.mem_append, not_or]
        refine ⟨⟨?_, ?_⟩, behind false⟩
        · split
          · exact spaced
          · exact List.not_mem_nil
        · split <;> simpa using flat.1

private theorem completes_scalar {text : String} (legible : Legible text) (indent : Nat) :
    Completes (Write.scalar indent text) := by
  rw [← List.append_nil (Write.scalar indent text)]
  rcases Scanner.style_cases text with ⟨isStyle, _, _, allowed⟩ | ⟨isStyle, _, noFeed⟩
    | ⟨isStyle, allowed, filled⟩ | isStyle
  · rw [Scanner.scalar_plain indent isStyle]
    refine completes_feed.ahead fun isIn => ?_
    exact absurd ((Plain.bare_of_allowed allowed).flat _ isIn).1 (by decide)
  · rw [Scanner.scalar_single indent isStyle]
    refine Completes.cons ?_ (by decide)
    exact (completes_feed.cons (by decide)).ahead (singleBody_flat indent noFeed false)
  · rw [Scanner.scalar_literal indent isStyle filled]
    obtain ⟨shown, ends⟩ := legible isStyle
    refine Completes.cons ⟨_, _, rfl, fun isIn => (inline_literalHints _ _ isIn).2 rfl, ?_⟩ (by decide)
    rw [List.append_nil]
    exact laid_literal indent shown ends
  · rw [Scanner.scalar_double indent isStyle]
    refine Completes.cons ?_ (by decide)
    exact (completes_feed.cons (by decide)).ahead fun isIn => (inline_doubleBody _ _ isIn).2 rfl

/-! ## Trees -/

/-- All texts of the tree are legible. -/
inductive LegibleTree : Tree → Prop
  | text {value : String} (legible : Legible value) : LegibleTree (.text value)
  | boolean (value : Bool) : LegibleTree (.boolean value)
  | list {items : List Tree} (each : ∀ item ∈ items, LegibleTree item) : LegibleTree (.list items)
  | record {names : List String} {values : List Tree}
      (each : ∀ field ∈ names.zip values, LegibleTree field.2) : LegibleTree (.record names values)

private theorem laid_items {items : List Tree} {column : Nat}
    (each : ∀ item ∈ items, Completes (Write.node (column + 2) item)) :
    Laid (Write.listItems column false items) := by
  induction items with
  | nil =>
      rw [Write.listItems]
      exact .nil
  | cons item more inductionHypothesis =>
      obtain ⟨first, others⟩ := List.forall_mem_cons.mp each
      have isText : Write.listItems column false (item :: more)
          = (spaces column ++ ['-'])
              ++ (' ' :: Write.node (column + 2) item ++ Write.listItems column false more) := by
        rw [Write.listItems]
        simp [Write.indentStep]
      rw [isText]
      refine ((first.cons (by decide)).append (inductionHypothesis others)).laid ?_ ?_
      · simp [spaces]
      · exact ⟨'-', by simp, by decide⟩

private theorem completes_items {items : List Tree} {column : Nat} (filled : items ≠ [])
    (each : ∀ item ∈ items, Completes (Write.node (column + 2) item)) :
    Completes (Write.listItems column true items) := by
  obtain ⟨item, more, rfl⟩ := List.exists_cons_of_ne_nil filled
  obtain ⟨first, others⟩ := List.forall_mem_cons.mp each
  rw [Write.listItems, if_pos rfl]
  exact ((first.cons (by decide)).cons (by decide)).append (laid_items others)

private theorem visible_name {name : List Char} (isName : Scanner.IsName name) : Visible name := by
  obtain ⟨c, name, rfl⟩ := List.exists_cons_of_ne_nil isName.filled
  have bounds := toNat_of_isAlphanum (isName.letters c (List.mem_cons_self ..))
  refine ⟨c, List.mem_cons_self .., ?_⟩
  simp only [isBlank, Bool.or_eq_false_iff, Bool.and_eq_false_iff, decide_eq_false_iff_not,
    beq_eq_false_iff_ne]
  omega

private theorem flat_name {name : List Char} (isName : Scanner.IsName name) : '\n' ∉ name :=
  fun isIn => ne_of_isAlphanum (isName.letters _ isIn) (by decide) rfl

private theorem laid_fields {names : List String} {values : List Tree} {column : Nat}
    (named : ∀ field ∈ names.zip values, Scanner.IsName field.1.toList)
    (each : ∀ field ∈ names.zip values, Completes (Write.fieldValue column field.2)) :
    Laid (Write.recordFields column false names values) := by
  induction names generalizing values with
  | nil =>
      rw [recordFields_none _ _ rfl]
      exact .nil
  | cons name names inductionHypothesis =>
      cases values with
      | nil =>
          rw [recordFields_none _ _ rfl]
          exact .nil
      | cons value values =>
          rw [List.zip_cons_cons] at named each
          obtain ⟨isName, namedMore⟩ := List.forall_mem_cons.mp named
          obtain ⟨first, others⟩ := List.forall_mem_cons.mp each
          obtain ⟨c, isIn, visible⟩ := visible_name isName
          have isText : Write.recordFields column false (name :: names) (value :: values)
              = (spaces column ++ name.toList)
                  ++ (':' :: Write.fieldValue column value
                    ++ Write.recordFields column false names values) := by
            rw [Write.recordFields]
            simp
          rw [isText]
          refine ((first.cons (by decide)).append (inductionHypothesis namedMore others)).laid ?_ ?_
          · rw [List.mem_append, not_or]
            exact ⟨by simp [spaces], flat_name isName⟩
          · exact ⟨c, List.mem_append_right _ isIn, visible⟩

private theorem completes_fields {names : List String} {values : List Tree} {column : Nat}
    (filled : names.zip values ≠ [])
    (named : ∀ field ∈ names.zip values, Scanner.IsName field.1.toList)
    (each : ∀ field ∈ names.zip values, Completes (Write.fieldValue column field.2)) :
    Completes (Write.recordFields column true names values) := by
  obtain ⟨name, names, value, values, rfl, rfl⟩ := zip_cases filled
  rw [List.zip_cons_cons] at named each
  obtain ⟨isName, namedMore⟩ := List.forall_mem_cons.mp named
  obtain ⟨first, others⟩ := List.forall_mem_cons.mp each
  rw [Write.recordFields, if_pos rfl]
  exact ((first.cons (by decide)).ahead (flat_name isName)).append (laid_fields namedMore others)

/-- A legible tree completes the line of its parent, behind a dash and behind a colon. -/
theorem completes_of_proper {tree : Tree} (proper : Proper tree) (legible : LegibleTree tree) :
    ∀ column, Completes (Write.node column tree) ∧ Completes (Write.fieldValue column tree) := by
  induction proper with
  | text value =>
      intro column
      cases legible with
      | text legible =>
          rw [Write.node, Write.fieldValue]
          exact ⟨completes_scalar legible _, (completes_scalar legible _).cons (by decide)⟩
  | boolean value =>
      intro column
      have words : Completes ((booleanText value).toList ++ ['\n']) :=
        completes_feed.ahead (by cases value <;> decide)
      rw [Write.node, Write.fieldValue]
      exact ⟨words, words.cons (by decide)⟩
  | list filled proper each =>
      intro column
      cases legible with
      | list legible =>
          have items := fun item isIn => (each item isIn (legible item isIn) (column + 2)).1
          obtain ⟨item, more, rfl⟩ := List.exists_cons_of_ne_nil filled
          rw [Write.node, Write.fieldValue, List.cons_append, ← listItems_later]
          exact ⟨completes_items filled items, [], _, rfl, List.not_mem_nil, laid_items items⟩
  | record filled named proper each =>
      intro column
      cases legible with
      | record legible =>
          have fields := fun column field isIn => (each field isIn (legible field isIn) column).2
          rw [Write.node, Write.fieldValue, List.cons_append, ← recordFields_later _ filled]
          exact ⟨completes_fields filled named (fields column), [], _, rfl, List.not_mem_nil,
            laid_fields named (fields _)⟩

/-! ## Documents -/

theorem padWidth_name {name : List Char} (isName : Scanner.IsName name) (rest : List Char) :
    padWidth (name ++ rest) = 0 := by
  obtain ⟨c, name, rfl⟩ := List.exists_cons_of_ne_nil isName.filled
  have unpadded := isPad_of_isAlphanum (isName.letters c (List.mem_cons_self ..))
  rw [padWidth, List.cons_append, List.takeWhile_cons, unpadded]
  rfl

/-- A record whose texts are legible is written without indentation to remove. -/
theorem dedent_document {names : List String} {values : List Tree}
    (proper : Proper (.record names values)) (legible : LegibleTree (.record names values)) :
    dedent (Write.document (.record names values)) = Write.document (.record names values) := by
  have noReturn : '\r' ∉ Write.document (.record names values) := fun isIn =>
    absurd ((proper.printed 0).1 _ isIn) (by decide)
  rw [Write.document, Write.node] at noReturn ⊢
  cases proper with
  | record filled named proper =>
      cases legible with
      | record legible =>
          have fields := fun field isIn =>
            (completes_of_proper (proper field isIn) (legible field isIn) 0).2
          obtain ⟨name, names, value, values, rfl, rfl⟩ := zip_cases filled
          rw [List.zip_cons_cons] at named fields
          obtain ⟨isName, namedMore⟩ := List.forall_mem_cons.mp named
          obtain ⟨first, others⟩ := List.forall_mem_cons.mp fields
          -- The name stands at the left edge, and what follows it completes its line.
          have completes := (first.cons (by decide : ':' ≠ '\n')).append (laid_fields namedMore others)
          have laid := completes.laid (flat_name isName) (visible_name isName)
          obtain ⟨c, isIn, visible⟩ := visible_name isName
          obtain ⟨line, rest, isText, flat, _⟩ := completes
          have isDocument : Write.recordFields 0 true (name :: names) (value :: values)
              = (name.toList ++ line) ++ '\n' :: rest := by
            rw [Write.recordFields, if_pos rfl, List.nil_append, List.append_assoc, List.append_assoc,
              ← isText]
          rw [isText, ← List.append_assoc] at laid
          rw [isDocument] at noReturn ⊢
          refine laid.dedent ?_ ⟨c, List.mem_append_left _ isIn, visible⟩ (padWidth_name isName line)
            noReturn
          exact fun isIn => (List.mem_append.mp isIn).elim (flat_name isName) flat

end Tangle.Directive
