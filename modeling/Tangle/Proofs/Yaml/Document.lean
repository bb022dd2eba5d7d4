import Tangle.Proofs.Yaml.Tokens

/-!
Contract: the tokens of a written document.

Owns: the trees that are written in block style throughout, the kinds of their tokens, and
`tokenize_document`.

Does **not** own: single tokens (`Tangle.Proofs.Yaml.Tokens`), or what the tokens mean
(`Tangle.Proofs.Yaml.Events`).

The proof follows the writer. `NodeWalks` speaks of a tree behind the dash of an entry and
`ValueWalks` of one behind the colon of a field; both are proved together, by induction on
the tree, from one lemma on entries and one on fields.
-/

set_option autoImplicit false

namespace Tangle.Yaml

open Write (Tree spaces)

/-! ## Trees and their tokens -/

/-- A tree without empty collections, whose fields have names that need no quotes. -/
inductive Proper : Tree → Prop
  | text (value : String) : Proper (.text value)
  | boolean (value : Bool) : Proper (.boolean value)
  | list {items : List Tree} (filled : items ≠ []) (each : ∀ item ∈ items, Proper item) :
      Proper (.list items)
  | record {names : List String} {values : List Tree} (filled : names.zip values ≠ [])
      (named : ∀ field ∈ names.zip values, Scanner.IsName field.1.toList)
      (each : ∀ field ∈ names.zip values, Proper field.2) : Proper (.record names values)

def booleanText (value : Bool) : String :=
  if value then "true" else "false"

mutual

def nodeKinds : Tree → List TokenKind
  | .text value => [.scalar value (Write.style value)]
  | .boolean value => [.scalar (booleanText value) .plain]
  | .list items => .blockSequenceStart :: entryKinds items ++ [.blockEnd]
  | .record names values => .blockMappingStart :: fieldKinds names values ++ [.blockEnd]

def entryKinds : List Tree → List TokenKind
  | [] => []
  | item :: rest => .blockEntry :: nodeKinds item ++ entryKinds rest

def fieldKinds : List String → List Tree → List TokenKind
  | name :: names, value :: values =>
      .key :: .scalar name .plain :: .value :: valueKinds value ++ fieldKinds names values
  | _, _ => []

/-- The kinds of the tokens behind a colon, where a list is not deeper than its field. -/
def valueKinds : Tree → List TokenKind
  | .text value => [.scalar value (Write.style value)]
  | .boolean value => [.scalar (booleanText value) .plain]
  | .list items => entryKinds items
  | .record names values => .blockMappingStart :: fieldKinds names values ++ [.blockEnd]

end

/-! ## First characters -/

theorem listItems_later (column : Nat) (item : Tree) (rest : List Tree) :
    Write.listItems column false (item :: rest)
      = spaces column ++ Write.listItems column true (item :: rest) := by
  simp [Write.listItems]

theorem recordFields_later {names : List String} {values : List Tree} (column : Nat)
    (filled : names.zip values ≠ []) :
    Write.recordFields column false names values
      = spaces column ++ Write.recordFields column true names values := by
  match names, values with
  | name :: names, value :: values => simp [Write.recordFields]
  | [], _ => exact absurd rfl filled
  | _ :: _, [] => exact absurd rfl filled

theorem recordFields_none {names : List String} {values : List Tree} (column : Nat) (first : Bool)
    (vacant : names.zip values = []) : Write.recordFields column first names values = [] := by
  match names, values with
  | name :: names, value :: values => exact absurd vacant (List.cons_ne_nil _ _)
  | [], _ => rw [Write.recordFields]; simp
  | _ :: _, [] => rw [Write.recordFields]; simp

theorem fieldKinds_none {names : List String} {values : List Tree} (vacant : names.zip values = []) :
    fieldKinds names values = [] := by
  match names, values with
  | name :: names, value :: values => exact absurd vacant (List.cons_ne_nil _ _)
  | [], _ => rw [fieldKinds]; simp
  | _ :: _, [] => rw [fieldKinds]; simp

def Opens (text : List Char) : Prop :=
  ∃ c rest, text = c :: rest ∧ isStart c = true

theorem Opens.append {text : List Char} (opens : Opens text) (tail : List Char) :
    Opens (text ++ tail) := by
  obtain ⟨c, rest, rfl, starts⟩ := opens
  exact ⟨c, rest ++ tail, rfl, starts⟩

theorem Opens.starts {text : List Char} (opens : Opens text) :
    ∀ c ∈ text.head?, isStart c = true := by
  obtain ⟨c, rest, rfl, starts⟩ := opens
  rintro d ⟨⟩
  exact starts

theorem Opens.indents {text : List Char} (opens : Opens text) (column : Nat) :
    Indents (spaces column ++ text) column text := by
  obtain ⟨c, rest, rfl, starts⟩ := opens
  exact Indents.of_start starts column rest

private theorem opens_bare {chars : List Char} (bare : Plain.Bare chars) (filled : chars ≠ []) :
    Opens chars := by
  obtain ⟨c, chars, rfl⟩ := List.exists_cons_of_ne_nil filled
  obtain ⟨unbroken, notTab⟩ := bare.flat c (List.mem_cons_self ..)
  refine ⟨c, chars, rfl, isStart_iff.mpr ⟨?_, unbroken, ?_, ?_⟩⟩
  · rw [isPad, beq_false_of_ne notTab, Bool.or_false]
    exact beq_false_of_ne fun isSpace => bare.noLead (by rw [isSpace, List.head?_cons])
  · exact fun isHash => bare.noComment (by rw [isHash, List.head?_cons])
  · rintro rfl
    exact absurd (bare.printable _ (List.mem_cons_self ..)) (by decide)

private theorem opens_name {name : List Char} (isName : Scanner.IsName name) : Opens name := by
  obtain ⟨c, name, rfl⟩ := List.exists_cons_of_ne_nil isName.filled
  have isLetter := isName.letters c (List.mem_cons_self ..)
  exact ⟨c, name, rfl, isStart_iff.mpr ⟨isPad_of_isAlphanum isLetter, isBreak_of_isAlphanum isLetter,
    ne_of_isAlphanum isLetter (by decide), ne_of_isAlphanum isLetter (by decide)⟩⟩

private theorem opens_scalar (indent : Nat) (text : String) : Opens (Write.scalar indent text) := by
  rw [← List.append_nil (Write.scalar indent text)]
  rcases Scanner.style_cases text with ⟨isStyle, filled, _, allowed⟩ | ⟨isStyle, _⟩
    | ⟨isStyle, _, filled⟩ | isStyle
  · rw [Scanner.scalar_plain indent isStyle]
    exact (opens_bare (Plain.bare_of_allowed allowed) filled).append _
  · rw [Scanner.scalar_single indent isStyle]
    exact ⟨_, _, rfl, by decide⟩
  · rw [Scanner.scalar_literal indent isStyle filled]
    exact ⟨_, _, rfl, by decide⟩
  · rw [Scanner.scalar_double indent isStyle]
    exact ⟨_, _, rfl, by decide⟩

/-- The words for booleans are plain. -/
theorem bare_boolean (value : Bool) : Plain.Bare (booleanText value).toList := by
  refine Plain.bare_of_allowed ?_
  cases value <;> decide

private theorem opens_boolean (value : Bool) : Opens (booleanText value).toList := by
  cases value <;> exact ⟨_, _, rfl, by decide⟩

private theorem opens_items {items : List Tree} (column : Nat) (filled : items ≠ []) :
    Opens (Write.listItems column true items) := by
  obtain ⟨item, items, rfl⟩ := List.exists_cons_of_ne_nil filled
  rw [Write.listItems, if_pos rfl]
  exact ⟨'-', _, rfl, by decide⟩

section

variable {names : List String} {values : List Tree}

/-- A record that has fields has a first one. -/
theorem zip_cases (filled : names.zip values ≠ []) :
    ∃ name names' value values', names = name :: names' ∧ values = value :: values' := by
  match names, values with
  | name :: names', value :: values' => exact ⟨name, names', value, values', rfl, rfl⟩
  | [], _ => exact absurd rfl filled
  | _ :: _, [] => exact absurd rfl filled

private theorem opens_fields (column : Nat) (filled : names.zip values ≠ [])
    (named : ∀ field ∈ names.zip values, Scanner.IsName field.1.toList) :
    Opens (Write.recordFields column true names values) := by
  obtain ⟨name, names, value, values, rfl, rfl⟩ := zip_cases filled
  rw [Write.recordFields, if_pos rfl, List.nil_append, List.append_assoc]
  exact (opens_name (named (name, value) (List.mem_cons_self ..))).append _

end

theorem Proper.opens {tree : Tree} (proper : Proper tree) (column : Nat) :
    Opens (Write.node column tree) := by
  cases proper with
  | text value => simpa only [Write.node] using opens_scalar column value
  | boolean value =>
      rw [Write.node]
      exact (opens_boolean value).append _
  | list filled _ => simpa only [Write.node] using opens_items column filled
  | record filled named _ => simpa only [Write.node] using opens_fields column filled named

/-! ## Walks -/

namespace Scanner

abbrev Walks : Scanner → Scanner → Prop :=
  Relation.ReflTransGen Advances

/-- The tree behind the dash of an entry is read up to the next token, which stands no
deeper than the list. -/
def NodeWalks (tree : Tree) : Prop :=
  ∀ ⦃scanner : Scanner⦄ ⦃kinds : List TokenKind⦄ ⦃parent next : Nat⦄ ⦃indents : List Int⦄
    ⦃tail rest : List Char⦄,
    scanner.Parked true kinds parent indents (Write.node (parent + 2) tree ++ tail) (parent + 2) →
    Indents tail next rest → next ≤ parent →
    ∃ later, Walks scanner later
      ∧ later.Parked true (kinds ++ nodeKinds tree) parent indents rest next

/-- The tree behind the colon of a field is read up to the next token, which stands no
deeper than the field. -/
def ValueWalks (tree : Tree) : Prop :=
  ∀ ⦃scanner : Scanner⦄ ⦃kinds : List TokenKind⦄ ⦃parent column next : Nat⦄ ⦃indents : List Int⦄
    ⦃tail rest : List Char⦄,
    scanner.Stands false kinds parent indents (Write.fieldValue parent tree ++ tail) column →
    Lax scanner.keys → parent < column → Indents tail next rest → next ≤ parent →
    ∃ later, Walks scanner later
      ∧ later.Parked true (kinds ++ valueKinds tree) parent indents rest next

variable {scanner : Scanner} {kinds : List TokenKind} {indent : Int} {indents : List Int}
  {column next : Nat} {tail rest : List Char}

private theorem opening_same (kind : TokenKind) (column : Nat) : opening kind column column = [] :=
  if_neg (Int.lt_irrefl _)

private theorem around_same (column : Nat) (indents : List Int) : around column column indents = indents :=
  if_neg (Int.lt_irrefl _)

private theorem opening_deeper (kind : TokenKind) (deeper : indent < (column : Int)) :
    opening kind indent column = [kind] :=
  if_pos deeper

private theorem around_deeper (deeper : indent < (column : Int)) (indents : List Int) :
    around indent column indents = indent :: indents :=
  if_pos deeper

/-- One entry, whose dash opens the list when it stands deeper. -/
theorem entry_walk {item : Tree} (proper : Proper item) (reads : NodeWalks item)
    (parked : scanner.Parked true kinds indent indents
      ('-' :: ' ' :: (Write.node (column + 2) item ++ tail)) column)
    (bounded : indent ≤ (column : Int)) (indented : Indents tail next rest)
    (shallow : next ≤ column) :
    ∃ later, Walks scanner later
      ∧ later.Parked true
          (kinds ++ opening .blockSequenceStart indent column ++ .blockEntry :: nodeKinds item) column
          (around indent column indents) rest next := by
  obtain ⟨dashed, step, stands, lax⟩ := parked.entry bounded
  have parked' := stands.parked 1 lax ((proper.opens (column + 2)).append tail).starts
  obtain ⟨later, walks, reached⟩ := reads parked' indented shallow
  refine ⟨later, walks.head step, ?_⟩
  simpa only [List.append_assoc, List.singleton_append] using reached

/-- The entries of a list. -/
theorem items_walk {items : List Tree} (filled : items ≠ []) (proper : ∀ item ∈ items, Proper item)
    (each : ∀ item ∈ items, NodeWalks item)
    (parked : scanner.Parked true kinds indent indents (Write.listItems column true items ++ tail)
      column)
    (bounded : indent ≤ (column : Int)) (indented : Indents tail next rest)
    (shallow : next ≤ column) :
    ∃ later, Walks scanner later
      ∧ later.Parked true (kinds ++ opening .blockSequenceStart indent column ++ entryKinds items)
          column (around indent column indents) rest next := by
  induction items generalizing scanner kinds indent indents with
  | nil => exact absurd rfl filled
  | cons item more inductionHypothesis =>
      obtain ⟨properItem, properMore⟩ := List.forall_mem_cons.mp proper
      obtain ⟨readsItem, readsMore⟩ := List.forall_mem_cons.mp each
      have isText : Write.listItems column true (item :: more) ++ tail
          = '-' :: ' ' :: (Write.node (column + 2) item
              ++ (Write.listItems column false more ++ tail)) := by
        rw [Write.listItems, if_pos rfl]
        simp [Write.indentStep]
      rw [isText] at parked
      cases more with
      | nil =>
          obtain ⟨later, walks, reached⟩ :=
            entry_walk properItem readsItem parked bounded
              (by simpa only [Write.listItems, List.nil_append] using indented) shallow
          refine ⟨later, walks, ?_⟩
          simpa only [entryKinds, List.append_nil] using reached
      | cons second more =>
          -- The first entry ends ahead of the second dash, where the list is open already.
          have moreFilled : second :: more ≠ [] := List.cons_ne_nil second more
          have ahead := ((opens_items column moreFilled).append tail).indents column
          rw [← List.append_assoc, ← listItems_later] at ahead
          obtain ⟨between, first, parked'⟩ :=
            entry_walk properItem readsItem parked bounded ahead (Nat.le_refl column)
          obtain ⟨later, walks, reached⟩ :=
            inductionHypothesis moreFilled properMore readsMore parked' (Int.le_refl _)
          refine ⟨later, first.trans walks, ?_⟩
          rw [opening_same, around_same, List.append_nil, List.append_assoc] at reached
          rwa [entryKinds]

/-- One field, whose name opens the record when it stands deeper. -/
theorem field_walk {name : String} {value : Tree} (isName : IsName name.toList)
    (reads : ValueWalks value)
    (parked : scanner.Parked true kinds indent indents
      (name.toList ++ ':' :: (Write.fieldValue column value ++ tail)) column)
    (bounded : indent ≤ (column : Int)) (indented : Indents tail next rest)
    (shallow : next ≤ column) :
    ∃ later, Walks scanner later
      ∧ later.Parked true
          (kinds ++ opening .blockMappingStart indent column
            ++ .key :: .scalar name .plain :: .value :: valueKinds value) column
          (around indent column indents) rest next := by
  have blank : Cursor.blankOrEnd (Write.fieldValue column value ++ tail).head? = true := by
    cases value <;> rw [Write.fieldValue] <;> rfl
  obtain ⟨named, first, stands, lax⟩ := parked.field isName blank bounded
  obtain ⟨later, walks, reached⟩ := reads stands lax (by omega) indented shallow
  refine ⟨later, first.trans walks, ?_⟩
  rw [String.ofList_toList] at reached
  simpa only [List.append_assoc, List.singleton_append, List.cons_append, List.nil_append]
    using reached

/-- The fields of a record. -/
theorem fields_walk {names : List String} {values : List Tree} (filled : names.zip values ≠ [])
    (named : ∀ field ∈ names.zip values, IsName field.1.toList)
    (each : ∀ field ∈ names.zip values, ValueWalks field.2)
    (parked : scanner.Parked true kinds indent indents
      (Write.recordFields column true names values ++ tail) column)
    (bounded : indent ≤ (column : Int)) (indented : Indents tail next rest)
    (shallow : next ≤ column) :
    ∃ later, Walks scanner later
      ∧ later.Parked true
          (kinds ++ opening .blockMappingStart indent column ++ fieldKinds names values) column
          (around indent column indents) rest next := by
  induction names generalizing scanner kinds indent indents values with
  | nil => exact absurd rfl filled
  | cons name names inductionHypothesis =>
      obtain ⟨_, _, value, values, ⟨⟩, rfl⟩ := zip_cases filled
      rw [List.zip_cons_cons] at named each
      obtain ⟨isName, namedMore⟩ := List.forall_mem_cons.mp named
      obtain ⟨readsValue, readsMore⟩ := List.forall_mem_cons.mp each
      have isText : Write.recordFields column true (name :: names) (value :: values) ++ tail
          = name.toList ++ ':' :: (Write.fieldValue column value
              ++ (Write.recordFields column false names values ++ tail)) := by
        rw [Write.recordFields, if_pos rfl]
        simp
      rw [isText] at parked
      by_cases vacant : names.zip values = []
      · obtain ⟨later, walks, reached⟩ :=
          field_walk isName readsValue parked bounded
            (by rw [recordFields_none _ _ vacant]; exact indented) shallow
        refine ⟨later, walks, ?_⟩
        rwa [fieldKinds, fieldKinds_none vacant, List.append_nil]
      · have ahead := ((opens_fields column vacant namedMore).append tail).indents column
        rw [← List.append_assoc, ← recordFields_later _ vacant] at ahead
        obtain ⟨between, first, parked'⟩ :=
          field_walk isName readsValue parked bounded ahead (Nat.le_refl column)
        obtain ⟨later, walks, reached⟩ :=
          inductionHypothesis vacant namedMore readsMore parked' (Int.le_refl _)
        refine ⟨later, first.trans walks, ?_⟩
        rw [opening_same, around_same, List.append_nil, List.append_assoc] at reached
        rwa [fieldKinds]

/-- A collection that was opened ahead of its first token ends ahead of the next one. -/
theorem Parked.close_opened {parent : Nat} {kind : TokenKind} {inner : List TokenKind}
    (parked : scanner.Parked true (kinds ++ opening kind parent (parent + 2) ++ inner)
      ((parent + 2 : Nat) : Int) (around parent (parent + 2) indents) rest next)
    (shallow : next ≤ parent) :
    scanner.Parked true (kinds ++ (kind :: inner ++ [.blockEnd])) parent indents rest next := by
  rw [opening_deeper _ (by omega), around_deeper (by omega)] at parked
  have closed := parked.close (by omega)
  simpa only [List.append_assoc, List.cons_append, List.nil_append] using closed

/-- A tree is read wherever it was written. -/
theorem walks_of_proper {tree : Tree} (proper : Proper tree) : NodeWalks tree ∧ ValueWalks tree := by
  induction proper with
  | text value =>
      constructor
      · intro scanner kinds parent next indents tail rest parked indented shallow
        rw [Write.node] at parked
        obtain ⟨later, step, reached⟩ := parked.text (by omega) indented shallow
        exact ⟨later, .single step, by rwa [nodeKinds]⟩
      · intro scanner kinds parent column next indents tail rest stands lax deep indented shallow
        rw [Write.fieldValue] at stands
        have parked := stands.parked 1 lax ((opens_scalar (parent + 2) value).append tail).starts
        obtain ⟨later, step, reached⟩ := parked.text (by omega) indented shallow
        exact ⟨later, .single step, by rwa [valueKinds]⟩
  | boolean value =>
      have filled : (booleanText value).toList ≠ [] := by cases value <;> decide
      constructor
      · intro scanner kinds parent next indents tail rest parked indented shallow
        rw [Write.node, List.append_assoc] at parked
        obtain ⟨later, step, reached⟩ :=
          parked.bare (bare_boolean value) filled (by omega) indented shallow
        exact ⟨later, .single step, by rwa [String.ofList_toList] at reached⟩
      · intro scanner kinds parent column next indents tail rest stands lax deep indented shallow
        rw [Write.fieldValue, List.cons_append, List.cons_append, List.append_assoc] at stands
        have parked := stands.parked 1 lax ((opens_boolean value).append ('\n' :: tail)).starts
        obtain ⟨later, step, reached⟩ :=
          parked.bare (bare_boolean value) filled (by omega) indented shallow
        exact ⟨later, .single step, by rwa [String.ofList_toList] at reached⟩
  | list filled proper each =>
      have reads := fun item isIn => (each item isIn).1
      constructor
      · intro scanner kinds parent next indents tail rest parked indented shallow
        rw [Write.node] at parked
        obtain ⟨later, walks, reached⟩ :=
          items_walk filled proper reads parked (by omega) indented (by omega)
        exact ⟨later, walks, by rw [nodeKinds]; exact reached.close_opened shallow⟩
      · intro scanner kinds parent column next indents tail rest stands lax deep indented shallow
        rw [Write.fieldValue, List.cons_append, List.cons_append, List.append_assoc] at stands
        have parked := stands.parked_line lax (((opens_items parent filled).append tail).indents parent)
        obtain ⟨later, walks, reached⟩ :=
          items_walk filled proper reads parked (Int.le_refl _) indented shallow
        rw [opening_same, around_same, List.append_nil] at reached
        exact ⟨later, walks, by rwa [valueKinds]⟩
  | record filled named proper each =>
      have reads := fun field isIn => (each field isIn).2
      constructor
      · intro scanner kinds parent next indents tail rest parked indented shallow
        rw [Write.node] at parked
        obtain ⟨later, walks, reached⟩ :=
          fields_walk filled named reads parked (by omega) indented (by omega)
        exact ⟨later, walks, by rw [nodeKinds]; exact reached.close_opened shallow⟩
      · intro scanner kinds parent column next indents tail rest stands lax deep indented shallow
        rw [Write.fieldValue, List.cons_append, List.cons_append, List.append_assoc] at stands
        have parked := stands.parked_line lax
          (((opens_fields (parent + 2) filled named).append tail).indents (parent + 2))
        obtain ⟨later, walks, reached⟩ :=
          fields_walk filled named reads parked (by omega) indented (by omega)
        exact ⟨later, walks, by rw [valueKinds]; exact reached.close_opened shallow⟩

/-! ## The end of the text -/

/-- The outermost collection ends with the text. -/
theorem unrollIndent_outermost (stands : scanner.Stands true kinds 0 [-1] [] 0)
    (lax : Lax scanner.keys) :
    (scanner.unrollIndent (-1)).tokens.map Token.kind = kinds ++ [.blockEnd]
      ∧ Lax (scanner.unrollIndent (-1)).keys := by
  rw [unrollIndent, if_neg (by simp [stands.not_inFlow]), stands.indents, unrollIndent.close,
    if_neg (by rw [stands.indent]; decide), unrollIndent.close]
  refine ⟨?_, lax⟩
  show (scanner.tokens ++ [_]).map Token.kind = _
  rw [List.map_append, stands.kinds]
  rfl

private theorem fetchStreamEnd_outermost (stands : scanner.Stands true kinds 0 [-1] [] 0)
    (lax : Lax scanner.keys) :
    ∃ later, scanner.fetchStreamEnd = .ok later
      ∧ later.tokens.map Token.kind = kinds ++ [.blockEnd, .streamEnd] := by
  have ends : scanner.fetchStreamEnd
      = (scanner.unrollIndent (-1)).removeKey >>= fun later =>
          .ok { later.push ⟨.streamEnd, scanner.cursor.mark, scanner.cursor.mark⟩ with
                keyAllowed := false } := by
    rw [fetchStreamEnd, stands.cursor.column]
    rfl
  obtain ⟨isKinds, lax'⟩ := unrollIndent_outermost stands lax
  rw [ends, removeKey_lax lax']
  refine ⟨_, rfl, ?_⟩
  show ((scanner.unrollIndent (-1)).tokens ++ [_]).map Token.kind = _
  rw [List.map_append, isKinds, List.append_assoc]
  rfl

/-- At the end of the text the outermost collection is closed. -/
theorem Parked.run_end (parked : scanner.Parked true kinds 0 [-1] [] 0) (fuel delivered : Nat) :
    ∃ tokens, run (fuel + 1) delivered scanner = ⟨tokens, none⟩
      ∧ tokens.map Token.kind = kinds ++ [.blockEnd, .streamEnd] := by
  obtain ⟨settled, ⟨paused, ⟨fresh, isFresh, isPaused⟩, isSettled⟩, stands, lax⟩ :=
    parked.settles (Int.le_refl 0)
  obtain ⟨later, isEnd, isKinds⟩ := fetchStreamEnd_outermost stands lax
  refine ⟨later.tokens, ?_, isKinds⟩
  have fetches : fresh.fetch = .ok (later, true) := by
    rw [fetch, isPaused]
    dsimp only [bind, Except.bind]
    rw [isSettled, stands.cursor.peek?]
    dsimp only [List.head?_nil]
    rw [isEnd]
    rfl
  rw [run, isFresh]
  dsimp only
  rw [fetches]

end Scanner

/-! ## Characters -/

theorem isAllowed_of_printable {c : Char} (prints : Write.isPrintable c = true) :
    isAllowed c = true := by
  simp only [Write.isPrintable, isAllowed, Bool.or_eq_true, Bool.and_eq_true, decide_eq_true_eq,
    beq_iff_eq, bne_iff_ne] at prints ⊢
  omega

def Printed (text : List Char) : Prop :=
  ∀ c ∈ text, Write.isPrintable c = true

instance (text : List Char) : Decidable (Printed text) :=
  List.decidableBAll (fun c => Write.isPrintable c = true) text

theorem Printed.append {front behind : List Char} (first : Printed front) (second : Printed behind) :
    Printed (front ++ behind) :=
  List.forall_mem_append.mpr ⟨first, second⟩

theorem Printed.cons {c : Char} {rest : List Char} (first : Write.isPrintable c = true)
    (second : Printed rest) : Printed (c :: rest) :=
  List.forall_mem_cons.mpr ⟨first, second⟩

private theorem printed_spaces (count : Nat) : Printed (spaces count) := by
  intro c isIn
  rw [(List.mem_replicate.mp isIn).2]
  decide

private theorem forbiddenAt?_none {text : List Char} (printed : Printed text) (offset : Nat) :
    forbiddenAt? offset text = none := by
  induction text generalizing offset with
  | nil => rfl
  | cons c rest inductionHypothesis =>
      obtain ⟨first, others⟩ := List.forall_mem_cons.mp printed
      rw [forbiddenAt?, if_pos (isAllowed_of_printable first), inductionHypothesis others]

private theorem printed_singleBody (indent : Nat) {chars : List Char} (printed : Printed chars) :
    ∀ opened, Printed (Write.singleBody indent opened chars) := by
  induction chars with
  | nil =>
      rintro (_ | _)
      · exact printed
      · exact printed_spaces indent
  | cons c rest inductionHypothesis =>
      obtain ⟨first, others⟩ := List.forall_mem_cons.mp printed
      have behind := inductionHypothesis others
      intro opened
      rw [Write.singleBody]
      split
      · exact .cons first (behind true)
      · refine .append (.append ?_ ?_) (behind false)
        · split
          · exact printed_spaces indent
          · exact List.forall_mem_nil _
        · split
          · exact .cons first (.cons first (List.forall_mem_nil _))
          · exact .cons first (List.forall_mem_nil _)

private theorem printed_literalBody (indent : Nat) {chars : List Char} (printed : Printed chars) :
    ∀ opened, Printed (Write.literalBody indent opened chars) := by
  induction chars with
  | nil => exact fun _ => printed
  | cons c rest inductionHypothesis =>
      obtain ⟨first, others⟩ := List.forall_mem_cons.mp printed
      have behind := inductionHypothesis others
      intro opened
      rw [Write.literalBody]
      split
      · exact .cons first (behind true)
      · refine .append ?_ (.cons first (behind false))
        split
        · exact printed_spaces indent
        · exact List.forall_mem_nil _

def Inline (text : List Char) : Prop :=
  ∀ c ∈ text, Write.isPrintable c = true ∧ c ≠ '\n'

instance (text : List Char) : Decidable (Inline text) :=
  List.decidableBAll (fun c => Write.isPrintable c = true ∧ c ≠ '\n') text

theorem Inline.printed {text : List Char} (inline : Inline text) : Printed text :=
  fun c isIn => (inline c isIn).1

theorem Inline.append {front behind : List Char} (first : Inline front) (second : Inline behind) :
    Inline (front ++ behind) :=
  List.forall_mem_append.mpr ⟨first, second⟩

private theorem inline_hexDigits (width code : Nat) : Inline (Write.hexDigits width code) := by
  have digits : ∀ c ∈ Nat.toDigits 16 code, Write.isPrintable c.toUpper = true ∧ c.toUpper ≠ '\n' := by
    induction code using Nat.strongRecOn with
    | ind code inductionHypothesis =>
        have upper : ∀ digit < 16, Write.isPrintable (Nat.digitChar digit).toUpper = true
            ∧ (Nat.digitChar digit).toUpper ≠ '\n' := by
          decide
        by_cases small : code < 16
        · rw [Nat.toDigits_of_lt_base small]
          exact List.forall_mem_singleton.mpr (upper code small)
        · rw [Nat.toDigits_of_base_le (by decide) (Nat.le_of_not_lt small)]
          refine List.forall_mem_append.mpr ⟨inductionHypothesis _ (by omega), ?_⟩
          exact List.forall_mem_singleton.mpr (upper _ (Nat.mod_lt _ (by decide)))
  refine .append ?_ (List.forall_mem_map.mpr digits)
  intro c isIn
  rw [(List.mem_replicate.mp isIn).2]
  decide

private theorem inline_escaped (c : Char) : Inline (Write.escaped c) := by
  refine List.forall_mem_cons.mpr ⟨by decide, ?_⟩
  split
  case h_1 letter isLetter =>
    refine List.forall_mem_singleton.mpr ?_
    rw [Write.escapeLetter?] at isLetter
    split at isLetter <;> cases isLetter <;> decide
  case h_2 =>
    dsimp only
    split
    · exact List.forall_mem_cons.mpr ⟨by decide, inline_hexDigits 2 _⟩
    · split
      · exact List.forall_mem_cons.mpr ⟨by decide, inline_hexDigits 4 _⟩
      · exact List.forall_mem_cons.mpr ⟨by decide, inline_hexDigits 8 _⟩

theorem inline_doubleBody (chars : List Char) : Inline (Write.doubleBody chars) := by
  intro c isIn
  obtain ⟨d, _, isPart⟩ := List.mem_flatMap.mp isIn
  split at isPart
  case isTrue => exact inline_escaped d c isPart
  case isFalse plain =>
    rw [List.mem_singleton] at isPart
    simp only [Bool.or_eq_true, Bool.not_eq_true', not_or, Bool.not_eq_false] at plain
    rw [isPart]
    refine ⟨plain.1.1.1, ?_⟩
    rintro rfl
    exact plain.1.1.2 (by decide)

theorem inline_literalHints (chars : List Char) : Inline (Write.literalHints chars) := by
  refine .append ?_ ?_
  · split <;> decide
  · split
    · decide
    · split <;> decide
    · split
      · decide
      · split <;> decide

private theorem printed_of_traits {chars : List Char} (unspecial : (Write.traits chars).special = false) :
    Printed chars := by
  intro c isIn
  have special := List.any_eq_false.mp unspecial c isIn
  simpa using special

private theorem printed_scalar (indent : Nat) (text : String) : Printed (Write.scalar indent text) := by
  rw [← List.append_nil (Write.scalar indent text)]
  have feed : Printed ['\n'] := by decide
  rcases Scanner.style_cases text with ⟨isStyle, _, _, allowed⟩ | ⟨isStyle, allowed, _⟩
    | ⟨isStyle, allowed, filled⟩ | isStyle
  · rw [Scanner.scalar_plain indent isStyle]
    simp only [Write.Traits.plainAllowed, Bool.not_eq_true', Bool.or_eq_false_iff] at allowed
    exact (printed_of_traits allowed.1.1.2).append feed
  · rw [Scanner.scalar_single indent isStyle]
    simp only [Write.Traits.singleAllowed, Bool.not_eq_true', Bool.or_eq_false_iff] at allowed
    exact .cons (by decide) (.append (printed_singleBody _ (printed_of_traits allowed.2) _)
      (.cons (by decide) feed))
  · rw [Scanner.scalar_literal indent isStyle filled]
    simp only [Write.Traits.literalAllowed, Bool.not_eq_true', Bool.or_eq_false_iff] at allowed
    refine .cons (by decide) (.append (inline_literalHints _).printed (.cons (by decide)
      (.append (printed_literalBody _ (printed_of_traits allowed.2) _) (.append ?_ (by decide)))))
    rw [Block.closing]
    split <;> decide
  · rw [Scanner.scalar_double indent isStyle]
    exact .cons (by decide) (.append (inline_doubleBody _).printed (.cons (by decide) feed))

private theorem printed_name {name : List Char} (isName : Scanner.IsName name) : Printed name := by
  intro c isIn
  have bounds := toNat_of_isAlphanum (isName.letters c isIn)
  simp only [Write.isPrintable, Bool.or_eq_true, Bool.and_eq_true, decide_eq_true_eq, beq_iff_eq]
  omega

private theorem printed_boolean (value : Bool) : Printed (booleanText value).toList := by
  cases value <;> decide

private theorem printed_items {items : List Tree} (column : Nat)
    (each : ∀ item ∈ items, ∀ column, Printed (Write.node column item)) :
    ∀ first, Printed (Write.listItems column first items) := by
  induction items with
  | nil =>
      intro first
      rw [Write.listItems]
      decide
  | cons item more inductionHypothesis =>
      obtain ⟨printsItem, printsMore⟩ := List.forall_mem_cons.mp each
      intro first
      rw [Write.listItems]
      refine .append (.append ?_ ?_) (inductionHypothesis printsMore false)
      · split
        · decide
        · exact printed_spaces column
      · exact .cons (by decide) (.cons (by decide) (printsItem _))

private theorem printed_fields {names : List String} {values : List Tree} (column : Nat)
    (named : ∀ field ∈ names.zip values, Scanner.IsName field.1.toList)
    (each : ∀ field ∈ names.zip values, Printed (Write.fieldValue column field.2)) :
    ∀ first, Printed (Write.recordFields column first names values) := by
  induction names generalizing values with
  | nil =>
      intro first
      rw [recordFields_none _ _ rfl]
      decide
  | cons name names inductionHypothesis =>
      intro first
      cases values with
      | nil =>
          rw [recordFields_none _ _ rfl]
          decide
      | cons value values =>
          rw [List.zip_cons_cons] at named each
          obtain ⟨isName, namedMore⟩ := List.forall_mem_cons.mp named
          obtain ⟨printsValue, printsMore⟩ := List.forall_mem_cons.mp each
          rw [Write.recordFields]
          refine .append (.append (.append ?_ (printed_name isName)) (.cons (by decide) printsValue))
            (inductionHypothesis namedMore printsMore false)
          split
          · decide
          · exact printed_spaces column

theorem Proper.printed {tree : Tree} (proper : Proper tree) :
    ∀ column, Printed (Write.node column tree) ∧ Printed (Write.fieldValue column tree) := by
  have feed : Printed ['\n'] := by decide
  induction proper with
  | text value =>
      intro column
      rw [Write.node, Write.fieldValue]
      exact ⟨printed_scalar _ value, .cons (by decide) (printed_scalar _ value)⟩
  | boolean value =>
      intro column
      rw [Write.node, Write.fieldValue]
      exact ⟨(printed_boolean value).append feed, .cons (by decide) ((printed_boolean value).append feed)⟩
  | list filled proper each =>
      intro column
      have items := fun column => printed_items column (fun item isIn column => (each item isIn column).1)
      rw [Write.node, Write.fieldValue]
      exact ⟨items column true, .cons (by decide) ((printed_spaces column).append (items column true))⟩
  | record filled named proper each =>
      intro column
      have fields := fun column => printed_fields column named fun field isIn => (each field isIn column).2
      rw [Write.node, Write.fieldValue]
      exact ⟨fields column true,
        .cons (by decide) ((printed_spaces _).append (fields (column + 2) true))⟩

/-! ## Whole documents -/

/-- The tokens of a record that was written as a document. -/
theorem tokenize_document {names : List String} {values : List Tree}
    (proper : Proper (.record names values)) :
    ∃ tokens, tokenize (Write.document (.record names values)) = ⟨tokens, none⟩
      ∧ tokens.map Token.kind
          = .streamStart :: nodeKinds (.record names values) ++ [.streamEnd] := by
  have printed := (proper.printed 0).1
  have opens := proper.opens 0
  cases proper with
  | record filled named each =>
      rw [Write.document, tokenize, forbiddenAt?_none printed]
      rw [Write.node] at opens ⊢
      have stands : ({ cursor := { rest := Write.recordFields 0 true names values },
                       tokens := [⟨.streamStart, {}, {}⟩] } : Scanner).Stands true [.streamStart] (-1) []
          (spaces 0 ++ (Write.recordFields 0 true names values ++ [])) 0 :=
        ⟨rfl, rfl, rfl, rfl, rfl, ⟨(List.append_nil _).symm, rfl⟩⟩
      have parked := stands.parked 0 Scanner.lax_none (opens.append []).starts
      obtain ⟨later, walks, reached⟩ :=
        Scanner.fields_walk filled named (fun field isIn => (Scanner.walks_of_proper (each field isIn)).2)
          parked (by decide) .nil (Nat.le_refl 0)
      obtain ⟨fuel, delivered, enough, isRun⟩ :=
        Scanner.run_walks walks ((Write.recordFields 0 true names values).length + 2) 1
          (Nat.lt_succ_of_lt (Nat.lt_succ_self _))
      obtain ⟨fuel, rfl⟩ := Nat.exists_eq_succ_of_ne_zero (Nat.ne_of_gt (Nat.zero_lt_of_lt enough))
      obtain ⟨tokens, isEnd, isKinds⟩ := reached.run_end fuel delivered
      refine ⟨tokens, ?_, ?_⟩
      · rw [← isEnd, ← isRun]
      · rw [isKinds, nodeKinds, Scanner.opening_deeper _ (by decide)]
        simp

end Tangle.Yaml
