import Tangle.Proofs.Document.Run

/-!
Contract: a source and its print, seen from one place on.

Owns: `Reprints`, what a node needs to read as itself once it is printed; and `Ahead`,
which cuts both texts where the next node starts.

Does **not** own: that the two texts are read alike (`Tangle.Proofs.Document.Lockstep`).

## Where the texts differ

Up to the next node the print holds the same lines as the source. From there on it holds
other characters, but of the same kind: a comment or fence comes first, and a line that
closes a metadata block stands in both or in neither. That is all a reader of the lines
ahead can ask of them.
-/

set_option autoImplicit false

namespace Tangle.Document

open Tangle.Source
open Tangle.Markdown
open Tangle.Directive (decodeConfig decodeSettings)
open Tangle.Text (byteSize takeBytes EndsLine)
open Cursor

/-! ## What a node needs -/

/-- The values of a node can be read in what is printed for them. -/
def Node.Readable : Node → Prop
  | .text _ => True
  | .config node =>
      decodeConfig node.config.encode = .ok node.config ∧ CleanBody node.config.encode
  | .code block =>
      (∀ settings ∈ block.settings,
        decodeSettings settings.encode = .ok settings ∧ CleanBody settings.encode)
        ∧ Text.Symbol.backtick ∉ block.language.toList
        ∧ ¬ "\r\n".toList <:+: block.code.toList ++ ['\n']

/-- The print of a node can stand in its place: the node starts a line whose break is not
escaped, and as to lines that close a metadata block it is printed as it stood. -/
structure Node.InPlace (source : String) (node : Node) : Prop where
  flush : (positionAt source node.span.start).column = 1
  unescaped : ¬ escapedBreak <:+ (⟨0, node.span.start⟩ : Span).chars source
  metadata : holdsMetadataEnd (node.span.chars source) = holdsMetadataEnd node.print.toList

/-- A node that can be printed in place of its source, and read again there. -/
structure Reprints (source : String) (node : Node) : Prop extends node.InPlace source where
  readable : node.Readable

theorem oneLine_of_visible {text : List Char} (visible : ∀ c ∈ text, Text.isBlank c = false) :
    '\n' ∉ text :=
  fun feed => absurd (visible '\n' feed) (by decide)

theorem opens_printDirective (kind : Directive.Kind) (body : String) (later : List Char) :
    OpensBlock ((printDirective kind body).toList ++ later) := by
  rw [printDirective_toList, spoken, List.append_assoc, List.append_assoc]
  exact Or.inl (List.prefix_append _ _)

/-- The print of a node starts with a comment or fence. -/
theorem opens_print {node : Node} (noText : node.isText = false) (readable : node.Readable)
    (language : ∀ block, node = .code block → ∀ c ∈ block.language.toList, Text.isBlank c = false)
    (later : List Char) : OpensBlock (node.print.toList ++ later) := by
  cases node with
  | text node => cases noText
  | config node => exact opens_printDirective .config node.config.encode later
  | code block =>
      obtain ⟨-, noBacktick, -⟩ := readable
      rw [print_code_toList]
      cases block.settings with
      | some settings =>
          dsimp only
          rw [List.append_assoc, List.append_assoc]
          exact opens_printDirective .block settings.encode _
      | none =>
          have opens := @fence?_printFence block.language block.code
            ⟨0, printFence block.language block.code ++ later⟩ later rfl noBacktick
            (oneLine_of_visible (language block rfl))
          exact Or.inr (by rw [List.nil_append]; exact Option.isSome_of_eq_some opens)

/-! ## Printing from a place on -/

/-- What stands ahead of the first node is printed as it is. -/
theorem printFrom_passage {source : String} {cursor : Cursor} {passage rest : List Char}
    {nodes : List Node} (placed : At source cursor) (isRest : cursor.rest = passage ++ rest)
    (before : ∀ node ∈ nodes.head?, cursor.offset + byteSize passage ≤ node.span.start) :
    printFrom source cursor.offset nodes
      = passage ++ printFrom source (cursor.offset + byteSize passage) nodes := by
  cases nodes with
  | nil =>
      rw [printFrom, printFrom, placed.chars_end, ← offset_advance_length isRest,
        (placed.advance passage.length).chars_end, advance_rest, isRest, List.drop_left]
  | cons node more =>
      rw [printFrom, printFrom, placed.chars_split isRest (before node rfl), List.append_assoc,
        List.append_assoc, List.append_assoc]

/-! ## The lines ahead -/

/-- From the cursor on, the source holds `lines` and then `later`, and the print holds the
same lines and then `other`. -/
structure Ahead (source : String) (cursor : Cursor) (nodes : List Node)
    (lines later other : List Char) : Prop where
  isRest : cursor.rest = lines ++ later
  isPrint : printFrom source cursor.offset nodes = lines ++ other
  replaces : Replaces later other
  starts : ∀ node ∈ nodes.head?, node.span.start = cursor.offset + byteSize lines
  flush : later = [] ∨ ∃ before, source.toList = before ++ later ∧ EndsLine before
    ∧ ¬ escapedBreak <:+ before

section Ahead

variable {source : String} {cursor : Cursor} {nodes : List Node} {lines later other : List Char}
  (placed : At source cursor)
include placed

/-- The lines from an earlier place on. -/
theorem Ahead.retreat {count : Nat}
    (ahead : Ahead source (cursor.advance count) nodes lines later other) :
    Ahead source cursor nodes (cursor.rest.take count ++ lines) later other := by
  have isCut : cursor.rest = cursor.rest.take count ++ (cursor.advance count).rest :=
    (List.take_append_drop count cursor.rest).symm
  refine ⟨?_, ?_, ahead.replaces, ?_, ahead.flush⟩
  · rw [List.append_assoc, ← ahead.isRest]
    exact isCut
  · have isOffset : (cursor.advance count).offset
        = cursor.offset + byteSize (cursor.rest.take count) := rfl
    rw [printFrom_passage placed isCut ?_, ← isOffset, ahead.isPrint, List.append_assoc]
    intro node isHead
    rw [ahead.starts node isHead, ← isOffset]
    exact Nat.le_add_right _ _
  · intro node isHead
    rw [ahead.starts node isHead, byteSize_append, ← Nat.add_assoc]
    rfl

theorem Ahead.fits (ahead : Ahead source cursor nodes lines later other) : Fits lines later := by
  rcases ahead.flush with nothing | ⟨before, isSource, ends, unescaped⟩
  · exact Or.inl nothing
  · obtain ⟨front, isFront, -⟩ := placed
    have isBefore : before = front ++ lines := by
      rw [isFront, ahead.isRest, ← List.append_assoc] at isSource
      exact (List.append_cancel_right isSource).symm
    rw [isBefore] at ends unescaped
    rcases ahead.replaces with ⟨nothing, -⟩ | ⟨opens, -, -⟩
    · exact Or.inl nothing
    · refine Or.inr ⟨?_, ?_, opens.halts⟩
      · have dropped := ends.drop front.length
        rwa [List.drop_left] at dropped
      · exact fun escaped => unescaped (escaped.trans (List.suffix_append _ _))

end Ahead

/-! ## Behind a node -/

theorem Node.leaves_append (node : Node) {text later : List Char} (shut : Shut text later) :
    node.leaves (text ++ later) = node.leaves text := by
  cases node with
  | text node => rfl
  | config node => exact lineLength_append shut
  | code block =>
      show (blankLine? (text ++ later)).getD 0 = (blankLine? text).getD 0
      rw [blankLine?_append shut]

theorem Node.leaves_le (node : Node) (text : List Char) : node.leaves text ≤ text.length := by
  cases node with
  | text node => exact Nat.zero_le _
  | config node => exact lineLength_le text
  | code block =>
      show (blankLine? text).getD 0 ≤ text.length
      cases isBlank : blankLine? text with
      | none => exact Nat.zero_le _
      | some length => exact blankLine?_le isBlank

/-- What follows a node in the source and in the print: the lines that are the same in
both, and how reading goes on. -/
structure Behind (source : String) (node : Node) (place after : Cursor) (items : List Item)
    (lines later other : List Char) : Prop where
  ahead : Ahead source place (nodesOf source items) lines later other
  ends : (lineEnd? lines).isSome
  shut : Shut lines later
  breaks : ∀ c ∈ lines.take (node.leaves lines), isLineBreak c = true
  next : (after = place.advance (node.leaves lines)
      ∧ Ahead source after (nodesOf source items) (lines.drop (node.leaves lines)) later other)
    ∨ (items = [] ∧ later = [] ∧ other = [] ∧ ∀ c ∈ lines, isLineBreak c = true)

/-- At the end of the text there are no items. -/
theorem Run.items_eq_nil {source : String} {state : State} {cursor : Cursor} {items : List Item}
    (run : Run source state cursor items) (nothing : cursor.rest = []) : items = [] := by
  cases run with
  | done _ => rfl
  | plain some_char => exact absurd nothing some_char
  | dangling some_char => exact absurd nothing some_char
  | kept opens =>
      obtain ⟨c, rest, isRest, -⟩ := opens.head
      rw [nothing] at isRest
      cases isRest

theorem Stands.behind {source : String} {node : Node} {cursor after : Cursor}
    {passage rest : List Char} {items : List Item} (placed : At source cursor)
    (stands : Stands node cursor passage rest after) (run : Run source {} after items)
    (onward : ∃ lines later other, Ahead source after (nodesOf source items) lines later other) :
    ∃ lines later other, rest = lines ++ later
      ∧ Behind source node (cursor.advance passage.length) after items lines later other := by
  have placedBehind := placed.advance passage.length
  have isRest : (cursor.advance passage.length).rest = rest := by
    rw [advance_rest, stands.isRest, List.drop_left]
  rcases stands.next with isAfter | ⟨nothing, allBreaks⟩
  · rw [← advance_advance] at isAfter
    obtain ⟨lines, later, other, ahead⟩ := onward
    rw [isAfter] at ahead
    have whole := ahead.retreat placedBehind
    rw [isRest] at whole
    have fits := whole.fits placedBehind
    have cut := whole.isRest
    rw [isRest] at cut
    have ends := stands.ends
    have shut : Shut (rest.take (node.leaves rest) ++ lines) later := by
      -- Where nothing stands ahead of the next node, that node would start here.
      rcases fits.shut_or_later with shut | ⟨none_ahead, halts, some_later⟩
      · exact shut
      · rw [none_ahead, List.nil_append] at cut
        obtain ⟨c, chars, isCons⟩ := List.exists_cons_of_ne_nil some_later
        rw [isCons] at halts cut
        rw [cut] at ends
        obtain ⟨-, -, feed, ret, -, -⟩ := halts.head_cons
        exact ((lineEnd?_head ends c rfl).elim feed ret).elim
    have within := node.leaves_le rest
    have isLeaves : node.leaves (rest.take (node.leaves rest) ++ lines) = node.leaves rest := by
      rw [← node.leaves_append shut, ← cut]
    have size : (rest.take (node.leaves rest)).length = node.leaves rest := by
      rw [List.length_take, Nat.min_eq_left within]
    refine ⟨_, later, other, cut, whole, ?_, shut, ?_, Or.inl ⟨?_, ?_⟩⟩
    · rw [← lineEnd?_append shut, ← cut]
      exact ends
    · rw [isLeaves, List.take_left' size]
      exact stands.breaks
    · rw [isLeaves]
      exact isAfter
    · rw [isLeaves, List.drop_left' size, isAfter]
      exact ahead
  · have none_left := run.items_eq_nil nothing
    subst none_left
    refine ⟨rest, [], [], (List.append_nil _).symm, ?_, stands.ends, Shut.nil _, stands.breaks,
      Or.inr ⟨rfl, rfl, rfl, allBreaks⟩⟩
    refine ⟨?_, ?_, Or.inl ⟨rfl, rfl⟩, ?_, Or.inl rfl⟩
    · rw [isRest, List.append_nil]
    · show (⟨_, source.utf8ByteSize⟩ : Span).chars source = _
      rw [placedBehind.chars_end, isRest, List.append_nil]
    · rintro node ⟨⟩

/-- The print from a node on. -/
theorem Stands.printFrom {source : String} {node : Node} {cursor after : Cursor}
    {passage rest : List Char} (stands : Stands node cursor passage rest after)
    (nodes : List Node) :
    Document.printFrom source cursor.offset (node :: nodes)
      = node.print.toList
        ++ Document.printFrom source (cursor.advance passage.length).offset nodes := by
  rw [Document.printFrom, stands.isSpan, offset_advance_length stands.isRest,
    chars_of_le (Nat.le_refl _), List.nil_append]

/-- Lines that close a metadata block stand behind a line end in both texts or in neither. -/
theorem Ahead.holdsMetadataEnd {source : String} {cursor : Cursor} {nodes : List Node}
    {lines later other : List Char} (placed : At source cursor)
    (ahead : Ahead source cursor nodes lines later other) (ends : (lineEnd? lines).isSome)
    (shut : Shut lines later) (passage print : List Char)
    (same : Markdown.holdsMetadataEnd passage = Markdown.holdsMetadataEnd print) :
    Markdown.holdsMetadataEnd (passage ++ (lines ++ later))
      = Markdown.holdsMetadataEnd (print ++ (lines ++ other)) := by
  have otherShut := ahead.replaces.swaps.shut shut
  have within := lineLength_le lines
  rw [holdsMetadataEnd_lineEnd (by rw [lineEnd?_append shut]; exact ends),
    holdsMetadataEnd_lineEnd (by rw [lineEnd?_append otherShut]; exact ends), same,
    lineLength_append shut, lineLength_append otherShut, List.drop_append_of_le_length within,
    List.drop_append_of_le_length within]
  rcases ahead.replaces with ⟨rfl, rfl⟩ | ⟨opens, -, sameEnd⟩
  · rfl
  · have some_later : later ≠ [] := by
      obtain ⟨c, chars, rfl, -⟩ := opens.head
      exact List.cons_ne_nil c chars
    obtain ⟨endsLine, -, -⟩ := (ahead.fits placed).resolve_left some_later
    rw [holdsMetadataEnd_lines later (endsLine.drop _), holdsMetadataEnd_lines other (endsLine.drop _),
      sameEnd]

/-- A node that can be printed is where the two texts part. -/
theorem Stands.ahead {source : String} {node : Node} {cursor after : Cursor}
    {passage rest : List Char} {items : List Item} {lines later other : List Char}
    (placed : At source cursor) (opens : OpensBlock cursor.rest)
    (stands : Stands node cursor passage rest after) (noText : node.isText = false)
    (language : ∀ block, node = .code block → ∀ c ∈ block.language.toList, Text.isBlank c = false)
    (reprints : Reprints source node) (isRest : rest = lines ++ later)
    (behind : Behind source node (cursor.advance passage.length) after items lines later other) :
    Ahead source cursor (node :: nodesOf source items) [] cursor.rest
      (node.print.toList ++ (lines ++ other)) := by
  have isStart : node.span.start = cursor.offset := by rw [stands.isSpan]
  refine ⟨rfl, ?_, Or.inr ⟨opens, ?_, ?_⟩, ?_, Or.inr ?_⟩
  · rw [stands.printFrom, behind.ahead.isPrint, List.nil_append]
  · exact opens_print noText reprints.readable language _
  · have metadata := reprints.metadata
    rw [stands.isSpan, placed.chars passage rest stands.isRest] at metadata
    rw [stands.isRest, isRest]
    exact behind.ahead.holdsMetadataEnd (placed.advance _) behind.ends behind.shut _ _ metadata
  · rintro first ⟨⟩
    rw [isStart]
    rfl
  · obtain ⟨front, isSource, isOffset⟩ := placed
    have isFront := (at_start source).chars front cursor.rest isSource
    have unescaped := reprints.unescaped
    have flush := reprints.flush
    rw [isStart] at unescaped flush
    refine ⟨front, isSource, At.endsLine isSource isOffset flush, ?_⟩
    have isChars : (⟨0, cursor.offset⟩ : Span).chars source = front := by
      rw [isOffset, ← Nat.zero_add (byteSize front)]
      exact isFront
    rwa [isChars] at unescaped

/-- **From every place of a run** the two texts hold the same lines up to the next node. -/
theorem Run.ahead {source : String} {state : State} {cursor : Cursor} {items : List Item}
    (run : Run source state cursor items) (placed : At source cursor)
    (reprints : ∀ node ∈ nodesOf source items, Reprints source node) :
    ∃ lines later other, Ahead source cursor (nodesOf source items) lines later other := by
  induction run with
  | done nothing =>
      refine ⟨[], [], [], nothing, ?_, Or.inl ⟨rfl, rfl⟩, ?_, Or.inl rfl⟩
      · exact placed.chars_end.trans nothing
      · rintro node ⟨⟩
  | @plain state cursor items some_char noItem rest inductionHypothesis =>
      obtain ⟨count, isAfter⟩ := (readBlock_moves state cursor).1
      rw [isAfter] at inductionHypothesis
      obtain ⟨lines, later, other, ahead⟩ := inductionHypothesis (placed.advance count) reprints
      exact ⟨_, later, other, ahead.retreat placed⟩
  | @dangling state cursor items item some_char isItem noNode unpaired rest inductionHypothesis =>
      obtain ⟨count, isAfter⟩ := (readBlock_moves state cursor).1
      rw [isAfter] at inductionHypothesis
      rw [nodesOf_dangling noNode unpaired] at reprints ⊢
      obtain ⟨lines, later, other, ahead⟩ := inductionHypothesis (placed.advance count) reprints
      exact ⟨_, later, other, ahead.retreat placed⟩
  | @kept state cursor after all items node passage behind opens stands noText isNodes bare language
      rest inductionHypothesis =>
      rw [isNodes] at reprints ⊢
      rw [List.forall_mem_cons] at reprints
      obtain ⟨lines, later, other, isRest, whatFollows⟩ := stands.behind placed rest
        (inductionHypothesis (placed.reached stands.reached) reprints.2)
      exact ⟨_, _, _, stands.ahead placed opens noText language reprints.1 isRest whatFollows⟩

end Tangle.Document
