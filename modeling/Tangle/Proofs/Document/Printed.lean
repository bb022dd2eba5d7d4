import Tangle.Document.Item
import Tangle.Document.Print
import Tangle.Proofs.Markdown.Metadata

/-!
Contract: what a printed directive and a printed fence read as.

Owns: that a printed comment ends on its last line and has the body it was printed with,
and that a printed fence ends with its own closing fence and has the code it was printed
with.

Does **not** own: how values are written as bodies (`Tangle.Directive.Encode`).
-/

set_option autoImplicit false

namespace Tangle.Text

/-! ## Search -/

theorem stripLead?_isSome_iff (lead text : List Char) :
    (stripLead? lead text).isSome = true ↔ lead <+: text := by
  unfold stripLead?
  split
  · next found => simpa using found
  · next missing => simpa using missing

theorem findSplit?_isSome_iff (pattern : List Char) :
    ∀ text : List Char, (findSplit? pattern text).isSome = true ↔ pattern <:+: text
  | [] => by
      rw [findSplit?, List.infix_nil]
      cases pattern <;> simp
  | c :: rest => by
      rw [findSplit?, List.infix_cons_iff, ← stripLead?_isSome_iff,
        ← findSplit?_isSome_iff pattern rest]
      cases stripLead? pattern (c :: rest) with
      | some after => simp
      | none => simp

private theorem findSplit?_eq_none_iff (pattern text : List Char) :
    findSplit? pattern text = none ↔ ¬ pattern <:+: text := by
  rw [← findSplit?_isSome_iff]
  simp

/-- A pattern does not run across a character that it does not hold. -/
theorem infix_of_append_cons {pattern second : List Char} {c : Char} (other : c ∉ pattern) :
    ∀ {first : List Char}, pattern <:+: first ++ c :: second →
      pattern <:+: first ∨ pattern <:+: second := by
  intro first
  induction first with
  | nil =>
      intro found
      rw [List.nil_append, List.infix_cons_iff] at found
      rcases found with here | later
      · exact Or.inl ((prefix_append_mark_iff other [] second).mp here).isInfix
      · exact Or.inr later
  | cons d first inductionHypothesis =>
      intro found
      rw [List.cons_append, List.infix_cons_iff] at found
      rcases found with here | later
      · exact Or.inl ((prefix_append_mark_iff other (d :: first) second).mp here).isInfix
      · exact (inductionHypothesis later).imp_left fun found => found.trans (List.suffix_cons d first).isInfix

end Tangle.Text

namespace Tangle.Document

open Tangle.Markdown
open Tangle.Directive
open Cursor

/-! ## Comments -/

/-- A comment whose closing text does not occur ahead of its last line ends there. -/
theorem htmlUntil_closes {closing : List Char} (free : '\n' ∉ closing) (some_closing : closing ≠ [])
    (later : List Char) :
    ∀ (fuel : Nat) (text : List Char) (cursor : Cursor),
      cursor.rest = text ++ (closing ++ later) → cursor.rest.length < fuel →
      ('\n' ∈ text → ¬ closing <:+: text) →
      htmlUntil [] closing fuel cursor
        = ((cursor.advance (text.length + closing.length + lineLength later)).offset,
            cursor.advance (text.length + closing.length + lineLength later))
  | fuel + 1, text, cursor, isRest, enough, unclosed => by
      rw [htmlUntil_root_step]
      by_cases broken : '\n' ∈ text
      · have within := lineLength_le text
        have isLine : lineLength cursor.rest = lineLength text := by
          rw [isRest]
          exact lineLength_append (Or.inl broken)
        have isNext : cursor.nextLine.rest = text.drop (lineLength text) ++ (closing ++ later) := by
          rw [nextLine, advance_rest, isLine, isRest, List.drop_append_of_le_length within]
        have noneFound : (Text.findSplit? closing
            (cursor.rest.take (lineLength cursor.rest))).isSome = false := by
          rw [isLine, isRest, List.take_append_of_le_length within, Option.isSome_eq_false_iff,
            Option.isNone_iff_eq_none, Text.findSplit?_eq_none_iff]
          exact fun found => unclosed broken (found.trans (List.take_prefix _ _).isInfix)
        have goesOn : cursor.nextLine.isEnd = false := by
          rw [isEnd, isNext]
          simp [some_closing]
        have some_char : cursor.rest ≠ [] := by
          rw [isRest]
          simp [some_closing]
        have shorter := nextLine_length_lt some_char
        rw [noneFound, goesOn, Bool.false_or, if_neg Bool.false_ne_true,
          htmlUntil_closes free some_closing later fuel _ cursor.nextLine isNext (by omega)
            (fun _ found => unclosed broken (found.trans (List.drop_suffix _ _).isInfix)),
          nextLine, advance_advance, isLine, List.length_drop]
        have same : lineLength text + (text.length - lineLength text + closing.length
            + lineLength later) = text.length + closing.length + lineLength later := by omega
        rw [same]
      · have isLine : lineLength cursor.rest
            = text.length + closing.length + lineLength later := by
          rw [isRest, lineLength_append_free broken, lineLength_append_free free, Nat.add_assoc]
        have found : (Text.findSplit? closing
            (cursor.rest.take (lineLength cursor.rest))).isSome = true := by
          rw [Text.findSplit?_isSome_iff, isLine, isRest, Nat.add_assoc,
            List.take_length_add_append, List.take_length_add_append]
          exact ⟨text, later.take (lineLength later), by rw [List.append_assoc]⟩
        rw [found, Bool.true_or, if_pos rfl, nextLine, isLine]

/-- The space ahead of the closing text of a comment on one line. -/
def closingSpace (body : String) : List Char :=
  if body.toList.contains '\n' then [] else [' ']

def spoken (kind : Kind) (body : String) : List Char :=
  "<!--".toList ++ (' ' :: (kind.keyword.toList ++ (body.toList ++ closingSpace body)))

theorem printDirective_toList (kind : Kind) (body : String) :
    (printDirective kind body).toList = spoken kind body ++ "-->".toList := by
  unfold printDirective spoken closingSpace
  split <;> simp

/-- A body on several lines does not hold the closing text. -/
def CleanBody (body : String) : Prop :=
  '\n' ∈ body.toList → ¬ "-->".toList <:+: body.toList

private theorem keyword_ends (kind : Kind) : ∃ front last, kind.keyword.toList = front ++ [last]
    ∧ '\n' ∉ kind.keyword.toList ∧ last ∉ "-->".toList
    ∧ Text.findSplit? "-->".toList ("<!--".toList ++ ' ' :: front) = none := by
  cases kind with
  | config => exact ⟨"@codeblock-confi".toList, 'g', rfl, by decide, by decide, by decide⟩
  | block => exact ⟨"@codebloc".toList, 'k', rfl, by decide, by decide, by decide⟩

private theorem spoken_clean {kind : Kind} {body : String} (clean : CleanBody body)
    (broken : '\n' ∈ spoken kind body) : ¬ "-->".toList <:+: spoken kind body := by
  obtain ⟨front, last, isKeyword, unbroken, other, unclosed⟩ := keyword_ends kind
  have bodyBroken : '\n' ∈ body.toList := by
    have inside : '\n' ∈ body.toList ++ closingSpace body := by
      simpa [spoken, unbroken] using broken
    rcases List.mem_append.mp inside with inBody | inSpace
    · exact inBody
    · unfold closingSpace at inSpace
      split at inSpace <;> simp at inSpace
  have noSpace : closingSpace body = [] := by
    rw [closingSpace, if_pos (List.contains_iff_mem.mpr bodyBroken)]
  -- The keyword ends with a letter, which the closing text cannot run across.
  have cut : spoken kind body = ("<!--".toList ++ ' ' :: front) ++ last :: body.toList := by
    rw [spoken, noSpace, List.append_nil, isKeyword]
    simp only [List.append_assoc, List.cons_append, List.nil_append]
  intro found
  rw [cut] at found
  rcases Text.infix_of_append_cons other found with ahead | inside
  · exact (Text.findSplit?_eq_none_iff _ _).mp unclosed ahead
  · exact clean bodyBroken inside

/-- **A printed directive** is read as one comment, through the end of its last line. -/
theorem readContent_printDirective {kind : Kind} {body : String} (clean : CleanBody body)
    {cursor : Cursor} {later : List Char}
    (isRest : cursor.rest = (printDirective kind body).toList ++ later) :
    readContent startsMetadata {} 0 cursor =
      { state := {}
        cursor := cursor.advance ((printDirective kind body).toList.length + lineLength later)
        block := some (.html ⟨cursor.offset,
          (cursor.advance ((printDirective kind body).toList.length + lineLength later)).offset⟩) } := by
  have isText : cursor.rest = spoken kind body ++ ("-->".toList ++ later) := by
    rw [isRest, printDirective_toList, List.append_assoc]
  have isLength : (printDirective kind body).toList.length + lineLength later
      = (spoken kind body).length + "-->".toList.length + lineLength later := by
    rw [printDirective_toList, List.length_append]
  have opens : cursor.rest = "<!--".toList
      ++ (' ' :: (kind.keyword.toList ++ (body.toList ++ closingSpace body))
        ++ ("-->".toList ++ later)) := by
    rw [isText, spoken, List.append_assoc]
  rw [readContent_comment opens, isLength,
    htmlUntil_closes (by decide) (by decide) later _ _ cursor isText (Nat.lt_succ_self _)
      (spoken_clean clean)]

/-! ## Directives -/

/-- The kind of a directive and what follows its keyword. -/
def keyword? (content : List Char) : Option (Kind × List Char) :=
  match keywordBody? .config content with
  | some body => some (.config, body)
  | none => (keywordBody? .block content).map fun body => (.block, body)

theorem directive?_eq (text : List Char) (span : Source.Span) :
    directive? text span =
      (Text.stripLead? "<!--".toList (Text.trim (String.ofList text)).toList).bind fun inner =>
        (keyword? (((Text.stripTail? "-->".toList inner).getD inner).dropWhile Text.isBlank)).map
          fun found =>
            ⟨found.1, if (Text.stripTail? "-->".toList inner).isSome then
              some (String.ofList found.2) else none, span⟩ := by
  unfold directive? keyword?
  dsimp only
  cases Text.stripLead? "<!--".toList (Text.trim (String.ofList text)).toList with
  | none => rfl
  | some inner =>
      simp only [Option.bind_eq_bind, Option.bind_some]
      cases keywordBody? .config
          (((Text.stripTail? "-->".toList inner).getD inner).dropWhile Text.isBlank) with
      | some body => rfl
      | none =>
          dsimp only
          cases keywordBody? .block
            (((Text.stripTail? "-->".toList inner).getD inner).dropWhile Text.isBlank) <;> rfl

private theorem trim_of_ends {text : List Char} {first last : Char} {middle : List Char}
    (isText : text = first :: (middle ++ [last])) (visibleFirst : Text.isBlank first = false)
    (visibleLast : Text.isBlank last = false) :
    (Text.trim (String.ofList text)).toList = text := by
  rw [Text.trim_toList, String.toList_ofList, isText, List.dropWhile_cons_of_neg (by rw [visibleFirst]; simp),
    ← List.cons_append, List.rdropWhile_concat_neg _ _ _ (by rw [visibleLast]; simp)]

private theorem keywordBody?_keyword (kind : Kind) {rest : List Char}
    (headed : ∀ c ∈ rest.head?, Text.isBlank c = true) :
    keywordBody? kind (kind.keyword.toList ++ rest) = some rest := by
  rw [keywordBody?, Text.stripLead?,
    if_pos (List.isPrefixOf_iff_prefix.mpr (List.prefix_append _ _)), List.drop_left]
  cases rest with
  | nil => rfl
  | cons c rest => simp only [headed c rfl, if_true]

/-- A keyword that something blank follows is read as itself. -/
theorem keyword?_keyword (kind : Kind) {rest : List Char}
    (headed : ∀ c ∈ rest.head?, Text.isBlank c = true) :
    keyword? (kind.keyword.toList ++ rest) = some (kind, rest) := by
  rw [keyword?]
  cases kind with
  | config => rw [keywordBody?_keyword .config headed]
  | block =>
      have noConfig : keywordBody? .config (Kind.block.keyword.toList ++ rest) = none := by
        have cut : Kind.config.keyword.toList = Kind.block.keyword.toList ++ "-config".toList := rfl
        have missing : ¬ Kind.config.keyword.toList <+: Kind.block.keyword.toList ++ rest := by
          rw [cut, List.prefix_append_right_inj]
          rintro ⟨more, rfl⟩
          exact absurd (headed '-' rfl) (by decide)
        rw [keywordBody?, Text.stripLead?, if_neg (mt List.isPrefixOf_iff_prefix.mp missing)]
      rw [noConfig]
      dsimp only
      rw [keywordBody?_keyword .block headed]
      rfl

/-- **A printed directive** has the body it was printed with. -/
theorem directive?_printDirective (kind : Kind) (body : String) (span : Source.Span)
    (headed : ∀ c ∈ body.toList.head?, Text.isBlank c = true) :
    directive? (printDirective kind body).toList span
      = some ⟨kind, some (String.ofList (body.toList ++ closingSpace body)), span⟩ := by
  have trimmed : (Text.trim (String.ofList (printDirective kind body).toList)).toList
      = (printDirective kind body).toList := by
    refine @trim_of_ends _ '<' '>' ("!-- ".toList ++ kind.keyword.toList
      ++ (body.toList ++ closingSpace body) ++ "--".toList) ?_ (by decide) (by decide)
    rw [printDirective_toList, spoken]
    simp
  have lead : Text.stripLead? "<!--".toList (printDirective kind body).toList
      = some (' ' :: (kind.keyword.toList ++ (body.toList ++ closingSpace body))
          ++ "-->".toList) := by
    rw [printDirective_toList, spoken, List.append_assoc, Text.stripLead?,
      if_pos (List.isPrefixOf_iff_prefix.mpr (List.prefix_append _ _)), List.drop_left]
  have tail : ∀ text : List Char, Text.stripTail? "-->".toList (text ++ "-->".toList) = some text := by
    intro text
    rw [Text.stripTail?, if_pos (by simp)]
    simp
  have blankHead : ∀ c ∈ (body.toList ++ closingSpace body).head?, Text.isBlank c = true := by
    cases isBody : body.toList with
    | nil => simp [closingSpace, isBody, Text.isBlank]
    | cons c rest =>
        rw [isBody] at headed
        simpa using headed
  have content : (' ' :: (kind.keyword.toList ++ (body.toList ++ closingSpace body))).dropWhile
      Text.isBlank = kind.keyword.toList ++ (body.toList ++ closingSpace body) := by
    rw [List.dropWhile_cons_of_pos (by decide)]
    cases kind <;> rfl
  rw [directive?_eq, trimmed, lead, Option.bind_some, tail, Option.getD_some, content,
    keyword?_keyword kind blankHead]
  rfl

/-! ## Fences -/

def isBacktick (c : Char) : Bool :=
  c == Text.Symbol.backtick

private theorem longestRun_mono {first second : Nat} (more : first ≤ second) :
    ∀ text : List Char, longestRun first text ≤ longestRun second text
  | [] => more
  | c :: rest => by
      rw [longestRun, longestRun]
      split
      · exact longestRun_mono (Nat.succ_le_succ more) rest
      · omega

/-- No run of backticks is longer than the longest one. -/
theorem countWhile_le_longestRun (current : Nat) (text : List Char) :
    current + countWhile isBacktick text ≤ longestRun current text := by
  induction text generalizing current with
  | nil => exact Nat.le_refl _
  | cons c rest inductionHypothesis =>
      rw [longestRun, countWhile_cons]
      by_cases mark : c = Text.Symbol.backtick
      · have run := inductionHypothesis (current + 1)
        rw [if_pos mark, if_pos (by rw [isBacktick, mark]; exact beq_self_eq_true _)]
        omega
      · rw [if_neg mark, if_neg (by rw [isBacktick, beq_eq_false_iff_ne.mpr mark]; simp)]
        omega

private theorem longestRun_drop (count : Nat) (text : List Char) :
    longestRun 0 (text.drop count) ≤ longestRun 0 text := by
  induction text generalizing count with
  | nil => rw [List.drop_nil]
  | cons c rest inductionHypothesis =>
      cases count with
      | zero => exact Nat.le_refl _
      | succ count =>
          refine Nat.le_trans (inductionHypothesis count) ?_
          rw [longestRun]
          split
          · exact longestRun_mono (Nat.zero_le _) rest
          · omega

private theorem longestRun_newline (current : Nat) (text : List Char) :
    longestRun current (text ++ ['\n']) = longestRun current text := by
  induction text generalizing current with
  | nil =>
      rw [List.nil_append, longestRun]
      simp [longestRun, Text.Symbol.backtick]
  | cons c rest inductionHypothesis =>
      rw [List.cons_append, longestRun, longestRun, inductionHypothesis, inductionHypothesis]

/-- The chunk of a line that is taken as it stands. -/
theorem lineChunks_verbatim {cursor : Cursor} {body rest : List Char} (free : '\n' ∉ body)
    (isRest : cursor.rest = body ++ ['\n'] ++ rest) (noReturn : body.getLast? ≠ some '\r') :
    (lineChunks 0 cursor).flatMap Chunk.text = body ++ ['\n'] := by
  have isLine : lineLength cursor.rest = (body ++ ['\n']).length := by
    rw [isRest, List.append_assoc, lineLength_append_free free, List.length_append]
    rfl
  have taken : cursor.rest.take (lineLength cursor.rest) = body ++ ['\n'] := by
    rw [isLine, isRest, List.take_left]
  unfold lineChunks
  simp only [taken, if_true, List.nil_append]
  refine (congrArg _ (if_neg ?_)).trans ?_
  · rw [List.reverse_append, List.reverse_singleton, List.singleton_append]
    split
    · next last more isReverse =>
        rw [List.cons.injEq] at isReverse
        refine absurd ?_ noReturn
        rw [List.getLast?_eq_head?_reverse, isReverse.2]
        rfl
    · exact Bool.false_ne_true
  · rw [if_neg (by simp), advance_zero, isRest]
    simp only [List.flatMap_cons, List.flatMap_nil, List.append_nil, List.take_left]

private theorem countWhile_replicate (mark : Char) (count : Nat) {later : List Char}
    (stops : ∀ c ∈ later.head?, (c == mark) = false) :
    countWhile (· == mark) (List.replicate count mark ++ later) = count := by
  rw [countWhile_append_stops stops, countWhile, List.takeWhile_replicate_eq_filter]
  simp

private theorem closingFence?_backticks {width : Nat} (wide : 0 < width) {later : List Char}
    (ends : (lineEnd? later).isSome) :
    closingFence? ⟨Text.Symbol.backtick, width⟩
      (List.replicate width Text.Symbol.backtick ++ later) = some width := by
  have run := countWhile_replicate Text.Symbol.backtick width
    (lineEnd?_stops ends _ (by decide) (by decide))
  have noSpaces : countWhile (· == ' ') later = 0 :=
    @countWhile_append_stops _ [] later (lineEnd?_stops ends ' ' (by decide) (by decide))
  have some_char : (List.replicate width Text.Symbol.backtick ++ later).isEmpty = false := by
    rw [List.isEmpty_eq_false_iff]
    intro nothing
    have size := congrArg List.length nothing
    simp at size
    omega
  have behind : (List.replicate width Text.Symbol.backtick ++ later).drop width = later := by
    exact List.drop_left' List.length_replicate
  rw [closingFence?, some_char, if_neg Bool.false_ne_true]
  dsimp only
  rw [run, if_neg (Nat.lt_irrefl _), behind, noSpaces, Nat.add_zero, behind]
  obtain ⟨ending, isEnding⟩ := Option.isSome_iff_exists.mp ends
  rw [isEnding]
  rfl

/-- A line of the code does not close the fence around it. -/
theorem fence_unclosed {width : Nat} {cursor : Cursor} {text body more later : List Char}
    (isBody : text = body ++ '\n' :: more) (isRest : cursor.rest = text ++ later)
    (short : ∀ count, countWhile isBacktick (text.drop count) < width) :
    (if (Lead.space { rest := cursor.rest } 4).2 = true then none
      else closingFence? ⟨Text.Symbol.backtick, width⟩
        (Lead.space { rest := cursor.rest } 4).1.rest) = none := by
  obtain ⟨isShifted, -, lineFree⟩ := (Lead.passes_space { rest := cursor.rest } 4).rest_eq
  generalize Lead.space { rest := cursor.rest } 4 = shifted at isShifted lineFree
  split
  · rfl
  · have inBody : shifted.1.taken ≤ body.length := by
      by_contra past
      refine lineFree ?_
      rw [isRest, isBody, List.append_assoc,
        show shifted.1.taken = body.length + (shifted.1.taken - body.length - 1 + 1) by omega,
        List.take_length_add_append]
      simp
    have isRun : shifted.1.rest = text.drop shifted.1.taken ++ later := by
      rw [isShifted, isRest, List.drop_append_of_le_length]
      rw [isBody, List.length_append]
      omega
    have broken : '\n' ∈ text.drop shifted.1.taken := by
      rw [isBody, List.drop_append_of_le_length inBody]
      simp
    have run : countWhile (· == Text.Symbol.backtick) shifted.1.rest < width := by
      rw [isRun]
      exact (countWhile_append (Or.inl broken) isBacktick rfl).trans_lt (short _)
    have some_char : shifted.1.rest.isEmpty = false := by
      rw [isRun, List.isEmpty_eq_false_iff]
      intro nothing
      rw [(List.append_eq_nil_iff.mp nothing).1] at broken
      cases broken
    rw [closingFence?, some_char, if_neg Bool.false_ne_true]
    dsimp only
    rw [if_pos run]

/-- **The lines of a printed fence** are taken as they stand. -/
theorem fenceLines_verbatim {width : Nat} (wide : 0 < width) {later : List Char}
    (ends : (lineEnd? later).isSome) :
    ∀ (fuel : Nat) (text : List Char) (cursor : Cursor),
      cursor.rest = text ++ (List.replicate width Text.Symbol.backtick ++ later) →
      cursor.rest.length < fuel → Text.EndsLine text →
      (∀ count, countWhile isBacktick (text.drop count) < width) →
      ¬ "\r\n".toList <:+: text →
      ∃ chunks, fenceLines [] ⟨Text.Symbol.backtick, width⟩ 0 fuel cursor
          = (chunks, (cursor.advance (text.length + width)).offset,
              (cursor.advance (text.length + width)).skipBlankLine)
        ∧ chunks.flatMap Chunk.text = text
  | fuel + 1, text, cursor, isRest, enough, endsLine, short, noReturn => by
      have noSpace : Lead.space { rest := cursor.rest } 0 = ({ rest := cursor.rest }, true) := by
        simp [Lead.space, Lead.takeSpace, Lead.takeColumns]
      rw [fenceLines]
      simp only [Spine.continue?, Spine.continued, List.length_nil, if_true, noSpace, Nat.sub_zero]
      rcases endsLine with rfl | ⟨front, isText⟩
      · rw [List.nil_append] at isRest
        have flush : Lead.space { rest := cursor.rest } 4 = ({ rest := cursor.rest }, false) := by
          obtain ⟨more, rfl⟩ := Nat.exists_eq_succ_of_ne_zero (Nat.ne_of_gt wide)
          rw [Lead.space, takeSpace_flush rfl]
          · rfl
          · rw [isRest, List.replicate_succ]
            rintro c ⟨⟩
            decide
        rw [flush]
        dsimp only
        rw [isRest, closingFence?_backticks wide ends]
        exact ⟨[], by simp, rfl⟩
      · obtain ⟨body, more, isBody, free⟩ := List.eq_append_cons_of_mem
          (show '\n' ∈ text by rw [isText]; simp)
        have isLine : cursor.rest = body ++ ['\n']
            ++ (more ++ (List.replicate width Text.Symbol.backtick ++ later)) := by
          rw [isRest, isBody]
          simp only [List.append_assoc, List.cons_append, List.nil_append]
        have unclosed := fence_unclosed isBody isRest short
        have isNext : (cursor.advance 0).nextLine = cursor.advance (body.length + 1) := by
          rw [advance_zero, nextLine, isLine, List.append_assoc, lineLength_append_free free]
          rfl
        have nextRest : (cursor.advance (body.length + 1)).rest
            = more ++ (List.replicate width Text.Symbol.backtick ++ later) := by
          rw [advance_rest, isLine]
          exact List.drop_left' (by simp)
        have isSuffix : text.drop (body.length + 1) = more := by
          rw [isBody, ← List.singleton_append, ← List.append_assoc]
          exact List.drop_left' (by simp)
        obtain ⟨chunks, isChunks, texts⟩ := fenceLines_verbatim wide ends fuel more
          (cursor.advance (body.length + 1)) nextRest
          (by rw [nextRest]; rw [isLine] at enough; simp at enough ⊢; omega)
          (isSuffix ▸ Text.EndsLine.drop (Or.inr ⟨front, isText⟩) _)
          (by
            intro count
            rw [← isSuffix, List.drop_drop]
            exact short _)
          (fun found => noReturn (found.trans (isSuffix ▸ (List.drop_suffix _ _).isInfix)))
        have isEnd : (cursor.advance (body.length + 1)).advance (more.length + width)
            = cursor.advance (text.length + width) := by
          rw [advance_advance, isBody, List.length_append, List.length_cons]
          congr 1
          omega
        refine ⟨lineChunks 0 cursor ++ chunks, ?_, ?_⟩
        · rw [unclosed]
          dsimp only
          rw [isNext, isChunks, isEnd, advance_zero]
        · have endsReturn : body.getLast? ≠ some '\r' := by
            intro isReturn
            obtain ⟨front, isFront⟩ := List.getLast?_eq_some_iff.mp isReturn
            refine noReturn ⟨front, more, ?_⟩
            rw [isBody, isFront]
            simp
          rw [List.flatMap_append, texts, lineChunks_verbatim free isLine endsReturn, isBody,
            List.append_assoc, List.singleton_append]

def fenceWidth (code : String) : Nat :=
  max (longestRun 0 code.toList) 2 + 1

def contentLines (code : String) : List Char :=
  if code.isEmpty then [] else code.toList ++ ['\n']

def printFence (language code : String) : List Char :=
  List.replicate (fenceWidth code) Text.Symbol.backtick
    ++ (language.toList ++ '\n' ::
      (contentLines code ++ List.replicate (fenceWidth code) Text.Symbol.backtick))

theorem print_code_toList (block : CodeBlock) :
    (Node.code block).print.toList
      = (match block.settings with
          | some settings => (printDirective .block settings.encode).toList ++ ['\n']
          | none => []) ++ printFence block.language block.code := by
  have content : (if block.code.isEmpty then "" else block.code ++ "\n").toList
      = contentLines block.code := by
    unfold contentLines
    split <;> simp
  have fence : (fenceFor block.code).toList
      = List.replicate (fenceWidth block.code) Text.Symbol.backtick := by
    rw [fenceFor, Text.repeated, String.toList_ofList]
    rfl
  have newline : "\n".toList = ['\n'] := rfl
  show block.print.toList = _
  unfold CodeBlock.print printFence
  cases block.settings with
  | none =>
      simp only [String.toList_append, content, fence, newline, List.append_assoc,
        List.cons_append, List.nil_append]
      rfl
  | some settings =>
      simp only [String.toList_append, content, fence, newline, List.append_assoc,
        List.cons_append, List.nil_append]

private theorem contentLines_short (code : String) (count : Nat) :
    countWhile isBacktick ((contentLines code).drop count) < fenceWidth code := by
  have run := countWhile_le_longestRun 0 ((contentLines code).drop count)
  have part := longestRun_drop count (contentLines code)
  have whole : longestRun 0 (contentLines code) ≤ longestRun 0 code.toList := by
    unfold contentLines
    split
    · exact Nat.zero_le _
    · rw [longestRun_newline]
  unfold fenceWidth
  omega

theorem dropFinalBreak_contentLines {code : String}
    (noReturn : ¬ "\r\n".toList <:+: code.toList ++ ['\n']) :
    dropFinalBreak (contentLines code) = code.toList := by
  unfold contentLines
  split
  · next empty =>
      rw [String.isEmpty_iff.mp empty]
      rfl
  · have endsReturn : code.toList.getLast? ≠ some '\r' := by
      intro isReturn
      obtain ⟨front, isFront⟩ := List.getLast?_eq_some_iff.mp isReturn
      exact noReturn ⟨front, [], by rw [isFront]; simp⟩
    rw [dropFinalBreak, if_pos List.getLast?_concat, List.dropLast_concat, Text.dropFinalReturn,
      if_neg endsReturn]

section PrintedFence

variable {language code : String} {cursor : Cursor} {later : List Char}
  (isRest : cursor.rest = printFence language code ++ later)
include isRest

theorem fence?_printFence (noBacktick : Text.Symbol.backtick ∉ language.toList)
    (oneLine : '\n' ∉ language.toList) :
    fence? cursor.rest = some ⟨Text.Symbol.backtick, fenceWidth code⟩ := by
  have isText : cursor.rest = List.replicate (fenceWidth code) Text.Symbol.backtick
      ++ (language.toList ++ '\n' :: (contentLines code
        ++ List.replicate (fenceWidth code) Text.Symbol.backtick ++ later)) := by
    rw [isRest, printFence]
    simp only [List.append_assoc, List.cons_append]
  have stops : ∀ c ∈ (language.toList ++ '\n' :: (contentLines code
      ++ List.replicate (fenceWidth code) Text.Symbol.backtick ++ later)).head?,
      (c == Text.Symbol.backtick) = false := by
    intro c isHead
    rw [beq_eq_false_iff_ne]
    rintro rfl
    cases isLanguage : language.toList with
    | nil =>
        rw [isLanguage] at isHead
        exact absurd (Option.some.inj isHead) (by decide)
    | cons d rest =>
        rw [isLanguage] at isHead noBacktick
        exact noBacktick (by rw [← Option.some.inj isHead]; simp)
  have run := countWhile_replicate Text.Symbol.backtick (fenceWidth code) stops
  have behind : cursor.rest.drop (fenceWidth code) = language.toList ++ '\n' :: (contentLines code
      ++ List.replicate (fenceWidth code) Text.Symbol.backtick ++ later) := by
    rw [isText]
    exact List.drop_left' List.length_replicate
  have line : (cursor.rest.drop (fenceWidth code)).take
      (lineLength (cursor.rest.drop (fenceWidth code))) = language.toList ++ ['\n'] := by
    rw [behind, lineLength_append_free oneLine, List.take_length_add_append]
    simp [lineLength]
  have unmarked : (language.toList ++ ['\n']).contains Text.Symbol.backtick = false := by
    rw [Bool.eq_false_iff, ne_eq, List.contains_iff_mem]
    simpa [Text.Symbol.backtick] using noBacktick
  rw [← isText] at run
  have isHead : ∃ rest, cursor.rest = Text.Symbol.backtick :: rest := ⟨_, isText⟩
  obtain ⟨rest, isCons⟩ := isHead
  rw [isCons] at run line ⊢
  rw [fence?]
  simp only [run, line, unmarked, BEq.rfl, Bool.true_or, if_true, Bool.and_false]
  rw [if_neg (by unfold fenceWidth; omega), if_neg Bool.false_ne_true]

/-- **A printed fence** is read through its closing fence, and its content is the lines that
were printed between the fences. -/
theorem readContent_printFence (noBacktick : Text.Symbol.backtick ∉ language.toList)
    (oneLine : '\n' ∉ language.toList) (noReturn : ¬ "\r\n".toList <:+: code.toList ++ ['\n'])
    (ends : (lineEnd? later).isSome) :
    ∃ chunks, readContent startsMetadata {} 0 cursor =
        { state := {}
          cursor := (cursor.advance (printFence language code).length).skipBlankLine
          block := some (.fence (infoText ⟨Text.Symbol.backtick, fenceWidth code⟩ cursor.rest) chunks
            ⟨cursor.offset, (cursor.advance (printFence language code).length).offset⟩) }
      ∧ chunks.flatMap Chunk.text = contentLines code := by
  have opens := fence?_printFence isRest noBacktick oneLine
  have wide : 0 < fenceWidth code := Nat.succ_pos _
  have isText : cursor.rest = (List.replicate (fenceWidth code) Text.Symbol.backtick
      ++ language.toList) ++ ('\n' :: (contentLines code
        ++ (List.replicate (fenceWidth code) Text.Symbol.backtick ++ later))) := by
    rw [isRest, printFence]
    simp only [List.append_assoc, List.cons_append]
  have free : '\n' ∉ List.replicate (fenceWidth code) Text.Symbol.backtick
      ++ language.toList := by
    rw [List.mem_append, not_or, List.mem_replicate]
    exact ⟨fun feed => absurd feed.2 (by decide), oneLine⟩
  have isLine : lineLength cursor.rest = fenceWidth code + language.toList.length + 1 := by
    rw [isText, lineLength_append_free free, List.length_append, List.length_replicate]
    rfl
  have nextRest : cursor.nextLine.rest = contentLines code
      ++ (List.replicate (fenceWidth code) Text.Symbol.backtick ++ later) := by
    rw [nextLine, advance_rest, isLine, isText, ← List.drop_drop]
    rw [List.drop_left' (by rw [List.length_append, List.length_replicate])]
    rfl
  have shorter := nextLine_length_le cursor
  have endsLine : Text.EndsLine (contentLines code) := by
    unfold contentLines
    split
    · exact Or.inl rfl
    · exact Or.inr ⟨code.toList, rfl⟩
  have noReturnInside : ¬ "\r\n".toList <:+: contentLines code := by
    unfold contentLines
    split
    · decide
    · exact noReturn
  obtain ⟨chunks, isChunks, texts⟩ := fenceLines_verbatim wide ends (cursor.rest.length + 1)
    (contentLines code) cursor.nextLine nextRest (by omega) endsLine (contentLines_short code)
    noReturnInside
  have isEnd : cursor.nextLine.advance ((contentLines code).length + fenceWidth code)
      = cursor.advance (printFence language code).length := by
    rw [nextLine, advance_advance, isLine]
    congr 1
    simp only [printFence, List.length_append, List.length_cons, List.length_replicate]
    omega
  refine ⟨chunks, ?_, texts⟩
  rw [readContent_fence opens, fencedCode, isChunks, isEnd]

end PrintedFence

end Tangle.Document
