import Tangle.Proofs.Document.Blocks
import Tangle.Proofs.Document.Printed

/-!
Contract: the readings of a text in the order of the nodes that come of them.

Owns: `Stands`, the place of a node in its text; `Run`, the readings of a text grouped by
nodes; and that every text whose nodes start lines has one.

Does **not** own: what happens when the nodes are printed
(`Tangle.Proofs.Document.Reprint`).
-/

set_option autoImplicit false

namespace Tangle.Document

open Tangle.Source
open Tangle.Markdown
open Tangle.Text (byteSize EndsLine)
open Cursor

/-! ## Items -/

theorem words_visible (text : List Char) :
    ∀ word ∈ Text.words text, ∀ c ∈ word, Text.isBlank c = false := by
  have walked : ∀ (text word : List Char), (∀ c ∈ word, Text.isBlank c = false) →
      ∀ found ∈ Text.words.walk word text, ∀ c ∈ found, Text.isBlank c = false := by
    intro text
    induction text with
    | nil =>
        intro word visible found member c inside
        rw [Text.words.walk] at member
        split at member
        · cases member
        · rw [List.mem_singleton.mp member] at inside
          exact visible c (List.mem_reverse.mp inside)
    | cons d rest inductionHypothesis =>
        intro word visible found member
        rw [Text.words.walk] at member
        split at member
        · split at member
          · exact inductionHypothesis [] (by simp) found member
          · rcases List.mem_cons.mp member with rfl | later
            · intro c inside
              exact visible c (List.mem_reverse.mp inside)
            · exact inductionHypothesis [] (by simp) found later
        · next seen =>
            refine inductionHypothesis (d :: word) ?_ found member
            rintro c (_ | inside)
            · simpa using seen
            · exact visible c (by assumption)
  exact walked text [] (by simp)

private theorem languageOf_visible (info : List Char) :
    ∀ c ∈ (languageOf info).toList, Text.isBlank c = false := by
  intro c inside
  rw [languageOf, String.toList_ofList] at inside
  cases isWords : Text.words info with
  | nil =>
      rw [isWords] at inside
      cases inside
  | cons word rest =>
      rw [isWords] at inside
      exact words_visible info word (by rw [isWords]; simp) c inside

theorem ofBlock?_fence {source : String} {block : Block} {fence : FenceItem}
    (isItem : Item.ofBlock? source block = some (.fence fence)) :
    block.isFence = true ∧ fence.span = trimLineBreaks source block.span
      ∧ ∀ c ∈ fence.language.toList, Text.isBlank c = false := by
  cases block with
  | html span =>
      simp only [Item.ofBlock?, Option.map_eq_some_iff] at isItem
      obtain ⟨_, -, isFence⟩ := isItem
      cases isFence
  | fence info content span =>
      simp only [Item.ofBlock?, Option.some.injEq, Item.fence.injEq] at isItem
      subst isItem
      exact ⟨rfl, rfl, languageOf_visible info⟩

private theorem ofBlock?_directive {source : String} {block : Block} {item : DirectiveItem}
    (isItem : Item.ofBlock? source block = some (.directive item)) :
    block.isFence = false ∧ item.span = trimLineBreaks source block.span
      ∧ directive? (item.span.chars source) item.span = some item := by
  cases block with
  | html span =>
      simp only [Item.ofBlock?, Option.map_eq_some_iff] at isItem
      obtain ⟨found, isFound, same⟩ := isItem
      obtain rfl := Item.directive.inj same
      have isSpan := directive?_span isFound
      refine ⟨rfl, isSpan, ?_⟩
      rw [isSpan]
      exact isFound
  | fence info content span => cases isItem

/-! ## Spans without line breaks at their end -/

theorem rdropWhile_append_cons {drop : Char → Bool} {c : Char} (stays : drop c = false)
    (front back : List Char) :
    (front ++ c :: back).rdropWhile drop = front ++ c :: back.rdropWhile drop := by
  induction back using List.reverseRecOn with
  | nil => exact List.rdropWhile_concat_neg drop front c (by rw [stays]; simp)
  | append_singleton back d inductionHypothesis =>
      have joined : front ++ c :: (back ++ [d]) = (front ++ c :: back) ++ [d] := by simp
      rw [joined, List.rdropWhile_concat, List.rdropWhile_concat, inductionHypothesis]
      split
      · rfl
      · exact joined.symm

private theorem mem_rtakeWhile {keep : Char → Bool} {c : Char} {text : List Char}
    (member : c ∈ text.rtakeWhile keep) : keep c = true := by
  rw [List.rtakeWhile, List.mem_reverse] at member
  exact List.mem_takeWhile_imp member

/-- The break that a text ends with belongs to its last line if that line holds something
else. -/
theorem trimmed_line {lines body : List Char} {c : Char} (visible : isLineBreak c = false)
    (inside : c ∈ body) (free : '\n' ∉ body) :
    ∃ kept returns, lines ++ (body ++ ['\n']) = kept ++ (returns ++ ['\n'])
      ∧ Text.dropTailWhile isLineBreak (lines ++ (body ++ ['\n'])) = kept
      ∧ '\n' ∉ returns ∧ ∀ d ∈ returns, isLineBreak d = true := by
  obtain ⟨front, back, rfl⟩ := List.append_of_mem inside
  rw [List.mem_append, not_or, List.mem_cons, not_or] at free
  obtain ⟨-, -, backFree⟩ := free
  have isText : lines ++ (front ++ c :: back ++ ['\n'])
      = (lines ++ front) ++ c :: (back ++ ['\n']) := by simp
  have isTrimmed : Text.dropTailWhile isLineBreak (lines ++ (front ++ c :: back ++ ['\n']))
      = (lines ++ front) ++ c :: back.rdropWhile isLineBreak := by
    rw [Text.dropTailWhile_eq_rdropWhile, isText, rdropWhile_append_cons visible,
      List.rdropWhile_concat_pos _ _ _ (by decide)]
  have isBack : back = back.rdropWhile isLineBreak ++ back.rtakeWhile isLineBreak :=
    List.rdropWhile_append_rtakeWhile.symm
  refine ⟨_, back.rtakeWhile isLineBreak, ?_, isTrimmed, ?_, ?_⟩
  · have isTail : back ++ ['\n']
        = back.rdropWhile isLineBreak ++ (back.rtakeWhile isLineBreak ++ ['\n']) := by
      rw [← List.append_assoc, ← isBack]
    rw [isText, isTail, List.append_assoc (lines ++ front), List.cons_append]
  · exact fun feed => backFree ((List.rtakeWhile_suffix isLineBreak back).subset feed)
  · exact fun d member => mem_rtakeWhile member

/-- A text cut before the breaks at its end. -/
theorem dropTailWhile_split (text : List Char) :
    ∃ breaks, text = Text.dropTailWhile isLineBreak text ++ breaks
      ∧ ∀ c ∈ breaks, isLineBreak c = true := by
  refine ⟨text.rtakeWhile isLineBreak, ?_, ?_⟩
  · rw [Text.dropTailWhile_eq_rdropWhile, List.rdropWhile_append_rtakeWhile]
  · exact fun c member => mem_rtakeWhile member

/-- The span of a passage, without the breaks at its end. -/
theorem trimLineBreaks_advance {source : String} {cursor : Cursor} (placed : At source cursor)
    (count : Nat) :
    trimLineBreaks source ⟨cursor.offset, (cursor.advance count).offset⟩
      = ⟨cursor.offset, cursor.offset
          + byteSize (Text.dropTailWhile isLineBreak (cursor.rest.take count))⟩ := by
  rw [trimLineBreaks, placed.chars_advance]

/-! ## Places of nodes -/

/-- How many characters of what follows a node its reading takes with it. -/
def Node.leaves (node : Node) (rest : List Char) : Nat :=
  match node with
  | .text _ => 0
  | .config _ => lineLength rest
  | .code _ => (blankLine? rest).getD 0

/-- A node that starts at the cursor: the passage it was read from, what follows, and
where reading goes on. A node that nothing follows may leave line breaks behind. -/
structure Stands (node : Node) (cursor : Cursor) (passage rest : List Char) (after : Cursor) :
    Prop where
  isRest : cursor.rest = passage ++ rest
  isSpan : node.span = ⟨cursor.offset, cursor.offset + byteSize passage⟩
  reached : Reaches cursor after
  ends : (lineEnd? rest).isSome
  breaks : ∀ c ∈ rest.take (node.leaves rest), isLineBreak c = true
  next : after = cursor.advance (passage.length + node.leaves rest)
    ∨ (after.rest = [] ∧ ∀ c ∈ rest, isLineBreak c = true)

private theorem lineEnd?_of_breaks {text : List Char} (breaks : ∀ c ∈ text, isLineBreak c = true) :
    (lineEnd? text).isSome := by
  cases text with
  | nil => rfl
  | cons c rest =>
      rw [lineEnd?_isSome_cons]
      exact breaks c (by simp)

/-- A blank line that starts with its line end holds nothing else. -/
theorem blankLine?_breaks {text : List Char} (ends : (lineEnd? text).isSome) :
    ∀ c ∈ text.take ((blankLine? text).getD 0), isLineBreak c = true := by
  have unpadded : countWhile isPad text = 0 := by
    refine @countWhile_append_stops isPad [] text ?_
    intro c isHead
    rcases lineEnd?_head ends c isHead with rfl | rfl <;> decide
  rw [blankLine?, unpadded, List.drop_zero]
  unfold lineEnd?
  split <;> simp [isLineBreak]

/-- A comment at the left edge. -/
theorem stands_comment {source : String} {cursor : Cursor} {count : Nat} {node : Node}
    (placed : At source cursor) (within : count ≤ cursor.rest.length)
    (isConfig : ∀ rest, node.leaves rest = lineLength rest)
    (isSpan : node.span
      = trimLineBreaks source ⟨cursor.offset, (cursor.advance count).offset⟩)
    (ends : cursor.rest.drop count = []
      ∨ ∃ lines body, cursor.rest.take count = lines ++ (body ++ ['\n']) ∧ '\n' ∉ body
          ∧ (Text.findSplit? "-->".toList (body ++ ['\n'])).isSome) :
    ∃ passage rest, Stands node cursor passage rest (cursor.advance count) := by
  rw [trimLineBreaks_advance placed] at isSpan
  rcases ends with atEnd | ⟨lines, body, isLines, free, found⟩
  · obtain ⟨breaks, isText, allBreaks⟩ := dropTailWhile_split (cursor.rest.take count)
    have whole : cursor.rest = cursor.rest.take count := by
      rw [← List.take_append_drop count cursor.rest, atEnd, List.append_nil, List.take_take,
        Nat.min_self]
    exact ⟨_, breaks, whole.trans isText, isSpan, reaches_advance _ _, lineEnd?_of_breaks allBreaks,
      fun c member => allBreaks c (List.mem_of_mem_take member), Or.inr ⟨atEnd, allBreaks⟩⟩
  · have closes : '>' ∈ body := by
      rw [Text.findSplit?_isSome_iff] at found
      have inside : '>' ∈ body ++ ['\n'] := found.subset (by decide)
      simpa using inside
    obtain ⟨kept, returns, isCut, isKept, returnsFree, allBreaks⟩ :=
      @trimmed_line lines body '>' (by decide) closes free
    rw [isLines, isKept] at isSpan
    have isRest : cursor.rest = kept ++ (returns ++ ['\n'] ++ cursor.rest.drop count) := by
      rw [← List.append_assoc, ← isCut, ← isLines, List.take_append_drop]
    have line : lineLength (returns ++ ['\n'] ++ cursor.rest.drop count) = returns.length + 1 := by
      rw [List.append_assoc, lineLength_append_free returnsFree]
      rfl
    have size : kept.length + (returns.length + 1) = (cursor.rest.take count).length := by
      rw [isLines, isCut]
      simp
    refine ⟨kept, _, isRest, isSpan, reaches_advance _ _, ?_, ?_, Or.inl ?_⟩
    · cases returns with
      | nil => rfl
      | cons c returns =>
          rw [List.cons_append, List.cons_append, lineEnd?_isSome_cons]
          exact allBreaks c (by simp)
    · intro c member
      rw [isConfig, line, List.take_left' (by simp)] at member
      rcases List.mem_append.mp member with inReturns | isFeed
      · exact allBreaks c inReturns
      · rw [List.mem_singleton.mp isFeed]
        decide
    · rw [isConfig, line, size, List.length_take, Nat.min_eq_left within]

/-- A fence outside all containers. `ahead` characters of its node stand ahead of it. -/
theorem stands_fence {source : String} {cursor : Cursor} {ahead indent : Nat}
    {fence : FenceMark} {node : Node} (placed : At source cursor)
    (opens : fence? (cursor.advance ahead).rest = some fence) (shallow : indent < 4)
    (isCode : ∀ rest, node.leaves rest = (blankLine? rest).getD 0)
    (isStart : node.span.start = cursor.offset)
    (isStop : node.span.stop = (trimLineBreaks source
      (fencedCode [] fence indent (cursor.advance ahead)).1.span).stop) :
    ∃ passage rest, Stands node cursor passage rest
      (fencedCode [] fence indent (cursor.advance ahead)).2 := by
  obtain ⟨mark, -, -⟩ := fence?_opens opens
  obtain ⟨count, within, positive, isBlock, isAfter, ends⟩ := fencedCode_root opens shallow
  have reached : Reaches cursor (fencedCode [] fence indent (cursor.advance ahead)).2 :=
    ((reaches_advance _ _).trans (reaches_nextLine _)).trans (fencedCode_span _ _ _ _).2
  have some_ahead : ahead ≤ cursor.rest.length := by
    by_contra past
    rw [advance_rest, List.drop_of_length_le (by omega)] at opens
    cases opens
  rw [isBlock, trimLineBreaks_advance (placed.advance ahead)] at isStop
  have isSpan : node.span = ⟨cursor.offset, cursor.offset + byteSize (cursor.rest.take ahead
      ++ Text.dropTailWhile isLineBreak ((cursor.advance ahead).rest.take count))⟩ := by
    rw [byteSize_append, ← Nat.add_assoc, ← isStart]
    exact congrArg (Span.mk node.span.start) (isStart ▸ isStop)
  have isText : cursor.rest = cursor.rest.take ahead ++ ((cursor.advance ahead).rest.take count
      ++ (cursor.advance ahead).rest.drop count) := by
    rw [List.take_append_drop, advance_rest, List.take_append_drop]
  rcases ends with atEnd | ⟨lineEnds, last⟩
  · obtain ⟨breaks, isCut, allBreaks⟩ :=
      dropTailWhile_split ((cursor.advance ahead).rest.take count)
    have ended : (fencedCode [] fence indent (cursor.advance ahead)).2.rest = [] := by
      rw [isAfter, skipBlankLine, advance_rest, advance_rest, atEnd, List.drop_nil]
    refine ⟨_, breaks, ?_, isSpan, reached, lineEnd?_of_breaks allBreaks,
      fun c member => allBreaks c (List.mem_of_mem_take member), Or.inr ⟨ended, allBreaks⟩⟩
    rw [List.append_assoc, ← isCut]
    rw [atEnd, List.append_nil] at isText
    exact isText
  · have untrimmed : Text.dropTailWhile isLineBreak ((cursor.advance ahead).rest.take count)
        = (cursor.advance ahead).rest.take count := by
      have visible : ∀ c, ((cursor.advance ahead).rest.take count).getLast? = some c →
          isLineBreak c = false := by
        intro c isLast
        rcases last with isMark | isSpace
        · rw [isMark] at isLast
          rw [← Option.some.inj isLast]
          rcases mark with isBacktick | isTilde
          · rw [isBacktick]; decide
          · rw [isTilde]; decide
        · rw [isSpace] at isLast
          rw [← Option.some.inj isLast]
          decide
      rw [Text.dropTailWhile_eq_rdropWhile, List.rdropWhile_eq_self_iff]
      intro some_char
      rw [visible _ (List.getLast?_eq_some_getLast some_char)]
      exact Bool.false_ne_true
    rw [untrimmed] at isSpan
    refine ⟨_, (cursor.advance ahead).rest.drop count, ?_, isSpan, reached, lineEnds, ?_, Or.inl ?_⟩
    · rw [List.append_assoc]
      exact isText
    · rw [isCode]
      exact blankLine?_breaks lineEnds
    · rw [isAfter, isCode, skipBlankLine, advance_advance, advance_advance, List.length_append,
        List.length_take, List.length_take, Nat.min_eq_left some_ahead, Nat.min_eq_left within,
        ← Nat.add_assoc]
      rfl

/-! ## Nodes that start lines -/

section Flush

variable {source : String} {state : State} {cursor : Cursor} {block : Block}
  (placed : At source cursor) (kept : (readBlock state cursor).block = some block)
  (first : (positionAt source block.span.start).column = 1)
include placed kept first

/-- A kept block in the first column starts where its reading does. -/
theorem keptAt_flush : KeptAt cursor block := by
  obtain ⟨ahead, -, free, keptAt⟩ := readBlock_kept kept
  have isStart := keptAt.start
  obtain ⟨before, isSource, isOffset⟩ := placed
  have ends : EndsLine (before ++ cursor.rest.take ahead) := by
    refine @At.endsLine source (cursor.advance ahead) _ ?_ ?_ (isStart ▸ first)
    · rw [isSource, List.append_assoc, advance_rest, List.take_append_drop]
    · rw [byteSize_append, ← isOffset]
      rfl
  have still : cursor.rest.take ahead = [] := by
    rcases List.eq_nil_or_concat (cursor.rest.take ahead) with nothing | ⟨front, last, isTake⟩
    · exact nothing
    · rw [List.concat_eq_append] at isTake
      rw [isTake, ← List.append_assoc] at ends
      rcases ends with nothing | ⟨lines, isLines⟩
      · simp at nothing
      · have feed := (List.append_inj' isLines rfl).2
        rw [List.singleton_inj] at feed
        exact absurd (by rw [isTake, feed]; simp) free
  have same : cursor.advance ahead = cursor := by
    have isDrop : cursor.rest.drop ahead = cursor.rest := by
      have whole := List.take_append_drop ahead cursor.rest
      rwa [still, List.nil_append] at whole
    rw [advance, still, isDrop]
    rfl
  rwa [same] at keptAt

/-- A fence in the first column, with its reading. -/
theorem fence_flush (sound : state.Sound) (isFence : block.isFence = true) :
    ∃ fence, fence? cursor.rest = some fence ∧ block = (fencedCode [] fence 0 cursor).1
      ∧ readBlock state cursor =
          { state := {}
            cursor := (fencedCode [] fence 0 cursor).2
            block := some (fencedCode [] fence 0 cursor).1 } := by
  rcases keptAt_flush placed kept first with ⟨spine, after, read⟩ | ⟨spine, fence, indent, opens, -⟩
  · rw [htmlBlock?_isFence read] at isFence
    cases isFence
  · have isReading := readBlock_edge sound (Or.inr (by rw [opens]; rfl))
    rw [readContent_fence opens] at isReading
    refine ⟨fence, opens, ?_, isReading⟩
    rw [isReading] at kept
    exact (Option.some.inj kept).symm

/-- A directive in the first column starts a comment there. -/
theorem directive_opens {item : DirectiveItem}
    (isItem : Item.ofBlock? source block = some (.directive item)) :
    "<!--".toList <+: cursor.rest := by
  obtain ⟨-, isSpan, isDirective⟩ := ofBlock?_directive isItem
  have keptAt := keptAt_flush placed kept first
  obtain ⟨c, rest, isRest, opens⟩ := keptAt.head
  have isStart : item.span.start = cursor.offset := by
    rw [isSpan, ← keptAt.start]
    rfl
  have inside := placed.chars_prefix isStart
  rw [directive?_eq, Option.bind_eq_some_iff] at isDirective
  obtain ⟨inner, isLead, -⟩ := isDirective
  have isTrimmed : (Text.trim (String.ofList (item.span.chars source))).toList
      = ((item.span.chars source).dropWhile Text.isBlank).rdropWhile Text.isBlank := by
    rw [Text.trim_toList, String.toList_ofList]
  have leadInside : "<!--".toList <+: (item.span.chars source).dropWhile Text.isBlank := by
    refine List.IsPrefix.trans ?_ (List.rdropWhile_prefix Text.isBlank _)
    rw [← isTrimmed, ← Text.stripLead?_isSome_iff, isLead]
    rfl
  cases isChars : item.span.chars source with
  | nil =>
      rw [isChars] at leadInside
      exact absurd leadInside (by decide)
  | cons d more =>
      rw [isChars] at leadInside inside
      rw [isRest, List.cons_prefix_cons] at inside
      have visible : Text.isBlank d = false := by
        rw [inside.1]
        rcases opens with rfl | rfl | rfl <;> decide
      rw [List.dropWhile_cons_of_neg (by rw [visible]; exact Bool.false_ne_true)] at leadInside
      refine leadInside.trans ?_
      rw [isRest, List.cons_prefix_cons]
      exact inside

/-- A directive in the first column, with its reading. -/
theorem directive_flush (sound : state.Sound) {item : DirectiveItem}
    (isItem : Item.ofBlock? source block = some (.directive item)) :
    ∃ count, OpensBlock cursor.rest ∧ count ≤ cursor.rest.length
      ∧ block = .html ⟨cursor.offset, (cursor.advance count).offset⟩
      ∧ readBlock state cursor =
          { state := {}
            cursor := cursor.advance count
            block := some (.html ⟨cursor.offset, (cursor.advance count).offset⟩) }
      ∧ (cursor.rest.drop count = []
        ∨ ∃ lines body, cursor.rest.take count = lines ++ (body ++ ['\n']) ∧ '\n' ∉ body
            ∧ (Text.findSplit? "-->".toList (body ++ ['\n'])).isSome) := by
  have opens := directive_opens placed kept first isItem
  have ⟨rest, isRest⟩ := opens
  obtain ⟨count, within, isOutcome, ends⟩ :=
    htmlUntil_root "-->".toList (cursor.rest.length + 1) cursor (Nat.lt_succ_self _)
  have isReading := readBlock_edge sound (Or.inl opens)
  rw [readContent_comment isRest.symm, isOutcome] at isReading
  refine ⟨count, Or.inl opens, within, ?_, isReading, ends⟩
  rw [isReading] at kept
  exact (Option.some.inj kept).symm

end Flush

/-! ## Runs -/

/-- The items from a place of the source on. -/
def itemsFrom (source : String) (fuel : Nat) (state : State) (cursor : Cursor) : List Item :=
  (readBlocks fuel state cursor).filterMap (Item.ofBlock? source)

def itemAt (source : String) (state : State) (cursor : Cursor) : Option Item :=
  (readBlock state cursor).block.bind (Item.ofBlock? source)

theorem itemsFrom_step {source : String} {fuel : Nat} {state : State} {cursor : Cursor}
    (some_char : cursor.rest ≠ []) :
    itemsFrom source (fuel + 1) state cursor
      = (itemAt source state cursor).toList
          ++ itemsFrom source fuel (readBlock state cursor).state (readBlock state cursor).cursor := by
  have goesOn : cursor.isEnd = false := by
    rw [isEnd]
    simpa using some_char
  rw [itemsFrom, readBlocks, goesOn, if_neg Bool.false_ne_true, List.filterMap_append]
  unfold itemAt itemsFrom
  cases (readBlock state cursor).block with
  | none => rfl
  | some block => cases isItem : Item.ofBlock? source block <;> simp [isItem]

theorem itemsFrom_end {source : String} {fuel : Nat} {state : State} {cursor : Cursor}
    (nothing : cursor.rest = []) : itemsFrom source fuel state cursor = [] := by
  cases fuel with
  | zero => rfl
  | succ fuel =>
      rw [itemsFrom, readBlocks, isEnd, nothing]
      rfl

def Node.isBare : Node → Bool
  | .code block => block.settings.isNone
  | _ => false

/-- The readings of a text from one place on, by the items they give. Where items form a
node, the node starts at that place, and its readings are taken together. -/
inductive Run (source : String) : State → Cursor → List Item → Prop
  | done {state : State} {cursor : Cursor} (nothing : cursor.rest = []) : Run source state cursor []
  | plain {state : State} {cursor : Cursor} {items : List Item} (some_char : cursor.rest ≠ [])
      (noItem : itemAt source state cursor = none)
      (rest : Run source (readBlock state cursor).state (readBlock state cursor).cursor items) :
      Run source state cursor items
  | dangling {state : State} {cursor : Cursor} {items : List Item} {item : DirectiveItem}
      (some_char : cursor.rest ≠ [])
      (isItem : itemAt source state cursor = some (.directive item))
      (noNode : aloneNode? source item = none)
      (unpaired : ∀ fence more, items = .fence fence :: more →
        settingsFor? source item fence = none)
      (rest : Run source (readBlock state cursor).state (readBlock state cursor).cursor items) :
      Run source state cursor (.directive item :: items)
  | kept {state : State} {cursor after : Cursor} {all items : List Item} {node : Node}
      {passage behind : List Char} (opens : OpensBlock cursor.rest)
      (stands : Stands node cursor passage behind after) (noText : node.isText = false)
      (isNodes : nodesOf source all = node :: nodesOf source items)
      (bare : node.isBare = true →
        ∃ fence more, all = .fence fence :: more ∧ fence.span.start = cursor.offset)
      (language : ∀ block, node = .code block →
        ∀ c ∈ block.language.toList, Text.isBlank c = false)
      (rest : Run source {} after items) : Run source state cursor all

/-- A directive that makes no node leaves the nodes behind it alone. -/
theorem nodesOf_dangling {source : String} {item : DirectiveItem} {items : List Item}
    (noNode : aloneNode? source item = none)
    (unpaired : ∀ fence more, items = .fence fence :: more →
      settingsFor? source item fence = none) :
    nodesOf source (.directive item :: items) = nodesOf source items := by
  cases items with
  | nil => simp [nodesOf, noNode]
  | cons next more =>
      cases next with
      | directive other => simp [nodesOf, noNode]
      | fence fence =>
          have missing := unpaired fence more rfl
          simp only [nodesOf, missing, noNode, Option.toList_none, List.nil_append]

/-- A configuration makes a node whatever follows it. -/
theorem nodesOf_alone {source : String} {item : DirectiveItem} {items : List Item} {node : Node}
    (isNode : aloneNode? source item = some node) :
    nodesOf source (.directive item :: items) = node :: nodesOf source items := by
  have isConfig : item.kind = .config := by
    unfold aloneNode? at isNode
    cases isKind : item.kind with
    | config => rfl
    | block =>
        rw [isKind] at isNode
        cases isNode
  cases items with
  | nil => simp [nodesOf, isNode]
  | cons next more =>
      cases next with
      | directive other => simp [nodesOf, isNode]
      | fence fence =>
          have missing : settingsFor? source item fence = none := by
            rw [settingsFor?, isConfig]
            rfl
          simp only [nodesOf, missing, isNode, Option.toList_some, List.singleton_append]

theorem readBlocks_places {block : Block} :
    ∀ (fuel : Nat) {state : State} {cursor : Cursor}, block ∈ readBlocks fuel state cursor →
      ∃ count, count ≤ cursor.rest.length ∧ KeptAt (cursor.advance count) block
  | fuel + 1, state, cursor, member => by
      rw [readBlocks] at member
      split at member
      · cases member
      · rcases List.mem_append.mp member with here | later
        · obtain ⟨ahead, within, -, keptAt⟩ := readBlock_kept (Option.mem_toList.mp here)
          exact ⟨ahead, within, keptAt⟩
        · obtain ⟨count, within, keptAt⟩ := readBlocks_places fuel later
          obtain ⟨taken, takenWithin, isAfter⟩ :=
            Reaches.exists_le (readBlock_moves state cursor).1
          rw [isAfter, advance_rest, List.length_drop] at within
          rw [isAfter, advance_advance] at keptAt
          exact ⟨taken + count, by omega, keptAt⟩

/-- Nothing is kept in a blank gap ahead of a fence, so the fence is the first block. -/
theorem readBlocks_head {source : String} {fuel : Nat} {state : State} {cursor : Cursor}
    {fence : FenceItem} {more : List Item}
    (isItems : itemsFrom source fuel state cursor = .fence fence :: more)
    (blank : ∀ count, (cursor.advance count).offset ≤ fence.span.start →
      ∀ c ∈ cursor.rest.take count, Text.isBlank c = true) :
    ∃ block rest, readBlocks fuel state cursor = block :: rest
      ∧ Item.ofBlock? source block = some (.fence fence)
      ∧ more = rest.filterMap (Item.ofBlock? source) := by
  rw [itemsFrom, List.filterMap_eq_cons_iff] at isItems
  obtain ⟨front, block, rest, isBlocks, -, isItem, isRest⟩ := isItems
  cases front with
  | nil => exact ⟨block, rest, isBlocks, isItem, isRest.symm⟩
  | cons first front =>
      exfalso
      obtain ⟨count, within, keptAt⟩ :=
        readBlocks_places fuel (show first ∈ readBlocks fuel state cursor by rw [isBlocks]; simp)
      have order := (readBlocks_starts fuel state cursor).2
      rw [isBlocks, List.cons_append, List.pairwise_cons] at order
      have before := order.1 block (by simp)
      have isStart := Item.ofBlock?_start isItem
      obtain ⟨c, behind, isBehind, opens⟩ := keptAt.head
      rw [keptAt.start] at before
      have isTake : cursor.rest.take (count + 1) = cursor.rest.take count ++ [c] := by
        rw [advance_rest] at isBehind
        rw [List.take_add, isBehind]
        rfl
      -- The block's own first character lies ahead of the fence.
      obtain ⟨further, furtherWithin, furtherKept⟩ :=
        readBlocks_places fuel (show block ∈ readBlocks fuel state cursor by rw [isBlocks]; simp)
      rw [furtherKept.start] at before isStart
      have fewer : count < further := by
        by_contra past
        have reached : Reaches (cursor.advance further) (cursor.advance count) :=
          ⟨count - further, by rw [advance_advance]; congr 1; omega⟩
        have := reached.offset_le
        omega
      have reached : Reaches (cursor.advance (count + 1)) (cursor.advance further) :=
        ⟨further - (count + 1), by rw [advance_advance]; congr 1; omega⟩
      have seen := blank (count + 1) (isStart ▸ reached.offset_le) c (by rw [isTake]; simp)
      rcases opens with rfl | rfl | rfl <;> exact absurd seen (by decide)

/-- What lies between a directive and a fence that it belongs to is blank. -/
theorem adjoins_blank {source : String} {cursor : Cursor} {count : Nat} {item : DirectiveItem}
    {fence : FenceItem} (placed : At source cursor)
    (isSpan : item.span = trimLineBreaks source ⟨cursor.offset, (cursor.advance count).offset⟩)
    (adjoined : adjoins source item.span fence.span = true) (further : Nat)
    (before : ((cursor.advance count).advance further).offset ≤ fence.span.start) :
    ∀ c ∈ (cursor.advance count).rest.take further, Text.isBlank c = true := by
  rw [trimLineBreaks_advance placed] at isSpan
  obtain ⟨breaks, isCut, -⟩ := dropTailWhile_split (cursor.rest.take count)
  generalize Text.dropTailWhile isLineBreak (cursor.rest.take count) = kept at isSpan isCut
  have isRest : cursor.rest = kept ++ (breaks ++ (cursor.advance count).rest) := by
    rw [← List.append_assoc, ← isCut, advance_rest, List.take_append_drop]
  have isStop : (cursor.advance kept.length).offset = item.span.stop := by
    rw [isSpan]
    show cursor.offset + byteSize (cursor.rest.take kept.length) = _
    rw [isRest, List.take_left]
  have behind : (cursor.advance kept.length).rest = breaks ++ (cursor.advance count).rest := by
    rw [advance_rest, isRest, List.drop_left]
  have isOffset : ((cursor.advance count).advance further).offset
      = item.span.stop + byteSize (breaks ++ (cursor.advance count).rest.take further) := by
    show cursor.offset + byteSize (cursor.rest.take count) + byteSize _ = _
    rw [isCut, isSpan, byteSize_append, byteSize_append]
    dsimp only
    omega
  have inside : breaks ++ (cursor.advance count).rest.take further
      <+: (⟨item.span.stop, fence.span.start⟩ : Span).chars source := by
    have longer : byteSize (breaks ++ (cursor.advance count).rest.take further)
        ≤ fence.span.start - item.span.stop := by omega
    have isBehind : (cursor.advance kept.length).rest
        = (breaks ++ (cursor.advance count).rest.take further)
          ++ (cursor.advance count).rest.drop further := by
      rw [behind, List.append_assoc, List.take_append_drop]
    rw [Span.chars, ← isStop, (placed.advance kept.length).dropBytes, isStop, isBehind]
    exact Text.prefix_takeBytes longer _
  rw [adjoins, Text.allBlank, Span.slice, String.toList_ofList, List.all_eq_true] at adjoined
  exact fun c member => adjoined c (inside.subset (List.mem_append_right _ member))

/-- **A directive with its fence.** Where the directive is at the left edge, the two are
read as one passage. -/
theorem stands_pair {source : String} {cursor : Cursor} {count fuel : Nat}
    {item : DirectiveItem} {fence : FenceItem} {settings : Directive.Settings} {more : List Item}
    (placed : At source cursor)
    (enough : (cursor.advance count).rest.length < fuel)
    (isSpan : item.span = trimLineBreaks source ⟨cursor.offset, (cursor.advance count).offset⟩)
    (isItems : itemsFrom source fuel {} (cursor.advance count) = .fence fence :: more)
    (isSettings : settingsFor? source item fence = some settings) :
    ∃ passage behind after left,
      Stands (.code (codeBlock source fence (some (item.span, settings)))) cursor passage behind after
        ∧ after.rest.length < cursor.rest.length ∧ after.rest.length < left
        ∧ (∀ c ∈ fence.language.toList, Text.isBlank c = false)
        ∧ more = itemsFrom source left {} after := by
  have adjoined : adjoins source item.span fence.span = true := by
    unfold settingsFor? at isSettings
    split at isSettings
    · next both => exact (Bool.and_eq_true_iff.mp both).2
    · cases isSettings
  have blank := adjoins_blank placed isSpan adjoined
  obtain ⟨block, rest, isBlocks, isItem, isMore⟩ := readBlocks_head isItems blank
  obtain ⟨isFence, isFenceSpan, visible⟩ := ofBlock?_fence isItem
  obtain ⟨further, within, keptAt⟩ :=
    readBlocks_places fuel (show block ∈ readBlocks fuel {} (cursor.advance count) by
      rw [isBlocks]; simp)
  have isStart := Item.ofBlock?_start isItem
  rw [keptAt.start] at isStart
  obtain ⟨mark, indent, left, shallow, opens, isBlock, enoughLeft, isReadings⟩ :=
    readBlocks_gap isFence fuel rfl enough within (blank further (Nat.le_of_eq isStart.symm))
      (by rw [isBlocks]; rfl) keptAt.start
  rw [advance_advance] at opens isBlock enoughLeft isReadings
  have isRest : rest = readBlocks left {} (fencedCode [] mark indent
      (cursor.advance (count + further))).2 := by
    rw [isBlocks] at isReadings
    exact (List.cons.inj isReadings).2
  have shorter : (fencedCode [] mark indent (cursor.advance (count + further))).2.rest.length
      < cursor.rest.length := by
    obtain ⟨-, -, chars, isOpening⟩ := fence?_opens opens
    have some_char : (cursor.advance (count + further)).rest ≠ [] := by
      rw [isOpening]
      exact List.cons_ne_nil _ _
    have next := nextLine_length_lt some_char
    have ahead := length_le_of_reaches (reaches_advance cursor (count + further))
    have later := length_le_of_reaches
      (fencedCode_span [] mark indent (cursor.advance (count + further))).2
    omega
  obtain ⟨passage, behind, stands⟩ := @stands_fence source cursor (count + further) indent mark
    (.code (codeBlock source fence (some (item.span, settings)))) placed opens shallow
    (fun _ => rfl) (by rw [isSpan]; rfl) (by rw [← isBlock, ← isFenceSpan]; rfl)
  refine ⟨passage, behind, _, left, stands, shorter, enoughLeft, visible, ?_⟩
  rw [isMore, isRest]
  rfl

def Flush (source : String) (nodes : List Node) : Prop :=
  ∀ node ∈ nodes, (positionAt source node.span.start).column = 1

section Steps

variable {source : String} {fuel : Nat} {state : State} {cursor : Cursor}
  (enough : cursor.rest.length < fuel + 1) (some_char : cursor.rest ≠ []) (sound : state.Sound)
  (placed : At source cursor)
  (onward : ∀ {fuel : Nat} {state : State} {after : Cursor},
    after.rest.length < cursor.rest.length → after.rest.length < fuel → state.Sound →
    At source after → Flush source (nodesOf source (itemsFrom source fuel state after)) →
    Run source state after (itemsFrom source fuel state after))
include enough some_char sound placed onward

private theorem run_fence {fence : FenceItem}
    (isItem : itemAt source state cursor = some (.fence fence))
    (flush : Flush source (nodesOf source (itemsFrom source (fuel + 1) state cursor))) :
    Run source state cursor (itemsFrom source (fuel + 1) state cursor) := by
  obtain ⟨block, kept, ofBlock⟩ := Option.bind_eq_some_iff.mp isItem
  have isStart := Item.ofBlock?_start ofBlock
  have shorter := readBlock_shorter state some_char
  have placedAfter := placed.reached (readBlock_moves state cursor).1
  have isNodes : ∀ items, nodesOf source (.fence fence :: items)
      = .code (codeBlock source fence none) :: nodesOf source items := fun _ => rfl
  rw [itemsFrom_step some_char, isItem, Option.toList_some, List.singleton_append] at flush ⊢
  rw [Flush, isNodes, List.forall_mem_cons] at flush
  obtain ⟨isFence, isSpan, visible⟩ := ofBlock?_fence ofBlock
  obtain ⟨mark, opens, isBlock, isReading⟩ :=
    fence_flush placed kept (isStart ▸ flush.1) sound isFence
  have isOffset : fence.span.start = cursor.offset := by
    refine isStart.trans ?_
    rw [isBlock]
    rfl
  obtain ⟨passage, behind, stands⟩ := @stands_fence source cursor 0 0 mark
    (.code (codeBlock source fence none)) placed opens (by decide) (fun _ => rfl) isOffset
    (by rw [advance_zero, ← isBlock, ← isSpan]; rfl)
  rw [advance_zero] at stands
  rw [isReading] at flush shorter placedAfter ⊢
  have later :=
    onward shorter (by dsimp only at shorter ⊢; omega) State.sound_start placedAfter flush.2
  refine Run.kept (Or.inr ?_) stands rfl (isNodes _) (fun _ => ⟨fence, _, rfl, isOffset⟩) ?_ later
  · rw [opens]
    rfl
  · rintro block ⟨⟩
    exact visible

private theorem run_directive {item : DirectiveItem}
    (isItem : itemAt source state cursor = some (.directive item))
    (flush : Flush source (nodesOf source (itemsFrom source (fuel + 1) state cursor))) :
    Run source state cursor (itemsFrom source (fuel + 1) state cursor) := by
  obtain ⟨block, kept, ofBlock⟩ := Option.bind_eq_some_iff.mp isItem
  have isStart := Item.ofBlock?_start ofBlock
  have shorter := readBlock_shorter state some_char
  have placedAfter := placed.reached (readBlock_moves state cursor).1
  obtain ⟨-, isSpan, -⟩ := ofBlock?_directive ofBlock
  rw [itemsFrom_step some_char, isItem, Option.toList_some, List.singleton_append] at flush ⊢
  by_cases paired : ∃ fence more settings,
      itemsFrom source fuel (readBlock state cursor).state (readBlock state cursor).cursor
        = .fence fence :: more ∧ settingsFor? source item fence = some settings
  · obtain ⟨fence, more, settings, isItems, isSettings⟩ := paired
    have isNodes : nodesOf source (.directive item :: .fence fence :: more)
        = .code (codeBlock source fence (some (item.span, settings))) :: nodesOf source more := by
      simp only [nodesOf, isSettings]
    rw [isItems] at flush ⊢
    rw [Flush, isNodes, List.forall_mem_cons] at flush
    obtain ⟨count, opens, -, isBlock, isReading, -⟩ :=
      directive_flush placed kept (isStart ▸ flush.1) sound ofBlock
    rw [isReading] at shorter isItems
    rw [isBlock] at isSpan
    obtain ⟨passage, behind, after, left, stands, shorterAfter, enoughLeft, visible, rfl⟩ :=
      stands_pair placed (by dsimp only at shorter; omega) isSpan isItems isSettings
    refine Run.kept opens stands rfl isNodes (fun bare => by cases bare) ?_
      (onward shorterAfter enoughLeft State.sound_start (placed.reached stands.reached) flush.2)
    rintro block ⟨⟩
    exact visible
  · have unpaired : ∀ fence more,
        itemsFrom source fuel (readBlock state cursor).state (readBlock state cursor).cursor
          = .fence fence :: more → settingsFor? source item fence = none := by
      intro fence more isItems
      rw [Option.eq_none_iff_forall_ne_some]
      exact fun settings isSettings => paired ⟨fence, more, settings, isItems, isSettings⟩
    cases isNode : aloneNode? source item with
    | none =>
        rw [nodesOf_dangling isNode unpaired] at flush
        exact Run.dangling some_char isItem isNode unpaired
          (onward shorter (by omega) (readBlock_sound sound cursor) placedAfter flush)
    | some node =>
        obtain ⟨config, rfl⟩ : ∃ config, node = .config ⟨config, item.span, rangeOf source item.span⟩ := by
          unfold aloneNode? at isNode
          split at isNode
          · cases isNode
          · split at isNode
            · cases isNode
            · exact ⟨_, (Option.some.inj isNode).symm⟩
        rw [Flush, nodesOf_alone isNode, List.forall_mem_cons] at flush
        obtain ⟨count, opens, within, isBlock, isReading, ends⟩ :=
          directive_flush placed kept (isStart ▸ flush.1) sound ofBlock
        rw [isBlock] at isSpan
        obtain ⟨passage, behind, stands⟩ := @stands_comment source cursor count
          (.config ⟨config, item.span, rangeOf source item.span⟩) placed within (fun _ => rfl) isSpan
          ends
        have isNodes := fun items => @nodesOf_alone source item items _ isNode
        rw [isReading] at flush shorter placedAfter ⊢
        refine Run.kept opens stands rfl (isNodes _) (fun bare => by cases bare) ?_
          (onward shorter (by dsimp only at shorter ⊢; omega) State.sound_start placedAfter flush.2)
        rintro block ⟨⟩

end Steps

/-- **Every text whose nodes start lines has a run.** -/
theorem exists_run {source : String} :
    ∀ (size fuel : Nat) {state : State} {cursor : Cursor}, cursor.rest.length < size →
      cursor.rest.length < fuel → state.Sound → At source cursor →
      Flush source (nodesOf source (itemsFrom source fuel state cursor)) →
      Run source state cursor (itemsFrom source fuel state cursor)
  | size + 1, fuel + 1, state, cursor, fitting, enough, sound, placed, flush => by
      by_cases nothing : cursor.rest = []
      · rw [itemsFrom_end nothing]
        exact Run.done nothing
      have onward : ∀ {fuel : Nat} {state : State} {after : Cursor},
          after.rest.length < cursor.rest.length → after.rest.length < fuel → state.Sound →
          At source after → Flush source (nodesOf source (itemsFrom source fuel state after)) →
          Run source state after (itemsFrom source fuel state after) :=
        fun shorter => exists_run size _ (by omega)
      cases isItem : itemAt source state cursor with
      | none =>
          have shorter := readBlock_shorter state nothing
          rw [itemsFrom_step nothing, isItem, Option.toList_none, List.nil_append] at flush ⊢
          exact Run.plain nothing isItem (onward shorter (by omega) (readBlock_sound sound cursor)
            (placed.reached (readBlock_moves state cursor).1) flush)
      | some item =>
          cases item with
          | fence fence => exact run_fence enough nothing sound placed onward isItem flush
          | directive item => exact run_directive enough nothing sound placed onward isItem flush

end Tangle.Document
