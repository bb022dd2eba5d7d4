import Tangle.Proofs.Directive.Bodies
import Tangle.Proofs.Document.Ahead

/-!
Contract: a node that is printed at the left edge is read as a node of the same effect.

Owns: the bodies of printed directives, the items of printed nodes, and where reading goes
on behind them.

Does **not** own: the readings between nodes (`Tangle.Proofs.Document.Lockstep`).
-/

set_option autoImplicit false

namespace Tangle.Document

open Tangle.Source
open Tangle.Markdown
open Tangle.Directive
open Tangle.Text (byteSize)
open Cursor

/-! ## Bodies -/

/-- A space behind a body is trimmed. -/
theorem trim_space (body : String) :
    Text.trim (String.ofList (body.toList ++ [' '])) = Text.trim body := by
  refine String.toList_injective ?_
  rw [Text.trim_toList, Text.trim_toList, String.toList_ofList, List.dropWhile_append]
  split
  · next blank =>
      rw [List.isEmpty_iff.mp blank]
      rfl
  · exact List.rdropWhile_concat_pos _ _ _ (by decide)

def rereadBody (body : String) : String :=
  String.ofList (body.toList ++ closingSpace body)

private theorem rereadBody_lines {body : String} (broken : '\n' ∈ body.toList) : rereadBody body = body := by
  rw [rereadBody, closingSpace, if_pos (List.contains_iff_mem.mpr broken), List.append_nil,
    String.ofList_toList]

private theorem rereadBody_line {body : String} (unbroken : '\n' ∉ body.toList) :
    rereadBody body = String.ofList (body.toList ++ [' ']) := by
  rw [rereadBody, closingSpace, if_neg (mt List.contains_iff_mem.mp unbroken)]

private theorem decodeSettings_reread {settings : Settings}
    (decodes : decodeSettings settings.encode = .ok settings) :
    decodeSettings (rereadBody settings.encode) = .ok settings := by
  by_cases broken : '\n' ∈ settings.encode.toList
  · rw [rereadBody_lines broken, decodes]
  · have plain := (Settings.encode_line settings).resolve_left broken
    rw [decodeSettings_line plain] at decodes
    rw [rereadBody_line broken, decodeSettings_line (by rw [trim_space]; exact plain), trim_space,
      decodes]

private theorem decodeConfig_reread {config : Config} (decodes : decodeConfig config.encode = .ok config) :
    decodeConfig (rereadBody config.encode) = .ok config := by
  by_cases broken : '\n' ∈ config.encode.toList
  · rw [rereadBody_lines broken, decodes]
  · have isDefault : config.encode = "" := by
      unfold Config.encode at broken ⊢
      split
      · rfl
      · next other =>
          rw [if_neg other] at broken
          exact absurd (by simp [yamlBody]) broken
    rw [isDefault] at decodes ⊢
    rw [rereadBody_line (by decide), ← decodes]
    decide +kernel

/-- A body is empty or starts with a blank character. -/
theorem Settings.encode_head (settings : Settings) :
    ∀ c ∈ settings.encode.toList.head?, Text.isBlank c = true := by
  unfold Settings.encode
  split
  · simp
  · split
    · split
      · rw [String.toList_append]
        rintro c ⟨⟩
        decide
      · rw [yamlBody, String.toList_ofList]
        rintro c ⟨⟩
        decide
    · rw [yamlBody, String.toList_ofList]
      rintro c ⟨⟩
      decide

private theorem Config.encode_head (config : Config) :
    ∀ c ∈ config.encode.toList.head?, Text.isBlank c = true := by
  unfold Config.encode
  split
  · simp
  · rw [yamlBody, String.toList_ofList]
    rintro c ⟨⟩
    decide

/-! ## Items -/

theorem dropTailWhile_breaks {text breaks : List Char} {c : Char} (isLast : text.getLast? = some c)
    (visible : isLineBreak c = false) (allBreaks : ∀ d ∈ breaks, isLineBreak d = true) :
    Text.dropTailWhile isLineBreak (text ++ breaks) = text := by
  obtain ⟨front, rfl⟩ := List.getLast?_eq_some_iff.mp isLast
  have isText : front ++ [c] ++ breaks = front ++ c :: breaks := by simp
  rw [Text.dropTailWhile_eq_rdropWhile, isText, rdropWhile_append_cons visible,
    List.rdropWhile_eq_nil_iff.mpr allBreaks]

/-- The item of a printed directive, with line breaks behind it. -/
theorem ofBlock?_printDirective {source : String} {cursor : Cursor} {kind : Kind} {body : String}
    {later : List Char} {count : Nat} (placed : At source cursor)
    (isRest : cursor.rest = (printDirective kind body).toList ++ later)
    (headed : ∀ c ∈ body.toList.head?, Text.isBlank c = true)
    (breaks : ∀ c ∈ later.take count, isLineBreak c = true) :
    Item.ofBlock? source (.html ⟨cursor.offset,
        (cursor.advance ((printDirective kind body).toList.length + count)).offset⟩)
      = some (.directive ⟨kind, some (rereadBody body), ⟨cursor.offset,
          cursor.offset + byteSize (printDirective kind body).toList⟩⟩) := by
  have isLast : (printDirective kind body).toList.getLast? = some '>' := by
    rw [printDirective_toList, List.getLast?_append]
    rfl
  have trimmed := trimLineBreaks_advance placed ((printDirective kind body).toList.length + count)
  rw [isRest, List.take_length_add_append, dropTailWhile_breaks isLast (by decide) breaks] at trimmed
  simp only [Item.ofBlock?]
  rw [trimmed, placed.chars _ later isRest, directive?_printDirective kind body _ headed]
  rfl

/-- Items from a reading on. -/
theorem itemsFrom_reading {source : String} {fuel : Nat} {state : State} {cursor after : Cursor}
    {block : Block} {item : Item} (some_char : cursor.rest ≠ [])
    (isReading : readBlock state cursor = { state := {}, cursor := after, block := some block })
    (isItem : Item.ofBlock? source block = some item) :
    itemsFrom source (fuel + 1) state cursor = item :: itemsFrom source fuel {} after := by
  rw [itemsFrom_step some_char, itemAt, isReading]
  dsimp only
  rw [Option.bind_some, isItem]
  rfl

private theorem decodeBody_ok {α : Type} {decode : String → Except DecodeError α} {body : String} {value : α}
    (decodes : decode body = .ok value) : decodeBody decode (some body) = .ok value := by
  simp only [decodeBody, decodes]

theorem settingsFor?_eq {source : String} {item : DirectiveItem} {fence : FenceItem}
    {settings : Settings} (isBlock : item.kind = .block)
    (adjoined : adjoins source item.span fence.span = true)
    (decodes : decodeBody decodeSettings item.body = .ok settings) :
    settingsFor? source item fence = some settings := by
  rw [settingsFor?, isBlock, adjoined, decodes]
  rfl

private theorem offset_advance_break {cursor : Cursor} {passage later : List Char}
    (isRest : cursor.rest = passage ++ '\n' :: later) :
    (cursor.advance (passage.length + 1)).offset = cursor.offset + byteSize passage + 1 := by
  show cursor.offset + byteSize (cursor.rest.take (passage.length + 1)) = _
  rw [isRest, List.take_length_add_append, byteSize_append, Nat.add_assoc]
  rfl

/-- A line break alone lies between a directive and the fence on the next line. -/
theorem adjoins_break {source : String} {cursor : Cursor} {passage later : List Char}
    {fence : Span} (placed : At source cursor) (isRest : cursor.rest = passage ++ '\n' :: later)
    (isStart : fence.start = cursor.offset + byteSize passage + 1) :
    adjoins source ⟨cursor.offset, cursor.offset + byteSize passage⟩ fence = true := by
  have behind : (cursor.advance passage.length).rest = '\n' :: later := by
    rw [advance_rest, isRest, List.drop_left]
  have isChars := (placed.advance passage.length).chars ['\n'] later behind
  rw [offset_advance_length isRest] at isChars
  have isSize : byteSize ['\n'] = 1 := rfl
  rw [isSize] at isChars
  rw [adjoins, Span.slice, isStart]
  dsimp only
  rw [isChars]
  decide

/-! ## Nodes -/

/-- The items in front are those of one node, which has the effect of `node`. -/
structure Rereads (source : String) (node : Node) (cursor : Cursor) (front : List Item) : Prop where
  isNode : ∃ found : Node, found.effect? = node.effect?
    ∧ ∀ items, nodesOf source (front ++ items) = found :: nodesOf source items
  bare : ∀ items fence more, front ++ items = .fence fence :: more →
    node.isBare = true ∧ fence.span.start = cursor.offset

private theorem Rereads.of_config {source : String} {cursor : Cursor} {node : ConfigNode}
    {item : DirectiveItem} (isConfig : item.kind = .config)
    (decodes : decodeBody decodeConfig item.body = .ok node.config) :
    Rereads source (.config node) cursor [.directive item] := by
  have isNode : aloneNode? source item
      = some (.config ⟨node.config, item.span, rangeOf source item.span⟩) := by
    simp only [aloneNode?, isConfig, decodes]
  refine ⟨⟨_, ?_, fun items => nodesOf_alone isNode⟩, ?_⟩
  · rfl
  · rintro items fence more ⟨⟩

private theorem Rereads.of_fence {source : String} {cursor : Cursor} {block : CodeBlock} {fence : FenceItem}
    (bare : block.settings = none) (isCode : fence.code = block.code)
    (isStart : fence.span.start = cursor.offset) :
    Rereads source (.code block) cursor [.fence fence] := by
  refine ⟨⟨.code (codeBlock source fence none), ?_, fun items => rfl⟩, ?_⟩
  · show some (Effect.block none fence.code) = some (Effect.block block.settings block.code)
    rw [isCode, bare]
  · rintro items first more ⟨⟩
    refine ⟨?_, isStart⟩
    show block.settings.isNone = true
    rw [bare]
    rfl

private theorem Rereads.of_pair {source : String} {cursor : Cursor} {block : CodeBlock}
    {item : DirectiveItem} {fence : FenceItem} {settings : Settings}
    (paired : settingsFor? source item fence = some settings)
    (isSome : block.settings = some settings) (isCode : fence.code = block.code) :
    Rereads source (.code block) cursor [.directive item, .fence fence] := by
  refine ⟨⟨.code (codeBlock source fence (some (item.span, settings))), ?_, ?_⟩, ?_⟩
  · show some (Effect.block (some settings) fence.code)
      = some (Effect.block block.settings block.code)
    rw [isCode, isSome]
  · intro items
    simp only [List.cons_append, List.nil_append, nodesOf, paired]
  · rintro items first more ⟨⟩

section Printed

variable {source : String} {state : State} {cursor : Cursor} {later : List Char} {fuel : Nat}
  (sound : state.Sound) (placed : At source cursor) (enough : cursor.rest.length < fuel)
include sound placed enough

private theorem reread_config {node : ConfigNode}
    (isRest : cursor.rest = (Node.config node).print.toList ++ later)
    (readable : (Node.config node).Readable)
    (breaks : ∀ c ∈ later.take (lineLength later), isLineBreak c = true) :
    ∃ front left, Rereads source (.config node) cursor front
      ∧ (cursor.advance ((Node.config node).print.toList.length + lineLength later)).rest.length
          < left
      ∧ itemsFrom source fuel state cursor = front ++ itemsFrom source left {}
          (cursor.advance ((Node.config node).print.toList.length + lineLength later)) := by
  obtain ⟨decodes, clean⟩ := readable
  have opens : OpensBlock cursor.rest := by
    rw [isRest]
    exact opens_printDirective .config node.config.encode later
  have some_char := opens.ne_nil
  have isReading := (readBlock_edge sound opens).trans (readContent_printDirective clean isRest)
  have isItem := ofBlock?_printDirective placed isRest (Config.encode_head node.config) breaks
  have shorter := readBlock_shorter state some_char
  rw [isReading] at shorter
  obtain ⟨left, rfl⟩ := Nat.exists_eq_add_one_of_ne_zero (Nat.ne_zero_of_lt enough)
  refine ⟨_, left, Rereads.of_config ?_ ?_,
    Nat.lt_of_lt_of_le shorter (Nat.lt_succ_iff.mp enough),
    (itemsFrom_reading some_char isReading isItem).trans List.singleton_append.symm⟩
  · rfl
  · exact decodeBody_ok (decodeConfig_reread decodes)

omit placed enough in
/-- The reading of a printed fence. -/
theorem readBlock_printFence {language code : String}
    (isRest : cursor.rest = printFence language code ++ later)
    (noBacktick : Text.Symbol.backtick ∉ language.toList) (oneLine : '\n' ∉ language.toList)
    (noReturn : ¬ "\r\n".toList <:+: code.toList ++ ['\n']) (ends : (lineEnd? later).isSome) :
    ∃ content, content.flatMap Chunk.text = contentLines code
      ∧ readBlock state cursor =
        { state := {}
          cursor := cursor.advance ((printFence language code).length + (blankLine? later).getD 0)
          block := some (.fence (infoText ⟨Text.Symbol.backtick, fenceWidth code⟩ cursor.rest) content
            ⟨cursor.offset, (cursor.advance (printFence language code).length).offset⟩) } := by
  have opens := fence?_printFence isRest noBacktick oneLine
  obtain ⟨content, isReading, isContent⟩ :=
    readContent_printFence isRest noBacktick oneLine noReturn ends
  have behind : (cursor.advance (printFence language code).length).rest = later := by
    rw [advance_rest, isRest, List.drop_left]
  rw [skipBlankLine, advance_advance, behind] at isReading
  exact ⟨content, isContent,
    (readBlock_edge sound (Or.inr (Option.isSome_of_eq_some opens))).trans isReading⟩

omit placed enough in
/-- The item of a printed fence. -/
theorem item_printFence {language code : String}
    (isRest : cursor.rest = printFence language code ++ later)
    (noBacktick : Text.Symbol.backtick ∉ language.toList) (oneLine : '\n' ∉ language.toList)
    (noReturn : ¬ "\r\n".toList <:+: code.toList ++ ['\n']) (ends : (lineEnd? later).isSome) :
    ∃ block fence, readBlock state cursor =
        { state := {}
          cursor := cursor.advance ((printFence language code).length + (blankLine? later).getD 0)
          block := some block }
      ∧ Item.ofBlock? source block = some (.fence fence) ∧ fence.code = code
      ∧ fence.span.start = cursor.offset := by
  obtain ⟨content, isContent, isReading⟩ :=
    readBlock_printFence sound isRest noBacktick oneLine noReturn ends
  refine ⟨_, _, isReading, rfl, ?_, rfl⟩
  show String.ofList (dropFinalBreak (content.flatMap Chunk.text)) = code
  rw [isContent, dropFinalBreak_contentLines noReturn, String.ofList_toList]

omit placed in
private theorem reread_bare {block : CodeBlock} (bare : block.settings = none)
    (isRest : cursor.rest = (Node.code block).print.toList ++ later)
    (readable : (Node.code block).Readable)
    (visible : ∀ c ∈ block.language.toList, Text.isBlank c = false)
    (ends : (lineEnd? later).isSome) :
    ∃ front left, Rereads source (.code block) cursor front
      ∧ (cursor.advance ((Node.code block).print.toList.length
          + (blankLine? later).getD 0)).rest.length < left
      ∧ itemsFrom source fuel state cursor = front ++ itemsFrom source left {}
          (cursor.advance ((Node.code block).print.toList.length + (blankLine? later).getD 0)) := by
  obtain ⟨-, noBacktick, noReturn⟩ := readable
  have isPrint : (Node.code block).print.toList = printFence block.language block.code := by
    rw [print_code_toList, bare, List.nil_append]
  rw [isPrint] at isRest ⊢
  obtain ⟨kept, fence, isReading, isItem, isCode, isStart⟩ := @item_printFence source state cursor later
    sound block.language block.code isRest noBacktick (oneLine_of_visible visible) noReturn ends
  have some_char : cursor.rest ≠ [] := by
    rw [isRest, printFence]
    simp [fenceWidth]
  have shorter := readBlock_shorter state some_char
  rw [isReading] at shorter
  obtain ⟨left, rfl⟩ := Nat.exists_eq_add_one_of_ne_zero (Nat.ne_zero_of_lt enough)
  exact ⟨_, left, Rereads.of_fence bare isCode isStart,
    Nat.lt_of_lt_of_le shorter (Nat.lt_succ_iff.mp enough),
    (itemsFrom_reading some_char isReading isItem).trans List.singleton_append.symm⟩

private theorem reread_pair {block : CodeBlock} {settings : Settings} (isSome : block.settings = some settings)
    (isRest : cursor.rest = (Node.code block).print.toList ++ later)
    (readable : (Node.code block).Readable)
    (visible : ∀ c ∈ block.language.toList, Text.isBlank c = false)
    (ends : (lineEnd? later).isSome) :
    ∃ front left, Rereads source (.code block) cursor front
      ∧ (cursor.advance ((Node.code block).print.toList.length
          + (blankLine? later).getD 0)).rest.length < left
      ∧ itemsFrom source fuel state cursor = front ++ itemsFrom source left {}
          (cursor.advance ((Node.code block).print.toList.length + (blankLine? later).getD 0)) := by
  obtain ⟨bodies, noBacktick, noReturn⟩ := readable
  obtain ⟨decodes, clean⟩ := bodies settings isSome
  have isPrint : (Node.code block).print.toList
      = (printDirective .block settings.encode).toList
        ++ ('\n' :: printFence block.language block.code) := by
    rw [print_code_toList, isSome]
    simp only [List.append_assoc, List.singleton_append]
  have isText : cursor.rest = (printDirective .block settings.encode).toList
      ++ ('\n' :: (printFence block.language block.code ++ later)) := by
    rw [isRest, isPrint, List.append_assoc, List.cons_append]
  have opens : OpensBlock cursor.rest := by
    rw [isText]
    exact opens_printDirective .block settings.encode _
  have some_char := opens.ne_nil
  -- The comment takes the line break behind it, so the fence starts a line.
  have isReading := (readBlock_edge sound opens).trans (readContent_printDirective clean isText)
  have oneBreak : lineLength ('\n' :: (printFence block.language block.code ++ later)) = 1 := rfl
  rw [oneBreak] at isReading
  have isDirective := @ofBlock?_printDirective source cursor .block settings.encode _ 1 placed isText
    (Settings.encode_head settings) (by simp [isLineBreak])
  have fenceRest : (cursor.advance ((printDirective .block settings.encode).toList.length + 1)).rest
      = printFence block.language block.code ++ later := by
    rw [advance_rest, isText, ← List.drop_drop, List.drop_left]
    rfl
  obtain ⟨kept, fence, isFenceReading, isFence, isCode, isStart⟩ :=
    @item_printFence source {} _ later State.sound_start block.language
      block.code fenceRest noBacktick (oneLine_of_visible visible) noReturn ends
  have fenceSome : (cursor.advance ((printDirective .block settings.encode).toList.length + 1)).rest
      ≠ [] := by
    rw [fenceRest, printFence]
    simp [fenceWidth]
  have shorter := readBlock_shorter state some_char
  have fenceShorter := readBlock_shorter {} fenceSome
  rw [isReading] at shorter
  rw [isFenceReading] at fenceShorter
  have isAfter : (cursor.advance ((printDirective .block settings.encode).toList.length + 1)).advance
      ((printFence block.language block.code).length + (blankLine? later).getD 0)
      = cursor.advance ((Node.code block).print.toList.length + (blankLine? later).getD 0) := by
    rw [advance_advance, isPrint, List.length_append, List.length_cons]
    refine congrArg cursor.advance ?_
    omega
  rw [isAfter] at isFenceReading fenceShorter
  dsimp only at shorter fenceShorter
  obtain ⟨left, rfl⟩ : ∃ left, fuel = left + 2 := ⟨fuel - 2, by omega⟩
  have adjoined := adjoins_break placed isText (isStart.trans (offset_advance_break isText))
  have paired := @settingsFor?_eq source ⟨.block, some (rereadBody settings.encode), _⟩ fence settings
    rfl adjoined (decodeBody_ok (decodeSettings_reread decodes))
  refine ⟨_, left, Rereads.of_pair paired isSome isCode, by omega, ?_⟩
  rw [itemsFrom_reading some_char isReading isDirective,
    itemsFrom_reading fenceSome isFenceReading isFence]
  rfl

/-- **A printed node** is read as one that has its effect, and reading goes on behind as
much of the later text as it went on behind in the source. -/
theorem reread {node : Node} (noText : node.isText = false)
    (isRest : cursor.rest = node.print.toList ++ later) (readable : node.Readable)
    (language : ∀ block, node = .code block → ∀ c ∈ block.language.toList, Text.isBlank c = false)
    (ends : (lineEnd? later).isSome)
    (breaks : ∀ c ∈ later.take (node.leaves later), isLineBreak c = true) :
    ∃ front left, Rereads source node cursor front
      ∧ (cursor.advance (node.print.toList.length + node.leaves later)).rest.length < left
      ∧ itemsFrom source fuel state cursor = front ++ itemsFrom source left {}
          (cursor.advance (node.print.toList.length + node.leaves later)) := by
  cases node with
  | text node => cases noText
  | config node => exact reread_config sound placed enough isRest readable breaks
  | code block =>
      have visible := language block rfl
      cases isSettings : block.settings with
      | none => exact reread_bare sound enough isSettings isRest readable visible ends
      | some settings => exact reread_pair sound placed enough isSettings isRest readable visible ends

end Printed

end Tangle.Document
