import Tangle.Proofs.Document.Reread

/-!
Contract: a source and its print are read alike.

Owns: that the readings between two nodes are the same in both texts, up to where they
stand; and `Run.lockstep`, that all the nodes of the print have the effects of those of the
source.

Does **not** own: what the effects lead to (`Tangle.Proofs.Generate.Outputs`).
-/

set_option autoImplicit false

namespace Tangle.Document

open Tangle.Source
open Tangle.Markdown
open Tangle.Text (byteSize)
open Cursor

/-! ## Items of some lines -/

def DirectiveItem.shift (offset : Nat) (item : DirectiveItem) : DirectiveItem :=
  { item with span := item.span.shift offset }

/-- The directive of an HTML block that lies in some lines. -/
def htmlItem? (lines : List Char) (span : Span) : Option DirectiveItem :=
  let trimmed := trimLineBreaks (String.ofList lines) span
  directive? (trimmed.chars (String.ofList lines)) trimmed

private theorem directive?_shift (text : List Char) (span : Span) (offset : Nat) :
    directive? text (span.shift offset)
      = (directive? text span).map (DirectiveItem.shift offset) := by
  rw [directive?_eq, directive?_eq, Option.map_bind]
  refine congrArg _ (funext fun inner => ?_)
  rw [Function.comp_apply, Option.map_map]
  rfl

private theorem trimLineBreaks_within {lines : List Char} {span : Span} (ordered : span.start ≤ span.stop)
    (within : span.stop ≤ byteSize lines) :
    (trimLineBreaks (String.ofList lines) span).stop ≤ byteSize lines := by
  have kept : Text.dropTailWhile isLineBreak (span.chars (String.ofList lines))
      <+: span.chars (String.ofList lines) := by
    rw [Text.dropTailWhile_eq_rdropWhile]
    exact List.rdropWhile_prefix _ _
  obtain ⟨breaks, isChars⟩ := kept
  have size := Text.byteSize_takeBytes_le (span.stop - span.start)
    (Text.dropBytes span.start (String.ofList lines).toList)
  have isSize : byteSize (span.chars (String.ofList lines)) ≤ span.stop - span.start := size
  rw [← isChars, byteSize_append] at isSize
  show span.start + byteSize (Text.dropTailWhile isLineBreak (span.chars (String.ofList lines))) ≤ _
  omega

section Lines

variable {source : String} {cursor : Cursor} {lines later : List Char} {span : Span}
  (placed : At source cursor) (isRest : cursor.rest = lines ++ later)
  (within : span.stop ≤ byteSize lines)
include placed isRest within

private theorem trimLineBreaks_shift :
    trimLineBreaks source (span.shift cursor.offset)
      = (trimLineBreaks (String.ofList lines) span).shift cursor.offset := by
  rw [trimLineBreaks, placed.chars_shift isRest within]
  simp only [trimLineBreaks, Span.shift, Nat.add_assoc]

/-- **Directives in some lines** are the same wherever these lines stand. -/
theorem ofBlock?_shift (ordered : span.start ≤ span.stop) :
    Item.ofBlock? source (.html (span.shift cursor.offset))
      = (htmlItem? lines span).map fun item => .directive (item.shift cursor.offset) := by
  have trimmed := trimLineBreaks_shift placed isRest within
  have trimmedWithin := trimLineBreaks_within ordered within
  simp only [Item.ofBlock?]
  rw [trimmed, placed.chars_shift isRest trimmedWithin, directive?_shift, Option.map_map]
  rfl

end Lines

/-! ## Readings between nodes -/

theorem offset_le_of_reaches {first second : Cursor} (reached : Reaches first second) :
    second.offset ≤ first.offset + byteSize first.rest := by
  obtain ⟨count, rfl⟩ := reached
  have parts := congrArg byteSize (List.take_append_drop count first.rest)
  rw [byteSize_append] at parts
  show first.offset + byteSize (first.rest.take count) ≤ _
  omega

/-- An HTML block lies in the lines that it was read from. -/
theorem readBlockWith_within {isMetadata : List Char → Bool} {state : State} {lines : List Char}
    {span : Span} (kept : (readBlockWith isMetadata state ⟨0, lines⟩).block = some (.html span)) :
    span.start ≤ span.stop ∧ span.stop ≤ byteSize lines := by
  obtain ⟨ahead, -, -, keptAt⟩ := readBlockWith_kept kept
  have isStart := keptAt.start
  rcases keptAt with ⟨spine, after, read⟩ | ⟨spine, fence, indent, -, isFence⟩
  · obtain ⟨later, reached, isStop⟩ := htmlBlock?_stop read
    have before := reached.offset_le
    have behind := offset_le_of_reaches ((reaches_advance ⟨0, lines⟩ ahead).trans reached)
    rw [Nat.zero_add] at behind
    have isSpanStart : span.start = (Cursor.advance ⟨0, lines⟩ ahead).offset := isStart
    have isSpanStop : span.stop = later.offset := isStop
    exact ⟨by omega, by rw [isSpanStop]; exact behind⟩
  · cases isFence

/-- **Readings between nodes are alike.** -/
theorem readBlock_ahead {source : String} {state : State} {cursor copy : Cursor} {count : Nat}
    {nodes : List Node} {lines later other : List Char} (placed : At source cursor)
    (some_char : cursor.rest ≠ [])
    (isAfter : (readBlock state cursor).cursor = cursor.advance count)
    (ahead : Ahead source (cursor.advance count) nodes lines later other)
    (isPrint : copy.rest = printFrom source cursor.offset nodes)
    (noFence : ∀ block ∈ (readBlock state cursor).block, block.isFence = false) :
    copy.rest ≠ [] ∧ ∃ found : Option Span,
      (readBlock state cursor).block = (found.map fun span => .html (span.shift cursor.offset))
        ∧ readBlock state copy =
          { state := (readBlock state cursor).state
            cursor := ⟨copy.offset + byteSize (cursor.rest.take count), lines ++ other⟩
            block := found.map fun span => .html (span.shift copy.offset) }
        ∧ ∀ span ∈ found, span.start ≤ span.stop
            ∧ span.stop ≤ byteSize (cursor.rest.take count ++ lines) := by
  have whole := ahead.retreat placed
  have fits := whole.fits placed
  have swaps := whole.replaces.swaps
  rw [whole.isPrint] at isPrint
  have shorter := readBlock_shorter state some_char
  have some_line : cursor.rest.take count ++ lines ≠ [] := by
    intro nothing
    rw [List.append_eq_nil_iff] at nothing
    have still := List.take_append_drop count cursor.rest
    rw [nothing.1, List.nil_append] at still
    rw [isAfter, advance_rest, still] at shorter
    exact Nat.lt_irrefl _ shorter
  generalize isWhole : cursor.rest.take count ++ lines = all at whole fits some_line isPrint
  have isCursor : cursor = Cursor.inside ⟨0, all⟩ cursor.offset later := by
    rw [Cursor.inside, Nat.add_zero, ← whole.isRest]
  have isCopy : copy = Cursor.inside ⟨0, all⟩ copy.offset other := by
    rw [Cursor.inside, Nat.add_zero, ← isPrint]
  have metadata : ∀ count, startsMetadata (all.drop count ++ later)
      = startsMetadata (all.drop count ++ other) :=
    fun count => startsMetadata_replaces whole.replaces (fits.drop count)
  have stays : Stays later (readBlock state (Cursor.inside ⟨0, all⟩ cursor.offset later)).cursor := by
    rw [← isCursor, isAfter]
    show later.length ≤ (cursor.advance count).rest.length
    rw [ahead.isRest, List.length_append]
    omega
  rw [isCursor] at noFence
  have here := readBlock_inside cursor.offset cursor.offset fits.swaps_refl some_line fits
    (fun _ => rfl) stays noFence
  have there := readBlock_inside cursor.offset copy.offset swaps some_line fits metadata stays noFence
  rw [here] at noFence
  rw [← isCursor] at here
  rw [← isCopy] at there
  have bounds := fun span => @readBlockWith_within (fun rest => startsMetadata (rest ++ later)) state
    all span
  generalize readBlockWith (fun rest => startsMetadata (rest ++ later)) state ⟨0, all⟩ = reading
    at here there noFence bounds
  obtain ⟨found, isFound⟩ : ∃ found : Option Span, reading.block = found.map .html := by
    cases isBlock : reading.block with
    | none => exact ⟨none, rfl⟩
    | some block =>
        cases block with
        | html span => exact ⟨some span, rfl⟩
        | fence info content span =>
            refine absurd (noFence _ ?_) (show ¬ (Block.shift cursor.offset
              (.fence info content span)).isFence = false by simp [Block.shift, Block.isFence])
            rw [Reading.inside, isBlock]
            rfl
  have isPlace : reading.cursor = ⟨byteSize (cursor.rest.take count), lines⟩ := by
    rw [here] at isAfter
    have isOffset : cursor.offset + reading.cursor.offset
        = cursor.offset + byteSize (cursor.rest.take count) := congrArg Cursor.offset isAfter
    have isRest : reading.cursor.rest ++ later = lines ++ later := by
      rw [← ahead.isRest, ← isAfter]
      rfl
    show (⟨reading.cursor.offset, reading.cursor.rest⟩ : Cursor) = _
    rw [List.append_cancel_right isRest, Nat.add_left_cancel isOffset]
  refine ⟨?_, found, ?_, ?_, ?_⟩
  · rw [isPrint]
    exact List.append_ne_nil_of_left_ne_nil some_line other
  · rw [here, Reading.inside, isFound, Option.map_map]
    rfl
  · rw [there, here, Reading.inside, Reading.inside, isFound, isPlace, Option.map_map]
    rfl
  · intro span isSpan
    refine bounds span ?_
    rw [isFound, Option.mem_def.mp isSpan]
    rfl

private theorem noFence_of_itemAt {source : String} {state : State} {cursor : Cursor}
    (noFence : ∀ fence, itemAt source state cursor ≠ some (.fence fence)) :
    ∀ block ∈ (readBlock state cursor).block, block.isFence = false := by
  intro block kept
  cases block with
  | html span => rfl
  | fence info content span =>
      refine absurd ?_ (noFence (fenceItem source info content span))
      rw [itemAt, Option.mem_def.mp kept]
      rfl

/-- **Items between nodes are alike.** -/
theorem itemAt_ahead {source reprint : String} {state : State} {cursor copy : Cursor} {count : Nat}
    {nodes : List Node} {lines later other : List Char} (placed : At source cursor)
    (placedCopy : At reprint copy) (some_char : cursor.rest ≠ [])
    (isAfter : (readBlock state cursor).cursor = cursor.advance count)
    (ahead : Ahead source (cursor.advance count) nodes lines later other)
    (isPrint : copy.rest = printFrom source cursor.offset nodes)
    (noFence : ∀ fence, itemAt source state cursor ≠ some (.fence fence)) :
    ∃ found : Option DirectiveItem, copy.rest ≠ []
      ∧ itemAt source state cursor
          = (found.map fun item => .directive (item.shift cursor.offset))
      ∧ itemAt reprint state copy = (found.map fun item => .directive (item.shift copy.offset))
      ∧ (readBlock state copy).state = (readBlock state cursor).state
      ∧ (readBlock state copy).cursor
          = ⟨copy.offset + byteSize (cursor.rest.take count), lines ++ other⟩ := by
  obtain ⟨some_copy, found, isBlock, isReading, bounds⟩ := readBlock_ahead placed some_char isAfter
    ahead isPrint (noFence_of_itemAt noFence)
  have whole := ahead.retreat placed
  rw [whole.isPrint] at isPrint
  refine ⟨found.bind (htmlItem? (cursor.rest.take count ++ lines)), some_copy, ?_, ?_, ?_, ?_⟩
  · cases found with
    | none => rw [itemAt, isBlock]; rfl
    | some span =>
        obtain ⟨ordered, within⟩ := bounds span rfl
        rw [itemAt, isBlock, Option.map_some, Option.bind_some, Option.bind_some,
          ofBlock?_shift placed whole.isRest within ordered]
  · cases found with
    | none => rw [itemAt, isReading]; rfl
    | some span =>
        obtain ⟨ordered, within⟩ := bounds span rfl
        rw [itemAt, isReading]
        dsimp only
        rw [Option.map_some, Option.bind_some, Option.bind_some,
          ofBlock?_shift placedCopy isPrint within ordered]
  · rw [isReading]
  · rw [isReading]

/-! ## Directives that make no node -/

theorem aloneNode?_shift {source reprint : String} {item : DirectiveItem} {offset shifted : Nat}
    (noNode : aloneNode? source (item.shift offset) = none) :
    aloneNode? reprint (item.shift shifted) = none := by
  unfold aloneNode? at noNode ⊢
  dsimp only [DirectiveItem.shift] at noNode ⊢
  generalize item.kind = kind at noNode ⊢
  generalize decodeBody Directive.decodeConfig item.body = decoded at noNode ⊢
  cases kind with
  | block => rfl
  | config =>
      cases decoded with
      | error reason => rfl
      | ok config => cases noNode

/-- Whether a directive belongs to the fence behind some lines can be asked of the lines. -/
theorem settingsFor?_shift {source : String} {cursor : Cursor} {lines later : List Char}
    {item : DirectiveItem} {fence : FenceItem} (placed : At source cursor)
    (isRest : cursor.rest = lines ++ later)
    (isStart : fence.span.start = cursor.offset + byteSize lines) :
    settingsFor? source (item.shift cursor.offset) fence
      = if item.kind == .block && Text.allBlank
          ((⟨item.span.stop, byteSize lines⟩ : Span).slice (String.ofList lines)) then
          (decodeBody Directive.decodeSettings item.body).toOption
        else none := by
  have gap : (⟨(item.shift cursor.offset).span.stop, fence.span.start⟩ : Span)
      = Span.shift cursor.offset ⟨item.span.stop, byteSize lines⟩ := by
    rw [isStart]
    rfl
  rw [settingsFor?, adjoins, gap, Span.slice, placed.chars_shift isRest (Nat.le_refl _)]
  rfl

/-! ## Runs -/

/-- What is left of the print is in step with what is left of the source: its nodes have the
same effects, and a fence in front stands as far ahead in both. -/
structure InStep (source reprint : String) (cursor copy : Cursor) (items again : List Item) :
    Prop where
  sameEffects : effects (nodesOf reprint again) = effects (nodesOf source items)
  sameFence : ∀ fence more, again = .fence fence :: more →
    ∃ own rest ahead, items = .fence own :: rest ∧ own.span.start = cursor.offset + ahead
      ∧ fence.span.start = copy.offset + ahead

/-- Nothing is left of either text. -/
theorem InStep.nil (source reprint : String) (cursor copy : Cursor) :
    InStep source reprint cursor copy [] [] where
  sameEffects := rfl
  sameFence := by rintro fence more ⟨⟩

section Steps

variable {source reprint : String} {cursor copy : Cursor} {items again : List Item}

/-- A reading without an item leaves the items alone and moves both texts on alike. -/
theorem InStep.retreat {after copyAfter : Cursor} {size : Nat}
    (onward : InStep source reprint after copyAfter items again)
    (isAfter : after.offset = cursor.offset + size)
    (isCopyAfter : copyAfter.offset = copy.offset + size) :
    InStep source reprint cursor copy items again := by
  refine ⟨onward.sameEffects, ?_⟩
  intro fence more isAgain
  obtain ⟨own, rest, ahead, isItems, isOwn, isFence⟩ := onward.sameFence fence more isAgain
  refine ⟨own, rest, size + ahead, isItems, ?_, ?_⟩
  · rw [isOwn, isAfter, Nat.add_assoc]
  · rw [isFence, isCopyAfter, Nat.add_assoc]

/-- A directive that makes no node in the source makes none in the print. -/
theorem InStep.dangling {item : DirectiveItem} {all later other : List Char}
    (onward : InStep source reprint cursor copy items again) (placed : At source cursor)
    (placedCopy : At reprint copy)
    (ahead : Ahead source cursor (nodesOf source items) all later other)
    (isPrint : copy.rest = all ++ other)
    (noNode : aloneNode? source (item.shift cursor.offset) = none)
    (unpaired : ∀ fence more, items = .fence fence :: more →
      settingsFor? source (item.shift cursor.offset) fence = none) :
    InStep source reprint cursor copy (.directive (item.shift cursor.offset) :: items)
      (.directive (item.shift copy.offset) :: again) := by
  have copyUnpaired : ∀ fence more, again = .fence fence :: more →
      settingsFor? reprint (item.shift copy.offset) fence = none := by
    intro fence more isAgain
    obtain ⟨own, rest, size, rfl, isOwn, isFence⟩ := onward.sameFence fence more isAgain
    -- The fence makes the next node, so all that both texts share lies ahead of it.
    have isStart : own.span.start = cursor.offset + byteSize all :=
      ahead.starts (.code (codeBlock source own none)) rfl
    have isSize : size = byteSize all := Nat.add_left_cancel (isOwn.symm.trans isStart)
    rw [settingsFor?_shift placedCopy isPrint (isSize ▸ isFence),
      ← settingsFor?_shift placed ahead.isRest isStart]
    exact unpaired own rest rfl
  refine ⟨?_, ?_⟩
  · rw [nodesOf_dangling noNode unpaired, nodesOf_dangling (aloneNode?_shift noNode) copyUnpaired]
    exact onward.sameEffects
  · rintro fence more ⟨⟩

/-- A node that is read as one of the same effect. -/
theorem InStep.kept {node : Node} {all front : List Item} (rereads : Rereads reprint node copy front)
    (isNodes : nodesOf source all = node :: nodesOf source items)
    (bare : node.isBare = true →
      ∃ fence more, all = .fence fence :: more ∧ fence.span.start = cursor.offset)
    (onward : effects (nodesOf reprint again) = effects (nodesOf source items)) :
    InStep source reprint cursor copy all (front ++ again) := by
  obtain ⟨found, isEffect, isFound⟩ := rereads.isNode
  refine ⟨?_, ?_⟩
  · rw [isNodes, isFound, effects_cons, effects_cons, isEffect, onward]
  · intro fence more isAgain
    obtain ⟨isBare, isFence⟩ := rereads.bare again fence more isAgain
    obtain ⟨own, rest, isItems, isOwn⟩ := bare isBare
    exact ⟨own, rest, 0, isItems, isOwn, isFence⟩

end Steps

/-- Line breaks alone hold no items. -/
theorem itemsFrom_breaks {source : String} {fuel : Nat} {state : State} {cursor : Cursor}
    (breaks : ∀ c ∈ cursor.rest, isLineBreak c = true) :
    itemsFrom source fuel state cursor = [] := by
  have plain : ∀ c ∈ cursor.rest, ¬ opensKept c := by
    intro c member opens
    have isBreak := breaks c member
    rcases opens with rfl | rfl | rfl <;> exact absurd isBreak (by decide)
  rw [itemsFrom, readBlocks_plain fuel state cursor plain]
  rfl

/-- From this place on, whatever text is the print of the nodes ahead is in step with them. -/
def Lockstep (source reprint : String) (state : State) (cursor : Cursor) (items : List Item) : Prop :=
  ∀ (fuel : Nat) (copy : Cursor), At reprint copy →
    copy.rest = printFrom source cursor.offset (nodesOf source items) → copy.rest.length < fuel →
    InStep source reprint cursor copy items (itemsFrom reprint fuel state copy)

/-- A reading between nodes: both texts give the same directive or none, and go on in step. -/
theorem Lockstep.between {source reprint : String} {state : State} {cursor copy : Cursor}
    {items : List Item} {fuel : Nat} (placed : At source cursor) (some_char : cursor.rest ≠ [])
    (noFence : ∀ fence, itemAt source state cursor ≠ some (.fence fence))
    (rest : Run source (readBlock state cursor).state (readBlock state cursor).cursor items)
    (reprints : ∀ node ∈ nodesOf source items, Reprints source node)
    (onward : Lockstep source reprint (readBlock state cursor).state (readBlock state cursor).cursor
      items)
    (placedCopy : At reprint copy)
    (isPrint : copy.rest = printFrom source cursor.offset (nodesOf source items))
    (enough : copy.rest.length < fuel) :
    ∃ (found : Option DirectiveItem) (again : List Item) (all later other : List Char),
      itemAt source state cursor = (found.map fun item => .directive (item.shift cursor.offset))
        ∧ itemsFrom reprint fuel state copy
            = (found.map fun item => .directive (item.shift copy.offset)).toList ++ again
        ∧ Ahead source cursor (nodesOf source items) all later other
        ∧ InStep source reprint cursor copy items again := by
  obtain ⟨count, isAfter⟩ := (readBlock_moves state cursor).1
  rw [isAfter] at rest onward
  obtain ⟨lines, later, other, ahead⟩ := rest.ahead (placed.advance count) reprints
  obtain ⟨found, some_copy, isItem, isCopyItem, isState, isPlace⟩ :=
    itemAt_ahead placed placedCopy some_char isAfter ahead isPrint noFence
  have placedAfter := placedCopy.reached (readBlock_moves state copy).1
  have shorter := readBlock_shorter state some_copy
  rw [isPlace] at placedAfter shorter
  obtain ⟨left, rfl⟩ := Nat.exists_eq_add_one_of_ne_zero (Nat.ne_zero_of_lt enough)
  have step := onward left _ placedAfter ahead.isPrint.symm
    (Nat.lt_of_lt_of_le shorter (Nat.lt_succ_iff.mp enough))
  refine ⟨found, _, _, later, other, isItem, ?_, ahead.retreat placed, step.retreat rfl rfl⟩
  rw [itemsFrom_step some_copy, isCopyItem, isState, isPlace]

/-- **A run and its print** are in step from every place on. -/
theorem Run.lockstep {source reprint : String} {state : State} {cursor : Cursor} {items : List Item}
    (run : Run source state cursor items) (sound : state.Sound) (placed : At source cursor)
    (reprints : ∀ node ∈ nodesOf source items, Reprints source node) :
    Lockstep source reprint state cursor items := by
  induction run with
  | @done state cursor nothing =>
      intro fuel copy placedCopy isPrint enough
      rw [nodesOf, printFrom, placed.chars_end, nothing] at isPrint
      rw [itemsFrom_end isPrint]
      exact InStep.nil source reprint cursor copy
  | @plain state cursor items some_char noItem rest inductionHypothesis =>
      intro fuel copy placedCopy isPrint enough
      have onward := inductionHypothesis (readBlock_sound sound cursor)
        (placed.reached (readBlock_moves state cursor).1) reprints
      obtain ⟨found, again, -, -, -, isFound, isItems, -, step⟩ := Lockstep.between placed some_char
        (by simp [noItem]) rest reprints onward placedCopy isPrint enough
      obtain rfl : found = none := by
        rw [noItem] at isFound
        exact Option.map_eq_none_iff.mp isFound.symm
      rw [isItems]
      exact step
  | @dangling state cursor items item some_char isItem noNode unpaired rest inductionHypothesis =>
      intro fuel copy placedCopy isPrint enough
      rw [nodesOf_dangling noNode unpaired] at reprints isPrint
      have onward := inductionHypothesis (readBlock_sound sound cursor)
        (placed.reached (readBlock_moves state cursor).1) reprints
      obtain ⟨found, again, all, later, other, isFound, isItems, ahead, step⟩ :=
        Lockstep.between placed some_char (by simp [isItem]) rest reprints onward placedCopy isPrint
          enough
      rw [isItem] at isFound
      obtain ⟨shifted, rfl, isShifted⟩ := Option.map_eq_some_iff.mp isFound.symm
      obtain rfl := Item.directive.inj isShifted
      rw [isItems]
      exact step.dangling placed placedCopy ahead (isPrint.trans ahead.isPrint) noNode unpaired
  | @kept state cursor after all items node passage behind opens stands noText isNodes bare language
      rest inductionHypothesis =>
      intro fuel copy placedCopy isPrint enough
      rw [isNodes, List.forall_mem_cons] at reprints
      have placedAfter := placed.reached stands.reached
      obtain ⟨lines, later, other, -, follows⟩ :=
        stands.behind placed rest (rest.ahead placedAfter reprints.2)
      rw [isNodes, stands.printFrom, follows.ahead.isPrint] at isPrint
      have shut := follows.ahead.replaces.swaps.shut follows.shut
      have isLeaves := node.leaves_append shut
      have within := node.leaves_le lines
      obtain ⟨front, left, rereads, enoughLeft, isItems⟩ := reread sound placedCopy enough noText
        isPrint reprints.1.readable language (by rw [lineEnd?_append shut]; exact follows.ends)
        (by rw [isLeaves, List.take_append_of_le_length within]; exact follows.breaks)
      rw [isLeaves] at enoughLeft isItems
      have isLeft : (copy.advance (node.print.toList.length + node.leaves lines)).rest
          = lines.drop (node.leaves lines) ++ other := by
        rw [advance_rest, isPrint, ← List.drop_drop, List.drop_left,
          List.drop_append_of_le_length within]
      rw [isItems]
      refine InStep.kept rereads isNodes bare ?_
      rcases follows.next with ⟨-, ahead⟩ | ⟨rfl, -, rfl, allBreaks⟩
      · exact (inductionHypothesis State.sound_start placedAfter reprints.2 left _
          (placedCopy.advance _) (isLeft.trans ahead.isPrint.symm) enoughLeft).sameEffects
      -- The source was read to its end, the print may still have line breaks to read.
      · rw [itemsFrom_breaks]
        · rfl
        · rw [isLeft, List.append_nil]
          exact fun c member => allBreaks c (List.mem_of_mem_drop member)

end Tangle.Document
