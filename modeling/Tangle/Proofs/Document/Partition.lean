import Mathlib.Data.List.Chain
import Tangle.Proofs.Document.Blocks
import Tangle.Proofs.Source.Boundaries

/-!
Contract: the nodes of a document tile its source.

Owns: `Made`, which says what each node is made from, `Tiles`, the assembly that refuses
a cut out of order, and that a document built from separate items is a partition.

Does **not** own: what happens to a directive (`Tangle.Proofs.Document.Accounting`).

## Why the cursor need not be followed

A document is its nodes with the source woven in (`build_nodes`). Nodes made from
separate items are separate, so the whole question is one induction over the nodes, with
the place behind the last node as its only state.
-/

set_option autoImplicit false

namespace Tangle.Document

open Tangle.Source

variable {source : String} {items : List Item}

/-! ## What nodes are made from -/

/-- What a node that is no text is made from. -/
inductive Made (source : String) (items : List Item) : Node → Prop
  | config {item : DirectiveItem} {config : Directive.Config} (member : .directive item ∈ items)
      (isConfig : item.kind = .config)
      (decodes : decodeBody Directive.decodeConfig item.body = .ok config) :
      Made source items (.config ⟨config, item.span, rangeOf source item.span⟩)
  | plain {fence : FenceItem} (member : .fence fence ∈ items) :
      Made source items (.code (codeBlock source fence none))
  | annotated {item : DirectiveItem} {fence : FenceItem} {settings : Directive.Settings}
      (adjacent : [.directive item, .fence fence] <:+: items)
      (adopted : settingsFor? source item fence = some settings) :
      Made source items (.code (codeBlock source fence (some (item.span, settings))))

private theorem Made.of_within {fewer : List Item} {node : Node} (made : Made source fewer node)
    (within : fewer <:+: items) : Made source items node := by
  cases made with
  | config member isConfig decodes => exact .config (within.mem member) isConfig decodes
  | plain member => exact .plain (within.mem member)
  | annotated adjacent adopted => exact .annotated (adjacent.trans within) adopted

private theorem made_of_aloneNode? {item : DirectiveItem} {node : Node}
    (isNode : aloneNode? source item = some node) (member : .directive item ∈ items) :
    Made source items node := by
  unfold aloneNode? at isNode
  split at isNode
  · cases isNode
  · next isConfig =>
      split at isNode
      · cases isNode
      · next config decodes =>
          rw [← Option.some.inj isNode]
          exact .config member isConfig decodes

theorem made_of_mem_nodesOf {node : Node} (member : node ∈ nodesOf source items) :
    Made source items node := by
  have behind : ∀ (item : Item) (rest : List Item), rest <:+: item :: rest :=
    fun item rest => (List.suffix_cons item rest).isInfix
  fun_induction nodesOf source items with
  | case1 => cases member
  | case2 fence rest inductionHypothesis =>
      rcases List.mem_cons.mp member with rfl | later
      · exact .plain List.mem_cons_self
      · exact (inductionHypothesis later).of_within (behind _ _)
  | case3 item fence rest settings found inductionHypothesis =>
      rcases List.mem_cons.mp member with rfl | later
      · exact .annotated ⟨[], rest, rfl⟩ found
      · exact (inductionHypothesis later).of_within ((behind _ _).trans (behind _ _))
  | case4 item fence rest missing inductionHypothesis =>
      rcases List.mem_append.mp member with alone | later
      · exact made_of_aloneNode? (Option.mem_toList.mp alone) List.mem_cons_self
      · exact (inductionHypothesis later).of_within (behind _ _)
  | case5 item rest noFence inductionHypothesis =>
      rcases List.mem_append.mp member with alone | later
      · exact made_of_aloneNode? (Option.mem_toList.mp alone) List.mem_cons_self
      · exact (inductionHypothesis later).of_within (behind _ _)

theorem Made.noText {node : Node} (made : Made source items node) : node.isText = false := by
  cases made <;> rfl

theorem Made.stop {node : Node} (made : Made source items node) :
    ∃ item ∈ items, item.span.stop = node.span.stop := by
  cases made with
  | config member _ _ => exact ⟨_, member, rfl⟩
  | plain member => exact ⟨_, member, rfl⟩
  | @annotated item fence _ adjacent _ =>
      exact ⟨.fence fence, adjacent.mem (List.mem_cons_of_mem _ List.mem_cons_self), rfl⟩

theorem Made.range {node : Node} (made : Made source items node) :
    node.range = rangeOf source node.span := by
  cases made <;> rfl

/-! ## Separate items give separate nodes -/

theorem exists_item_of_mem_nodesOf {node : Node} (member : node ∈ nodesOf source items) :
    ∃ item ∈ items, item.span.start = node.span.start :=
  List.mem_map.mp
    ((nodesOf_starts_sublist source items).subset (List.mem_map_of_mem member))

/-- Nodes lie behind whatever the items lie behind. -/
theorem nodesOf_behind {stop : Nat} (behind : ∀ span ∈ items.map Item.span, stop ≤ span.start)
    {span : Span} (member : span ∈ (nodesOf source items).map Node.span) : stop ≤ span.start := by
  obtain ⟨node, isNode, rfl⟩ := List.mem_map.mp member
  obtain ⟨item, isItem, sameStart⟩ := exists_item_of_mem_nodesOf isNode
  rw [← sameStart]
  exact behind _ (List.mem_map_of_mem isItem)

private theorem aloneNode?_span {item : DirectiveItem} {node : Node}
    (isNode : aloneNode? source item = some node) : node.span = item.span := by
  unfold aloneNode? at isNode
  split at isNode
  · cases isNode
  · split at isNode
    · cases isNode
    · rw [← Option.some.inj isNode]
      rfl

theorem nodesOf_separate (separate : Separate source (items.map Item.span)) :
    Separate source ((nodesOf source items).map Node.span) := by
  have alone : ∀ (item : DirectiveItem) (rest : List Item),
      Separate source (item.span :: rest.map Item.span) →
      Separate source ((nodesOf source rest).map Node.span) →
      Separate source (((aloneNode? source item).toList ++ nodesOf source rest).map Node.span) := by
    intro item rest separate separateRest
    obtain ⟨proper, behind, -⟩ := separate_cons.mp separate
    cases isNode : aloneNode? source item with
    | none => exact separateRest
    | some node =>
        rw [Option.toList_some, List.singleton_append, List.map_cons, aloneNode?_span isNode]
        exact separate_cons.mpr ⟨proper, fun _ => nodesOf_behind behind, separateRest⟩
  fun_induction nodesOf source items with
  | case1 => exact separate
  | case2 fence rest inductionHypothesis =>
      obtain ⟨proper, behind, separateRest⟩ := separate_cons.mp separate
      exact separate_cons.mpr
        ⟨proper, fun _ => nodesOf_behind behind, inductionHypothesis separateRest⟩
  | case3 item fence rest settings found inductionHypothesis =>
      obtain ⟨⟨itemOrdered, itemStart, -⟩, afterItem, separateFence⟩ := separate_cons.mp separate
      obtain ⟨⟨fenceOrdered, -, fenceStop⟩, behind, separateRest⟩ := separate_cons.mp separateFence
      have apart : item.span.stop ≤ fence.span.start := afterItem _ List.mem_cons_self
      -- The block runs over both items, from the start of the one to the end of the other.
      have proper : (⟨item.span.start, fence.span.stop⟩ : Span).Proper source := by
        refine ⟨?_, itemStart, fenceStop⟩
        calc item.span.start < item.span.stop := itemOrdered
          _ ≤ fence.span.start := apart
          _ < fence.span.stop := fenceOrdered
      exact separate_cons.mpr
        ⟨proper, fun _ => nodesOf_behind behind, inductionHypothesis separateRest⟩
  | case4 item fence rest missing inductionHypothesis =>
      exact alone item (.fence fence :: rest) separate
        (inductionHypothesis (separate_cons.mp separate).2.2)
  | case5 item rest noFence inductionHypothesis =>
      exact alone item rest separate (inductionHypothesis (separate_cons.mp separate).2.2)

/-! ## Weaving -/

/-- Spans with something in them that follow each other from one place to another without
gap or overlap. -/
def Tiles : Nat → List Span → Nat → Prop
  | start, [], stop => start = stop
  | start, span :: rest, stop => span.start = start ∧ span.start < span.stop ∧ Tiles span.stop rest stop

theorem Tiles.le {start stop : Nat} {spans : List Span} (tiles : Tiles start spans stop) :
    start ≤ stop := by
  induction spans generalizing start with
  | nil => exact Nat.le_of_eq tiles
  | cons span rest inductionHypothesis =>
      obtain ⟨rfl, ordered, tilesRest⟩ := tiles
      exact Nat.le_trans (Nat.le_of_lt ordered) (inductionHypothesis tilesRest)

/-- Tiles start one behind the other. -/
theorem Tiles.starts {start stop : Nat} {spans : List Span} (tiles : Tiles start spans stop) :
    (∀ span ∈ spans, start ≤ span.start)
      ∧ spans.Pairwise fun earlier later => earlier.start < later.start := by
  induction spans generalizing start with
  | nil => exact ⟨fun _ member => absurd member List.not_mem_nil, List.Pairwise.nil⟩
  | cons span rest inductionHypothesis =>
      obtain ⟨rfl, ordered, tilesRest⟩ := tiles
      obtain ⟨behind, increasing⟩ := inductionHypothesis tilesRest
      refine ⟨?_, List.pairwise_cons.mpr ⟨?_, increasing⟩⟩
      · intro later member
        rcases List.mem_cons.mp member with rfl | inRest
        · exact Nat.le_refl _
        · exact Nat.le_trans (Nat.le_of_lt ordered) (behind later inRest)
      · intro later member
        exact Nat.lt_of_lt_of_le ordered (behind later member)

theorem Tiles.append {start middle stop : Nat} {first second : List Span}
    (before : Tiles start first middle) (after : Tiles middle second stop) :
    Tiles start (first ++ second) stop := by
  induction first generalizing start with
  | nil =>
      obtain rfl : start = middle := before
      exact after
  | cons span rest inductionHypothesis =>
      obtain ⟨isStart, ordered, tilesRest⟩ := before
      exact ⟨isStart, ordered, inductionHypothesis tilesRest⟩

/-- Tiles hold the characters of the stretch they tile. -/
theorem Tiles.chars {start stop : Nat} {spans : List Span} (tiles : Tiles start spans stop)
    (first : IsBoundary source start) (boundaries : ∀ span ∈ spans, IsBoundary source span.stop) :
    (spans.flatMap fun span => span.chars source) = (⟨start, stop⟩ : Span).chars source := by
  induction spans generalizing start with
  | nil =>
      obtain rfl : start = stop := tiles
      exact (chars_of_le (Nat.le_refl start)).symm
  | cons span rest inductionHypothesis =>
      obtain ⟨rfl, ordered, tilesRest⟩ := tiles
      obtain ⟨boundary, boundariesRest⟩ := List.forall_mem_cons.mp boundaries
      rw [List.flatMap_cons, inductionHypothesis tilesRest boundary boundariesRest]
      exact chars_append first boundary (Nat.le_of_lt ordered) tilesRest.le

private theorem mem_gap {start stop : Nat} {node : Node} (member : node ∈ gap source start stop) :
    start < stop
      ∧ node = .text ⟨(⟨start, stop⟩ : Span).slice source, ⟨start, stop⟩, rangeOf source ⟨start, stop⟩⟩ := by
  unfold gap at member
  split at member
  · next ordered => exact ⟨ordered, List.mem_singleton.mp member⟩
  · cases member

private theorem gap_tiles {start stop : Nat} (ordered : start ≤ stop) :
    Tiles start ((gap source start stop).map Node.span) stop := by
  unfold gap
  split
  · next before => exact ⟨rfl, before, rfl⟩
  · next covered => exact Nat.le_antisymm ordered (Nat.le_of_not_lt covered)

/-- A text node that holds the stretch of the source that it spans. -/
def TextNode.Copies (source : String) (text : TextNode) : Prop :=
  text.span.Proper source ∧ text.text = text.span.slice source
    ∧ text.range = rangeOf source text.span

private theorem gap_copies {start stop : Nat} (first : IsBoundary source start)
    (last : IsBoundary source stop) {node : Node} (member : node ∈ gap source start stop) :
    ∃ text, node = .text text ∧ text.Copies source := by
  obtain ⟨ordered, rfl⟩ := mem_gap member
  exact ⟨_, rfl, ⟨ordered, first, last⟩, rfl, rfl⟩

section Woven

variable {cursor : Nat} {nodes : List Node}

/-- Separate nodes with the source woven in tile the source from the cursor on. -/
theorem woven_tiles (separate : Separate source (nodes.map Node.span))
    (placed : cursor ≤ source.utf8ByteSize) (behind : ∀ node ∈ nodes, cursor ≤ node.span.start) :
    Tiles cursor ((woven source cursor nodes).map Node.span) source.utf8ByteSize := by
  induction nodes generalizing cursor with
  | nil => exact gap_tiles placed
  | cons node rest inductionHypothesis =>
      obtain ⟨⟨ordered, -, stop⟩, behindNode, separateRest⟩ := separate_cons.mp separate
      rw [woven, List.map_append, List.map_cons]
      refine (gap_tiles (behind node List.mem_cons_self)).append ⟨rfl, ordered, ?_⟩
      exact inductionHypothesis separateRest stop.le_end
        fun later member => behindNode _ (List.mem_map_of_mem member)

/-- What is woven in are copies of the source. -/
theorem mem_woven (separate : Separate source (nodes.map Node.span))
    (placed : IsBoundary source cursor) {node : Node} (member : node ∈ woven source cursor nodes) :
    node ∈ nodes ∨ ∃ text, node = .text text ∧ text.Copies source := by
  induction nodes generalizing cursor with
  | nil => exact Or.inr (gap_copies placed (isBoundary_end source) member)
  | cons first rest inductionHypothesis =>
      obtain ⟨⟨-, start, stop⟩, -, separateRest⟩ := separate_cons.mp separate
      rw [woven, List.mem_append, List.mem_cons] at member
      rcases member with inGap | rfl | later
      · exact Or.inr (gap_copies placed start inGap)
      · exact Or.inl List.mem_cons_self
      · exact (inductionHypothesis separateRest stop later).imp_left (List.mem_cons_of_mem _)

def Alternates (nodes : List Node) : Prop :=
  nodes.IsChain fun earlier later => ¬ (earlier.isText = true ∧ later.isText = true)

private theorem woven_alternates (noText : ∀ node ∈ nodes, node.isText = false) :
    Alternates (woven source cursor nodes) := by
  induction nodes generalizing cursor with
  | nil =>
      rw [woven]
      unfold gap
      split
      · exact List.isChain_singleton _
      · exact List.isChain_nil
  | cons node rest inductionHypothesis =>
      obtain ⟨noTextNode, noTextRest⟩ := List.forall_mem_cons.mp noText
      have fromNode : Alternates (node :: woven source node.span.stop rest) := by
        refine (inductionHypothesis noTextRest).cons ?_
        rintro later - ⟨isText, -⟩
        exact absurd isText (by rw [noTextNode]; decide)
      rw [woven]
      unfold gap
      split
      · refine List.IsChain.cons_cons ?_ fromNode
        rintro ⟨-, isText⟩
        exact absurd isText (by rw [noTextNode]; decide)
      · exact fromNode

end Woven

/-! ## Cuts in order

Every cut that the checked assembly makes is one that it can make, so it takes the same steps as
`assemble`. -/

namespace Checked

section InOrder

variable {assembly : Assembly}

private theorem fill_eq {stop : Nat} (placed : IsBoundary source assembly.cursor)
    (last : IsBoundary source stop) :
    fill source assembly stop = some (assembly.fill source stop) := by
  unfold fill Assembly.fill
  split
  · next before =>
      have cut : Span.cut? ⟨assembly.cursor, stop⟩ source = some _ :=
        Span.cut?_eq (Nat.le_of_lt before) placed last
      dsimp only
      rw [cut]
      rfl
  · rfl

private theorem push_eq (node : Node) (placed : IsBoundary source assembly.cursor)
    (start : IsBoundary source node.span.start) :
    push source assembly node = some (assembly.push source node) := by
  rw [push, fill_eq placed start]
  rfl

theorem settingsFor?_eq {item : DirectiveItem} {fence : FenceItem}
    (item_proper : item.span.Proper source) (fence_proper : fence.span.Proper source)
    (apart : item.span.stop ≤ fence.span.start) :
    settingsFor? source item fence = some (Document.settingsFor? source item fence) := by
  unfold settingsFor? Document.settingsFor?
  rw [Span.cut?_eq apart item_proper.2.2 fence_proper.2.1]
  cases item.kind with
  | config => rfl
  | block =>
      cases decodeBody Directive.decodeSettings item.body with
      | error reason => simp [Except.toOption]
      | ok settings => rfl

private theorem assembleAlone_eq {item : DirectiveItem} (placed : IsBoundary source assembly.cursor)
    (item_proper : item.span.Proper source) :
    assembleAlone source assembly item = some (Document.assembleAlone source assembly item)
      ∧ IsBoundary source (Document.assembleAlone source assembly item).cursor := by
  unfold assembleAlone Document.assembleAlone assembleConfig
  cases item.kind with
  | block =>
      refine ⟨rfl, ?_⟩
      dsimp only
      split <;> exact placed
  | config =>
      cases decodeBody Directive.decodeConfig item.body with
      | error reason => exact ⟨rfl, placed⟩
      | ok config =>
          refine ⟨push_eq _ ?_ item_proper.2.1, item_proper.2.2⟩
          split <;> exact placed

private theorem assemble_eq (assembly : Assembly) (placed : IsBoundary source assembly.cursor)
    (separate : Separate source (items.map Item.span)) :
    assemble source items assembly = some (Document.assemble source items assembly)
      ∧ IsBoundary source (Document.assemble source items assembly).cursor := by
  fun_induction Document.assemble source items assembly with
  | case1 assembly => exact ⟨rfl, placed⟩
  | case2 fence rest assembly inductionHypothesis =>
      obtain ⟨proper, -, separateRest⟩ := separate_cons.mp separate
      rw [assemble, push_eq (.code (codeBlock source fence none)) placed proper.2.1]
      exact inductionHypothesis proper.2.2 separateRest
  | case3 item fence rest assembly settings found inductionHypothesis =>
      obtain ⟨properItem, apart, separateFence⟩ := separate_cons.mp separate
      obtain ⟨properFence, -, separateRest⟩ := separate_cons.mp separateFence
      rw [assemble, settingsFor?_eq properItem properFence (apart _ List.mem_cons_self), found]
      dsimp only [Option.bind_eq_bind, Option.bind_some]
      rw [push_eq (.code (codeBlock source fence (some (item.span, settings)))) placed properItem.2.1]
      exact inductionHypothesis properFence.2.2 separateRest
  | case4 item fence rest assembly missing inductionHypothesis =>
      obtain ⟨properItem, apart, separateFence⟩ := separate_cons.mp separate
      obtain ⟨properFence, -, -⟩ := separate_cons.mp separateFence
      obtain ⟨alone, placedBehind⟩ := assembleAlone_eq placed properItem
      rw [assemble, settingsFor?_eq properItem properFence (apart _ List.mem_cons_self), missing]
      dsimp only [Option.bind_eq_bind, Option.bind_some]
      rw [alone]
      exact inductionHypothesis placedBehind separateFence
  | case5 item rest assembly noFence inductionHypothesis =>
      obtain ⟨proper, -, separateRest⟩ := separate_cons.mp separate
      obtain ⟨alone, placedBehind⟩ := assembleAlone_eq placed proper
      rw [assemble, alone]
      · exact inductionHypothesis placedBehind separateRest
      · exact noFence

private theorem build_eq (path : String) (separate : Separate source (items.map Item.span)) :
    build source path items = some (Document.build source path items) := by
  obtain ⟨assembled, placed⟩ := assemble_eq {} (isBoundary_zero source) separate
  rw [build, assembled, Option.bind_eq_bind, Option.bind_some, fill_eq placed (isBoundary_end source)]
  rfl

end InOrder

end Checked

/-! ## The partition -/

structure Partitions (source : String) (items : List Item) (nodes : List Node) : Prop where
  /-- Spans have something in them and follow each other from the start of the source to
  its end. -/
  tiles : Tiles 0 (nodes.map Node.span) source.utf8ByteSize
  /-- Cut along the spans, the source is whole. -/
  whole : String.join (nodes.map fun node => node.span.slice source) = source
  texts : ∀ text, .text text ∈ nodes → text.span.cut? source = some text.text
  alternates : Alternates nodes
  ranges : ∀ node ∈ nodes, node.range = rangeOf source node.span
  /-- A block with settings runs from the directive that gives them through its fence. -/
  annotated : ∀ block settings, .code block ∈ nodes → block.settings = some settings →
    ∃ item fence, [.directive item, .fence fence] <:+: items
      ∧ decodeBody Directive.decodeSettings item.body = .ok settings
      ∧ block.span = ⟨item.span.start, fence.span.stop⟩

theorem Made.annotated_span {block : CodeBlock} {settings : Directive.Settings}
    (made : Made source items (.code block)) (isSettings : block.settings = some settings) :
    ∃ item fence, [.directive item, .fence fence] <:+: items
      ∧ decodeBody Directive.decodeSettings item.body = .ok settings
      ∧ block.span = ⟨item.span.start, fence.span.stop⟩ := by
  cases made with
  | plain member => cases isSettings
  | @annotated item fence own adjacent adopted =>
      obtain rfl : own = settings := Option.some.inj isSettings
      refine ⟨item, fence, adjacent, ?_, rfl⟩
      unfold settingsFor? at adopted
      split at adopted
      · cases decoded : decodeBody Directive.decodeSettings item.body with
        | error reason => simp [decoded, Except.toOption] at adopted
        | ok value => simp_all [Except.toOption]
      · cases adopted

theorem build_tiles (path : String) (separate : Separate source (items.map Item.span)) :
    Tiles 0 ((build source path items).document.nodes.map Node.span) source.utf8ByteSize := by
  rw [build_nodes]
  exact woven_tiles (nodesOf_separate separate) (Nat.zero_le _) fun _ _ => Nat.zero_le _

/-- **Documents partition their source.** Items that are separate stretches of a source
build a document whose nodes tile it, and no cut on the way is out of order. -/
theorem build_partitions_source (source path : String) (items : List Item)
    (separate : Separate source (items.map Item.span)) :
    Checked.build source path items = some (build source path items)
      ∧ Partitions source items (build source path items).document.nodes := by
  refine ⟨Checked.build_eq path separate, ?_⟩
  have separateNodes := nodesOf_separate separate
  have known : ∀ node ∈ woven source 0 (nodesOf source items),
      Made source items node ∨ ∃ text, node = .text text ∧ text.Copies source :=
    fun node member =>
      (mem_woven separateNodes (isBoundary_zero source) member).imp_left made_of_mem_nodesOf
  have tiles := build_tiles path separate
  rw [build_nodes] at tiles
  have stops : ∀ span ∈ (woven source 0 (nodesOf source items)).map Node.span,
      IsBoundary source span.stop := by
    intro span member
    obtain ⟨node, isNode, rfl⟩ := List.mem_map.mp member
    rcases mem_woven separateNodes (isBoundary_zero source) isNode with own | ⟨text, rfl, proper, -⟩
    · exact (separateNodes.1 _ (List.mem_map_of_mem own)).2.2
    · exact proper.2.2
  rw [build_nodes]
  refine ⟨tiles, ?_, ?_, ?_, ?_, ?_⟩
  · apply String.toList_inj.mp
    rw [String.toList_join, List.flatMap_map]
    have chars := tiles.chars (isBoundary_zero source) stops
    rw [List.flatMap_map, chars_whole] at chars
    simpa only [Span.slice, String.toList_ofList] using chars
  · intro text member
    rcases known _ member with made | ⟨own, isOwn, ⟨ordered, start, stop⟩, isText, -⟩
    · cases made
    · obtain rfl := Node.text.inj isOwn
      rw [Span.cut?_eq (Nat.le_of_lt ordered) start stop, isText]
  · exact woven_alternates fun node member => (made_of_mem_nodesOf member).noText
  · intro node member
    rcases known node member with made | ⟨text, rfl, -, -, isRange⟩
    · exact made.range
    · exact isRange
  · intro block settings member isSettings
    rcases known _ member with made | ⟨text, isText, -⟩
    · exact made.annotated_span isSettings
    · cases isText

/-- A character of two bytes, and a directive with its fence behind it. -/
def accentedGuide : String :=
  "é\n<!-- @codeblock a -->\n```\nx\n```\nz"

def accentedItems : List Item :=
  [.directive ⟨.block, some " a ", ⟨3, 24⟩⟩, .fence ⟨"", "x", [0], ⟨25, 34⟩⟩]

theorem build_partitions_source_accented :
    Separate accentedGuide (accentedItems.map Item.span)
      ∧ Checked.build accentedGuide "guide.md" accentedItems
          = some (build accentedGuide "guide.md" accentedItems)
      ∧ Partitions accentedGuide accentedItems
          (build accentedGuide "guide.md" accentedItems).document.nodes := by
  have separate : Separate accentedGuide (accentedItems.map Item.span) := by decide
  exact ⟨separate, build_partitions_source accentedGuide "guide.md" accentedItems separate⟩

end Tangle.Document
