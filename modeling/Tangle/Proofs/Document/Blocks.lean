import Tangle.Proofs.Document.Nodes

/-!
Contract: the code blocks of a parsed text start one behind the other.

Owns: that every node starts where an item does, and items one behind the other.

Does **not** own: which nodes there are (`Tangle.Proofs.Document.Nodes`).
-/

set_option autoImplicit false

namespace Tangle.Document

open Tangle.Source

/-- The code blocks of a built document are those among the nodes of its items. -/
theorem build_codeBlocks (source path : String) (items : List Item) :
    (build source path items).document.codeBlocks
      = (nodesOf source items).filterMap Node.code? := by
  have textless : ∀ nodes : List Node,
      nodes.filterMap Node.code? = (outline nodes).filterMap Node.code? := by
    intro nodes
    rw [outline, List.filterMap_filter]
    refine List.filterMap_congr ?_
    intro node _
    cases node <;> rfl
  rw [← build_outline source path items, ← textless]
  rfl

/-! ## Starts -/

/-- Every node starts where an item does, and no two start at the same one. -/
theorem nodesOf_starts_sublist (source : String) (items : List Item) :
    ((nodesOf source items).map fun node => node.span.start).Sublist
      (items.map fun item => item.span.start) := by
  have alone : ∀ item : DirectiveItem, ((aloneNode? source item).toList.map fun node =>
      node.span.start).Sublist [item.span.start] := by
    intro item
    unfold aloneNode?
    split
    · exact List.nil_sublist _
    · split
      · exact List.nil_sublist _
      · exact List.Sublist.refl _
  fun_induction nodesOf source items with
  | case1 => exact List.Sublist.slnil
  | case2 fence rest inductionHypothesis => exact inductionHypothesis.cons_cons _
  | case3 item fence rest settings found inductionHypothesis =>
      exact (inductionHypothesis.cons _).cons_cons _
  | case4 item fence rest missing inductionHypothesis =>
      rw [List.map_append]
      exact (alone item).append inductionHypothesis
  | case5 item rest noFence inductionHypothesis =>
      rw [List.map_append]
      exact (alone item).append inductionHypothesis

theorem directive?_span {text : List Char} {span : Span} {item : DirectiveItem}
    (isDirective : directive? text span = some item) : item.span = span := by
  rw [directive?, Option.bind_eq_bind, Option.bind_eq_some_iff] at isDirective
  obtain ⟨_, -, isDirective⟩ := isDirective
  dsimp only at isDirective
  split at isDirective
  · rw [Option.bind_eq_bind, Option.bind_some] at isDirective
    rw [← Option.some.inj isDirective]
  · rw [Option.bind_eq_bind, Option.bind_eq_some_iff] at isDirective
    obtain ⟨_, -, made⟩ := isDirective
    rw [← Option.some.inj made]

theorem Item.ofBlock?_start {source : String} {block : Markdown.Block} {item : Item}
    (isItem : Item.ofBlock? source block = some item) : item.span.start = block.span.start := by
  cases block with
  | html span =>
      simp only [Item.ofBlock?, Option.map_eq_some_iff] at isItem
      obtain ⟨directive, isDirective, rfl⟩ := isItem
      show directive.span.start = span.start
      rw [directive?_span isDirective]
      rfl
  | fence info content span =>
      simp only [Item.ofBlock?, Option.some.injEq] at isItem
      rw [← isItem]
      rfl

/-- Items start one behind the other. -/
theorem items_starts_increasing (source : String) :
    ((items source).map fun item => item.span.start).Pairwise (· < ·) := by
  rw [List.pairwise_map, items, List.pairwise_filterMap]
  refine (Markdown.blocks_starts_increasing source).imp ?_
  intro earlier later order first isFirst second isSecond
  rw [Item.ofBlock?_start isFirst, Item.ofBlock?_start isSecond]
  exact order

/-- **Blocks of a parsed text start one behind the other.** -/
theorem parse_starts_increasing (source path : String) :
    ((parse source path).document.codeBlocks.map fun block => block.span.start).Pairwise
      (· < ·) := by
  have increasing := (items_starts_increasing source).sublist
    (nodesOf_starts_sublist source (items source))
  rw [List.pairwise_map] at increasing
  rw [parse, build_codeBlocks, List.pairwise_map, List.pairwise_filterMap]
  refine increasing.imp ?_
  intro earlier later order first isFirst second isSecond
  cases earlier with
  | code block =>
      cases later with
      | code other =>
          rw [← Option.some.inj isFirst, ← Option.some.inj isSecond]
          exact order
      | _ => cases isSecond
  | _ => cases isFirst

/-- No two blocks of a parsed text have the same span. -/
theorem parse_spans_nodup (source path : String) :
    ((parse source path).document.codeBlocks.map CodeBlock.span).Nodup := by
  have increasing := parse_starts_increasing source path
  rw [List.pairwise_map] at increasing
  rw [List.nodup_iff_pairwise_ne, List.pairwise_map]
  refine increasing.imp ?_
  intro earlier later order same
  rw [same] at order
  exact Nat.lt_irrefl _ order

end Tangle.Document
