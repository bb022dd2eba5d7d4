import Mathlib.Data.List.Forall2
import Tangle.Proofs.Yaml.Events

/-!
Contract: the tree that is read back from a written document.

Owns: `Depicts`, the relation between a tree and the node that stands for it, and
`source_document`.

Does **not** own: the events (`Tangle.Proofs.Yaml.Events`), or what readers make of a node
(`Tangle.Proofs.Directive.Reread`).

A node carries marks, which depend on how the text is laid out. They matter to messages
only, so the relation leaves them open.
-/

set_option autoImplicit false

namespace Tangle.Yaml

open Write (Tree)
open Node (Piece)

/-! ## Nodes that stand for trees -/

/-- The names of the fields and what stands for their values, in turn. -/
inductive Fields (Depicts : Tree → Node → Prop) : List (String × Tree) → List Node → Prop
  | nil : Fields Depicts [] []
  | cons {name : String} {value : Tree} {node : Node} {fields : List (String × Tree)}
      {children : List Node} (mark : Mark) (first : Depicts value node)
      (others : Fields Depicts fields children) :
      Fields Depicts ((name, value) :: fields) (.scalar ⟨mark, none, name, .plain⟩ :: node :: children)

/-- The node has the shape and the texts of the tree. -/
inductive Depicts : Tree → Node → Prop
  | text (mark : Mark) (value : String) :
      Depicts (.text value) (.scalar ⟨mark, none, value, Write.style value⟩)
  | boolean (mark : Mark) (value : Bool) :
      Depicts (.boolean value) (.scalar ⟨mark, none, booleanText value, .plain⟩)
  | list {items : List Tree} {children : List Node} (mark : Mark)
      (each : List.Forall₂ Depicts items children) :
      Depicts (.list items) (.sequence mark none children true)
  | record {names : List String} {values : List Tree} {children : List Node} (mark : Mark)
      (each : Fields Depicts (names.zip values) children) :
      Depicts (.record names values) (.mapping mark none children true)

/-! ## Pieces -/

/-- Events that add one piece to a document and define no anchor. -/
def EventKind.isPiece : EventKind → Bool
  | .scalar none _ _ _ => true
  | .sequenceStart none _ => true
  | .mappingStart none _ => true
  | .sequenceEnd => true
  | .mappingEnd => true
  | _ => false

def Event.piece (event : Event) : Piece :=
  match event.kind with
  | .scalar _ tag value style => .scalar ⟨event.mark, tag, value, style⟩
  | .sequenceStart _ tag => .sequenceStart event.mark tag
  | .mappingStart _ tag => .mappingStart event.mark tag
  | _ => .finish

private theorem Loading.run_piece {event : Event} (isPiece : event.kind.isPiece = true)
    (failure : Option SyntaxError) (rest : List Event) (loading : Loading) :
    run failure (event :: rest) loading = run failure rest (loading.push event.piece) := by
  obtain ⟨kind, mark⟩ := event
  cases kind with
  | scalar anchor _ _ _ => cases anchor with
      | none => rfl
      | some _ => exact Bool.noConfusion isPiece
  | sequenceStart anchor _ => cases anchor with
      | none => rfl
      | some _ => exact Bool.noConfusion isPiece
  | mappingStart anchor _ => cases anchor with
      | none => rfl
      | some _ => exact Bool.noConfusion isPiece
  | sequenceEnd => rfl
  | mappingEnd => rfl
  | streamStart => exact Bool.noConfusion isPiece
  | streamEnd => exact Bool.noConfusion isPiece
  | documentStart => exact Bool.noConfusion isPiece
  | documentEnd => exact Bool.noConfusion isPiece
  | reference => exact Bool.noConfusion isPiece

private theorem Loading.run_pieces {events : List Event} (all : ∀ event ∈ events, event.kind.isPiece = true)
    (failure : Option SyntaxError) (rest : List Event) (loading : Loading) :
    run failure (events ++ rest) loading
      = run failure rest { loading with pieces := loading.pieces ++ events.map Event.piece } := by
  induction events generalizing loading with
  | nil => simp
  | cons event events inductionHypothesis =>
      obtain ⟨first, others⟩ := List.forall_mem_cons.mp all
      rw [List.cons_append, run_piece first, inductionHypothesis others]
      simp [push]

private theorem itemEvents_eq_flatMap (items : List Tree) : itemEvents items = items.flatMap nodeEvents := by
  induction items with
  | nil => rw [itemEvents, List.flatMap_nil]
  | cons item items inductionHypothesis =>
      rw [itemEvents, inductionHypothesis, List.flatMap_cons]

private theorem fieldEvents_eq_flatMap (names : List String) (values : List Tree) :
    fieldEvents names values
      = (names.zip values).flatMap fun field =>
          .scalar none none field.1 .plain :: nodeEvents field.2 := by
  induction names generalizing values with
  | nil => exact fieldEvents_none rfl
  | cons name names inductionHypothesis =>
      cases values with
      | nil => exact fieldEvents_none rfl
      | cons value values =>
          rw [fieldEvents, inductionHypothesis, List.zip_cons_cons, List.flatMap_cons]

private theorem isPiece_nodeEvents {tree : Tree} (proper : Proper tree) :
    ∀ kind ∈ nodeEvents tree, kind.isPiece = true := by
  induction proper with
  | text => simp [nodeEvents, EventKind.isPiece]
  | boolean => simp [nodeEvents, EventKind.isPiece]
  | list _ _ each =>
      rw [nodeEvents, itemEvents_eq_flatMap]
      refine List.forall_mem_append.mpr ⟨List.forall_mem_cons.mpr ⟨rfl, ?_⟩,
        List.forall_mem_singleton.mpr rfl⟩
      intro kind isIn
      obtain ⟨item, isItem, isKind⟩ := List.mem_flatMap.mp isIn
      exact each item isItem kind isKind
  | record _ _ _ each =>
      rw [nodeEvents, fieldEvents_eq_flatMap]
      refine List.forall_mem_append.mpr ⟨List.forall_mem_cons.mpr ⟨rfl, ?_⟩,
        List.forall_mem_singleton.mpr rfl⟩
      intro kind isIn
      obtain ⟨field, isField, isKind⟩ := List.mem_flatMap.mp isIn
      rcases List.mem_cons.mp isKind with rfl | isKind
      · rfl
      · exact each field isField kind isKind

/-! ## Reading the pieces -/

/-- The pieces of the tree are read as a node that stands for it, given fuel for each. -/
def Readable (tree : Tree) : Prop :=
  ∀ ⦃events : List Event⦄, events.map Event.kind = nodeEvents tree →
    ∃ node, Depicts tree node ∧ ∀ rest fuel, events.length ≤ fuel →
      Node.read fuel (events.map Event.piece ++ rest) = some (node, rest)

private theorem length_pos_of_nodeEvents {tree : Tree} {events : List Event}
    (isEvents : events.map Event.kind = nodeEvents tree) : 0 < events.length := by
  rw [← List.length_map (f := Event.kind), isEvents]
  cases tree <;> rw [nodeEvents] <;> exact Nat.succ_pos _

/-- A child and its siblings. -/
theorem readChildren_cons {fuel : Nat} {pieces behind rest : List Piece} {child : Node}
    {children : List Node} {closed : Bool} (isChild : Node.read fuel pieces = some (child, behind))
    (isOthers : Node.readChildren fuel behind = (children, closed, rest)) :
    Node.readChildren (fuel + 1) pieces = (child :: children, closed, rest) := by
  have notNil : pieces = [] → False := by
    rintro rfl
    cases fuel <;> cases isChild
  have notFinish : ∀ rest, pieces = .finish :: rest → False := by
    rintro rest rfl
    cases fuel <;> cases isChild
  rw [Node.readChildren, isChild]
  · dsimp only
    rw [isOthers]
  · exact notNil
  · exact notFinish

/-- A scalar is read with any fuel. -/
theorem read_scalar {fuel : Nat} (leaf : Scalar) (rest : List Piece) (enough : 0 < fuel) :
    Node.read fuel (.scalar leaf :: rest) = some (.scalar leaf, rest) := by
  obtain ⟨fuel, rfl⟩ := Nat.exists_eq_succ_of_ne_zero (Nat.ne_of_gt enough)
  rfl

/-- The end of a collection is read with any fuel. -/
theorem readChildren_finish {fuel : Nat} (rest : List Piece) (enough : 0 < fuel) :
    Node.readChildren fuel (.finish :: rest) = ([], true, rest) := by
  obtain ⟨fuel, rfl⟩ := Nat.exists_eq_succ_of_ne_zero (Nat.ne_of_gt enough)
  rfl

private theorem readChildren_items {items : List Tree} (each : ∀ item ∈ items, Readable item)
    {events : List Event} (isEvents : events.map Event.kind = itemEvents items) :
    ∃ children, List.Forall₂ Depicts items children ∧ ∀ rest fuel, events.length < fuel →
      Node.readChildren fuel (events.map Event.piece ++ .finish :: rest) = (children, true, rest) := by
  induction items generalizing events with
  | nil =>
      rw [itemEvents, List.map_eq_nil_iff] at isEvents
      refine ⟨[], .nil, fun rest fuel enough => ?_⟩
      rw [isEvents]
      exact readChildren_finish rest (Nat.zero_lt_of_lt enough)
  | cons item more inductionHypothesis =>
      obtain ⟨readsItem, readsMore⟩ := List.forall_mem_cons.mp each
      rw [itemEvents] at isEvents
      obtain ⟨first, others, rfl, isFirst, isOthers⟩ := List.map_eq_append_iff.mp isEvents
      obtain ⟨node, depicts, isNode⟩ := readsItem isFirst
      obtain ⟨children, depicted, isChildren⟩ := inductionHypothesis readsMore isOthers
      have filled := length_pos_of_nodeEvents isFirst
      refine ⟨node :: children, .cons depicts depicted, fun rest fuel enough => ?_⟩
      obtain ⟨fuel, rfl⟩ := Nat.exists_eq_succ_of_ne_zero (Nat.ne_of_gt (Nat.zero_lt_of_lt enough))
      rw [List.length_append] at enough
      rw [List.map_append, List.append_assoc]
      exact readChildren_cons (isNode _ fuel (by omega)) (isChildren rest fuel (by omega))

private theorem readChildren_fields {names : List String} {values : List Tree}
    (each : ∀ field ∈ names.zip values, Readable field.2) {events : List Event}
    (isEvents : events.map Event.kind = fieldEvents names values) :
    ∃ children, Fields Depicts (names.zip values) children ∧ ∀ rest fuel, events.length < fuel →
      Node.readChildren fuel (events.map Event.piece ++ .finish :: rest) = (children, true, rest) := by
  rw [fieldEvents_eq_flatMap] at isEvents
  generalize names.zip values = fields at each isEvents ⊢
  induction fields generalizing events with
  | nil =>
      rw [List.flatMap_nil, List.map_eq_nil_iff] at isEvents
      refine ⟨[], .nil, fun rest fuel enough => ?_⟩
      rw [isEvents]
      exact readChildren_finish rest (Nat.zero_lt_of_lt enough)
  | cons field more inductionHypothesis =>
      obtain ⟨name, value⟩ := field
      obtain ⟨readsValue, readsMore⟩ := List.forall_mem_cons.mp each
      rw [List.flatMap_cons, List.cons_append] at isEvents
      obtain ⟨⟨kind, mark⟩, behind, rfl, rfl, isBehind⟩ := List.map_eq_cons_iff.mp isEvents
      obtain ⟨first, others, rfl, isFirst, isOthers⟩ := List.map_eq_append_iff.mp isBehind
      obtain ⟨node, depicts, isNode⟩ := readsValue isFirst
      obtain ⟨children, depicted, isChildren⟩ := inductionHypothesis readsMore isOthers
      have filled := length_pos_of_nodeEvents isFirst
      refine ⟨_, .cons mark depicts depicted, fun rest fuel enough => ?_⟩
      rw [List.length_cons, List.length_append] at enough
      obtain ⟨fuel, rfl⟩ := Nat.exists_eq_add_of_le' (by omega : 2 ≤ fuel)
      rw [List.map_cons, List.map_append, List.cons_append, List.append_assoc]
      exact readChildren_cons (read_scalar _ _ (Nat.succ_pos _))
        (readChildren_cons (isNode _ fuel (by omega)) (isChildren rest fuel (by omega)))

private theorem readable_of_proper {tree : Tree} (proper : Proper tree) : Readable tree := by
  induction proper with
  | text value =>
      intro events isEvents
      rw [nodeEvents, List.map_eq_singleton_iff] at isEvents
      obtain ⟨⟨kind, mark⟩, rfl, rfl⟩ := isEvents
      exact ⟨_, .text mark value, fun rest fuel enough => read_scalar _ rest enough⟩
  | boolean value =>
      intro events isEvents
      rw [nodeEvents, List.map_eq_singleton_iff] at isEvents
      obtain ⟨⟨kind, mark⟩, rfl, rfl⟩ := isEvents
      exact ⟨_, .boolean mark value, fun rest fuel enough => read_scalar _ rest enough⟩
  | list _ _ each =>
      intro events isEvents
      rw [nodeEvents, List.cons_append] at isEvents
      obtain ⟨⟨kind, mark⟩, behind, rfl, rfl, isBehind⟩ := List.map_eq_cons_iff.mp isEvents
      obtain ⟨inner, last, rfl, isInner, isLast⟩ := List.map_eq_append_iff.mp isBehind
      obtain ⟨⟨kind, stop⟩, rfl, rfl⟩ := List.map_eq_singleton_iff.mp isLast
      obtain ⟨children, depicted, isChildren⟩ := readChildren_items each isInner
      refine ⟨_, .list mark depicted, fun rest fuel enough => ?_⟩
      rw [List.length_cons, List.length_append, List.length_singleton] at enough
      obtain ⟨fuel, rfl⟩ := Nat.exists_eq_add_of_le' (by omega : 1 ≤ fuel)
      simp only [List.map_cons, List.map_append, List.map_nil, List.cons_append, List.append_assoc,
        List.nil_append, Event.piece]
      rw [Node.read, isChildren rest fuel (by omega)]
  | record _ _ _ each =>
      intro events isEvents
      rw [nodeEvents, List.cons_append] at isEvents
      obtain ⟨⟨kind, mark⟩, behind, rfl, rfl, isBehind⟩ := List.map_eq_cons_iff.mp isEvents
      obtain ⟨inner, last, rfl, isInner, isLast⟩ := List.map_eq_append_iff.mp isBehind
      obtain ⟨⟨kind, stop⟩, rfl, rfl⟩ := List.map_eq_singleton_iff.mp isLast
      obtain ⟨children, depicted, isChildren⟩ := readChildren_fields each isInner
      refine ⟨_, .record mark depicted, fun rest fuel enough => ?_⟩
      rw [List.length_cons, List.length_append, List.length_singleton] at enough
      obtain ⟨fuel, rfl⟩ := Nat.exists_eq_add_of_le' (by omega : 1 ≤ fuel)
      simp only [List.map_cons, List.map_append, List.map_nil, List.cons_append, List.append_assoc,
        List.nil_append, Event.piece]
      rw [Node.read, isChildren rest fuel (by omega)]

/-! ## Whole documents -/

/-- A record that was written as a document is read back as the only document of the text. -/
theorem source_document {names : List String} {values : List Tree}
    (proper : Proper (.record names values)) :
    ∃ node, Depicts (.record names values) node
      ∧ (Source.ofText (Write.document (.record names values))).root? = some node
      ∧ (Source.ofText (Write.document (.record names values))).failure = none
      ∧ (Source.ofText (Write.document (.record names values))).more = false := by
  obtain ⟨list, isList, isKinds⟩ := events_document proper
  rw [List.cons_append, List.cons_append] at isKinds
  obtain ⟨started, behind, rfl, isStarted, isKinds⟩ := List.map_eq_cons_iff.mp isKinds
  obtain ⟨opened, behind, rfl, isOpened, isKinds⟩ := List.map_eq_cons_iff.mp isKinds
  obtain ⟨inner, last, rfl, isInner, isLast⟩ := List.map_eq_append_iff.mp isKinds
  obtain ⟨closed, behind, rfl, isClosed, isLast⟩ := List.map_eq_cons_iff.mp isLast
  obtain ⟨ended, rfl, isEnded⟩ := List.map_eq_singleton_iff.mp isLast
  have all : ∀ event ∈ inner, event.kind.isPiece = true := by
    intro event isIn
    refine isPiece_nodeEvents proper event.kind ?_
    rw [← isInner]
    exact List.mem_map_of_mem isIn
  have loads : Loading.run none (started :: opened :: (inner ++ [closed, ended])) {}
      = ⟨{ pieces := inner.map Event.piece }, none, [ended]⟩ := by
    rw [Loading.run, isStarted, Loading.run, isOpened, Loading.run_pieces all, Loading.run, isClosed]
    rfl
  have isSource : Source.ofText (Write.document (.record names values))
      = { pieces := inner.map Event.piece, anchors := [], failure := none, more := false } := by
    rw [Source.ofText, isList]
    dsimp only
    rw [loads]
    simp [isEnded]
  obtain ⟨node, depicts, isNode⟩ := readable_of_proper proper isInner
  have filled := length_pos_of_nodeEvents isInner
  refine ⟨node, depicts, ?_, by rw [isSource], by rw [isSource]⟩
  obtain ⟨first, others, rfl⟩ := List.exists_cons_of_ne_nil (List.ne_nil_of_length_pos filled)
  have isRead := isNode [] (2 * ((first :: others).map Event.piece).length + 2)
    (by rw [List.length_map]; omega)
  rw [List.append_nil] at isRead
  rw [isSource]
  show (Node.read _ ((first :: others).map Event.piece)).map Prod.fst = some node
  rw [isRead]
  rfl

end Tangle.Yaml
