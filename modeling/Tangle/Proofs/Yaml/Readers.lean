import Tangle.Proofs.Yaml.Nodes
import Tangle.Yaml.Decode

/-!
Contract: what readers make of a node that stands for a tree.

Owns: one lemma for each kind of place (texts, booleans, free values, lists, records), and
`decodeText_document`.

Does **not** own: which records there are (`Tangle.Proofs.Directive.Trees`).

No node of a written tree is a reference, so a reader neither counts nor fails: each lemma
says that it is `pure`.
-/

set_option autoImplicit false

namespace Tangle.Yaml

open Tangle.Data
open Write (Tree)

namespace Context

variable {context : Context} {node : Node}

/-! ## Texts -/

/-- A text that is written plainly is not read as anything else. -/
theorem plain_of_style {value : String} (isPlain : Write.style value = .plain) :
    value.isEmpty = false ∧ Resolve.isNull value = false ∧ Resolve.plain value = .text := by
  rcases Scanner.style_cases value with ⟨_, _, quiet, _⟩ | ⟨isStyle, _⟩ | ⟨isStyle, _⟩ | isStyle
  · rw [Write.needsQuotes, Bool.or_eq_false_iff] at quiet
    have isText : Resolve.plain value = .text := by simpa using quiet.1
    have notNull : (value.isEmpty || Resolve.isNull value) = false := by
      rw [Resolve.plain] at isText
      split at isText
      · cases isText
      · next filled => simpa using filled
    rw [Bool.or_eq_false_iff] at notNull
    exact ⟨notNull.1, notNull.2, isText⟩
  all_goals
    rw [isPlain] at isStyle
    cases isStyle

theorem readText_text {value : String} (depicts : Depicts (.text value) node) :
    context.readText node = pure value := by
  cases depicts
  rfl

theorem readOptionalText_text {value : String} (depicts : Depicts (.text value) node)
    (outer : Context × Mark) : context.readOptionalText outer node = pure (some value) := by
  obtain ⟨mark, _⟩ := depicts
  by_cases isPlain : Write.style value = .plain
  · obtain ⟨filled, notNull, _⟩ := plain_of_style isPlain
    show (if !(Write.style value == .plain) then pure (some value)
      else pure (if value.isEmpty || Resolve.isNull value then none else some value) : Decoder _) = _
    rw [isPlain, filled, notNull]
    rfl
  · show (if !(Write.style value == .plain) then pure (some value) else _ : Decoder _) = _
    rw [if_pos (by simpa using isPlain)]

theorem readBool_boolean {value : Bool} (depicts : Depicts (.boolean value) node) :
    context.readBool node = pure value := by
  cases depicts
  cases value <;> rfl

/-! ## Free values -/

theorem readValue_text {value : String} (source : Source) (depth : Nat) (path : List PathStep)
    (depicts : Depicts (.text value) node) :
    readValue source depth path node = pure (.text value) := by
  obtain ⟨mark, _⟩ := depicts
  have resolves : Scalar.resolve ⟨mark, none, value, Write.style value⟩ = .ok .text := by
    by_cases isPlain : Write.style value = .plain
    · simp [Scalar.resolve, Scalar.isPlain, isPlain, (plain_of_style isPlain).2.2]
    · simp [Scalar.resolve, Scalar.isPlain, isPlain]
  rw [readValue]
  show readScalarValue ⟨source, path, depth⟩ ⟨mark, none, value, Write.style value⟩ = _
  rw [readScalarValue, resolves]

private theorem readItems_texts {values : List String} {children : List Node}
    {read : Context → Node → Decoder Value}
    (reads : ∀ place value node, Depicts (.text value) node → read place node = pure (.text value))
    (each : List.Forall₂ Depicts (values.map .text) children) (index : Nat) :
    context.readItems true read index children = pure (values.map .text) := by
  induction values generalizing children index with
  | nil =>
      cases each
      rfl
  | cons value values inductionHypothesis =>
      cases each with
      | cons first others =>
          rw [readItems, reads _ _ _ first, pure_bind, inductionHypothesis others, pure_bind]
          rfl

theorem readValue_texts {values : List String} (source : Source) (depth : Nat) (path : List PathStep)
    (depicts : Depicts (.list (values.map .text)) node) :
    readValue source (depth + 1) path node = pure (.list (values.map .text)) := by
  cases depicts with
  | list mark each =>
      have items := @readItems_texts ⟨source, path, depth + 1⟩ _ _
        (fun place child => readValue source depth place.path child)
        (fun place _ _ depicts => readValue_text source depth place.path depicts) each 0
      rw [readValue]
      show (readItems ⟨source, path, depth + 1⟩ true
        (fun place child => readValue source depth place.path child) 0 _
          >>= fun items => pure (Value.list items)) = _
      rw [items, pure_bind]

/-! ## Lists -/

theorem readMembers_list {α : Type} {tree : α → Tree} {values : List α} {children : List Node}
    {read : Context → Node → Decoder (Except Refusal α)} (mark : Mark)
    (reads : ∀ value ∈ values, ∀ step node, Depicts (tree value) node →
      read (context.child step) node = pure (.ok value))
    (each : List.Forall₂ Depicts (values.map tree) children) (index : Nat) :
    context.readMembers mark true read index children = pure values := by
  induction values generalizing children index with
  | nil =>
      cases each
      rfl
  | cons value values inductionHypothesis =>
      cases each with
      | cons first others =>
          obtain ⟨readsValue, readsMore⟩ := List.forall_mem_cons.mp reads
          rw [readMembers, readsValue _ _ first, pure_bind]
          dsimp only
          rw [inductionHypothesis readsMore others, pure_bind]

/-- The members of a list are read one level deeper. -/
theorem readList_list {α : Type} {tree : α → Tree} {values : List α} {depth : Nat}
    {read : Context → Node → Decoder (Except Refusal α)} (isDepth : context.depth = depth + 1)
    (reads : ∀ value ∈ values, ∀ place : Context, place.depth = depth → ∀ node,
      Depicts (tree value) node → read place node = pure (.ok value))
    (depicts : Depicts (.list (values.map tree)) node) :
    context.readList read node = pure values := by
  cases depicts with
  | list mark each =>
      have enters : context.enter mark = pure { context with depth := depth } := by
        rw [enter, isDepth]
      show (context.enter mark >>= fun inside => inside.readMembers mark true read 0 _) = _
      rw [enters, pure_bind]
      exact readMembers_list mark (fun value isIn step => reads value isIn _ rfl) each 0

/-! ## Records -/

/-- Fields with different names are taken in one after another. -/
theorem readFields_fields {σ : Type} {mark : Mark} {names seen : List String}
    {read : String → Context → Node → σ → Decoder σ} {fields : List (String × Tree)}
    {children : List Node} {copy : String → σ → σ}
    (reads : ∀ field ∈ fields, ∀ node, Depicts field.2 node → ∀ record,
      read field.1 (context.child (.key field.1)) node record = pure (copy field.1 record))
    (known : ∀ field ∈ fields, field.1 ∈ names) (fresh : ∀ field ∈ fields, field.1 ∉ seen)
    (apart : (fields.map Prod.fst).Nodup) (each : Fields Depicts fields children) (record : σ) :
    context.readFields mark true names read children seen record
      = pure (fields.foldl (fun record field => copy field.1 record) record) := by
  induction each generalizing seen record with
  | nil => rfl
  | @cons name value node fields children keyMark first others inductionHypothesis =>
      obtain ⟨readsFirst, readsMore⟩ := List.forall_mem_cons.mp reads
      obtain ⟨knownFirst, knownMore⟩ := List.forall_mem_cons.mp known
      obtain ⟨freshFirst, freshMore⟩ := List.forall_mem_cons.mp fresh
      rw [List.map_cons, List.nodup_cons] at apart
      have isName : context.readFieldName names (.scalar ⟨keyMark, none, name, .plain⟩) = pure name := by
        show (if names.contains name then pure name else _ : Decoder String) = _
        rw [if_pos (List.contains_iff_mem.mpr knownFirst)]
      have freshOthers : ∀ field ∈ fields, field.1 ∉ name :: seen := by
        intro field isIn isSeen
        rcases List.mem_cons.mp isSeen with isSame | isSeen
        · have isMapped : field.1 ∈ fields.map Prod.fst := List.mem_map_of_mem isIn
          rw [isSame] at isMapped
          exact apart.1 isMapped
        · exact freshMore field isIn isSeen
      rw [readFields, isName, pure_bind, if_neg (by simpa using freshFirst)]
      show (read name (context.child (.key name)) node record >>= fun record =>
        context.readFields mark true names read children (name :: seen) record) = _
      rw [readsFirst node first record, pure_bind]
      exact inductionHypothesis readsMore knownMore freshOthers apart.2 (copy name record)

theorem readRecord_record {σ : Type} {names : List String} {values : List Tree} {depth : Nat}
    {known : List String} {read : Context × Mark → String → Context → Node → σ → Decoder σ}
    {copy : String → σ → σ} (kind : String) (isDepth : context.depth = depth + 1)
    (reads : ∀ field ∈ names.zip values, ∀ outer, ∀ place : Context, place.depth = depth → ∀ node,
      Depicts field.2 node → ∀ record, read outer field.1 place node record = pure (copy field.1 record))
    (sub : ((names.zip values).map Prod.fst).Sublist known) (apart : known.Nodup)
    (depicts : Depicts (.record names values) node) (empty : σ) :
    ∃ mark, context.readRecord kind known read empty node
      = pure ((names.zip values).foldl (fun record field => copy field.1 record) empty, mark) := by
  cases depicts with
  | record mark each =>
      refine ⟨mark, ?_⟩
      have enters : context.enter mark = pure { context with depth := depth } := by
        rw [enter, isDepth]
      have fields := @readFields_fields { context with depth := depth } σ mark known []
        (read ({ context with depth := depth }, mark)) _ _ copy
        (fun field isIn node => reads field isIn _ _ rfl node)
        (fun field isIn => sub.subset (List.mem_map_of_mem isIn)) (fun _ _ => List.not_mem_nil)
        (apart.sublist sub) each empty
      show (context.enter mark >>= fun inside =>
        inside.readFields mark true known (read (inside, mark)) _ [] empty >>= fun record =>
          pure (record, mark)) = _
      rw [enters, pure_bind, fields, pure_bind]

end Context

/-! ## Documents -/

/-- A reader of records gives what it makes of the record that was written. -/
theorem decodeText_document {α : Type} {read : Context → Node → Decoder α} {value : α}
    {names : List String} {values : List Tree} (proper : Proper (.record names values))
    (reads : ∀ context : Context, context.depth = 128 → ∀ node,
      Depicts (.record names values) node → read context node = pure value) :
    decodeText read (Write.document (.record names values)) = .ok value := by
  obtain ⟨node, depicts, isRoot, whole, isLast⟩ := source_document proper
  rw [decodeText, isRoot]
  dsimp only
  rw [reads _ rfl node depicts]
  show (if (Source.ofText _).failure.isSome then _ else if (Source.ofText _).more then _ else _) = _
  rw [whole, isLast]
  rfl

end Tangle.Yaml
