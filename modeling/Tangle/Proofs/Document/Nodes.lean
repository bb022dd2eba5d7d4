import Tangle.Document.Build
import Tangle.Document.Print
import Tangle.Proofs.Source.Spans

/-!
Contract: the nodes of a document, read off the items of its source.

Owns: `nodesOf`, which forms the nodes that are no text, `woven`, which puts the source
between them, `printFrom`, which prints both, and that assembling gives just these.

Does **not** own: diagnostics (`Tangle.Proofs.Document.Accounting`).

Assembling carries nodes, diagnostics and a cursor. Every step either leaves the nodes
alone or adds one, with the text ahead of it. So the nodes that are no text are a function
of the items, and the document is one of these and the source.
-/

set_option autoImplicit false

namespace Tangle.Document

open Tangle.Source

/-! ## Nodes from items -/

def aloneNode? (source : String) (item : DirectiveItem) : Option Node :=
  match item.kind with
  | .block => none
  | .config =>
      match decodeBody Directive.decodeConfig item.body with
      | .error _ => none
      | .ok config => some (.config ⟨config, item.span, rangeOf source item.span⟩)

def nodesOf (source : String) : List Item → List Node
  | [] => []
  | .fence fence :: rest => .code (codeBlock source fence none) :: nodesOf source rest
  | .directive item :: .fence fence :: rest =>
      match settingsFor? source item fence with
      | some settings =>
          .code (codeBlock source fence (some (item.span, settings))) :: nodesOf source rest
      | none => (aloneNode? source item).toList ++ nodesOf source (.fence fence :: rest)
  | .directive item :: rest => (aloneNode? source item).toList ++ nodesOf source rest

def Node.isText : Node → Bool
  | .text _ => true
  | _ => false

/-- The nodes that mean something to the extractor. -/
def outline (nodes : List Node) : List Node :=
  nodes.filter fun node => !node.isText

@[simp] theorem outline_append (first second : List Node) :
    outline (first ++ second) = outline first ++ outline second :=
  List.filter_append ..

/-- What a node has the generator do. -/
inductive Effect where
  | config (config : Directive.Config)
  | block (settings : Option Directive.Settings) (code : String)
  deriving DecidableEq, Repr

def Node.effect? : Node → Option Effect
  | .text _ => none
  | .config node => some (.config node.config)
  | .code block => some (.block block.settings block.code)

def effects (nodes : List Node) : List Effect :=
  nodes.filterMap Node.effect?

theorem effects_cons (node : Node) (rest : List Node) :
    effects (node :: rest) = node.effect?.toList ++ effects rest := by
  unfold effects
  cases isEffect : node.effect? <;> simp [isEffect]

theorem effects_outline (nodes : List Node) : effects (outline nodes) = effects nodes := by
  rw [effects, outline, List.filterMap_filter]
  refine List.filterMap_congr ?_
  intro node _
  cases node <;> rfl

def printed (nodes : List Node) : List Char :=
  nodes.flatMap fun node => node.print.toList

@[simp] theorem printed_append (first second : List Node) :
    printed (first ++ second) = printed first ++ printed second :=
  List.flatMap_append

/-- The text node over a stretch of the source, if there is anything in it. -/
def gap (source : String) (start stop : Nat) : List Node :=
  if start < stop then
    [.text ⟨(⟨start, stop⟩ : Span).slice source, ⟨start, stop⟩, rangeOf source ⟨start, stop⟩⟩]
  else []

/-- Nodes from a place of the source on, with text nodes over what lies between them. -/
def woven (source : String) : Nat → List Node → List Node
  | cursor, [] => gap source cursor source.utf8ByteSize
  | cursor, node :: rest =>
      gap source cursor node.span.start ++ node :: woven source node.span.stop rest

/-- Nodes from a place of the source on, and the source between them. -/
def printFrom (source : String) : Nat → List Node → List Char
  | cursor, [] => (⟨cursor, source.utf8ByteSize⟩ : Span).chars source
  | cursor, node :: rest =>
      (⟨cursor, node.span.start⟩ : Span).chars source ++ node.print.toList
        ++ printFrom source node.span.stop rest

private theorem printed_gap (source : String) (start stop : Nat) :
    printed (gap source start stop) = (⟨start, stop⟩ : Span).chars source := by
  unfold gap
  split
  · simp [printed, Node.print, Span.slice]
  · next covered => rw [chars_of_le (Nat.le_of_not_lt covered)]; rfl

private theorem printed_woven (source : String) (cursor : Nat) (nodes : List Node) :
    printed (woven source cursor nodes) = printFrom source cursor nodes := by
  induction nodes generalizing cursor with
  | nil => exact printed_gap source cursor _
  | cons node rest inductionHypothesis =>
      rw [woven, printFrom, printed_append, printed_gap, ← inductionHypothesis, List.append_assoc]
      rfl

/-! ## Assembling -/

namespace Assembly

variable (source : String) (assembly : Assembly)

private theorem fill_nodes (stop : Nat) :
    (assembly.fill source stop).nodes = assembly.nodes ++ gap source assembly.cursor stop := by
  unfold fill gap
  split
  · rfl
  · exact (List.append_nil _).symm

private theorem outline_gap (start stop : Nat) : outline (gap source start stop) = [] := by
  unfold gap
  split <;> rfl

@[simp] theorem outline_fill (stop : Nat) :
    outline (assembly.fill source stop).nodes = outline assembly.nodes := by
  rw [fill_nodes, outline_append, outline_gap, List.append_nil]

theorem outline_push {node : Node} (noText : node.isText = false) :
    outline (assembly.push source node).nodes = outline assembly.nodes ++ [node] := by
  show outline ((assembly.fill source node.span.start).nodes ++ [node]) = _
  rw [outline_append, outline_fill]
  simp [outline, noText]

end Assembly

/-- What assembling the items makes of an assembly: the nodes of the items behind its own,
with the source woven in from its cursor on. -/
structure Extends (source : String) (before after : Assembly) (nodes : List Node) : Prop where
  outlined : outline after.nodes = outline before.nodes ++ nodes
  weaves : ∀ rest, after.nodes ++ woven source after.cursor rest
    = before.nodes ++ woven source before.cursor (nodes ++ rest)

theorem Extends.refl (source : String) (assembly : Assembly) : Extends source assembly assembly [] :=
  ⟨(List.append_nil _).symm, fun _ => rfl⟩

theorem Extends.trans {source : String} {first second third : Assembly} {nodes more : List Node}
    (before : Extends source first second nodes) (after : Extends source second third more) :
    Extends source first third (nodes ++ more) := by
  refine ⟨?_, ?_⟩
  · rw [after.outlined, before.outlined, List.append_assoc]
  · intro rest
    rw [after.weaves, before.weaves, List.append_assoc]

private theorem extends_push (source : String) (assembly : Assembly) {node : Node}
    (noText : node.isText = false) :
    Extends source assembly (assembly.push source node) [node] := by
  refine ⟨assembly.outline_push source noText, ?_⟩
  intro rest
  show (assembly.fill source node.span.start).nodes ++ [node] ++ woven source node.span.stop rest = _
  rw [assembly.fill_nodes, List.singleton_append, woven]
  simp only [List.append_assoc, List.singleton_append]

private theorem extends_alone (source : String) (assembly : Assembly) (item : DirectiveItem) :
    Extends source assembly (assembleAlone source assembly item)
      (aloneNode? source item).toList := by
  have reported : ∀ (problem : Problem) (span : Span),
      Extends source assembly (assembly.report source problem span) [] :=
    fun _ _ => ⟨(List.append_nil _).symm, fun _ => rfl⟩
  unfold assembleAlone aloneNode?
  cases item.kind with
  | config =>
      dsimp only
      unfold assembleConfig
      cases decodeBody Directive.decodeConfig item.body with
      | error reason => exact reported _ _
      | ok config =>
          dsimp only
          refine (?_ : Extends source assembly _ []).trans (extends_push source _ rfl)
          split
          · exact reported _ _
          · exact Extends.refl source assembly
  | block =>
      dsimp only
      split <;> exact reported _ _

theorem extends_assemble (source : String) (items : List Item) (assembly : Assembly) :
    Extends source assembly (assemble source items assembly) (nodesOf source items) := by
  fun_induction assemble source items assembly with
  | case1 assembly => exact Extends.refl source assembly
  | case2 fence rest assembly inductionHypothesis =>
      exact (extends_push source assembly rfl).trans inductionHypothesis
  | case3 item fence rest assembly settings found inductionHypothesis =>
      rw [nodesOf, found]
      exact (extends_push source assembly rfl).trans inductionHypothesis
  | case4 item fence rest assembly missing inductionHypothesis =>
      have isNodes : nodesOf source (.directive item :: .fence fence :: rest)
          = (aloneNode? source item).toList ++ nodesOf source (.fence fence :: rest) := by
        simp only [nodesOf, missing]
      rw [isNodes]
      exact (extends_alone source assembly item).trans inductionHypothesis
  | case5 item rest assembly noFence inductionHypothesis =>
      rw [nodesOf]
      · exact (extends_alone source assembly item).trans inductionHypothesis
      · exact noFence

/-- **The nodes of a document are those of its items.** -/
theorem build_outline (source path : String) (items : List Item) :
    outline (build source path items).document.nodes = nodesOf source items := by
  show outline ((assemble source items {}).fill source source.utf8ByteSize).nodes = _
  rw [Assembly.outline_fill, (extends_assemble source items {}).outlined]
  rfl

/-- **A document is its nodes with the source woven in.** -/
theorem build_nodes (source path : String) (items : List Item) :
    (build source path items).document.nodes = woven source 0 (nodesOf source items) := by
  show ((assemble source items {}).fill source source.utf8ByteSize).nodes = _
  rw [Assembly.fill_nodes]
  have weaves := (extends_assemble source items {}).weaves []
  rwa [List.append_nil] at weaves

/-- **A printed document** is the print of its nodes with the source in between. -/
theorem print_build (source path : String) (items : List Item) :
    (print (build source path items).document).toList
      = printFrom source 0 (nodesOf source items) := by
  have joined : ∀ document : Document, (print document).toList = printed document.nodes := by
    intro document
    rw [print, String.toList_join, List.flatMap_map, printed]
  rw [joined, build_nodes, printed_woven]

end Tangle.Document
