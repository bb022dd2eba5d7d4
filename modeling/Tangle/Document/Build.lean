import Tangle.Document.Diagnostic
import Tangle.Document.Item

/-!
Contract: a source as a document, with everything found wrong on the way.

Owns: which directive belongs to which fence, the text nodes in between, and the
order of diagnostics.

Does **not** own: where directives and fences are (`Tangle.Document.Item`).

Nothing fails: a directive that cannot be used is reported and stays plain text.
-/

set_option autoImplicit false

namespace Tangle.Document

open Tangle.Source

/-- What has been assembled. `cursor` is the end of the last node. -/
structure Assembly where
  nodes : List Node := []
  diagnostics : List Diagnostic := []
  cursor : Nat := 0
  deriving Repr, Inhabited

namespace Assembly

/-- Covers the source up to `stop` by a text node, unless it is covered. -/
def fill (source : String) (assembly : Assembly) (stop : Nat) : Assembly :=
  if assembly.cursor < stop then
    let span : Span := ⟨assembly.cursor, stop⟩
    { assembly with
      nodes := assembly.nodes ++ [.text ⟨span.slice source, span, rangeOf source span⟩]
      cursor := stop }
  else assembly

def push (source : String) (assembly : Assembly) (node : Node) : Assembly :=
  let filled := assembly.fill source node.span.start
  { filled with nodes := filled.nodes ++ [node], cursor := node.span.stop }

def report (source : String) (assembly : Assembly) (problem : Problem) (span : Span) : Assembly :=
  { assembly with
    diagnostics := assembly.diagnostics ++ [⟨problem, span, rangeOf source span⟩] }

def hasConfig (assembly : Assembly) : Bool :=
  assembly.nodes.any fun node => node.config?.isSome

end Assembly

/-- The lines of code, counted from the line after the opening fence. -/
def codeRange (firstLine : Nat) (code : String) : SourceRange :=
  let start : Position := ⟨firstLine, 1⟩
  let lines := Text.lineCount code
  if lines = 0 then ⟨start, start⟩
  else
    let last := ((Text.splitChars '\n' code.toList).getLast?).getD []
    ⟨start, ⟨firstLine + lines - 1, last.length + 1⟩⟩

/-- The block of a fence, with the directive in front of it if there is one. -/
def codeBlock (source : String) (fence : FenceItem)
    (directive : Option (Span × Directive.Settings)) : CodeBlock :=
  let start := (directive.map fun entry => entry.1.start).getD fence.span.start
  let span : Span := ⟨start, fence.span.stop⟩
  { language := fence.language
    code := fence.code
    span := span
    range := rangeOf source span
    codeRange := codeRange (lineAt source fence.span.start + 1) fence.code
    indents := fence.indents
    settingsRange := directive.map fun entry => rangeOf source entry.1
    settings := directive.map Prod.snd }

/-- The value of a directive, or why it has none. -/
def decodeBody {α : Type} (decode : String → Except Directive.DecodeError α)
    (body : Option String) : Except Malformation α :=
  match body with
  | none => .error .neverClosed
  | some text =>
      match decode text with
      | .ok value => .ok value
      | .error error => .error (.undecodable error)

/-- Takes in a configuration directive. -/
def assembleConfig (source : String) (assembly : Assembly) (item : DirectiveItem) : Assembly :=
  match decodeBody Directive.decodeConfig item.body with
  | .error reason => assembly.report source (.malformedDirective .config reason) item.span
  | .ok config =>
      let reported :=
        if assembly.hasConfig then assembly.report source .duplicateConfig item.span else assembly
      reported.push source (.config ⟨config, item.span, rangeOf source item.span⟩)

/-- Whether only blank characters lie between a directive and a fence. -/
def adjoins (source : String) (directive fence : Span) : Bool :=
  Text.allBlank ((⟨directive.stop, fence.start⟩ : Span).slice source)

/-- The settings that a directive gives to the fence after it. -/
def settingsFor? (source : String) (item : DirectiveItem) (fence : FenceItem) :
    Option Directive.Settings :=
  if item.kind == .block && adjoins source item.span fence.span then
    (decodeBody Directive.decodeSettings item.body).toOption
  else none

/-- Takes in a directive that belongs to no fence. -/
def assembleAlone (source : String) (assembly : Assembly) (item : DirectiveItem) : Assembly :=
  match item.kind with
  | .config => assembleConfig source assembly item
  | .block =>
      match decodeBody Directive.decodeSettings item.body with
      | .error reason => assembly.report source (.malformedDirective .block reason) item.span
      | .ok _ => assembly.report source .danglingDirective item.span

/-- Takes in the items one after another. -/
def assemble (source : String) : List Item → Assembly → Assembly
  | [], assembly => assembly
  | .fence fence :: rest, assembly =>
      assemble source rest (assembly.push source (.code (codeBlock source fence none)))
  | .directive item :: .fence fence :: rest, assembly =>
      match settingsFor? source item fence with
      | some settings =>
          assemble source rest
            (assembly.push source (.code (codeBlock source fence (some (item.span, settings)))))
      | none => assemble source (.fence fence :: rest) (assembleAlone source assembly item)
  | .directive item :: rest, assembly => assemble source rest (assembleAlone source assembly item)

/-- A document and the problems found in it, ordered by where they start. -/
structure Parsed where
  document : Document
  diagnostics : List Diagnostic
  deriving Repr, Inhabited

def Parsed.hasErrors (parsed : Parsed) : Bool :=
  parsed.diagnostics.any Diagnostic.isError

/-- Assembles items into a document that covers the whole source. -/
def build (source path : String) (items : List Item) : Parsed :=
  let assembly := (assemble source items {}).fill source source.utf8ByteSize
  { document := ⟨path, assembly.nodes⟩
    diagnostics :=
      assembly.diagnostics.mergeSort fun first second => first.span.start ≤ second.span.start }

def parse (source path : String) : Parsed :=
  build source path (items source)

/-! The checked assembly takes the same steps, but gives up when it would have to cut a
stretch out of the source that ends before it starts or that splits a character. -/

namespace Checked

def fill (source : String) (assembly : Assembly) (stop : Nat) : Option Assembly :=
  if assembly.cursor < stop then do
    let span : Span := ⟨assembly.cursor, stop⟩
    let text ← span.cut? source
    return { assembly with
      nodes := assembly.nodes ++ [.text ⟨text, span, rangeOf source span⟩]
      cursor := stop }
  else some assembly

def push (source : String) (assembly : Assembly) (node : Node) : Option Assembly := do
  let filled ← fill source assembly node.span.start
  return { filled with nodes := filled.nodes ++ [node], cursor := node.span.stop }

def settingsFor? (source : String) (item : DirectiveItem) (fence : FenceItem) :
    Option (Option Directive.Settings) :=
  match item.kind, decodeBody Directive.decodeSettings item.body with
  | .block, .ok settings => do
      let between ← Span.cut? ⟨item.span.stop, fence.span.start⟩ source
      return if Text.allBlank between then some settings else none
  | _, _ => some none

def assembleAlone (source : String) (assembly : Assembly) (item : DirectiveItem) :
    Option Assembly :=
  match item.kind, decodeBody Directive.decodeConfig item.body with
  | .config, .ok config =>
      let reported :=
        if assembly.hasConfig then assembly.report source .duplicateConfig item.span else assembly
      push source reported (.config ⟨config, item.span, rangeOf source item.span⟩)
  | _, _ => some (Document.assembleAlone source assembly item)

def assemble (source : String) : List Item → Assembly → Option Assembly
  | [], assembly => some assembly
  | .fence fence :: rest, assembly => do
      assemble source rest (← push source assembly (.code (codeBlock source fence none)))
  | .directive item :: .fence fence :: rest, assembly => do
      match ← settingsFor? source item fence with
      | some settings =>
          assemble source rest
            (← push source assembly (.code (codeBlock source fence (some (item.span, settings)))))
      | none => assemble source (.fence fence :: rest) (← assembleAlone source assembly item)
  | .directive item :: rest, assembly => do
      assemble source rest (← assembleAlone source assembly item)

def build (source path : String) (items : List Item) : Option Parsed := do
  let assembly ← assemble source items {}
  let filled ← fill source assembly source.utf8ByteSize
  return {
    document := ⟨path, filled.nodes⟩
    diagnostics :=
      filled.diagnostics.mergeSort fun first second => first.span.start ≤ second.span.start }

end Checked

end Tangle.Document
