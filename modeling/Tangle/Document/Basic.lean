import Tangle.Directive.Basic
import Tangle.Source.Position

/-!
Contract: a Markdown source as an ordered sequence of nodes.

Owns: `Document`, its nodes, and the questions a node answers about its lines.

Does **not** own: how nodes are found (`Tangle.Document.Build`) or written
(`Tangle.Document.Print`).
-/

set_option autoImplicit false

namespace Tangle.Document

open Tangle.Source
open Tangle.Directive

/-- A run of source text without meaning to the extractor. -/
structure TextNode where
  text : String
  span : Span
  range : SourceRange
  deriving DecidableEq, Repr, Inhabited

/-- A configuration directive. -/
structure ConfigNode where
  config : Config
  span : Span
  range : SourceRange
  deriving DecidableEq, Repr, Inhabited

/-- A fenced code block. `code` lacks the line break that ends its last line;
`indents` gives, per content line, the source columns ahead of its text; `span`
runs from the directive, if there is one, through the closing fence. -/
structure CodeBlock where
  language : String
  code : String
  span : Span
  range : SourceRange
  codeRange : SourceRange
  indents : List Nat
  settingsRange : Option SourceRange
  settings : Option Settings
  deriving DecidableEq, Repr, Inhabited

inductive Node where
  | text (node : TextNode)
  | config (node : ConfigNode)
  | code (block : CodeBlock)
  deriving DecidableEq, Repr, Inhabited

namespace Node

def span : Node → Span
  | text node => node.span
  | config node => node.span
  | code block => block.span

def range : Node → SourceRange
  | text node => node.range
  | config node => node.range
  | code block => block.range

def config? : Node → Option Config
  | config node => some node.config
  | _ => none

def code? : Node → Option CodeBlock
  | code block => some block
  | _ => none

end Node

namespace CodeBlock

/-- Lines of code; an empty block has none. -/
def codeLineCount (block : CodeBlock) : Nat :=
  Text.lineCount block.code

def containsLine (block : CodeBlock) (line : Nat) : Bool :=
  block.codeRange.start.line ≤ line && line < block.codeRange.start.line + block.codeLineCount

/-- Source columns ahead of the content of `line`; zero outside the content. -/
def indentAt (block : CodeBlock) (line : Nat) : Nat :=
  if block.codeRange.start.line ≤ line then
    (block.indents[line - block.codeRange.start.line]?).getD 0
  else 0

def isSkipped (block : CodeBlock) : Bool :=
  match block.settings with
  | some settings => settings.skip
  | none => false

/-- Where reports about the block point: its directive, or the whole block. -/
def reportRange (block : CodeBlock) : SourceRange :=
  block.settingsRange.getD block.range

end CodeBlock

end Tangle.Document

namespace Tangle

/-- The nodes of a source, in order and without gaps. -/
structure Document where
  sourcePath : String
  nodes : List Document.Node
  deriving DecidableEq, Repr, Inhabited

namespace Document

open Tangle.Source
open Tangle.Directive

/-- The first configuration is the one in force. -/
def config? (document : Document) : Option Config :=
  document.nodes.findSome? Node.config?

def codeBlocks (document : Document) : List CodeBlock :=
  document.nodes.filterMap Node.code?

def annotatedBlocks (document : Document) : List CodeBlock :=
  document.codeBlocks.filter fun block => block.settings.isSome

/-- The block whose content lines include the position. -/
def blockAt? (document : Document) (p : Position) : Option CodeBlock :=
  document.codeBlocks.find? fun block => block.containsLine p.line

end Document

end Tangle
