import Tangle.Document.Basic
import Tangle.Markdown.Block

/-!
Contract: the directives and fences of a source, in source order.

Owns: `Item`, which comments are directives, and the code, language and indents of a
fence.

Does **not** own: Markdown (`Tangle.Markdown.Block`), or the reading of directive
bodies (`Tangle.Directive.Decode`).

Spans never include the line break that ends an element.
-/

set_option autoImplicit false

namespace Tangle.Document

open Tangle.Source

/-- A comment with a directive keyword. It has no body when it is never closed. -/
structure DirectiveItem where
  kind : Directive.Kind
  body : Option String
  span : Span
  deriving DecidableEq, Repr, Inhabited

/-- A fenced code block as it stands in the source. -/
structure FenceItem where
  language : String
  code : String
  indents : List Nat
  span : Span
  deriving DecidableEq, Repr, Inhabited

inductive Item where
  | directive (item : DirectiveItem)
  | fence (item : FenceItem)
  deriving DecidableEq, Repr, Inhabited

def Item.span : Item → Span
  | directive item => item.span
  | fence item => item.span

def isLineBreak (c : Char) : Bool :=
  c == '\n' || c == '\r'

/-- A span without the line breaks at its end. -/
def trimLineBreaks (source : String) (span : Span) : Span :=
  let kept := Text.dropTailWhile isLineBreak (span.chars source)
  ⟨span.start, span.start + Text.byteSize kept⟩

/-- What follows a keyword, which must stand alone. -/
def keywordBody? (kind : Directive.Kind) (text : List Char) : Option (List Char) :=
  match Text.stripLead? kind.keyword.toList text with
  | some [] => some []
  | some (c :: rest) => if Text.isBlank c then some (c :: rest) else none
  | none => none

/-- A comment that starts with a directive keyword. -/
def directive? (text : List Char) (span : Span) : Option DirectiveItem := do
  let trimmed := (Text.trim (String.ofList text)).toList
  let inner ← Text.stripLead? "<!--".toList trimmed
  let closed := Text.stripTail? "-->".toList inner
  let content := (closed.getD inner).dropWhile Text.isBlank
  let (kind, body) ←
    match keywordBody? .config content with
    | some body => some (Directive.Kind.config, body)
    | none => (keywordBody? .block content).map fun body => (Directive.Kind.block, body)
  return ⟨kind, if closed.isSome then some (String.ofList body) else none, span⟩

/-- Text cut behind every line feed. -/
def cutLines : List Char → List (List Char)
  | [] => []
  | c :: rest =>
      if c = '\n' then [c] :: cutLines rest
      else
        match cutLines rest with
        | [] => [[c]]
        | segment :: later => (c :: segment) :: later

/-- Indents while a fence is being read. -/
structure IndentScan where
  indents : List Nat := []
  atLineStart : Bool := true
  deriving DecidableEq, Repr, Inhabited

/-- Takes in one segment that starts at byte `offset`. -/
def IndentScan.segment (source : String) (scan : IndentScan) (offset : Nat)
    (segment : List Char) : IndentScan :=
  { indents :=
      if scan.atLineStart then scan.indents ++ [(positionAt source offset).column - 1]
      else scan.indents
    atLineStart := segment.getLast? == some '\n' }

/-- Takes in the segments of one chunk; only text that was copied from the source
moves the offset along. -/
def IndentScan.segments (source : String) (verbatim : Bool) :
    Nat → List (List Char) → IndentScan → IndentScan
  | _, [], scan => scan
  | offset, segment :: rest, scan =>
      let next := if verbatim then offset + Text.byteSize segment else offset
      IndentScan.segments source verbatim next rest (scan.segment source offset segment)

def IndentScan.chunk (source : String) (scan : IndentScan) (chunk : Markdown.Chunk) : IndentScan :=
  let verbatim := chunk.span.chars source == chunk.text
  IndentScan.segments source verbatim chunk.span.start (cutLines chunk.text) scan

/-- One indent per line of the content: the columns ahead of it in the source. -/
def indentsOf (source : String) (content : List Markdown.Chunk) : List Nat :=
  (content.foldl (IndentScan.chunk source) {}).indents

/-- Removes the line break that ends the content. -/
def dropFinalBreak (content : List Char) : List Char :=
  if content.getLast? = some '\n' then Text.dropFinalReturn content.dropLast else content

/-- The first word of an info string. -/
def languageOf (info : List Char) : String :=
  String.ofList ((Text.words info).head?.getD [])

def fenceItem (source : String) (info : List Char) (content : List Markdown.Chunk) (span : Span) :
    FenceItem :=
  { language := languageOf info
    code := String.ofList (dropFinalBreak (content.flatMap Markdown.Chunk.text))
    indents := indentsOf source content
    span := trimLineBreaks source span }

def Item.ofBlock? (source : String) : Markdown.Block → Option Item
  | .html span =>
      let trimmed := trimLineBreaks source span
      (directive? (trimmed.chars source) trimmed).map .directive
  | .fence info content span => some (.fence (fenceItem source info content span))

/-- The directives and fences of a source. -/
def items (source : String) : List Item :=
  (Markdown.blocks source).filterMap (Item.ofBlock? source)

end Tangle.Document
