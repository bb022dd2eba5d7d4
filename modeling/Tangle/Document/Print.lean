import Tangle.Directive.Encode
import Tangle.Document.Basic

/-!
Contract: a document as Markdown text.

Owns: how directives and fences are written.

Does **not** own: directive bodies (`Tangle.Directive.Encode`).

A fence is one backtick longer than the longest run in its code, and never shorter
than three, so that no line of the code can close it.
-/

set_option autoImplicit false

namespace Tangle.Document

open Tangle.Directive

/-- Length of the longest run of backticks; `current` is the run being read. -/
def longestRun : Nat → List Char → Nat
  | current, [] => current
  | current, c :: rest =>
      if c = Text.Symbol.backtick then longestRun (current + 1) rest
      else max current (longestRun 0 rest)

def fenceFor (code : String) : String :=
  Text.repeated (max (longestRun 0 code.toList) 2 + 1) Text.Symbol.backtick

/-- A body that spans lines ends with a line break of its own. -/
def printDirective (kind : Kind) (body : String) : String :=
  "<!-- " ++ kind.keyword ++ body ++ (if body.toList.contains '\n' then "-->" else " -->")

def CodeBlock.print (block : CodeBlock) : String :=
  let directive :=
    match block.settings with
    | some settings => printDirective .block settings.encode ++ "\n"
    | none => ""
  let fence := fenceFor block.code
  let content := if block.code.isEmpty then "" else block.code ++ "\n"
  directive ++ fence ++ block.language ++ "\n" ++ content ++ fence

def Node.print : Node → String
  | text node => node.text
  | config node => printDirective .config node.config.encode
  | code block => block.print

def print (document : Document) : String :=
  String.join (document.nodes.map Node.print)

end Tangle.Document
