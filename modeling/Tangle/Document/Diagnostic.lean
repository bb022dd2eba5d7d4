import Tangle.Directive.Decode
import Tangle.Source.Position

/-!
Contract: problems found in a document, with their place.

Owns: the kinds of problem, their wording, their severity, and their notes.

Does **not** own: how a report is laid out for a terminal (`Tangle.Report`).
-/

set_option autoImplicit false

namespace Tangle.Document

open Tangle.Source

/-- Why a directive is malformed. -/
inductive Malformation where
  | neverClosed
  | undecodable (error : Directive.DecodeError)
  deriving DecidableEq, Repr, Inhabited

inductive Problem where
  | malformedDirective (kind : Directive.Kind) (reason : Malformation)
  | danglingDirective
  | unresolvedFileName
  | duplicateConfig
  | duplicateOutput (path : String)
  deriving DecidableEq, Repr, Inhabited

inductive Severity where
  | error
  | warning
  deriving DecidableEq, Repr, Inhabited

structure Diagnostic where
  problem : Problem
  span : Span
  range : SourceRange
  deriving DecidableEq, Repr, Inhabited

namespace Problem

def code : Problem → String
  | malformedDirective _ _ => "MalformedDirective"
  | danglingDirective => "DanglingAnnotation"
  | unresolvedFileName => "UnresolvedFileName"
  | duplicateConfig => "DuplicateConfig"
  | duplicateOutput _ => "DuplicateOutput"

def severity : Problem → Severity
  | duplicateConfig => .warning
  | _ => .error

def reasonText : Malformation → String
  | .neverClosed => "directive comment is never closed with `-->`"
  | .undecodable error => error.message

def message : Problem → String
  | malformedDirective kind reason =>
      "malformed " ++ kind.keyword ++ " directive: " ++ reasonText reason
  | danglingDirective => "@codeblock directive is not followed by a fenced code block"
  | unresolvedFileName => "code block has no `file` and no earlier block to continue"
  | duplicateConfig => "only the first @codeblock-config directive takes effect"
  | duplicateOutput path => "`" ++ path ++ "` is already generated by an earlier block"

def notes : Problem → List String
  | malformedDirective _ _ => ["the directive is treated as plain text"]
  | danglingDirective => ["only blank lines may separate the directive from its fence"]
  | unresolvedFileName => ["name the output with `<!-- @codeblock name.ext -->`"]
  | duplicateConfig => ["this configuration is ignored"]
  | duplicateOutput _ => ["the first file with this path is kept"]

end Problem

namespace Diagnostic

def isError (diagnostic : Diagnostic) : Bool :=
  diagnostic.problem.severity == .error

/-- Place, message and kind on one line. -/
def text (diagnostic : Diagnostic) : String :=
  diagnostic.range.start.text ++ ": " ++ diagnostic.problem.message
    ++ " (" ++ diagnostic.problem.code ++ ")"

end Diagnostic

end Tangle.Document
