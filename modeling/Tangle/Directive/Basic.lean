import Tangle.Text.Replace

/-!
Contract: what a directive comment says once it has been decoded.

Owns: `ReplaceRule`, `AdditionalFile`, `Settings`, `Config`, and the keywords
that introduce the two kinds of directive.

Does **not** own: their written form (`Tangle.Directive.Decode`,
`Tangle.Directive.Encode`).
-/

set_option autoImplicit false

namespace Tangle.Directive

/-- A literal substitution applied to the code of a block. -/
inductive ReplaceRule where
  | pair (find insert : String)
  | remove (find : String)
  deriving DecidableEq, Repr, Inhabited

namespace ReplaceRule

/-- The text that is searched for. -/
def find : ReplaceRule → String
  | pair find _ => find
  | remove find => find

/-- The text that takes its place. -/
def insert : ReplaceRule → String
  | pair _ insert => insert
  | remove _ => ""

def apply (rule : ReplaceRule) (code : String) : String :=
  Text.replace rule.find rule.insert code

/-- Rules act one after another, each on the result of the one before. -/
def applyAll (rules : List ReplaceRule) (code : String) : String :=
  rules.foldl (fun text rule => rule.apply text) code

end ReplaceRule

/-- A file written verbatim beside the file of its block. -/
structure AdditionalFile where
  suffix : String
  content : String
  deriving DecidableEq, Repr, Inhabited

/-- Settings of one code block. A block without `file` continues the file of the
block before it; `header` and `footer` are lines around its code. -/
structure Settings where
  file : Option String := none
  header : Option String := none
  footer : Option String := none
  skip : Bool := false
  replace : List ReplaceRule := []
  additionalFiles : List AdditionalFile := []
  deriving DecidableEq, Repr, Inhabited

/-- The settings that only names a file. -/
def Settings.forFile (file : String) : Settings :=
  { file := some file }

/-- Settings of a document; `header` and `footer` surround every generated file. -/
structure Config where
  outDir : Option String := none
  header : Option String := none
  footer : Option String := none
  deriving DecidableEq, Repr, Inhabited

/-- The two kinds of directive. -/
inductive Kind where
  | config
  | block
  deriving DecidableEq, Repr, Inhabited

def Kind.keyword : Kind → String
  | config => "@codeblock-config"
  | block => "@codeblock"

end Tangle.Directive
