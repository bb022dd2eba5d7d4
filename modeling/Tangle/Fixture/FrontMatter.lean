import Tangle.Text.Basic

/-!
Contract: a fixture file as its expectations and its body.

Owns: the delimiter lines between the two.

Does **not** own: what the expectations say (`Tangle.Fixture.Expectation`).
-/

set_option autoImplicit false

namespace Tangle.Fixture

structure FrontMatter where
  header : String
  body : String
  deriving DecidableEq, Repr, Inhabited

/-- The delimiter line that is missing. -/
inductive Unsplit where
  | opening
  | closing
  deriving DecidableEq, Repr, Inhabited

def Unsplit.message : Unsplit → String
  | opening => "missing opening --- frontmatter delimiter"
  | closing => "missing closing --- frontmatter delimiter"

def delimiter : List Char := ['-', '-', '-']

/-- Drops one line break, if the text starts with one. -/
def dropLineBreak : List Char → List Char
  | '\n' :: rest => rest
  | '\r' :: '\n' :: rest => rest
  | rest => rest

/-- The header stands between a delimiter at the very start, behind byte order
marks, and the first delimiter at the start of a later line. -/
def split (content : String) : Except Unsplit FrontMatter :=
  match Text.stripLead? delimiter (content.toList.dropWhile (· == '\ufeff')) with
  | none => .error .opening
  | some opened =>
      match Text.findSplit? ('\n' :: delimiter) (dropLineBreak opened) with
      | none => .error .closing
      | some (header, rest) =>
          .ok ⟨String.ofList (Text.dropTailWhile (· == '\r') header),
            String.ofList (dropLineBreak rest)⟩

end Tangle.Fixture
