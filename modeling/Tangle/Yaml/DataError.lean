import Tangle.Data.Found
import Tangle.Yaml.Resolve

/-!
Contract: why a YAML document does not have the shape that was asked for.

Owns: the causes, the place in the document, and their one wording.

Does **not** own: mistakes in the YAML itself (`Tangle.Yaml.SyntaxError`).
-/

set_option autoImplicit false

namespace Tangle.Yaml

open Tangle.Data

/-- A step from a collection to one of its members. -/
inductive PathStep where
  | key (name : String)
  | index (number : Nat)
  | unnamed
  deriving DecidableEq, Repr, Inhabited

/-- Why a value was refused. -/
inductive Refusal where
  | wrongType (found : Found) (expected : String)
  | wrongValue (found : String) (expected : String)
  | unknownField (name : String) (expected : List String)
  | duplicateField (name : String)
  | missingField (name : String)
  | taggedRule
  | unmatchedRule
  | ruleShape
  | emptyFind
  deriving DecidableEq, Repr, Inhabited

/-- Everything that can be wrong with a text that should be one document. -/
inductive Error where
  | invalid (error : SyntaxError)
  | unknownAnchor (mark : Mark)
  | moreDocuments
  | tooDeep (mark : Mark)
  | tooManyReferences
  | endOfText
  | refused (refusal : Refusal) (path : List PathStep) (mark : Mark)
  deriving DecidableEq, Repr, Inhabited

/-- Two alternatives are joined by a word, more of them form a list. -/
def alternatives : List String → String
  | [first, second] => "expected " ++ ticked first ++ " or " ++ ticked second
  | names => "expected one of " ++ Text.join ", " (names.map ticked)

def Refusal.text : Refusal → String
  | wrongType found expected => "invalid type: " ++ found.describe ++ ", expected " ++ expected
  | wrongValue found expected =>
      "invalid value: string " ++ Text.quoted found ++ ", expected " ++ expected
  | unknownField name expected => "unknown field " ++ ticked name ++ ", " ++ alternatives expected
  | duplicateField name => "duplicate field " ++ ticked name
  | missingField name => "missing field " ++ ticked name
  | taggedRule => "untagged and internally tagged enums do not support enum input"
  | unmatchedRule => "data did not match any variant of untagged enum RawRule"
  | ruleShape => "replace rule must be a string or a [find, with] pair"
  | emptyFind => "replace rule has an empty search string"

/-- The steps from the root, the outermost first. -/
def pathText : List PathStep → String
  | [] => "."
  | steps => walk "" steps
where
  walk : String → List PathStep → String
    | text, [] => text
    | text, .index number :: rest =>
        walk ((if text.isEmpty then "." else text) ++ "[" ++ Text.ofNat number ++ "]") rest
    | text, .key name :: rest => walk ((if text.isEmpty then "" else text ++ ".") ++ name) rest
    | text, .unnamed :: rest => walk ((if text.isEmpty then "" else text ++ ".") ++ "?") rest

/-- A place is left out at the very start of the text. -/
def placed (text : String) (mark : Mark) : String :=
  if mark.isOrigin then text else text ++ " at " ++ mark.text

def Error.message : Error → String
  | invalid error => error.message
  | unknownAnchor mark => placed "unknown anchor" mark
  | moreDocuments => "deserializing from YAML containing more than one document is not supported"
  | tooDeep mark => placed "recursion limit exceeded" mark
  | tooManyReferences => "repetition limit exceeded"
  | endOfText => "EOF while parsing a value"
  | refused refusal path mark =>
      placed ((if path.isEmpty then "" else pathText path ++ ": ") ++ refusal.text) mark

end Tangle.Yaml
