import Tangle.Text.Basic

/-!
Contract: literal substitution of every occurrence of a text.

Owns: the left-to-right, non-overlapping substitution, and its reading of an
empty search text: an insertion at every character boundary.

Does **not** own: rules that carry a search text (`Tangle.Directive.Basic`).
-/

set_option autoImplicit false

namespace Tangle.Text

/-- `with` between, before and after all characters. -/
def interleave (insert : List Char) : List Char → List Char
  | [] => insert
  | c :: rest => insert ++ c :: interleave insert rest

/-- Replaces occurrences from the left. `skip` counts the characters that still
belong to the occurrence last replaced. -/
def replaceFrom (find insert : List Char) : Nat → List Char → List Char
  | _, [] => []
  | skip + 1, _ :: rest => replaceFrom find insert skip rest
  | 0, c :: rest =>
      if find.isPrefixOf (c :: rest) then
        insert ++ replaceFrom find insert (find.length - 1) rest
      else c :: replaceFrom find insert 0 rest

/-- Every occurrence of `find` becomes `insert`. -/
def replaceChars (find insert text : List Char) : List Char :=
  if find.isEmpty then interleave insert text else replaceFrom find insert 0 text

def replace (find insert text : String) : String :=
  String.ofList (replaceChars find.toList insert.toList text.toList)

end Tangle.Text
