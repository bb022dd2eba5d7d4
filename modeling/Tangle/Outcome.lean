/-!
Contract: how a command ends.

Owns: the exit code and the lines written for the user.
-/

set_option autoImplicit false

namespace Tangle

/-- An exit code of zero means success. -/
structure Outcome where
  exitCode : Nat := 0
  lines : List String := []
  deriving DecidableEq, Repr, Inhabited

/-- The lines as one text. -/
def Outcome.text (outcome : Outcome) : String :=
  String.join (outcome.lines.map fun line => line ++ "\n")

end Tangle
