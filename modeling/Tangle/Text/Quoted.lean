import Tangle.Text.Basic
import Tangle.Text.Symbol
import Tangle.Text.Unprinted

/-!
Contract: a text between quotation marks, as messages show it.

Owns: which characters are escaped and how.
-/

set_option autoImplicit false

namespace Tangle.Text

/-- Letters stand for tab, return, feed and null; quotation marks and backslashes
get a backslash; what does not print is written by its code. -/
def escapeChar (c : Char) : List Char :=
  if c = '\t' then [Symbol.backslash, 't']
  else if c = '\r' then [Symbol.backslash, 'r']
  else if c = '\n' then [Symbol.backslash, 'n']
  else if c = '\x00' then [Symbol.backslash, '0']
  else if c = Symbol.quote || c = Symbol.backslash then [Symbol.backslash, c]
  else if 0x20 ≤ c.toNat && c.toNat < 0x7f then [c]
  else if isUnprinted c then
    [Symbol.backslash, 'u', Symbol.openBrace] ++ Nat.toDigits 16 c.toNat ++ [Symbol.closeBrace]
  else [c]

def quoted (text : String) : String :=
  String.ofList (Symbol.quote :: text.toList.flatMap escapeChar ++ [Symbol.quote])

end Tangle.Text
