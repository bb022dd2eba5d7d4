/-!
Contract: names for the punctuation that carries meaning in the formats read and
written here.

Owns: the characters whose own spelling would be hard to read inside a pattern.
-/

set_option autoImplicit false

namespace Tangle.Text.Symbol

def quote : Char := '\x22'
def apostrophe : Char := '\x27'
def backtick : Char := '\x60'
def openBrace : Char := '\x7b'
def closeBrace : Char := '\x7d'
def backslash : Char := '\x5c'

end Tangle.Text.Symbol
