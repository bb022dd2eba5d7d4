import Tangle.Markdown.EntityNames
import Tangle.Markdown.Html

/-!
Contract: backslash escapes and character references.

Owns: the text that an info string stands for.

Does **not** own: the names of references (`Tangle.Markdown.EntityNames`).
-/

set_option autoImplicit false

namespace Tangle.Markdown

/-- Digits of a radix, at most `limit` of them: their number and value. -/
def digitRun (radix limit : Nat) (text : List Char) : Nat × Nat :=
  let value? (c : Char) : Option Nat :=
    let digit :=
      if c.isDigit then c.toNat - 48
      else if 'a' ≤ c && c ≤ 'f' then c.toNat - 87
      else if 'A' ≤ c && c ≤ 'F' then c.toNat - 55
      else 16
    if digit < radix then some digit else none
  let run := (text.take limit).takeWhile fun c => (value? c).isSome
  (run.length, run.foldl (fun total c => total * radix + (value? c).getD 0) 0)

/-- The character of a code; zero and codes of no character give the replacement
character. -/
def charOfCode (code : Nat) : Char :=
  if code ≠ 0 && code.isValidChar then Char.ofNat code else '\uFFFD'

/-- A character reference at the start of `text`: its length and its value. -/
def reference? (text : List Char) : Option (Nat × List Char) :=
  match text with
  | '&' :: '#' :: rest =>
      let hex := rest.head?.any fun c => c == 'x' || c == 'X'
      let (lead, digits) := if hex then (3, rest.drop 1) else (2, rest)
      let (count, code) := if hex then digitRun 16 6 digits else digitRun 10 7 digits
      if count = 0 || (digits.drop count).head? != some ';' then none
      else some (lead + count + 1, [charOfCode code])
  | '&' :: rest =>
      let name := rest.takeWhile Char.isAlphanum
      if (rest.drop name.length).head? == some ';' then
        (Entity.named? (String.ofList name)).map fun value => (name.length + 2, value)
      else none
  | _ => none

/-- Resolves escapes and references; carriage returns are dropped. `skip` counts the
characters of a reference that are still to be passed over. -/
def unescapeFrom : Nat → List Char → List Char
  | _, [] => []
  | skip + 1, _ :: rest => unescapeFrom skip rest
  | 0, c :: rest =>
      if c == Text.Symbol.backslash && rest.head?.any isPunctuation then
        match rest with
        | d :: after => d :: unescapeFrom 0 after
        | [] => [c]
      else if c == '&' then
        match reference? (c :: rest) with
        | some (length, value) => value ++ unescapeFrom (length - 1) rest
        | none => c :: unescapeFrom 0 rest
      else if c == '\r' then unescapeFrom 0 rest
      else c :: unescapeFrom 0 rest

def unescape (text : List Char) : List Char :=
  unescapeFrom 0 text

end Tangle.Markdown
