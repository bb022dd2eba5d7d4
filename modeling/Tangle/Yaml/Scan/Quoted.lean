import Tangle.Text.Symbol
import Tangle.Yaml.Scan.Gap

/-!
Contract: scalars between apostrophes and between quotation marks.

Owns: escape sequences, doubled apostrophes, and folding inside quotes.

Does **not** own: the inverse, which writes quoted scalars (`Tangle.Yaml.Write`).
-/

set_option autoImplicit false

namespace Tangle.Yaml

/-- Value of a hexadecimal digit. -/
def hexValue? (c : Char) : Option Nat :=
  if '0' ≤ c && c ≤ '9' then some (c.toNat - 48)
  else if 'a' ≤ c && c ≤ 'f' then some (c.toNat - 87)
  else if 'A' ≤ c && c ≤ 'F' then some (c.toNat - 55)
  else none

/-- Reads `count` hexadecimal digits. -/
def hexNumber? : Nat → Nat → List Char → Option Nat
  | 0, value, _ => some value
  | _ + 1, _, [] => none
  | count + 1, value, c :: rest =>
      match hexValue? c with
      | some digit => hexNumber? count (value * 16 + digit) rest
      | none => none

namespace Quoted

/-- What stands after a backslash. -/
inductive Escape where
  | character (c : Char)
  | code (digits : Nat)
  deriving DecidableEq, Repr

def escape? (c : Char) : Option Escape :=
  match c with
  | '0' => some (.character '\x00')
  | 'a' => some (.character '\x07')
  | 'b' => some (.character '\x08')
  | 't' => some (.character '\t')
  | '\t' => some (.character '\t')
  | 'n' => some (.character '\n')
  | 'v' => some (.character '\x0b')
  | 'f' => some (.character '\x0c')
  | 'r' => some (.character '\r')
  | 'e' => some (.character '\x1b')
  | ' ' => some (.character ' ')
  | '\x22' => some (.character '\x22')
  | '/' => some (.character '/')
  | '\x5c' => some (.character '\x5c')
  | 'N' => some (.character '\u0085')
  | '_' => some (.character '\u00a0')
  | 'L' => some (.character '\u2028')
  | 'P' => some (.character '\u2029')
  | 'x' => some (.code 2)
  | 'u' => some (.code 4)
  | 'U' => some (.code 8)
  | _ => none

/-- How a run of characters without pads and breaks came to its end. -/
structure Run where
  cursor : Cursor
  value : List Char
  escapedBreak : Bool := false
  deriving Repr, Inhabited

def fail (problem : Problem) (mark start : Mark) : SyntaxError :=
  { problem := problem, mark := mark, activity := some (.quotedScalarParse, start) }

/-- Reads characters up to a pad, a break, the closing quote or the end. -/
def run (single : Bool) (start : Mark) : Nat → Run → Except SyntaxError Run
  | 0, state => .ok state
  | fuel + 1, state =>
      match state.cursor.rest with
      | [] => .ok state
      | c :: rest =>
          if isPad c || isBreak c then .ok state
          else if single then
            if c == Text.Symbol.apostrophe then
              if rest.head? == some Text.Symbol.apostrophe then
                run single start fuel
                  { state with cursor := state.cursor.skip.skip, value := state.value ++ [c] }
              else .ok state
            else
              run single start fuel
                { state with cursor := state.cursor.skip, value := state.value ++ [c] }
          else if c == Text.Symbol.quote then .ok state
          else if c == Text.Symbol.backslash then
            match rest with
            | [] => .error (fail .unknownEscape state.cursor.mark start)
            | mark :: digits =>
                if isBreak mark then
                  .ok { state with cursor := state.cursor.skip.skipLine, escapedBreak := true }
                else
                  match escape? mark with
                  | none => .error (fail .unknownEscape state.cursor.mark start)
                  | some (.character plain) =>
                      run single start fuel
                        { state with
                          cursor := state.cursor.skip.skip, value := state.value ++ [plain] }
                  | some (.code count) =>
                      let after := state.cursor.skip.skip
                      match hexNumber? count 0 digits with
                      | none => .error (fail .expectedHexDigits after.mark start)
                      | some code =>
                          if code.isValidChar then
                            run single start fuel
                              { state with
                                cursor := after.skipMany count
                                value := state.value ++ [Char.ofNat code] }
                          else .error (fail .invalidEscapeCode after.mark start)
          else
            run single start fuel
              { state with cursor := state.cursor.skip, value := state.value ++ [c] }

/-- Reads runs and gaps up to the closing quote, which stays at the cursor. -/
def read (single : Bool) (start : Mark) :
    Nat → List Char → Cursor → Except SyntaxError (List Char × Cursor)
  | 0, value, cursor => .ok (value, cursor)
  | fuel + 1, value, cursor =>
      if cursor.atAnyDocumentMarker then
        .error { problem := .unexpectedDocumentMarker, mark := cursor.mark,
                 activity := some (.quotedScalar, start) }
      else if cursor.isEnd then
        .error { problem := .unexpectedEnd, mark := cursor.mark,
                 activity := some (.quotedScalar, start) }
      else
        match run single start (cursor.rest.length + 1) { cursor := cursor, value := value } with
        | .error error => .error error
        | .ok state =>
            let closing := if single then Text.Symbol.apostrophe else Text.Symbol.quote
            if state.cursor.atChar closing then .ok (state.value, state.cursor)
            else
              let gap := (Gap.read none (state.cursor.rest.length + 1)
                { cursor := state.cursor, broken := state.escapedBreak }).1
              read single start fuel (state.value ++ gap.folded) gap.cursor

/-- A quoted scalar whose opening quote is at the cursor. -/
def scan (single : Bool) (cursor : Cursor) : Except SyntaxError (Token × Cursor) := do
  let (value, closing) ← read single cursor.mark (cursor.rest.length + 2) [] cursor.skip
  let after := closing.skip
  let style := if single then ScalarStyle.singleQuoted else ScalarStyle.doubleQuoted
  return (⟨.scalar (String.ofList value) style, cursor.mark, after.mark⟩, after)

end Quoted

end Tangle.Yaml
