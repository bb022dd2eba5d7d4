import Tangle.Markdown.Container
import Tangle.Markdown.Html

/-!
Contract: the lines that start a block, apart from HTML and lists.

Owns: headings, code fences, metadata blocks, and what interrupts a paragraph.

Does **not** own: the blocks themselves (`Tangle.Markdown.Block`).
-/

set_option autoImplicit false

namespace Tangle.Markdown

/-- One to six number signs, then white space or the end. -/
def isHeading (text : List Char) : Bool :=
  let level := countWhile (· == '#') text
  1 ≤ level && level ≤ 6 &&
    match text.drop level with
    | [] => true
    | c :: _ => isSpace c

/-- The length of a heading's underline with its line end. -/
def underline? (text : List Char) : Option Nat :=
  match text with
  | [] => none
  | c :: _ =>
      if c == '=' || c == '-' then
        let width := countWhile (· == c) text
        (blankLine? (text.drop width)).map (width + ·)
      else none

/-- An opening fence: its character and width. -/
structure FenceMark where
  mark : Char
  width : Nat
  deriving DecidableEq, Repr, Inhabited

/-- Three or more backticks or tildes. Backticks may not occur behind the first
kind on its line. -/
def fence? (text : List Char) : Option FenceMark :=
  match text with
  | [] => none
  | c :: _ =>
      if c == Text.Symbol.backtick || c == '~' then
        let width := countWhile (· == c) text
        let info := text.drop width
        if width < 3 then none
        else if c == Text.Symbol.backtick
            && (info.take (lineLength info)).contains Text.Symbol.backtick then none
        else some ⟨c, width⟩
      else none

/-- The length of a closing fence with the spaces behind it. The end of the text
closes every fence. -/
def closingFence? (fence : FenceMark) (text : List Char) : Option Nat :=
  if text.isEmpty then some 0
  else
    let width := countWhile (· == fence.mark) text
    if width < fence.width then none
    else
      let length := width + countWhile (· == ' ') (text.drop width)
      (lineEnd? (text.drop length)).map fun _ => length

/-- The length of the line that closes a metadata block, without its line end. -/
def metadataEnd? (text : List Char) : Option Nat :=
  if countWhile (· == '-') text = 3 || countWhile (· == '.') text = 3 then
    let length := 3 + countWhile (· == ' ') (text.drop 3)
    (lineEnd? (text.drop length)).map fun _ => length
  else none

/-- Whether one of the lines closes a metadata block. -/
def anyMetadataEnd : Nat → List Char → Bool
  | 0, _ => false
  | fuel + 1, text =>
      if (metadataEnd? text).isSome then true
      else if text.isEmpty then false
      else anyMetadataEnd fuel (text.drop (lineLength text))

/-- A metadata block: three hyphens with nothing but white space behind them, which a
vertical tab is not, a line that is neither blank nor the end, and an end further on. -/
def startsMetadata (text : List Char) : Bool :=
  if countWhile (· == '-') text = 3 then
    let behind := text.drop 3
    let length := lineLength behind
    let body := behind.drop length
    (behind.take length).all (fun c => isSpace c && c != '\x0b') && !behind.isEmpty
      && (metadataEnd? body).isNone && (blankLine? body).isNone
      && anyMetadataEnd (body.length + 1) body
  else false

/-- A list item that a line could start: its mark, its number, and the text behind. -/
def listItem? (text : List Char) : Option (Char × Nat × List Char) :=
  let found :=
    match text with
    | [] => none
    | c :: _ =>
        if isBullet c then some (c, 0, 1)
        else
          let digits := (text.take 9).takeWhile Char.isDigit
          if digits.isEmpty then none
          else
            match text.drop digits.length with
            | mark :: _ =>
                if mark == '.' || mark == ')' then
                  some (mark, digits.foldl (fun value d => value * 10 + (d.toNat - 48)) 0,
                    digits.length + 1)
                else none
            | [] => none
  match found with
  | none => none
  | some (mark, number, width) =>
      let behind := text.drop width
      let spaced := behind.head?.any fun c => c == ' ' || c == '\t'
      if !spaced && (lineEnd? behind).isNone then none
      else if (blankLine? behind).isSome then some (mark, number, behind)
      else some (mark, number, behind.drop (countWhile (fun c => c == ' ' || c == '\t') behind))

/-- Whether a line ends the paragraph before it, tables apart. An empty item, or a
numbered one that does not start at one, ends it only where the line leaves the
containers of the paragraph. -/
def interrupts (text : List Char) (inside : Bool) : Bool :=
  (lineEnd? text).isSome || (thematicBreak? text).isSome || isHeading text
    || (fence? text).isSome || text.head? == some '>'
    || (match listItem? text with
        | some (mark, number, behind) =>
            !inside || ((isBullet mark || number == 1) && (blankLine? behind).isNone)
        | none => false)
    || (match text with
        | '<' :: rest => (Html.closing? rest).isSome || Html.startsBlockElement rest
        | _ => false)

end Tangle.Markdown
