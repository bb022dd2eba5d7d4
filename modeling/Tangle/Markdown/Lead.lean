import Tangle.Markdown.Line

/-!
Contract: the start of a line, where columns count and tabs reach to multiples of
four.

Owns: `Lead`, taking columns of white space, and the markers of quotes and list
items.

Does **not** own: which containers are open (`Tangle.Markdown.Container`).

A tab may be wider than what is asked for; the columns left over stay `pending`.
-/

set_option autoImplicit false

namespace Tangle.Markdown

/-- `rest` is what follows the `taken` characters read so far; tab stops count from
character `tabStart`. -/
structure Lead where
  rest : List Char
  taken : Nat := 0
  tabStart : Nat := 0
  pending : Nat := 0
  deriving DecidableEq, Repr, Inhabited

namespace Lead

/-- Takes up to `count` columns from the characters, and gives the columns missing. -/
def takeColumns : List Char → Lead → Nat → Lead × Nat
  | _, lead, 0 => (lead, 0)
  | [], lead, count => (lead, count)
  | c :: rest, lead, count + 1 =>
      if c = ' ' then
        takeColumns rest { lead with rest := rest, taken := lead.taken + 1 } count
      else if c = '\t' then
        let width := 4 - (lead.taken - lead.tabStart) % 4
        let used := min width (count + 1)
        takeColumns rest
          { rest := rest, taken := lead.taken + 1, tabStart := lead.taken + 1
            pending := width - used }
          (count + 1 - used)
      else (lead, count + 1)

/-- Takes up to `count` columns of white space, and gives the columns missing. -/
def takeSpace (lead : Lead) (count : Nat) : Lead × Nat :=
  let fromTab := min lead.pending count
  takeColumns lead.rest { lead with pending := lead.pending - fromTab } (count - fromTab)

/-- Takes `count` columns; the flag says whether there were as many. -/
def space (lead : Lead) (count : Nat) : Lead × Bool :=
  let (after, missing) := lead.takeSpace count
  (after, missing = 0)

/-- Takes up to `count` columns, and gives the number taken. -/
def spaceUpTo (lead : Lead) (count : Nat) : Lead × Nat :=
  let (after, missing) := lead.takeSpace count
  (after, count - missing)

def skip (lead : Lead) (count : Nat) : Lead :=
  { lead with rest := lead.rest.drop count, taken := lead.taken + count }

/-- Takes all spaces and tabs. -/
def allSpace (lead : Lead) : Lead :=
  let count := countWhile (fun c => c == ' ' || c == '\t') lead.rest
  { lead.skip count with pending := 0 }

def atLineEnd (lead : Lead) : Bool :=
  match lead.rest with
  | [] => true
  | c :: _ => c == '\n' || c == '\r'

/-- A quote marker with the column of white space behind it. -/
def quoteMarker? (lead : Lead) : Option Lead :=
  match lead.rest with
  | '>' :: _ => some ((lead.skip 1).space 1).1
  | _ => none

end Lead

/-- The length of a thematic break: three or more equal marks and pads. -/
def thematicBreak? (text : List Char) : Option Nat :=
  match text with
  | [] => none
  | mark :: _ =>
      if mark == '*' || mark == '-' || mark == '_' then
        let line := text.takeWhile fun c => c != '\n' && c != '\r'
        if line.all (fun c => c == mark || c == ' ' || c == '\t') && 3 ≤ line.count mark then
          some (line.length + (lineEnd? (text.drop line.length)).getD 0)
        else none
      else none

/-- A list marker: its last character, its number, and the columns that the
content of the item is indented by. -/
structure ListMarker where
  mark : Char
  number : Nat
  indent : Nat
  deriving DecidableEq, Repr, Inhabited

def isBullet (c : Char) : Bool :=
  c == '-' || c == '+' || c == '*'

/-- Takes the white space behind a list marker into its indentation, unless there
is so much that the content is indented code. -/
def Lead.finishMarker (lead : Lead) (mark : Char) (number indent : Nat) : ListMarker × Lead :=
  if (blankLine? lead.rest).isSome then (⟨mark, number, indent⟩, lead)
  else
    let (after, width) := lead.spaceUpTo 4
    if width < 4 then (⟨mark, number, indent + width⟩, after) else (⟨mark, number, indent⟩, lead)

/-- The marker of a list item that is itself indented by `indent` columns. -/
def Lead.listMarker? (lead : Lead) (indent : Nat) : Option (ListMarker × Lead) :=
  match lead.rest with
  | [] => none
  | c :: _ =>
      if isBullet c then
        if (thematicBreak? lead.rest).isSome then none
        else
          let (after, spaced) := (lead.skip 1).space 1
          if spaced || after.atLineEnd then some (after.finishMarker c 0 (indent + 2)) else none
      else
        let digits := lead.rest.takeWhile Char.isDigit
        if digits.isEmpty || digits.length > 9 then none
        else
          match lead.rest.drop digits.length with
          | mark :: _ =>
              if mark == '.' || mark == ')' then
                let width := digits.length + 1
                let (after, spaced) := (lead.skip width).space 1
                if spaced || after.atLineEnd then
                  let number := digits.foldl (fun value d => value * 10 + (d.toNat - 48)) 0
                  some (after.finishMarker mark number (indent + 1 + width))
                else none
              else none
          | [] => none

end Tangle.Markdown
