import Tangle.Text.Symbol
import Tangle.Yaml.Resolve

/-!
Contract: the written form of texts, booleans, lists and records in block style.

Owns: the choice between plain, quoted and literal form, the escapes, and the
layout of nested collections.

Does **not** own: reading (`Tangle.Yaml.Scan`), or which records are written
(`Tangle.Directive.Encode`).

A list that is the value of a field starts at the column of the field; everything
else that is nested goes two columns deeper.
-/

set_option autoImplicit false

namespace Tangle.Yaml.Write

/-- What is written. A record gives each field its name. -/
inductive Tree where
  | text (value : String)
  | boolean (value : Bool)
  | list (items : List Tree)
  | record (names : List String) (values : List Tree)
  deriving Repr, Inhabited

/-- Columns that a nested collection goes deeper. -/
def indentStep : Nat := 2

/-- Characters that need no escape. -/
def isPrintable (c : Char) : Bool :=
  let code := c.toNat
  code == 0x0A || (0x20 ≤ code && code ≤ 0x7E) || (0xA0 ≤ code && code ≤ 0xD7FF)
    || (0xE000 ≤ code && code ≤ 0xFFFD && code != 0xFEFF) || 0x10000 ≤ code

/-- The traits of a text that decide how it can be written. -/
structure Traits where
  blockIndicator : Bool
  breaks : Bool
  special : Bool
  leadSpace : Bool
  leadBreak : Bool
  trailSpace : Bool
  trailBreak : Bool
  breakSpace : Bool
  spaceBreak : Bool
  deriving Repr, Inhabited

/-- Whether `c`, between `before` and `after`, would be taken for an indicator. -/
def indicates (before : Option Char) (c : Char) (after : Option Char) : Bool :=
  let blankAfter := Cursor.blankOrEnd after
  match before with
  | none =>
      isFlowMark c || "#&*!|>%@".toList.contains c || c == Text.Symbol.apostrophe
        || c == Text.Symbol.quote || c == Text.Symbol.backtick
        || ((c == '?' || c == ':' || c == '-') && blankAfter)
  | some previous =>
      (c == ':' && blankAfter) || (c == '#' && Cursor.blankOrEnd (some previous))

def anyIndicator : Option Char → List Char → Bool
  | _, [] => false
  | before, c :: rest => indicates before c rest.head? || anyIndicator (some c) rest

/-- Whether two characters in a row satisfy `first` and `second`. -/
def anyPair (first second : Char → Bool) : List Char → Bool
  | a :: b :: rest => (first a && second b) || anyPair first second (b :: rest)
  | _ => false

def isSpace (c : Char) : Bool :=
  c == ' '

def traits (chars : List Char) : Traits :=
  { blockIndicator :=
      "---".toList.isPrefixOf chars || "...".toList.isPrefixOf chars || anyIndicator none chars
    breaks := chars.any isBreak
    special := chars.any fun c => !isPrintable c
    leadSpace := chars.head?.any isSpace
    leadBreak := chars.head?.any isBreak
    trailSpace := chars.getLast?.any isSpace
    trailBreak := chars.getLast?.any isBreak
    breakSpace := anyPair isBreak isSpace chars
    spaceBreak := anyPair isSpace isBreak chars }

namespace Traits

def plainAllowed (traits : Traits) : Bool :=
  !(traits.leadSpace || traits.leadBreak || traits.trailSpace || traits.trailBreak
    || traits.breakSpace || traits.spaceBreak || traits.special || traits.breaks
    || traits.blockIndicator)

def singleAllowed (traits : Traits) : Bool :=
  !(traits.breakSpace || traits.spaceBreak || traits.special)

def literalAllowed (traits : Traits) : Bool :=
  !(traits.trailSpace || traits.spaceBreak || traits.special)

end Traits

/-- A text that would be read as something else in plain form, or has digits with a
leading zero. -/
def needsQuotes (text : String) : Bool :=
  Resolve.plain text != .text || Resolve.zeroLed text.toList

/-- The form a text is written in: literal when it has line feeds, quoted when it
would be misread, and plain otherwise, each only where it is allowed. -/
def style (text : String) : ScalarStyle :=
  let chars := text.toList
  let traits := traits chars
  if chars.contains '\n' then
    if traits.literalAllowed then .literal else .doubleQuoted
  else if text.isEmpty then .singleQuoted
  else if !needsQuotes text && traits.plainAllowed then .plain
  else if traits.singleAllowed then .singleQuoted
  else .doubleQuoted

def spaces (count : Nat) : List Char :=
  List.replicate count ' '

/-- Between apostrophes. A line that a separator opens is indented; `opened` says
that the last character was one. -/
def singleBody (indent : Nat) : Bool → List Char → List Char
  | opened, [] => if opened then spaces indent else []
  | opened, c :: rest =>
      if isBreak c then c :: singleBody indent true rest
      else
        (if opened then spaces indent else [])
          ++ (if c == Text.Symbol.apostrophe then [c, c] else [c]) ++ singleBody indent false rest

/-- A code in hexadecimal, padded to `width` digits. -/
def hexDigits (width code : Nat) : List Char :=
  let digits := (Nat.toDigits 16 code).map Char.toUpper
  List.replicate (width - digits.length) '0' ++ digits

/-- The letter that stands for a character behind a backslash. -/
def escapeLetter? (c : Char) : Option Char :=
  match c.toNat with
  | 0x00 => some '0'
  | 0x07 => some 'a'
  | 0x08 => some 'b'
  | 0x09 => some 't'
  | 0x0A => some 'n'
  | 0x0B => some 'v'
  | 0x0C => some 'f'
  | 0x0D => some 'r'
  | 0x1B => some 'e'
  | 0x22 => some Text.Symbol.quote
  | 0x5C => some Text.Symbol.backslash
  | 0x85 => some 'N'
  | 0xA0 => some '_'
  | 0x2028 => some 'L'
  | 0x2029 => some 'P'
  | _ => none

def escaped (c : Char) : List Char :=
  Text.Symbol.backslash ::
    match escapeLetter? c with
    | some letter => [letter]
    | none =>
        let code := c.toNat
        if code ≤ 0xFF then 'x' :: hexDigits 2 code
        else if code ≤ 0xFFFF then 'u' :: hexDigits 4 code
        else 'U' :: hexDigits 8 code

def doubleBody (chars : List Char) : List Char :=
  chars.flatMap fun c =>
    if !isPrintable c || isBreak c || c == Text.Symbol.quote || c == Text.Symbol.backslash then
      escaped c
    else [c]

/-- Hints behind the indicator of a literal: the indentation when the text does not
start with visible text, and what becomes of the breaks at its end. -/
def literalHints (chars : List Char) : List Char :=
  let indentHint :=
    if chars.head?.any fun c => c == ' ' || isBreak c then Nat.toDigits 10 indentStep else []
  let chompHint :=
    match chars.reverse with
    | [] => ['-']
    | [only] => if isBreak only then ['+'] else ['-']
    | last :: previous :: _ =>
        if !isBreak last then ['-'] else if isBreak previous then ['+'] else []
  indentHint ++ chompHint

/-- Lines of a literal; `opened` says that a line was opened and has no text yet. -/
def literalBody (indent : Nat) : Bool → List Char → List Char
  | _, [] => []
  | opened, c :: rest =>
      if isBreak c then c :: literalBody indent true rest
      else (if opened then spaces indent else []) ++ c :: literalBody indent false rest

/-- A text at indentation `indent`, with the line end behind it. -/
def scalar (indent : Nat) (text : String) : List Char :=
  let chars := text.toList
  match style text with
  | .plain => chars ++ ['\n']
  | .singleQuoted =>
      Text.Symbol.apostrophe :: singleBody indent false chars ++ [Text.Symbol.apostrophe, '\n']
  | .literal =>
      '|' :: literalHints chars ++ '\n' :: literalBody indent true chars
        ++ (if chars.getLast?.any isBreak then [] else ['\n'])
  | _ => Text.Symbol.quote :: doubleBody chars ++ [Text.Symbol.quote, '\n']

mutual

/-- A node behind the indicator of its parent; `column` is where a nested
collection starts. -/
def node (column : Nat) : Tree → List Char
  | .text value => scalar column value
  | .boolean value => (if value then "true" else "false").toList ++ ['\n']
  | .list items => listItems column true items
  | .record names values => recordFields column true names values

/-- Items of a list; the first one stands where the cursor is. -/
def listItems (column : Nat) (first : Bool) : List Tree → List Char
  | [] => []
  | item :: rest =>
      (if first then [] else spaces column) ++ '-' :: ' ' :: node (column + indentStep) item
        ++ listItems column false rest

/-- Fields of a record; the first one stands where the cursor is. -/
def recordFields (column : Nat) (first : Bool) : List String → List Tree → List Char
  | name :: names, value :: values =>
      (if first then [] else spaces column) ++ name.toList ++ ':' :: fieldValue column value
        ++ recordFields column false names values
  | _, _ => []

/-- The value of a field, behind the colon. -/
def fieldValue (column : Nat) : Tree → List Char
  | .list items => '\n' :: spaces column ++ listItems column true items
  | .record names values =>
      '\n' :: spaces (column + indentStep)
        ++ recordFields (column + indentStep) true names values
  | .text value => ' ' :: scalar (column + indentStep) value
  | .boolean value => ' ' :: (if value then "true" else "false").toList ++ ['\n']

end

/-- A whole document. -/
def document (tree : Tree) : List Char :=
  node 0 tree

end Tangle.Yaml.Write
