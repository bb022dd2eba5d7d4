/-!
Contract: the measures and cuts of plain text that every later layer shares.

Owns: the Unicode blank class, trimming, the two ways of counting lines, byte
measure and byte cuts, and literal search.

Does **not** own: substitution (`Tangle.Text.Replace`), quoting
(`Tangle.Text.Quoted`), or any document structure.

Every function on `String` is described by its effect on `String.toList`; the
list form carries the recursion, so a proof never has to look at bytes.
-/

set_option autoImplicit false

namespace Tangle.Text

/-- Characters with the Unicode property `White_Space`. -/
def isBlank (c : Char) : Bool :=
  let code := c.toNat
  (9 ≤ code && code ≤ 13) || code == 0x20 || code == 0x85 || code == 0xA0 || code == 0x1680
    || (0x2000 ≤ code && code ≤ 0x200A) || code == 0x2028 || code == 0x2029
    || code == 0x202F || code == 0x205F || code == 0x3000

/-- Drops the longest tail whose characters all satisfy `drop`. -/
def dropTailWhile (drop : Char → Bool) (chars : List Char) : List Char :=
  (chars.reverse.dropWhile drop).reverse

/-- Applies a function on characters lists to a text. -/
def mapChars (f : List Char → List Char) (text : String) : String :=
  String.ofList (f text.toList)

def trimStart (text : String) : String :=
  mapChars (List.dropWhile isBlank) text

def trimEnd (text : String) : String :=
  mapChars (dropTailWhile isBlank) text

def trim (text : String) : String :=
  trimEnd (trimStart text)

/-- A text with no character outside the blank class. -/
def allBlank (text : String) : Bool :=
  text.toList.all isBlank

/-- The pieces between the occurrences of `mark`; there is always at least one. -/
def splitChars (mark : Char) : List Char → List (List Char)
  | [] => [[]]
  | c :: rest =>
      if c = mark then [] :: splitChars mark rest
      else
        match splitChars mark rest with
        | [] => [[c]]
        | piece :: pieces => (c :: piece) :: pieces

/-- The pieces between line feeds; there is always at least one. -/
def splitLines (text : String) : List String :=
  (splitChars '\n' text.toList).map String.ofList

def newlineCount (text : String) : Nat :=
  text.toList.count '\n'

/-- Lines when split at line feeds, where the empty text has none. -/
def lineCount (text : String) : Nat :=
  if text.toList.isEmpty then 0 else newlineCount text + 1

/-- Removes one final carriage return. -/
def dropFinalReturn (line : List Char) : List Char :=
  if line.getLast? = some '\r' then line.dropLast else line

/-- Lines as a reader sees them: a line break ends a line and opens none, and a
carriage return before it belongs to the break. -/
def terminatedLines (text : List Char) : List (List Char) :=
  let rec walk : List (List Char) → List (List Char)
    | [] => []
    | [last] => if last.isEmpty then [] else [last]
    | line :: rest => dropFinalReturn line :: walk rest
  walk (splitChars '\n' text)

/-- Bytes of the UTF-8 form of a list of characters. -/
def byteSize : List Char → Nat
  | [] => 0
  | c :: rest => c.utf8Size + byteSize rest

/-- The longest initial run of characters that fits in `bytes` bytes. -/
def takeBytes : Nat → List Char → List Char
  | _, [] => []
  | bytes, c :: rest =>
      if c.utf8Size ≤ bytes then c :: takeBytes (bytes - c.utf8Size) rest else []

/-- What `takeBytes` leaves. -/
def dropBytes : Nat → List Char → List Char
  | _, [] => []
  | bytes, c :: rest =>
      if c.utf8Size ≤ bytes then dropBytes (bytes - c.utf8Size) rest else c :: rest

/-- The characters that follow `lead` when the text starts with it. -/
def stripLead? (lead chars : List Char) : Option (List Char) :=
  if lead.isPrefixOf chars then some (chars.drop lead.length) else none

/-- The characters before `tail` when the text ends with it. -/
def stripTail? (tail chars : List Char) : Option (List Char) :=
  if tail.isSuffixOf chars then some (chars.take (chars.length - tail.length)) else none

/-- The text around the first occurrence of `pattern`, the occurrence left out. -/
def findSplit? (pattern : List Char) : List Char → Option (List Char × List Char)
  | [] => if pattern.isEmpty then some ([], []) else none
  | c :: rest =>
      match stripLead? pattern (c :: rest) with
      | some after => some ([], after)
      | none => (findSplit? pattern rest).map fun (before, after) => (c :: before, after)

def contains (text pattern : String) : Bool :=
  (findSplit? pattern.toList text.toList).isSome

def startsWith (text lead : String) : Bool :=
  lead.toList.isPrefixOf text.toList

def endsWith (text tail : String) : Bool :=
  tail.toList.isSuffixOf text.toList

/-- Order of characters lists, by code point. -/
def charsBefore : List Char → List Char → Bool
  | [], [] => false
  | [], _ :: _ => true
  | _ :: _, [] => false
  | a :: left, b :: right => a < b || (a == b && charsBefore left right)

/-- Order of texts, by code point. -/
def before (left right : String) : Bool :=
  charsBefore left.toList right.toList

/-- Decimal digits of a natural number. -/
def ofNat (value : Nat) : String :=
  String.ofList (Nat.toDigits 10 value)

def join (separator : String) : List String → String
  | [] => ""
  | [only] => only
  | first :: rest => first ++ separator ++ join separator rest

/-- `text` written `count` times in a row. -/
def repeated (count : Nat) (c : Char) : String :=
  String.ofList (List.replicate count c)

/-- Words between runs of blank characters. -/
def words (text : List Char) : List (List Char) :=
  let rec walk : List Char → List Char → List (List Char)
    | word, [] => if word.isEmpty then [] else [word.reverse]
    | word, c :: rest =>
        if isBlank c then
          if word.isEmpty then walk [] rest else word.reverse :: walk [] rest
        else walk (c :: word) rest
  walk [] text

end Tangle.Text
