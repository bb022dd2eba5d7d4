import Tangle.Yaml.Scan.Block
import Tangle.Yaml.Scan.Plain
import Tangle.Yaml.Scan.Tag

/-!
Contract: a YAML text as a sequence of tokens.

Owns: the scanner state, the rules on simple keys and on indentation, and
`TokenStream`, which pairs the tokens that can be delivered with the error that
stands in the way of more.

Does **not** own: the grammar over tokens (`Tangle.Yaml.Event`).

## Delivery

A scalar that may still turn out to be a key holds back every token from its own
number on: a key token may have to go in front of it. `ready` counts the tokens
that nothing holds back. An error met while reading on takes the place of the
first token that is not ready, which is why the stream keeps only those.
-/

set_option autoImplicit false

namespace Tangle.Yaml

/-- A place where a key without its indicator may have started. -/
structure SimpleKey where
  number : Nat
  mark : Mark
  required : Bool
  deriving DecidableEq, Repr, Inhabited

/-- `keys` has one place for the block level and one for every open flow
collection, the innermost first. -/
structure Scanner where
  cursor : Cursor
  tokens : List Token := []
  flowLevel : Nat := 0
  indent : Int := -1
  indents : List Int := []
  keys : List (Option SimpleKey) := [none]
  keyAllowed : Bool := true
  deriving Repr, Inhabited

/-- Tokens in order; when `failure` is present it comes after the last of them. -/
structure TokenStream where
  tokens : List Token
  failure : Option SyntaxError
  deriving Repr, Inhabited

namespace Scanner

def inFlow (scanner : Scanner) : Bool :=
  scanner.flowLevel != 0

def push (scanner : Scanner) (token : Token) : Scanner :=
  { scanner with tokens := scanner.tokens ++ [token] }

def missingColon (scanner : Scanner) (key : SimpleKey) : SyntaxError :=
  { problem := .expectedColon, mark := scanner.cursor.mark, activity := some (.simpleKey, key.mark) }

/-- A key lies on one line and within 1024 bytes. -/
def isStale (mark : Mark) (key : SimpleKey) : Bool :=
  key.mark.line < mark.line || key.mark.index + 1024 < mark.index

/-- Forgets keys that can no longer be one; a required one is an error. -/
def dropStale (scanner : Scanner) : Except SyntaxError Scanner :=
  let mark := scanner.cursor.mark
  match scanner.keys.reverse.filterMap id |>.find? fun key => isStale mark key && key.required with
  | some key => .error (scanner.missingColon key)
  | none =>
      .ok { scanner with
            keys := scanner.keys.map fun key => key.filter fun candidate => !isStale mark candidate }

/-- Gives up the innermost key; a required one is an error. -/
def removeKey (scanner : Scanner) : Except SyntaxError Scanner :=
  match scanner.keys with
  | [] => .ok scanner
  | some key :: rest =>
      if key.required then .error (scanner.missingColon key)
      else .ok { scanner with keys := none :: rest }
  | none :: _ => .ok scanner

/-- Notes that a key may start at the cursor. -/
def saveKey (scanner : Scanner) : Except SyntaxError Scanner :=
  if !scanner.keyAllowed then .ok scanner
  else do
    let required := !scanner.inFlow && scanner.indent == (scanner.cursor.mark.column : Int)
    let scanner ← scanner.removeKey
    return { scanner with
             keys := some ⟨scanner.tokens.length, scanner.cursor.mark, required⟩ :: scanner.keys.drop 1 }

/-- Opens a block collection at `column` when that is deeper. Its token goes in
front of token `number`, or to the end. -/
def rollIndent (scanner : Scanner) (column : Nat) (number : Option Nat) (kind : TokenKind)
    (mark : Mark) : Scanner :=
  if scanner.inFlow || (column : Int) ≤ scanner.indent then scanner
  else
    let token : Token := ⟨kind, mark, mark⟩
    { scanner with
      indents := scanner.indent :: scanner.indents
      indent := column
      tokens :=
        match number with
        | some index => scanner.tokens.insertIdx index token
        | none => scanner.tokens ++ [token] }

/-- Closes the block collections that are deeper than `column`. -/
def unrollIndent (column : Int) (scanner : Scanner) : Scanner :=
  if scanner.inFlow then scanner else close scanner.indents scanner
where
  close : List Int → Scanner → Scanner
    | [], scanner => scanner
    | outer :: rest, scanner =>
        if scanner.indent ≤ column then scanner
        else
          let mark := scanner.cursor.mark
          close rest
            { scanner with
              tokens := scanner.tokens ++ [⟨.blockEnd, mark, mark⟩]
              indent := outer
              indents := rest }

/-- A token of `width` characters at the cursor. -/
def pushMark (scanner : Scanner) (kind : TokenKind) (width : Nat) : Scanner :=
  let after := scanner.cursor.skipMany width
  { scanner.push ⟨kind, scanner.cursor.mark, after.mark⟩ with cursor := after }

/-- Steps over blanks, comments and line breaks, and over a byte order mark that starts
a line. A tab counts as a blank where no key may start. -/
def toNextToken : Nat → Scanner → Scanner
  | 0, scanner => scanner
  | fuel + 1, scanner =>
      let tabs := scanner.inFlow || !scanner.keyAllowed
      let cursor := scanner.cursor
      let cursor := if cursor.mark.column == 0 && cursor.atChar '\ufeff' then cursor.skip else cursor
      let cursor := cursor.skipWhile fun c => c == ' ' || (tabs && c == '\t')
      let cursor := if cursor.atChar '#' then cursor.skipWhile (fun c => !isBreak c) else cursor
      if cursor.peek?.any isBreak then
        toNextToken fuel
          { scanner with
            cursor := cursor.skipLine
            keyAllowed := if scanner.inFlow then scanner.keyAllowed else true }
      else { scanner with cursor := cursor }

def fetchStreamEnd (scanner : Scanner) : Except SyntaxError Scanner := do
  let mark := scanner.cursor.mark
  let mark := if mark.column != 0 then { mark with line := mark.line + 1, column := 0 } else mark
  let scanner := { scanner with cursor := { scanner.cursor with mark := mark } }
  let scanner ← (scanner.unrollIndent (-1)).removeKey
  return { scanner.push ⟨.streamEnd, mark, mark⟩ with keyAllowed := false }

def fetchDirective (scanner : Scanner) : Except SyntaxError Scanner := do
  let scanner ← (scanner.unrollIndent (-1)).removeKey
  let (token, after) ← DirectiveLine.scan scanner.cursor
  return { scanner.push token with cursor := after, keyAllowed := false }

def fetchDocumentMarker (scanner : Scanner) (kind : TokenKind) : Except SyntaxError Scanner := do
  let scanner ← (scanner.unrollIndent (-1)).removeKey
  return { scanner.pushMark kind 3 with keyAllowed := false }

def fetchFlowStart (scanner : Scanner) (kind : TokenKind) : Except SyntaxError Scanner := do
  let scanner ← scanner.saveKey
  let scanner := scanner.pushMark kind 1
  return { scanner with
           flowLevel := scanner.flowLevel + 1, keys := none :: scanner.keys, keyAllowed := true }

def fetchFlowEnd (scanner : Scanner) (kind : TokenKind) : Except SyntaxError Scanner := do
  let scanner ← scanner.removeKey
  let scanner :=
    if scanner.inFlow then
      { scanner with flowLevel := scanner.flowLevel - 1, keys := scanner.keys.drop 1 }
    else scanner
  return { scanner.pushMark kind 1 with keyAllowed := false }

def fetchFlowEntry (scanner : Scanner) : Except SyntaxError Scanner := do
  let scanner ← scanner.removeKey
  return { scanner.pushMark .flowEntry 1 with keyAllowed := true }

def notAllowed (scanner : Scanner) (problem : Problem) : SyntaxError :=
  { problem := problem, mark := scanner.cursor.mark }

/-- Opens a block collection at the cursor, where one must be allowed. -/
def openBlock (scanner : Scanner) (kind : TokenKind) (problem : Problem) :
    Except SyntaxError Scanner :=
  if scanner.inFlow then .ok scanner
  else if !scanner.keyAllowed then .error (scanner.notAllowed problem)
  else .ok (scanner.rollIndent scanner.cursor.mark.column none kind scanner.cursor.mark)

def fetchBlockEntry (scanner : Scanner) : Except SyntaxError Scanner := do
  let scanner ← scanner.openBlock .blockSequenceStart .sequenceEntryNotAllowed
  let scanner ← scanner.removeKey
  return { scanner.pushMark .blockEntry 1 with keyAllowed := true }

def fetchKey (scanner : Scanner) : Except SyntaxError Scanner := do
  let scanner ← scanner.openBlock .blockMappingStart .mappingKeyNotAllowed
  let scanner ← scanner.removeKey
  return { scanner.pushMark .key 1 with keyAllowed := !scanner.inFlow }

def fetchValue (scanner : Scanner) : Except SyntaxError Scanner :=
  match scanner.keys with
  | some key :: rest =>
      let scanner :=
        { scanner with
          tokens := scanner.tokens.insertIdx key.number ⟨.key, key.mark, key.mark⟩
          keys := none :: rest }
      let scanner := scanner.rollIndent key.mark.column (some key.number) .blockMappingStart key.mark
      .ok { scanner.pushMark .value 1 with keyAllowed := false }
  | _ => do
      let scanner ← scanner.openBlock .blockMappingStart .mappingValueNotAllowed
      return { scanner.pushMark .value 1 with keyAllowed := !scanner.inFlow }

/-- A token that may start a simple key and allows none after it. -/
def fetchKeyed (scanner : Scanner)
    (scan : Scanner → Except SyntaxError (Token × Cursor)) : Except SyntaxError Scanner := do
  let scanner ← scanner.saveKey
  let (token, after) ← scan scanner
  return { scanner.push token with cursor := after, keyAllowed := false }

def fetchPlain (scanner : Scanner) : Except SyntaxError Scanner := do
  let scanner ← scanner.saveKey
  let (token, after, newLine) ← Plain.scan scanner.inFlow scanner.indent scanner.cursor
  return { scanner.push token with cursor := after, keyAllowed := newLine }

def fetchBlockScalar (scanner : Scanner) (literal : Bool) : Except SyntaxError Scanner := do
  let scanner ← scanner.removeKey
  let (token, after) ← Block.scan literal scanner.indent scanner.cursor
  return { scanner.push token with cursor := after, keyAllowed := true }

/-- Characters that cannot start a plain scalar. -/
def isIndicator (c : Char) : Bool :=
  isFlowMark c || "-?:#&*!|>%@".toList.contains c || c == Text.Symbol.apostrophe
    || c == Text.Symbol.quote || c == Text.Symbol.backtick

/-- Whether a plain scalar starts at `c`, which `next` follows. -/
def startsPlain (flow : Bool) (c : Char) (next : Option Char) : Bool :=
  !(isPad c || isBreak c || isIndicator c)
    || (c == '-' && !(next.any isPad))
    || (!flow && (c == '?' || c == ':') && !Cursor.blankOrEnd next)

/-- Reads the token at the cursor, which stands at a character that is no blank. -/
def fetchAt (scanner : Scanner) (c : Char) : Except SyntaxError Scanner :=
  let cursor := scanner.cursor
  let next := cursor.ahead? 1
  let spaced := Cursor.blankOrEnd next
  if cursor.mark.column == 0 && c == '%' then scanner.fetchDirective
  else if cursor.atDocumentMarker '-' then scanner.fetchDocumentMarker .documentStart
  else if cursor.atDocumentMarker '.' then scanner.fetchDocumentMarker .documentEnd
  else if c == '[' then scanner.fetchFlowStart .flowSequenceStart
  else if c == Text.Symbol.openBrace then scanner.fetchFlowStart .flowMappingStart
  else if c == ']' then scanner.fetchFlowEnd .flowSequenceEnd
  else if c == Text.Symbol.closeBrace then scanner.fetchFlowEnd .flowMappingEnd
  else if c == ',' then scanner.fetchFlowEntry
  else if c == '-' && spaced then scanner.fetchBlockEntry
  else if c == '?' && (scanner.inFlow || spaced) then scanner.fetchKey
  else if c == ':' && (scanner.inFlow || spaced) then scanner.fetchValue
  else if c == '*' then scanner.fetchKeyed fun s => scanAnchor true s.cursor
  else if c == '&' then scanner.fetchKeyed fun s => scanAnchor false s.cursor
  else if c == '!' then scanner.fetchKeyed fun s => Tag.scan s.inFlow s.cursor
  else if c == '|' && !scanner.inFlow then scanner.fetchBlockScalar true
  else if c == '>' && !scanner.inFlow then scanner.fetchBlockScalar false
  else if c == Text.Symbol.apostrophe then scanner.fetchKeyed fun s => Quoted.scan true s.cursor
  else if c == Text.Symbol.quote then scanner.fetchKeyed fun s => Quoted.scan false s.cursor
  else if startsPlain scanner.inFlow c next then scanner.fetchPlain
  else
    .error { problem := .cannotStartToken, mark := cursor.mark,
             activity := some (.nextToken, cursor.mark) }

/-- Reads on by one token, together with the block ends ahead of it. The answer
says whether the text has ended. -/
def fetch (scanner : Scanner) : Except SyntaxError (Scanner × Bool) := do
  let scanner ← (scanner.toNextToken (scanner.cursor.rest.length + 1)).dropStale
  let scanner := scanner.unrollIndent scanner.cursor.mark.column
  match scanner.cursor.peek? with
  | none => return (← scanner.fetchStreamEnd, true)
  | some c => return (← scanner.fetchAt c, false)

/-- Tokens that no possible key holds back. -/
def ready (scanner : Scanner) : Nat :=
  (scanner.keys.filterMap id).foldl (fun least key => min least key.number) scanner.tokens.length

/-- Reads to the end of the text. `delivered` counts the tokens that were ready
before the last one was read. -/
def run : Nat → Nat → Scanner → TokenStream
  | 0, _, scanner => ⟨scanner.tokens, none⟩
  | fuel + 1, delivered, scanner =>
      match scanner.dropStale with
      | .error error => ⟨scanner.tokens.take delivered, some error⟩
      | .ok scanner =>
          let ready := scanner.ready
          match scanner.fetch with
          | .error error => ⟨scanner.tokens.take ready, some error⟩
          | .ok (scanner, true) => ⟨scanner.tokens, none⟩
          | .ok (scanner, false) => run fuel ready scanner

end Scanner

/-- Characters that a YAML text may hold. -/
def isAllowed (c : Char) : Bool :=
  let code := c.toNat
  code == 9 || code == 10 || code == 13 || (0x20 ≤ code && code ≤ 0x7E) || code == 0x85
    || (0xA0 ≤ code && code ≤ 0xD7FF) || (0xE000 ≤ code && code ≤ 0xFFFD) || 0x10000 ≤ code

/-- The byte offset of the first character that is not allowed. -/
def forbiddenAt? : Nat → List Char → Option Nat
  | _, [] => none
  | offset, c :: rest => if isAllowed c then forbiddenAt? (offset + c.utf8Size) rest else some offset

/-- The tokens of a text. -/
def tokenize (text : List Char) : TokenStream :=
  let start : Token := ⟨.streamStart, {}, {}⟩
  match forbiddenAt? 0 text with
  | some at_ => ⟨[start], some { problem := .controlCharacter, offset := at_ }⟩
  | none => Scanner.run (text.length + 2) 1 { cursor := { rest := text }, tokens := [start] }

end Tangle.Yaml
