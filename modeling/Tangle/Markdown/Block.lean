import Tangle.Markdown.Escape
import Tangle.Markdown.Reference

/-!
Contract: the HTML blocks and fenced code blocks of a Markdown text, in order.

Owns: `Block`, the state of open containers, and the one pass over the text.

Does **not** own: what a comment or a fence means to the extractor
(`Tangle.Document.Item`).

Every block is read from the line it starts on, with the containers open at that
line; reading it answers with the cursor behind it. All other blocks leave no
trace beyond that cursor.
-/

set_option autoImplicit false

namespace Tangle.Markdown

open Tangle.Source

/-- A piece of a fence's content and the source it was taken from. Columns of a tab
that only partly belongs to the content are written as spaces. -/
structure Chunk where
  text : List Char
  span : Span
  deriving DecidableEq, Repr, Inhabited

inductive Block where
  | html (span : Span)
  | fence (info : List Char) (content : List Chunk) (span : Span)
  deriving DecidableEq, Repr, Inhabited

/-- The open containers; whether the last line was blank; and whether the innermost
item has no content yet. -/
structure State where
  spine : Spine := []
  lastBlank : Bool := false
  emptyItem : Bool := false
  deriving DecidableEq, Repr, Inhabited

namespace State

def innermost? (state : State) : Option Container :=
  state.spine.getLast?

/-- Closes all but the outermost containers. With a tight list goes the item that had
no content. -/
def keep (state : State) (count : Nat) : State :=
  { state with
    spine := state.spine.take count
    emptyItem := state.emptyItem && !(state.spine.drop count).any Container.isTightList }

def pop (state : State) : State :=
  state.keep (state.spine.length - 1)

def push (state : State) (container : Container) : State :=
  { state with spine := state.spine ++ [container] }

/-- An item may start with one blank line at most: a second one ends it. -/
def finishEmptyItem (state : State) : State :=
  let ended :=
    match state.innermost? with
    | some (.item _) => state.emptyItem && state.lastBlank
    | _ => false
  let state := if ended then state.pop else state
  { state with emptyItem := false }

/-- Makes the container around the innermost one loose, if it is a list. -/
def loosenOuter (state : State) : State :=
  { state with spine := state.spine.modify (state.spine.length - 2) Container.loosen }

/-- Ends the list that a block which is no item follows. A blank line ahead of the block
makes the list around its item loose. -/
def finishList (state : State) : State :=
  let state := state.finishEmptyItem
  let state :=
    match state.innermost? with
    | some (.list _ _) => state.pop
    | _ => state
  let state :=
    if state.lastBlank && 2 ≤ state.spine.length then state.loosenOuter else state
  { state with lastBlank := false }

/-- Goes on with a list of the same mark, or starts one. -/
def continueList (state : State) (mark : Char) : State :=
  let state := state.finishEmptyItem
  let same (tight : Bool) : Bool := state.innermost? = some (.list mark tight)
  if same true || same false then
    let list := Container.list mark (same true && !state.lastBlank)
    { state.pop.push list with lastBlank := false }
  else
    let state := if state.spine.isEmpty then state else state.finishList
    { state.push (.list mark true) with lastBlank := false }

/-- Notes a blank line. An item that is still empty takes no part in later lines. -/
def blankLine (state : State) : State :=
  match state.innermost? with
  | some .quote => state
  | some (.item _) =>
      if state.emptyItem then { state.pop.push (.item 0) with lastBlank := true }
      else { state with lastBlank := true }
  | _ => { state with lastBlank := true }

end State

/-- The outcome of reading containers at the start of a line. -/
inductive Opened where
  | content (state : State) (lead : Lead)
  | blankItem (state : State) (length : Nat)
  deriving Repr, Inhabited

/-- Opens the containers whose markers stand at the start of a line. -/
def openContainers : Nat → State → Lead → Opened
  | 0, state, lead => .content state lead
  | fuel + 1, state, lead =>
      let (inner, indent) := lead.spaceUpTo 4
      if indent ≥ 4 then .content state lead
      else
        match inner.listMarker? indent with
        | some (marker, after) =>
            let state := (state.continueList marker.mark).push (.item marker.indent)
            match blankLine? after.rest with
            | some length => .blankItem { state with emptyItem := true } (after.taken + length)
            | none => openContainers fuel state after
        | none =>
            match inner.quoteMarker? with
            | some after => openContainers fuel (state.finishList.push .quote) after
            | none => .content state lead

/-- Length of the text through its first line end, a lone carriage return included. -/
def textLine (cursor : Cursor) : Cursor :=
  cursor.advance (Table.firstLine cursor.rest)

/-- Reads the rows of a table of so many columns; `missing` counts the cells that the
rows so far lack. Every list item ends it, as one outside its containers would, and so
does a row without cells. -/
def tableRows (spine : Spine) (columns : Nat) : Nat → Nat → Cursor → Cursor
  | 0, _, cursor => cursor
  | fuel + 1, missing, cursor =>
      match spine.continue? cursor.rest with
      | none => cursor
      | some lead =>
          let row := lead.allSpace
          let cells := Table.rowCells row.rest
          let missing := missing + (columns - cells)
          if interrupts row.rest false || cells = 0 || missing > Table.missingLimit then cursor
          else tableRows spine columns fuel missing (textLine (cursor.advance row.taken))

/-- Reads the lines of a paragraph from the line end of its first one on. Lines that
leave the containers belong to it unless they start something else. -/
def paragraphLines (spine : Spine) : Nat → Cursor → Cursor
  | 0, cursor => cursor
  | fuel + 1, cursor =>
      let (count, lead) := Spine.continued spine { rest := cursor.rest }
      let inside := count = spine.length
      let (indented, deep) := lead.space 4
      let underline := if inside && !deep then underline? indented.rest else none
      match underline with
      | some length => cursor.advance (indented.taken + length)
      | none =>
          if !deep && Definition.endsParagraph spine indented.rest inside then cursor
          else
            let line := indented.allSpace
            if line.atLineEnd then cursor
            else paragraphLines spine fuel (textLine (cursor.advance line.taken))

def paragraph (spine : Spine) (cursor : Cursor) : Cursor :=
  let fuel := cursor.rest.length + 1
  match Table.start? spine cursor.rest with
  | some head => tableRows spine head.columns fuel 0 (cursor.advance head.length)
  | none => paragraphLines spine fuel (textLine cursor)

/-- Reads a paragraph behind the reference definitions it starts with. A definition may
be followed by a line that ends the paragraph. -/
def paragraphWithDefinitions (spine : Spine) : Nat → Cursor → Cursor
  | 0, cursor => cursor
  | fuel + 1, cursor =>
      match Definition.length? spine cursor.rest with
      | none => paragraph spine cursor
      | some length =>
          let next := (cursor.advance length).skipBlankLine
          let (count, lead) := Spine.continued spine { rest := next.rest }
          let (indented, deep) := lead.space 4
          if !deep && Definition.endsParagraph spine indented.rest (count = spine.length) then next
          else paragraphWithDefinitions spine fuel (next.advance indented.taken)

/-- Reads indented code; the flag says whether it ends with blank lines. -/
def indentedCode (spine : Spine) : Nat → Cursor → Bool → Cursor × Bool
  | 0, cursor, blank => (cursor, blank)
  | fuel + 1, cursor, blank =>
      let next := cursor.nextLine
      match spine.continue? next.rest with
      | none => (next, blank)
      | some lead =>
          let (after, deep) := lead.space 4
          if !deep && !after.atLineEnd then (next, blank)
          else
            let line := next.advance after.taken
            if line.isEnd then (next, blank)
            else indentedCode spine fuel line (blankLine? line.rest).isSome

/-- Reads an HTML block that ends on the line which holds `closing`: its end and the
cursor behind it. -/
def htmlUntil (spine : Spine) (closing : List Char) : Nat → Cursor → Nat × Cursor
  | 0, cursor => (cursor.offset, cursor)
  | fuel + 1, cursor =>
      let line := cursor.rest.take (lineLength cursor.rest)
      let next := cursor.nextLine
      match spine.continue? next.rest with
      | none => (next.offset, next)
      | some lead =>
          if (Text.findSplit? closing line).isSome then (next.offset, next)
          else
            let inner := next.advance lead.taken
            if inner.isEnd then (inner.offset, next) else htmlUntil spine closing fuel inner

/-- Reads an HTML block that ends at a blank line. -/
def htmlUntilBlank (spine : Spine) : Nat → Cursor → Nat × Cursor
  | 0, cursor => (cursor.offset, cursor)
  | fuel + 1, cursor =>
      let next := cursor.nextLine
      match spine.continue? next.rest with
      | none => (next.offset, next)
      | some lead =>
          if lead.atLineEnd then (next.offset, next)
          else
            let inner := next.advance lead.taken
            if (blankLine? inner.rest).isSome then (inner.offset, next)
            else htmlUntilBlank spine fuel inner

/-- Reads a metadata block from the line after its first one. -/
def metadataLines (spine : Spine) : Nat → Cursor → Cursor
  | 0, cursor => cursor
  | fuel + 1, cursor =>
      match spine.continue? cursor.rest with
      | none => cursor
      | some lead =>
          match metadataEnd? cursor.rest with
          | some length => cursor.advance length
          | none => metadataLines spine fuel (cursor.advance lead.taken).nextLine

/-- The pieces of one content line: spaces for a tab that was cut, then the text,
without the carriage return ahead of its last character. -/
def lineChunks (pending : Nat) (cursor : Cursor) : List Chunk :=
  let line := cursor.rest.take (lineLength cursor.rest)
  let piece (skip length : Nat) : List Chunk :=
    let start := cursor.advance skip
    let stop := start.advance length
    if length = 0 then [] else [⟨start.rest.take length, ⟨start.offset, stop.offset⟩⟩]
  let padding : List Chunk :=
    if pending = 0 then []
    else [⟨List.replicate pending ' ', ⟨cursor.offset, cursor.offset⟩⟩]
  let returned :=
    match line.reverse with
    | last :: '\r' :: _ => last.utf8Size == 1
    | _ => false
  padding ++
    if returned then piece 0 (line.length - 2) ++ piece (line.length - 1) 1
    else piece 0 line.length

/-- Reads the content of a fence and its closing line: the content, the end of the
block, and the cursor behind it. -/
def fenceLines (spine : Spine) (fence : FenceMark) (indent : Nat) :
    Nat → Cursor → List Chunk × Nat × Cursor
  | 0, cursor => ([], cursor.offset, cursor)
  | fuel + 1, cursor =>
      match spine.continue? cursor.rest with
      | none => ([], cursor.offset, cursor)
      | some lead =>
          let content := (lead.space indent).1
          let (shifted, deep) := content.space (4 - indent)
          match (if deep then none else closingFence? fence shifted.rest) with
          | some length =>
              let stop := cursor.advance (shifted.taken + length)
              ([], stop.offset, stop.skipBlankLine)
          | none =>
              let start := cursor.advance content.taken
              let (chunks, stop, after) := fenceLines spine fence indent fuel start.nextLine
              (lineChunks content.pending start ++ chunks, stop, after)

/-- The info string behind an opening fence. -/
def infoText (fence : FenceMark) (text : List Char) : List Char :=
  let behind := text.drop fence.width
  let info := behind.drop (countWhile isPad behind)
  unescape (Text.dropTailWhile isSpace (info.take (lineLength info)))

/-- Reads a fenced code block whose opening fence is at the cursor. -/
def fencedCode (spine : Spine) (fence : FenceMark) (indent : Nat) (cursor : Cursor) :
    Block × Cursor :=
  let (content, stop, after) :=
    fenceLines spine fence indent (cursor.rest.length + 1) cursor.nextLine
  (.fence (infoText fence cursor.rest) content ⟨cursor.offset, stop⟩, after)

/-- An HTML block at the cursor. -/
def htmlBlock? (spine : Spine) (cursor : Cursor) : Option (Block × Cursor) :=
  let fuel := cursor.rest.length + 1
  let block (outcome : Nat × Cursor) : Block × Cursor :=
    (.html ⟨cursor.offset, outcome.1⟩, outcome.2)
  match cursor.rest with
  | '<' :: rest =>
      match Html.closing? rest with
      | some closing => some (block (htmlUntil spine closing.toList fuel cursor))
      | none =>
          if Html.startsBlockElement rest || Html.startsCompleteTag cursor.rest then
            some (block (htmlUntilBlank spine fuel cursor))
          else none
  | _ => none

/-- What reading one block gives: the state and the cursor behind it, and the block
if it is one that is kept. -/
structure Reading where
  state : State
  cursor : Cursor
  block : Option Block := none
  deriving Repr, Inhabited

/-- Reads a block that is no container and not blank. `lead` is its line behind the
container markers, and `cursor` the start of that line. -/
def readLeaf (state : State) (lead : Lead) (cursor : Cursor) : Reading :=
  let (inner, indent) := lead.spaceUpTo 4
  let content := cursor.advance inner.taken
  let ended := state.finishList
  let fuel := content.rest.length + 1
  if indent ≥ 4 then
    let (after, blank) := indentedCode ended.spine fuel content false
    { state := { ended with lastBlank := blank }, cursor := after }
  else if indent = 0 && startsMetadata content.rest then
    { state := ended
      cursor := (metadataLines ended.spine fuel content.nextLine).skipBlankLine }
  else
    match htmlBlock? ended.spine content with
    | some (block, after) => { state := ended, cursor := after, block := some block }
    | none =>
        match thematicBreak? content.rest with
        | some length => { state := ended, cursor := content.advance length }
        | none =>
            if isHeading content.rest then { state := ended, cursor := textLine content }
            else
              match fence? content.rest with
              | some fence =>
                  let (block, after) := fencedCode ended.spine fence indent content
                  { state := ended, cursor := after, block := some block }
              | none =>
                  { state := ended, cursor := paragraphWithDefinitions ended.spine fuel content }

/-- Reads one block, or one blank line, from the start of a line. -/
def readBlock (state : State) (cursor : Cursor) : Reading :=
  let (count, lead) := Spine.continued state.spine { rest := cursor.rest }
  let state := state.keep count
  match openContainers (cursor.rest.length + 1) state lead with
  | .blankItem state length => { state := state, cursor := cursor.advance length }
  | .content state lead =>
      match blankLine? lead.rest with
      | some length => { state := state.blankLine, cursor := cursor.advance (lead.taken + length) }
      | none => readLeaf state lead cursor

/-- Reads blocks to the end of the text. -/
def readBlocks : Nat → State → Cursor → List Block
  | 0, _, _ => []
  | fuel + 1, state, cursor =>
      if cursor.isEnd then []
      else
        let reading := readBlock state cursor
        reading.block.toList ++ readBlocks fuel reading.state reading.cursor

/-- The HTML blocks and fenced code blocks of a text. -/
def blocks (text : String) : List Block :=
  readBlocks (text.length + 1) {} (Cursor.start text)

end Tangle.Markdown
