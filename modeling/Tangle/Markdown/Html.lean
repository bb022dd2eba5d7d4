import Tangle.Markdown.Line
import Tangle.Text.Symbol

/-!
Contract: how HTML blocks start and what ends them.

Owns: the seven kinds of opening line.

Does **not** own: the lines in between (`Tangle.Markdown.Block`).

Kinds one to five end on the line that holds their closing text; six and seven end
at a blank line. Only the seventh cannot interrupt a paragraph.
-/

set_option autoImplicit false

namespace Tangle.Markdown.Html

def lower (text : List Char) : List Char :=
  text.map Char.toLower

/-- Whether `text` starts with `name`, in any case. -/
def startsWithName (name : String) (text : List Char) : Bool :=
  lower (text.take name.length) == name.toList

/-- Elements whose content is not Markdown. -/
def rawElements : List String :=
  ["pre", "style", "script", "textarea"]

/-- What ends a block of kinds one to five; `text` follows the angle bracket. -/
def closing? (text : List Char) : Option String :=
  let raw := rawElements.find? fun name =>
    startsWithName name text &&
      match text.drop name.length with
      | [] => true
      | c :: _ => isSpace c || c == '>'
  match raw with
  | some name => some ("</" ++ name ++ ">")
  | none =>
      if "!--".toList.isPrefixOf text then some "-->"
      else if "?".toList.isPrefixOf text then some "?>"
      else if "![CDATA[".toList.isPrefixOf text then some "]]>"
      else
        match text with
        | '!' :: c :: _ => if c.isAlpha then some ">" else none
        | _ => none

/-- Elements that open a block of kind six. -/
def blockElements : List String :=
  [ "address", "article", "aside", "base", "basefont", "blockquote", "body", "caption", "center"
  , "col", "colgroup", "dd", "details", "dialog", "dir", "div", "dl", "dt", "fieldset"
  , "figcaption", "figure", "footer", "form", "frame", "frameset", "h1", "h2", "h3", "h4", "h5"
  , "h6", "head", "header", "hr", "html", "iframe", "legend", "li", "link", "main", "menu"
  , "menuitem", "nav", "noframes", "ol", "optgroup", "option", "p", "param", "search", "section"
  , "summary", "table", "tbody", "td", "tfoot", "th", "thead", "title", "tr", "track", "ul" ]

/-- The start of a block of kind six; `text` follows the angle bracket. -/
def startsBlockElement (text : List Char) : Bool :=
  let tail := if text.head? == some '/' then text.drop 1 else text
  let name := tail.takeWhile Char.isAlphanum
  blockElements.contains (String.ofList (lower name)) &&
    match tail.drop name.length with
    | [] => true
    | '/' :: '>' :: _ => true
    | c :: _ => c == ' ' || c == '\t' || c == '\r' || c == '\n' || c == '>'

/-- The name of an attribute, with its length. -/
def attributeName? (text : List Char) : Option Nat :=
  match text with
  | [] => none
  | c :: rest =>
      if c.isAlpha || c == '_' || c == ':' then
        some (1 + countWhile (fun d => d.isAlphanum || d == '_' || d == '.' || d == ':' || d == '-') rest)
      else none

/-- The rest behind pads, unless the line ends there. -/
def skipPads? (text : List Char) : Option (List Char) :=
  let rest := text.drop (countWhile isPad text)
  match rest with
  | '\n' :: _ => none
  | '\r' :: _ => none
  | _ => some rest

/-- The rest behind a quoted value that closes on its line. -/
def quotedValue? (quote : Char) : List Char → Option (List Char)
  | [] => none
  | c :: rest =>
      if c == quote then some rest
      else if c == '\n' || c == '\r' then none
      else quotedValue? quote rest

/-- The rest behind an attribute value. -/
def attributeValue? (text : List Char) : Option (List Char) :=
  match text with
  | [] => none
  | c :: rest =>
      if c == Text.Symbol.quote || c == Text.Symbol.apostrophe then quotedValue? c rest
      else if " =><\n\r".toList.contains c || c == Text.Symbol.backtick then none
      else
        some (text.dropWhile fun d =>
          !(" =<>\n\r".toList.contains d || d == Text.Symbol.quote
            || d == Text.Symbol.apostrophe || d == Text.Symbol.backtick))

/-- The rest behind an attribute. -/
def attribute? (text : List Char) : Option (List Char) := do
  let length ← attributeName? text
  let afterName := text.drop length
  let afterPads ← skipPads? afterName
  match afterPads with
  | '=' :: rest => attributeValue? (← skipPads? rest)
  | _ => some afterName

/-- The rest behind all attributes, at the slash or the bracket that ends the tag. -/
def attributes? : Nat → List Char → Option (List Char)
  | 0, _ => none
  | fuel + 1, text => do
      let rest ← skipPads? text
      match rest with
      | [] => none
      | c :: _ =>
          if c == '/' || c == '>' then some rest
          else if rest.length == text.length then none
          else attributes? fuel (← attribute? rest)

/-- The rest behind a complete tag on one line; `text` starts at its bracket. -/
def tag? (text : List Char) : Option (List Char) := do
  let inner := text.drop 1
  let closes := inner.head? == some '/'
  let inner := if closes then inner.drop 1 else inner
  if !(inner.head?.any Char.isAlpha) then none
  let name := countWhile (fun c => c.isAlphanum || c == '-') inner
  let rest := inner.drop name
  let rest ← if closes then some rest else attributes? (rest.length + 1) rest
  let rest := rest.drop (countWhile isPad rest)
  let rest := if !closes && rest.head? == some '/' then rest.drop 1 else rest
  match rest with
  | '>' :: after => some after
  | _ => none

/-- The start of a block of kind seven: a complete tag alone on its line. -/
def startsCompleteTag (text : List Char) : Bool :=
  match tag? text with
  | some rest => (blankLine? rest).isSome
  | none => false

end Tangle.Markdown.Html
