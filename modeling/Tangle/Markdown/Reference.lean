import Tangle.Markdown.Table

/-!
Contract: link reference definitions, as far as their extent goes.

Owns: the length of a definition at the start of a paragraph.

Does **not** own: where definitions lead, which no block depends on.
-/

set_option autoImplicit false

namespace Tangle.Markdown.Definition

/-- Whether a line, given from its first visible character on, ends a paragraph. -/
def endsParagraph (spine : Spine) (text : List Char) (inside : Bool) : Bool :=
  interrupts text inside || (inside && Table.interrupts spine text)

/-- The container markers and the indentation of a line inside a definition, unless the
line ends it. -/
def continueLine? (spine : Spine) (text : List Char) : Option Nat :=
  let (count, lead) := Spine.continued spine { rest := text }
  let inside := count = spine.length
  let (indented, deep) := lead.space 4
  if !deep && (endsParagraph spine indented.rest inside
      || (inside && (underline? indented.rest).isSome)) then none
  else some indented.taken

/-- A label while it is being read: its length, whether it has a character that is not
white space, and the bytes that count towards the limit. -/
structure Label where
  length : Nat := 0
  visible : Bool := false
  counted : Nat := 0
  deriving Repr, Inhabited

/-- A label ends where this many bytes have been counted. -/
def Label.limit : Nat :=
  1000

/-- Takes in a visible character; those of ASCII are free. -/
def Label.take (label : Label) (c : Char) : Label :=
  { length := label.length + 1, visible := true
    counted := label.counted + if c.utf8Size = 1 then 0 else c.utf8Size }

/-- Takes in white space, and what stands for it at a line's start. -/
def Label.pass (label : Label) (count : Nat) : Label :=
  { label with length := label.length + count, counted := label.counted + count }

/-- Takes in a backslash and the character behind it. -/
def Label.takeEscaped (label : Label) (c : Char) : Label :=
  { length := label.length + 2, visible := true, counted := label.counted + 1 + c.utf8Size }

/-- The length of a label behind its opening bracket, through the closing one. -/
def label? (spine : Spine) : Nat → Label → List Char → Option Nat
  | 0, _, _ => none
  | fuel + 1, label, text =>
      if label.counted ≥ Label.limit then none
      else
        match text with
        | [] => none
        | c :: rest =>
            if c == '[' then none
            else if c == ']' then if label.visible then some (label.length + 1) else none
            else if c == Text.Symbol.backslash then
              match rest with
              | [] => none
              | d :: behind => label? spine fuel (label.takeEscaped d) behind
            else if isSpace c then
              let pads := countWhile isPad text
              let behind := text.drop pads
              match lineEnd? behind with
              | some ending =>
                  if ending = 0 then none
                  else
                    let next := behind.drop ending
                    match continueLine? spine next with
                    | none => none
                    | some markers =>
                        let content := next.drop markers
                        let more := countWhile isPad content
                        if (lineEnd? (content.drop more)).isSome then none
                        else
                          label? spine fuel (label.pass (pads + ending + markers + more))
                            (content.drop more)
              | none => label? spine fuel (label.pass pads) behind
            else label? spine fuel (label.take c) rest

/-- White space with at most one line end: its length and the number of line ends. -/
def gap? (spine : Spine) : Nat → Nat → Nat → List Char → Option (Nat × Nat)
  | 0, _, _, _ => none
  | fuel + 1, length, breaks, text =>
      let pads := countWhile isPad text
      let behind := text.drop pads
      match lineEnd? behind with
      | none => some (length + pads, breaks)
      | some ending =>
          if breaks ≥ 1 then none
          else
            let next := behind.drop ending
            let (count, lead) := Spine.continued spine { rest := next }
            let inside := count = spine.length
            let (indented, deep) := lead.space 4
            if !deep && (endsParagraph spine indented.rest inside
                || (underline? indented.rest).isSome) then none
            else
              gap? spine fuel (length + pads + ending + indented.taken) (breaks + 1) indented.rest

/-- The length of a destination in angle brackets, behind the opening one. -/
def pointedDestination? : Nat → Nat → List Char → Option Nat
  | 0, _, _ => none
  | fuel + 1, length, text =>
      match text with
      | [] => none
      | c :: rest =>
          if c == '\n' || c == '\r' || c == '<' then none
          else if c == '>' then some (length + 1)
          else if c == Text.Symbol.backslash && rest.head?.any isPunctuation then
            pointedDestination? fuel (length + 2) (rest.drop 1)
          else pointedDestination? fuel (length + 1) rest

/-- Parentheses of a bare destination nest up to this depth. -/
def nestingLimit : Nat :=
  32

/-- The length of a bare destination with balanced parentheses. -/
def bareDestination? : Nat → Nat → Nat → List Char → Option Nat
  | 0, _, _, _ => none
  | fuel + 1, length, nesting, text =>
      let finish := if nesting = 0 then some length else none
      match text with
      | [] => finish
      | c :: rest =>
          if c.toNat ≤ 0x20 then finish
          else if c == '(' then
            if nesting ≥ nestingLimit then none
            else bareDestination? fuel (length + 1) (nesting + 1) rest
          else if c == ')' then
            if nesting = 0 then some length
            else bareDestination? fuel (length + 1) (nesting - 1) rest
          else if c == Text.Symbol.backslash && rest.head?.any isPunctuation then
            bareDestination? fuel (length + 2) nesting (rest.drop 1)
          else bareDestination? fuel (length + 1) nesting rest

def destination? (text : List Char) : Option Nat :=
  match text with
  | '<' :: rest => pointedDestination? (rest.length + 1) 1 rest
  | _ => bareDestination? (text.length + 1) 0 0 text

/-- The length of a title behind its opening mark, through the closing one. -/
def titleBody? (spine : Spine) (closing : Char) : Nat → Nat → List Char → Option Nat
  | 0, _, _ => none
  | fuel + 1, length, text =>
      match text with
      | [] => none
      | c :: rest =>
          if c == closing then some (length + 1)
          else if c == '(' && closing == ')' then none
          else if c == '\n' || c == '\r' then
            let ending := (lineEnd? text).getD 1
            let next := text.drop ending
            match continueLine? spine next with
            | none => none
            | some markers =>
                let content := next.drop markers
                if (blankLine? content).isSome then none
                else titleBody? spine closing fuel (length + ending + markers) content
          else if c == Text.Symbol.backslash && rest.head?.any isPunctuation then
            titleBody? spine closing fuel (length + 2) (rest.drop 1)
          else titleBody? spine closing fuel (length + 1) rest

def title? (spine : Spine) (text : List Char) : Option Nat :=
  match text with
  | [] => none
  | c :: rest =>
      if c == Text.Symbol.apostrophe || c == Text.Symbol.quote then
        titleBody? spine c (rest.length + 1) 1 rest
      else if c == '(' then titleBody? spine ')' (rest.length + 1) 1 rest
      else none

/-- The length of a title and the line it ends, behind the destination. A title that
does not end its line is not one; the definition then stops at the destination,
which must have been the last thing on its line. -/
def ending? (spine : Spine) (text : List Char) : Option Nat :=
  match gap? spine (text.length + 2) 0 0 text with
  | none => some 0
  | some (width, breaks) =>
      if width = 0 && breaks = 0 then none
      else
        let untitled := if breaks > 0 then some 0 else none
        let behind := text.drop width
        match title? spine behind with
        | none => untitled
        | some length =>
            match blankLine? (behind.drop length) with
            | some rest => some (width + length + rest)
            | none => untitled

/-- The length of a definition at the start of `text`. -/
def length? (spine : Spine) (text : List Char) : Option Nat :=
  match text with
  | '[' :: rest => do
      let label ← label? spine (rest.length + 1) {} rest
      let behind := rest.drop label
      if behind.head? != some ':' then none
      let body := behind.drop 1
      let (width, _) ← gap? spine (body.length + 2) 0 0 body
      let place := body.drop width
      let destination ← destination? place
      if destination = 0 then none
      let rest ← ending? spine (place.drop destination)
      return 1 + label + 1 + width + destination + rest
  | _ => none

end Tangle.Markdown.Definition
