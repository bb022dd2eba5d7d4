import Tangle.Yaml.Scan.Gap

/-!
Contract: block scalars, literal and folded.

Owns: the header with its chomping and indentation hints, the indentation of the
content, folding, and what becomes of the breaks at the end.

Does **not** own: the inverse, which writes literal scalars (`Tangle.Yaml.Write`).
-/

set_option autoImplicit false

namespace Tangle.Yaml.Block

/-- What becomes of the line breaks at the end of the content. -/
inductive Chomping where
  | strip
  | clip
  | keep
  deriving DecidableEq, Repr, Inhabited

def fail (problem : Problem) (mark start : Mark) : SyntaxError :=
  { problem := problem, mark := mark, activity := some (.blockScalar, start) }

def chomping? : Option Char → Option Chomping
  | some '+' => some .keep
  | some '-' => some .strip
  | _ => none

/-- An indentation hint: a digit that is not zero. -/
def increment? (start : Mark) (cursor : Cursor) : Except SyntaxError (Option Nat) :=
  match cursor.peek? with
  | some c =>
      if !c.isDigit then .ok none
      else if c == '0' then .error (fail .zeroIndentation cursor.mark start)
      else .ok (some (c.toNat - 48))
  | none => .ok none

/-- Chomping and indentation hints, in either order. -/
def hints (start : Mark) (cursor : Cursor) :
    Except SyntaxError (Chomping × Option Nat × Cursor) := do
  match chomping? cursor.peek? with
  | some chomping =>
      let cursor := cursor.skip
      match ← increment? start cursor with
      | some increment => return (chomping, some increment, cursor.skip)
      | none => return (chomping, none, cursor)
  | none =>
      match ← increment? start cursor with
      | some increment =>
          let cursor := cursor.skip
          match chomping? cursor.peek? with
          | some chomping => return (chomping, some increment, cursor.skip)
          | none => return (.clip, some increment, cursor)
      | none => return (.clip, none, cursor)

/-- Breaks and indentation ahead of the next content line. -/
structure Breaks where
  cursor : Cursor
  text : List Char := []
  widest : Nat := 0
  stop : Mark
  deriving Repr, Inhabited

/-- Steps over spaces up to column `indent`, or all of them when it is not known. -/
def skipIndent (indent : Nat) : Nat → Cursor → Cursor
  | 0, cursor => cursor
  | fuel + 1, cursor =>
      if (indent == 0 || cursor.mark.column < indent) && cursor.atChar ' ' then
        skipIndent indent fuel cursor.skip
      else cursor

/-- Reads empty lines. An `indent` of zero is not known yet. -/
def readBreaks (indent : Nat) (start : Mark) : Nat → Breaks → Except SyntaxError Breaks
  | 0, breaks => .ok breaks
  | fuel + 1, breaks =>
      let cursor := skipIndent indent (breaks.cursor.rest.length + 1) breaks.cursor
      let breaks := { breaks with cursor := cursor, widest := max breaks.widest cursor.mark.column }
      if (indent == 0 || cursor.mark.column < indent) && cursor.atChar '\t' then
        .error (fail .tabInIndentation cursor.mark start)
      else
        match cursor.peek? with
        | some c =>
            if isBreak c then
              let after := cursor.skipLine
              readBreaks indent start fuel
                { breaks with
                  cursor := after, text := breaks.text ++ cursor.breakText, stop := after.mark }
            else .ok breaks
        | none => .ok breaks

/-- The content indentation: as hinted, or the widest of the leading lines, and
always deeper than the surrounding one. -/
def settleIndent (indent : Nat) (parent : Int) (widest : Nat) : Nat :=
  if indent != 0 then indent else max (max widest (parent + 1).toNat) 1

/-- What has been read of the content. `lead` is the break after the last line. -/
structure Content where
  value : List Char := []
  lead : List Char := []
  trail : List Char
  leadBlank : Bool := false
  cursor : Cursor
  stop : Mark
  deriving Repr, Inhabited

/-- The breaks between two content lines as they enter the value. -/
def Content.joined (content : Content) (literal trailBlank : Bool) : List Char :=
  if !literal && content.lead.head? == some '\n' && !content.leadBlank && !trailBlank then
    (if content.trail.isEmpty then [' '] else []) ++ content.trail
  else content.lead ++ content.trail

def readContent (literal : Bool) (indent : Nat) (start : Mark) :
    Nat → Content → Except SyntaxError Content
  | 0, content => .ok content
  | fuel + 1, content =>
      let cursor := content.cursor
      match cursor.peek? with
      | none => .ok content
      | some c =>
          if cursor.mark.column != indent then .ok content
          else
            let blank := isPad c
            let line := cursor.rest.takeWhile fun d => !isBreak d
            let atBreak := Cursor.skipMany line.length cursor
            let after := atBreak.skipLine
            match readBreaks indent start (after.rest.length + 1)
                { cursor := after, stop := after.mark } with
            | .error error => .error error
            | .ok breaks =>
                readContent literal indent start fuel
                  { value := content.value ++ content.joined literal blank ++ line
                    lead := atBreak.breakText, trail := breaks.text, leadBlank := blank
                    cursor := breaks.cursor, stop := breaks.stop }

def chomped (chomping : Chomping) (content : Content) : List Char :=
  match chomping with
  | .strip => content.value
  | .clip => content.value ++ content.lead
  | .keep => content.value ++ content.lead ++ content.trail

/-- A block scalar whose indicator is at the cursor; `parent` is the indentation
around it. -/
def scan (literal : Bool) (parent : Int) (cursor : Cursor) :
    Except SyntaxError (Token × Cursor) := do
  let start := cursor.mark
  let (chomping, increment, cursor) ← hints start cursor.skip
  let cursor := cursor.skipWhile isPad
  let cursor := if cursor.atChar '#' then cursor.skipWhile (fun c => !isBreak c) else cursor
  if !Cursor.breakOrEnd cursor.peek? then
    throw (fail .expectedCommentOrBreak cursor.mark start)
  let cursor := cursor.skipLine
  let hinted :=
    match increment with
    | some width => if parent ≥ 0 then parent.toNat + width else width
    | none => 0
  let breaks ← readBreaks hinted start (cursor.rest.length + 1)
    { cursor := cursor, stop := cursor.mark }
  let indent := settleIndent hinted parent breaks.widest
  let content ← readContent literal indent start (cursor.rest.length + 1)
    { trail := breaks.text, cursor := breaks.cursor, stop := breaks.stop }
  let style := if literal then ScalarStyle.literal else ScalarStyle.folded
  return (⟨.scalar (String.ofList (chomped chomping content)) style, start, content.stop⟩,
    content.cursor)

end Tangle.Yaml.Block
