import Tangle.Yaml.Scan

/-!
Contract: a YAML text as a sequence of events.

Owns: the grammar over tokens, tag handles, and the empty scalars that stand for
values nobody wrote.

Does **not** own: anchors as references to nodes (`Tangle.Yaml.Node`).

The grammar is a machine with a stack: a state says what is expected next, the
stack holds the states to come back to, and `opened` the marks of the collections
that are open, for messages.
-/

set_option autoImplicit false

namespace Tangle.Yaml

inductive EventKind where
  | streamStart
  | streamEnd
  | documentStart
  | documentEnd
  | reference (name : String)
  | scalar (anchor tag : Option String) (value : String) (style : ScalarStyle)
  | sequenceStart (anchor tag : Option String)
  | sequenceEnd
  | mappingStart (anchor tag : Option String)
  | mappingEnd
  deriving DecidableEq, Repr, Inhabited

structure Event where
  kind : EventKind
  mark : Mark
  deriving DecidableEq, Repr, Inhabited

namespace Grammar

inductive State where
  | streamStart
  | implicitDocumentStart
  | documentStart
  | documentContent
  | documentEnd
  | blockNode
  | blockSequenceFirst
  | blockSequenceEntry
  | indentlessEntry
  | blockMappingFirst
  | blockMappingKey
  | blockMappingValue
  | flowSequenceFirst
  | flowSequenceEntry
  | flowPairKey
  | flowPairValue
  | flowPairEnd
  | flowMappingFirst
  | flowMappingKey
  | flowMappingValue
  | flowMappingEmptyValue
  | finished
  deriving DecidableEq, Repr, Inhabited

structure Machine where
  stream : TokenStream
  state : State := .streamStart
  stack : List State := []
  opened : List Mark := []
  handles : List (String × String) := []
  deriving Repr, Inhabited

/-- One event and the machine after it. -/
abbrev Step := Except SyntaxError (Event × Machine)

namespace Machine

/-- The next token, or what stands in its way. -/
def peek (machine : Machine) : Except SyntaxError Token :=
  match machine.stream.tokens, machine.stream.failure with
  | token :: _, _ => .ok token
  | [], some error => .error error
  | [], none => .ok ⟨.streamEnd, {}, {}⟩

def skip (machine : Machine) : Machine :=
  { machine with stream := { machine.stream with tokens := machine.stream.tokens.drop 1 } }

/-- Goes on with the state on top of the stack. -/
def back (machine : Machine) : Machine :=
  { machine with state := machine.stack.head?.getD .finished, stack := machine.stack.drop 1 }

def goto (machine : Machine) (state : State) : Machine :=
  { machine with state := state }

def call (machine : Machine) (state : State) : Machine :=
  { machine with stack := state :: machine.stack }

def openAt (machine : Machine) (mark : Mark) : Machine :=
  { machine with opened := mark :: machine.opened }

def close (machine : Machine) : Machine :=
  { machine with opened := machine.opened.drop 1 }

/-- A mistake inside the innermost open collection. -/
def fail (machine : Machine) (activity : Activity) (problem : Problem) (mark : Mark) : SyntaxError :=
  { problem := problem, mark := mark, activity := some (activity, machine.opened.head?.getD {}) }

def emit (machine : Machine) (kind : EventKind) (mark : Mark) : Step :=
  .ok (⟨kind, mark⟩, machine)

def emptyScalar (machine : Machine) (mark : Mark) : Step :=
  machine.emit (.scalar none none "" .plain) mark

end Machine

/-- Anchor, tag and marks ahead of a node. -/
structure Properties where
  anchor : Option String := none
  tag : Option (String × String) := none
  tagMark : Mark := {}
  start : Mark
  deriving Repr, Inhabited

def readAnchor (machine : Machine) (properties : Properties) :
    Except SyntaxError (Machine × Properties) := do
  match (← machine.peek).kind with
  | .anchor name => return (machine.skip, { properties with anchor := some name })
  | _ => return (machine, properties)

def readTag (machine : Machine) (properties : Properties) :
    Except SyntaxError (Machine × Properties) := do
  let token ← machine.peek
  match token.kind with
  | .tag handle suffix =>
      return (machine.skip, { properties with tag := some (handle, suffix), tagMark := token.start })
  | _ => return (machine, properties)

/-- An anchor and a tag, at most one of each, in either order. -/
def readProperties (machine : Machine) : Except SyntaxError (Machine × Properties) := do
  let token ← machine.peek
  let properties : Properties := { start := token.start }
  match token.kind with
  | .anchor _ =>
      let (machine, properties) ← readAnchor machine properties
      readTag machine properties
  | .tag _ _ =>
      let (machine, properties) ← readTag machine properties
      readAnchor machine properties
  | _ => return (machine, properties)

/-- The full tag behind a handle. -/
def resolveTag (machine : Machine) (properties : Properties) :
    Except SyntaxError (Option String) :=
  match properties.tag with
  | none => .ok none
  | some (handle, suffix) =>
      if handle.isEmpty then .ok (some suffix)
      else
        match machine.handles.find? fun entry => entry.1 == handle with
        | some (_, lead) => .ok (some (lead ++ suffix))
        | none =>
            .error { problem := .undefinedTagHandle, mark := properties.tagMark,
                     activity := some (.node, properties.start) }

/-- A node; `block` allows block collections and `indentless` a sequence at the
indentation of its parent mapping. -/
def parseNode (machine : Machine) (block indentless : Bool) : Step := do
  let first ← machine.peek
  match first.kind with
  | .reference name => machine.skip.back.emit (.reference name) first.start
  | _ =>
      let (machine, properties) ← readProperties machine
      let token ← machine.peek
      let tag ← resolveTag machine properties
      let anchor := properties.anchor
      let start := properties.start
      match token.kind with
      | .scalar value style =>
          let tag := if tag == some "!" then none else tag
          machine.skip.back.emit (.scalar anchor tag value style) start
      | .flowSequenceStart => (machine.goto .flowSequenceFirst).emit (.sequenceStart anchor tag) start
      | .flowMappingStart => (machine.goto .flowMappingFirst).emit (.mappingStart anchor tag) start
      | kind =>
          if kind == .blockEntry && indentless then
            (machine.goto .indentlessEntry).emit (.sequenceStart anchor tag) start
          else if kind == .blockSequenceStart && block then
            (machine.goto .blockSequenceFirst).emit (.sequenceStart anchor tag) start
          else if kind == .blockMappingStart && block then
            (machine.goto .blockMappingFirst).emit (.mappingStart anchor tag) start
          else if anchor.isSome || tag.isSome then
            machine.back.emit (.scalar anchor tag "" .plain) start
          else
            .error { problem := .expectedNodeContent, mark := token.start,
                     activity := some (if block then .blockNode else .flowNode, start) }

/-- Reads a node in the place of a value and comes back to `state`, unless the next
token is one of `absent`: then the value is empty. -/
def nodeOrEmpty (machine : Machine) (state : State) (absent : List TokenKind)
    (block indentless : Bool) (emptyMark : Mark) : Step := do
  let token ← machine.peek
  if absent.contains token.kind then (machine.goto state).emptyScalar emptyMark
  else parseNode (machine.call state) block indentless

/-- Directives ahead of a document. -/
def readDirectives : Nat → Bool → Machine → Except SyntaxError Machine
  | 0, _, machine => .ok machine
  | fuel + 1, versioned, machine => do
      let token ← machine.peek
      match token.kind with
      | .versionDirective major minor =>
          if versioned then throw { problem := .duplicateVersion, mark := token.start }
          if major != 1 || (minor != 1 && minor != 2) then
            throw { problem := .incompatibleVersion, mark := token.start }
          readDirectives fuel true machine.skip
      | .tagDirective handle lead =>
          if machine.handles.any fun entry => entry.1 == handle then
            throw { problem := .duplicateTagHandle, mark := token.start }
          readDirectives fuel versioned
            { machine with handles := machine.handles ++ [(handle, lead)] }.skip
      | _ => return machine

/-- The handles that need no directive, unless one redefines them. -/
def withDefaultHandles (machine : Machine) : Machine :=
  { machine with
    handles := machine.handles ++ [("!", "!"), ("!!", "tag:yaml.org,2002:")] }

def skipDocumentEnds : Nat → Machine → Except SyntaxError Machine
  | 0, machine => .ok machine
  | fuel + 1, machine => do
      match (← machine.peek).kind with
      | .documentEnd => skipDocumentEnds fuel machine.skip
      | _ => return machine

def isDirective : TokenKind → Bool
  | .versionDirective _ _ => true
  | .tagDirective _ _ => true
  | _ => false

def parseDocumentStart (machine : Machine) (implicit : Bool) : Step := do
  let fuel := machine.stream.tokens.length + 1
  let machine ← if implicit then pure machine else skipDocumentEnds fuel machine
  let token ← machine.peek
  if token.kind == .streamEnd then
    (machine.skip.goto .finished).emit .streamEnd token.start
  else if implicit && !isDirective token.kind && token.kind != .documentStart then
    ((withDefaultHandles machine).call .documentEnd |>.goto .blockNode).emit .documentStart token.start
  else
    let machine ← readDirectives fuel false machine
    let marker ← machine.peek
    if marker.kind != .documentStart then
      throw { problem := .expectedDocumentStart, mark := marker.start }
    ((withDefaultHandles machine).call .documentEnd |>.goto .documentContent).skip.emit
      .documentStart token.start

def parseDocumentContent (machine : Machine) : Step := do
  let token ← machine.peek
  if isDirective token.kind || [.documentStart, .documentEnd, .streamEnd].contains token.kind then
    machine.back.emptyScalar token.start
  else parseNode machine true false

def parseDocumentEnd (machine : Machine) : Step := do
  let token ← machine.peek
  let machine := if token.kind == .documentEnd then machine.skip else machine
  ({ machine with handles := [] }.goto .documentStart).emit .documentEnd token.start

def parseBlockSequence (machine : Machine) : Step := do
  let token ← machine.peek
  match token.kind with
  | .blockEntry =>
      nodeOrEmpty machine.skip .blockSequenceEntry [.blockEntry, .blockEnd] true false token.stop
  | .blockEnd => machine.skip.back.close.emit .sequenceEnd token.start
  | _ => throw (machine.fail .blockCollection .expectedDash token.start)

def parseIndentless (machine : Machine) : Step := do
  let token ← machine.peek
  match token.kind with
  | .blockEntry =>
      nodeOrEmpty machine.skip .indentlessEntry [.blockEntry, .key, .value, .blockEnd]
        true false token.stop
  | _ => machine.back.emit .sequenceEnd token.start

def parseBlockMappingKey (machine : Machine) : Step := do
  let token ← machine.peek
  match token.kind with
  | .key =>
      nodeOrEmpty machine.skip .blockMappingValue [.key, .value, .blockEnd] true true token.stop
  | .blockEnd => machine.skip.back.close.emit .mappingEnd token.start
  | _ => throw (machine.fail .blockMapping .expectedKey token.start)

def parseBlockMappingValue (machine : Machine) : Step := do
  let token ← machine.peek
  match token.kind with
  | .value =>
      nodeOrEmpty machine.skip .blockMappingKey [.key, .value, .blockEnd] true true token.stop
  | _ => (machine.goto .blockMappingKey).emptyScalar token.start

/-- Steps over the comma between two entries of a flow collection. -/
def flowSeparator (machine : Machine) (first : Bool) (activity : Activity) (problem : Problem) :
    Except SyntaxError Machine := do
  if first then return machine
  let token ← machine.peek
  if token.kind == .flowEntry then return machine.skip
  throw (machine.fail activity problem token.start)

def parseFlowSequence (machine : Machine) (first : Bool) : Step := do
  let token ← machine.peek
  if token.kind == .flowSequenceEnd then
    machine.skip.back.close.emit .sequenceEnd token.start
  else
    let machine ← flowSeparator machine first .flowSequence .expectedSequenceCloser
    let token ← machine.peek
    match token.kind with
    | .key => (machine.skip.goto .flowPairKey).emit (.mappingStart none none) token.start
    | .flowSequenceEnd => machine.skip.back.close.emit .sequenceEnd token.start
    | _ => parseNode (machine.call .flowSequenceEntry) false false

def parseFlowPairKey (machine : Machine) : Step := do
  let token ← machine.peek
  if [.value, .flowEntry, .flowSequenceEnd].contains token.kind then
    (machine.skip.goto .flowPairValue).emptyScalar token.stop
  else parseNode (machine.call .flowPairValue) false false

def parseFlowPairValue (machine : Machine) : Step := do
  let token ← machine.peek
  if token.kind == .value then
    let machine := machine.skip
    let token ← machine.peek
    nodeOrEmpty machine .flowPairEnd [.flowEntry, .flowSequenceEnd] false false token.start
  else (machine.goto .flowPairEnd).emptyScalar token.start

def parseFlowMapping (machine : Machine) (first : Bool) : Step := do
  let token ← machine.peek
  if token.kind == .flowMappingEnd then
    machine.skip.back.close.emit .mappingEnd token.start
  else
    let machine ← flowSeparator machine first .flowMapping .expectedMappingCloser
    let token ← machine.peek
    match token.kind with
    | .key =>
        let machine := machine.skip
        let token ← machine.peek
        nodeOrEmpty machine .flowMappingValue [.value, .flowEntry, .flowMappingEnd]
          false false token.start
    | .flowMappingEnd => machine.skip.back.close.emit .mappingEnd token.start
    | _ => parseNode (machine.call .flowMappingEmptyValue) false false

def parseFlowMappingValue (machine : Machine) : Step := do
  let token ← machine.peek
  if token.kind == .value then
    let machine := machine.skip
    let token ← machine.peek
    nodeOrEmpty machine .flowMappingKey [.flowEntry, .flowMappingEnd] false false token.start
  else (machine.goto .flowMappingKey).emptyScalar token.start

/-- Enters a collection: its opening token is stepped over and its mark kept. -/
def enter (machine : Machine) : Except SyntaxError Machine := do
  return (machine.openAt (← machine.peek).start).skip

def step (machine : Machine) : Step := do
  match machine.state with
  | .streamStart =>
      let token ← machine.peek
      (machine.skip.goto .implicitDocumentStart).emit .streamStart token.start
  | .implicitDocumentStart => parseDocumentStart machine true
  | .documentStart => parseDocumentStart machine false
  | .documentContent => parseDocumentContent machine
  | .documentEnd => parseDocumentEnd machine
  | .blockNode => parseNode machine true false
  | .blockSequenceFirst => parseBlockSequence (← enter machine)
  | .blockSequenceEntry => parseBlockSequence machine
  | .indentlessEntry => parseIndentless machine
  | .blockMappingFirst => parseBlockMappingKey (← enter machine)
  | .blockMappingKey => parseBlockMappingKey machine
  | .blockMappingValue => parseBlockMappingValue machine
  | .flowSequenceFirst => parseFlowSequence (← enter machine) true
  | .flowSequenceEntry => parseFlowSequence machine false
  | .flowPairKey => parseFlowPairKey machine
  | .flowPairValue => parseFlowPairValue machine
  | .flowPairEnd =>
      let token ← machine.peek
      (machine.goto .flowSequenceEntry).emit .mappingEnd token.start
  | .flowMappingFirst => parseFlowMapping (← enter machine) true
  | .flowMappingKey => parseFlowMapping machine false
  | .flowMappingValue => parseFlowMappingValue machine
  | .flowMappingEmptyValue =>
      let token ← machine.peek
      (machine.goto .flowMappingKey).emptyScalar token.start
  | .finished => machine.emit .streamEnd {}

/-- All events, and the error after the last one if there is one. -/
def run : Nat → Machine → List Event × Option SyntaxError
  | 0, _ => ([], none)
  | fuel + 1, machine =>
      match step machine with
      | .error error => ([], some error)
      | .ok (event, next) =>
          if event.kind == .streamEnd then ([event], none)
          else
            let (events, failure) := run fuel next
            (event :: events, failure)

end Grammar

/-- The events of a text, and the error after the last one if there is one. Every
token stands for at most three events. -/
def events (text : List Char) : List Event × Option SyntaxError :=
  let stream := tokenize text
  Grammar.run (3 * stream.tokens.length + 3) { stream := stream }

end Tangle.Yaml
