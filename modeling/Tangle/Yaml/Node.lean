import Tangle.Yaml.Event

/-!
Contract: the first document of a YAML text as a tree, as far as it could be read.

Owns: `Node`, `Source` with its anchors, and the way from events to nodes.

Does **not** own: what a scalar means (`Tangle.Yaml.Resolve`).

A text that breaks off in the middle still has a tree: a collection that was not
finished is not `closed`, and the cause is kept in `failure`. A reader that goes
through the tree in order meets the break where the text has it.
-/

set_option autoImplicit false

namespace Tangle.Yaml

structure Scalar where
  mark : Mark
  tag : Option String
  value : String
  style : ScalarStyle
  deriving DecidableEq, Repr, Inhabited

/-- The children of a mapping are its keys and values in turn. -/
inductive Node where
  | scalar (leaf : Scalar)
  | reference (mark : Mark) (anchor : Nat)
  | sequence (mark : Mark) (tag : Option String) (children : List Node) (closed : Bool)
  | mapping (mark : Mark) (tag : Option String) (children : List Node) (closed : Bool)
  | nothing (mark : Mark)
  deriving Repr, Inhabited

def Node.mark : Node → Mark
  | scalar leaf => leaf.mark
  | reference mark _ => mark
  | sequence mark _ _ _ => mark
  | mapping mark _ _ _ => mark
  | nothing mark => mark

/-- Why a document ends before its end. -/
inductive Failure where
  | invalid (error : SyntaxError)
  | unknownAnchor (mark : Mark)
  deriving DecidableEq, Repr, Inhabited

namespace Node

/-- An event of one document, with references resolved to anchor numbers. -/
inductive Piece where
  | scalar (leaf : Scalar)
  | reference (mark : Mark) (anchor : Nat)
  | sequenceStart (mark : Mark) (tag : Option String)
  | mappingStart (mark : Mark) (tag : Option String)
  | finish
  deriving DecidableEq, Repr, Inhabited

mutual

/-- Reads one node; `none` when the pieces are used up. -/
def read : Nat → List Piece → Option (Node × List Piece)
  | 0, _ => none
  | _ + 1, [] => none
  | fuel + 1, piece :: rest =>
      match piece with
      | .scalar leaf => some (.scalar leaf, rest)
      | .reference mark anchor => some (.reference mark anchor, rest)
      | .sequenceStart mark tag =>
          let (children, closed, rest) := readChildren fuel rest
          some (.sequence mark tag children closed, rest)
      | .mappingStart mark tag =>
          let (children, closed, rest) := readChildren fuel rest
          some (.mapping mark tag children closed, rest)
      | .finish => none

/-- Reads the nodes up to the end of their collection. -/
def readChildren : Nat → List Piece → List Node × Bool × List Piece
  | 0, rest => ([], false, rest)
  | fuel + 1, pieces =>
      match pieces with
      | [] => ([], false, [])
      | .finish :: rest => ([], true, rest)
      | _ =>
          match read fuel pieces with
          | none => ([], false, [])
          | some (child, rest) =>
              let (children, closed, rest) := readChildren fuel rest
              (child :: children, closed, rest)

end

end Node

/-- The pieces of a document and the anchors met so far. A number stands for the
anchor that was defined last under it; names share numbers when one of them was
defined again. -/
structure Loading where
  pieces : List Node.Piece := []
  names : List (String × Nat) := []
  anchors : List (Nat × Nat) := []
  deriving Repr, Inhabited

namespace Loading

/-- Notes that the next piece carries an anchor. -/
def define (loading : Loading) (anchor : Option String) : Loading :=
  match anchor with
  | none => loading
  | some name =>
      let number := loading.names.length
      { loading with
        names := (name, number) :: loading.names.filter fun entry => entry.1 != name
        anchors := (number, loading.pieces.length) :: loading.anchors }

def push (loading : Loading) (piece : Node.Piece) : Loading :=
  { loading with pieces := loading.pieces ++ [piece] }

/-- The outcome of loading: the document, its break if it has one, and whether
more follows it. -/
structure Outcome where
  loading : Loading
  failure : Option Failure := none
  rest : List Event := []
  deriving Repr, Inhabited

/-- Takes the events of the first document. -/
def run (failure : Option SyntaxError) : List Event → Loading → Outcome
  | [], loading => ⟨loading, failure.map .invalid, []⟩
  | event :: rest, loading =>
      match event.kind with
      | .streamStart => run failure rest loading
      | .documentStart => run failure rest loading
      | .streamEnd => ⟨loading, none, [event]⟩
      | .documentEnd => ⟨loading, none, rest⟩
      | .reference name =>
          match loading.names.find? fun entry => entry.1 == name with
          | some (_, number) => run failure rest (loading.push (.reference event.mark number))
          | none => ⟨loading, some (.unknownAnchor event.mark), rest⟩
      | .scalar anchor tag value style =>
          run failure rest ((loading.define anchor).push (.scalar ⟨event.mark, tag, value, style⟩))
      | .sequenceStart anchor tag =>
          run failure rest ((loading.define anchor).push (.sequenceStart event.mark tag))
      | .mappingStart anchor tag =>
          run failure rest ((loading.define anchor).push (.mappingStart event.mark tag))
      | .sequenceEnd => run failure rest (loading.push .finish)
      | .mappingEnd => run failure rest (loading.push .finish)

end Loading

/-- A document ready to be decoded. -/
structure Source where
  pieces : List Node.Piece
  anchors : List (Nat × Nat)
  failure : Option Failure
  /-- Whether another document follows. -/
  more : Bool
  deriving Repr, Inhabited

namespace Source

/-- Reads the first document of a text. -/
def ofText (text : List Char) : Source :=
  let (all, failure) := events text
  let outcome := Loading.run failure all {}
  { pieces := outcome.loading.pieces
    anchors := outcome.loading.anchors
    failure := outcome.failure
    more :=
      match outcome.rest.head? with
      | some event => event.kind != .streamEnd
      | none => failure.isSome }

def nodeFrom? (source : Source) (start : Nat) : Option Node :=
  (Node.read (2 * source.pieces.length + 2) (source.pieces.drop start)).map Prod.fst

/-- The root of the document; an empty text has one too. -/
def root? (source : Source) : Option Node :=
  match source.pieces, source.failure with
  | [], none => some (.nothing {})
  | _, _ => source.nodeFrom? 0

/-- The node an anchor number stands for. -/
def anchored? (source : Source) (anchor : Nat) : Option Node :=
  match source.anchors.find? fun entry => entry.1 == anchor with
  | some (_, start) => source.nodeFrom? start
  | none => none

end Source

end Tangle.Yaml
