import Tangle.Yaml.DataError

/-!
Contract: reading typed values out of a document, in the order in which it was
written.

Owns: how texts, booleans, lists, records and free values are read, which mistake
is reported first, and the limits on depth and on references.

Does **not** own: the records of this program (`Tangle.Directive.Decode`).

A reader that meets the break of a document that broke off reports the cause of
the break; a mistake ahead of it is reported instead.
-/

set_option autoImplicit false

namespace Tangle.Yaml

open Tangle.Data

/-- A reader's answer; the state counts the references followed. -/
abbrev Decoder (α : Type) := StateT Nat (Except Error) α

/-- Where a reader stands: the document, the way to the current node, and how many
collections may still be nested in it. -/
structure Context where
  source : Source
  path : List PathStep := []
  depth : Nat := 128
  deriving Inhabited

/-- Why nothing more can be read. -/
def Source.cut (source : Source) : Error :=
  match source.failure with
  | some (.invalid error) => .invalid error
  | some (.unknownAnchor mark) => .unknownAnchor mark
  | none => .endOfText

def Scalar.isPlain (scalar : Scalar) : Bool :=
  scalar.style == .plain

/-- A plain scalar without text: it also stands for an empty collection. -/
def Scalar.isVacant (scalar : Scalar) : Bool :=
  scalar.isPlain && scalar.value.isEmpty

/-- A tag of the document's own, as opposed to one of the format. -/
def isLocalTag (tag : Option String) : Bool :=
  tag.any fun text => Text.startsWith text "!"

def standardTag (name : String) : String :=
  "tag:yaml.org,2002:" ++ name

/-- What a scalar stands for, or why its tag does not fit its text. -/
def Scalar.resolve (scalar : Scalar) : Except Refusal Resolved :=
  let text := scalar.value
  match scalar.tag with
  | none => .ok (if scalar.isPlain then Resolve.plain text else .text)
  | some tag =>
      if tag == standardTag "bool" then
        match Resolve.boolean? text with
        | some value => .ok (.boolean value)
        | none => .error (.wrongValue text "a boolean")
      else if tag == standardTag "int" then
        match Resolve.integer? text.toList with
        | some value => .ok value
        | none => .error (.wrongValue text "an integer")
      else if tag == standardTag "float" then
        match Resolve.real? text.toList with
        | some value => .ok (.real value)
        | none => .error (.wrongValue text "a float")
      else if tag == standardTag "null" then
        if Resolve.isNull text then .ok .null else .error (.wrongValue text "null")
      else if isLocalTag scalar.tag && scalar.isPlain then .ok (Resolve.plain text)
      else .ok .text

/-- The refusal of a scalar where `expected` was asked for. -/
def Scalar.refusal (scalar : Scalar) (expected : String) : Refusal :=
  match scalar.resolve with
  | .error refusal => refusal
  | .ok .null => .wrongType .null expected
  | .ok (.boolean value) => .wrongType (.boolean value) expected
  | .ok (.integer value) => .wrongType (.integer value) expected
  | .ok (.wideUnsigned value) => .wrongType (.wideInteger value false) expected
  | .ok (.wideSigned value) => .wrongType (.wideInteger value true) expected
  | .ok (.real value) => .wrongType (.real value) expected
  | .ok .text => .wrongType (.text scalar.value) expected

namespace Context

def refuse {α : Type} (context : Context) (refusal : Refusal) (mark : Mark) : Decoder α :=
  throw (.refused refusal context.path mark)

def child (context : Context) (step : PathStep) : Context :=
  { context with path := context.path ++ [step] }

/-- Follows a reference. A document may follow a hundred times as many references
as it has events. -/
def follow (context : Context) (node : Node) : Decoder Node := do
  match node with
  | .reference _ anchor =>
      let count ← get
      set (count + 1)
      if count + 1 > context.source.pieces.length * 100 then throw .tooManyReferences
      match context.source.anchored? anchor with
      | some target => return target
      | none => throw context.source.cut
  | _ => return node

/-- The refusal of a node that is not what was `expected`. -/
def mismatch {α : Type} (context : Context) (node : Node) (expected : String) : Decoder α :=
  match node with
  | .scalar scalar => context.refuse (scalar.refusal expected) scalar.mark
  | .sequence mark _ _ _ => context.refuse (.wrongType .sequence expected) mark
  | .mapping mark _ _ _ => context.refuse (.wrongType .mapping expected) mark
  | .reference mark _ => context.refuse (.wrongType .null expected) mark
  | .nothing _ => throw .endOfText

/-- The context inside a collection. -/
def enter (context : Context) (mark : Mark) : Decoder Context :=
  match context.depth with
  | 0 => throw (.tooDeep mark)
  | depth + 1 => return { context with depth := depth }

/-- Any scalar is a text, whatever else it could stand for. -/
def readTextAs (context : Context) (expected : String) (node : Node) : Decoder String := do
  match ← context.follow node with
  | .scalar scalar => return scalar.value
  | other => context.mismatch other expected

def readText (context : Context) (node : Node) : Decoder String :=
  context.readTextAs "a string" node

/-- A text, or nothing where the scalar is a plain null. `outer` is where the
surrounding record starts. -/
def readOptionalText (context : Context) (outer : Context × Mark) (node : Node) :
    Decoder (Option String) := do
  match ← context.follow node with
  | .nothing _ => return none
  | .scalar scalar =>
      if !scalar.isPlain then return some scalar.value
      else
        match scalar.tag with
        | some tag =>
            if tag == standardTag "null" then
              if Resolve.isNull scalar.value then return none
              else outer.1.refuse (.wrongValue scalar.value "null") outer.2
            else return some scalar.value
        | none =>
            return if scalar.value.isEmpty || Resolve.isNull scalar.value then none
              else some scalar.value
  | other => context.mismatch other "a string"

/-- Only plain scalars, and literal ones tagged so, are booleans. -/
def readBool (context : Context) (node : Node) : Decoder Bool := do
  let node ← context.follow node
  match node with
  | .scalar scalar =>
      let open_ := scalar.isPlain ||
        (scalar.style == .literal && scalar.tag == some (standardTag "bool"))
      match Resolve.boolean? scalar.value with
      | some value => if open_ then return value else context.mismatch node "a boolean"
      | none => context.mismatch node "a boolean"
  | other => context.mismatch other "a boolean"

/-- The members of a sequence, each read at its index. A member that is refused as
a whole is reported at the start of the sequence. -/
def readMembers {α : Type} (context : Context) (mark : Mark) (closed : Bool)
    (read : Context → Node → Decoder (Except Refusal α)) : Nat → List Node → Decoder (List α)
  | _, [] => if closed then return [] else throw context.source.cut
  | index, node :: rest => do
      match ← read (context.child (.index index)) node with
      | .error refusal => context.refuse refusal mark
      | .ok value =>
          let values ← readMembers context mark closed read (index + 1) rest
          return value :: values

def readList {α : Type} (context : Context)
    (read : Context → Node → Decoder (Except Refusal α)) (node : Node) : Decoder (List α) := do
  let node ← context.follow node
  match node with
  | .sequence mark _ children closed =>
      let inside ← context.enter mark
      inside.readMembers mark closed read 0 children
  | .nothing _ => return []
  | .scalar scalar =>
      if scalar.isVacant then return [] else context.mismatch node "a sequence"
  | other => context.mismatch other "a sequence"

/-- The step to the value of a key; only a key written in place has a name. -/
def keyStep (node : Node) : PathStep :=
  match node with
  | .scalar scalar => .key scalar.value
  | _ => .unnamed

/-- The name of a field, which must be one of `names`. -/
def readFieldName (context : Context) (names : List String) (node : Node) : Decoder String := do
  let node ← context.follow node
  match node with
  | .scalar scalar =>
      if names.contains scalar.value then return scalar.value
      else context.refuse (.unknownField scalar.value names) scalar.mark
  | other => context.mismatch other "field identifier"

/-- The fields of a record in the order written; `read` takes in one of them. -/
def readFields {σ : Type} (context : Context) (mark : Mark) (closed : Bool) (names : List String)
    (read : String → Context → Node → σ → Decoder σ) :
    List Node → List String → σ → Decoder σ
  | [], _, record => if closed then return record else throw context.source.cut
  | [key], seen, _ => do
      let name ← context.readFieldName names key
      if seen.contains name then context.refuse (.duplicateField name) mark
      throw context.source.cut
  | key :: value :: rest, seen, record => do
      let name ← context.readFieldName names key
      if seen.contains name then context.refuse (.duplicateField name) mark
      let record ← read name (context.child (keyStep key)) value record
      readFields context mark closed names read rest (name :: seen) record

/-- A record with the given field names, and the mark where it starts. -/
def readRecord {σ : Type} (context : Context) (kind : String) (names : List String)
    (read : Context × Mark → String → Context → Node → σ → Decoder σ) (empty : σ) (node : Node) :
    Decoder (σ × Mark) := do
  let node ← context.follow node
  match node with
  | .mapping mark _ children closed =>
      let inside ← context.enter mark
      let record ← inside.readFields mark closed names (read (inside, mark)) children [] empty
      return (record, mark)
  | .nothing mark => return (empty, mark)
  | .scalar scalar =>
      if scalar.isVacant then return (empty, scalar.mark)
      else context.mismatch node ("struct " ++ kind)
  | other => context.mismatch other ("struct " ++ kind)

end Context

/-- A value of any shape. -/
inductive Value where
  | null
  | boolean (value : Bool)
  | integer (value : Int)
  | real (value : Decimal.Real)
  | text (value : String)
  | list (items : List Value)
  | mapping (entries : List (Value × Value))
  deriving Repr, Inhabited

mutual

/-- Equality of values, which decides whether two keys are the same. The order of the
entries of a mapping does not matter. -/
def Value.same : Value → Value → Bool
  | .null, .null => true
  | .boolean a, .boolean b => a == b
  | .integer a, .integer b => a == b
  | .real a, .real b => a.same b
  | .text a, .text b => a == b
  | .list a, .list b => Value.sameAll a b
  | .mapping a, .mapping b => a.length == b.length && Value.entriesAmong a b
  | _, _ => false

def Value.sameAll : List Value → List Value → Bool
  | [], [] => true
  | a :: as, b :: bs => Value.same a b && Value.sameAll as bs
  | _, _ => false

/-- Whether every entry of the first mapping is one of the second. -/
def Value.entriesAmong : List (Value × Value) → List (Value × Value) → Bool
  | [], _ => true
  | (key, value) :: rest, entries =>
      entries.any (fun entry => Value.same key entry.1 && Value.same value entry.2)
        && Value.entriesAmong rest entries

end

def Value.repeats : List Value → Bool
  | [] => false
  | key :: rest => rest.any (Value.same key) || Value.repeats rest

mutual

/-- Whether a mapping anywhere in the value has the same key twice. -/
def Value.hasDuplicate : Value → Bool
  | .list items => Value.anyDuplicate items
  | .mapping entries => Value.repeats (entries.map Prod.fst) || Value.entryDuplicate entries
  | _ => false

def Value.anyDuplicate : List Value → Bool
  | [] => false
  | item :: rest => Value.hasDuplicate item || Value.anyDuplicate rest

def Value.entryDuplicate : List (Value × Value) → Bool
  | [] => false
  | (key, value) :: rest =>
      Value.hasDuplicate key || Value.hasDuplicate value || Value.entryDuplicate rest

end

namespace Context

/-- What a scalar stands for as a value of its own. -/
def readScalarValue (context : Context) (scalar : Scalar) : Decoder Value :=
  match scalar.resolve with
  | .error refusal => context.refuse refusal scalar.mark
  | .ok .null => return .null
  | .ok (.boolean value) => return .boolean value
  | .ok (.integer value) => return .integer value
  | .ok (.real value) => return .real value
  | .ok .text => return .text scalar.value
  | .ok _ => context.refuse (scalar.refusal "any value") scalar.mark

def readItems (context : Context) (closed : Bool) (read : Context → Node → Decoder Value) :
    Nat → List Node → Decoder (List Value)
  | _, [] => if closed then return [] else throw context.source.cut
  | index, node :: rest => do
      let value ← read (context.child (.index index)) node
      let values ← readItems context closed read (index + 1) rest
      return value :: values

def readPairs (context : Context) (closed : Bool) (read : Context → Node → Decoder Value) :
    List Node → Decoder (List (Value × Value))
  | [] => if closed then return [] else throw context.source.cut
  | [key] => do
      let _ ← read context key
      throw context.source.cut
  | key :: value :: rest => do
      let first ← read context key
      let second ← read (context.child (keyStep key)) value
      let entries ← readPairs context closed read rest
      return (first, second) :: entries

/-- A value of any shape, nested at most `depth` deep. A tag of the document's own
has no reading. -/
def readValue (source : Source) : Nat → List PathStep → Node → Decoder Value
  | depth, path, node => do
      let context : Context := ⟨source, path, depth⟩
      match ← context.follow node with
      | .scalar scalar =>
          if isLocalTag scalar.tag then context.refuse .taggedRule scalar.mark
          else context.readScalarValue scalar
      | .sequence mark tag children closed =>
          if isLocalTag tag then context.refuse .taggedRule mark
          else
            match depth with
            | 0 => throw (.tooDeep mark)
            | inner + 1 =>
                let items ← context.readItems closed
                  (fun place child => readValue source inner place.path child) 0 children
                return .list items
      | .mapping mark tag children closed =>
          if isLocalTag tag then context.refuse .taggedRule mark
          else
            match depth with
            | 0 => throw (.tooDeep mark)
            | inner + 1 =>
                let entries ← context.readPairs closed
                  (fun place child => readValue source inner place.path child) children
                return .mapping entries
      | .nothing _ => return .null
      | .reference _ _ => return .null

end Context

/-- Reads the only document of a text. -/
def decodeText {α : Type} (read : Context → Node → Decoder α) (text : List Char) :
    Except Error α :=
  let source := Source.ofText text
  match source.root? with
  | none => .error source.cut
  | some root =>
      match (read { source := source } root).run 0 with
      | .error error => .error error
      | .ok (value, _) =>
          if source.failure.isSome then .error source.cut
          else if source.more then .error .moreDocuments
          else .ok value

end Tangle.Yaml
