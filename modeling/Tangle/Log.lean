import Tangle.Extraction

/-!
Contract: the running commentary on an extraction.

Owns: the events, their order, and their form on a line.

Does **not** own: where the lines go.
-/

set_option autoImplicit false

namespace Tangle

namespace Log

inductive Level where
  | warning
  | debug
  deriving DecidableEq, Repr, Inhabited

/-- A message of one part of the program, with named values. -/
structure Event where
  level : Level
  part : String
  message : String
  fields : List (String × String)
  deriving DecidableEq, Repr, Inhabited

/-- How events are shown: all of them or warnings only, in colour or plain. -/
structure Style where
  isVerbose : Bool
  isColoured : Bool
  deriving DecidableEq, Repr, Inhabited

def Level.name : Level → String
  | warning => " WARN"
  | debug => "DEBUG"

/-- The terminal's number for the colour of a level. -/
def Level.colour : Level → String
  | warning => "33"
  | debug => "34"

/-- Text between the code of a terminal effect and its end. -/
def paint (isColoured : Bool) (effect text : String) : String :=
  if isColoured then "\x1b[" ++ effect ++ "m" ++ text ++ "\x1b[0m" else text

def dimmed : String := "2"

def italic : String := "3"

def Event.line (isColoured : Bool) (event : Event) : String :=
  let field (entry : String × String) : String :=
    " " ++ paint isColoured italic entry.1 ++ paint isColoured dimmed "=" ++ entry.2
  paint isColoured event.level.colour event.level.name ++ " "
    ++ paint isColoured dimmed event.part ++ paint isColoured dimmed ":" ++ " "
    ++ event.message ++ String.join (event.fields.map field)

def Style.shows (style : Style) (event : Event) : Bool :=
  style.isVerbose || event.level == .warning

/-- The lines of the events that are shown. -/
def Style.lines (style : Style) (events : List Event) : List String :=
  (events.filter style.shows).map (Event.line style.isColoured)

end Log

open Log

/-- Reading and generating one stage. -/
def Stage.events (stage : Stage) : List Event :=
  [ { level := .debug, part := "codeblock::parser", message := "parsed document"
      fields :=
        [ ("path", stage.sourcePath), ("nodes", Text.ofNat stage.document.nodes.length)
        , ("diagnostics", Text.ofNat stage.parseDiagnostics.length) ] }
  , { level := .debug, part := "generator::generation", message := "generated files"
      fields :=
        [ ("path", stage.sourcePath), ("files", Text.ofNat stage.generation.files.length)
        , ("out_dir", stage.generation.outDir) ] } ]

/-- A stage that was not followed although it generates documents; a limit of zero
asks for that. -/
def Stage.limitEvents (stage : Stage) (depth limit : Nat) : List Event :=
  if limit ≤ depth && 0 < limit && !stage.markdownFiles.isEmpty then
    [ { level := .warning, part := "generator::nested"
        message := "nested extraction depth limit reached"
        fields := [("path", stage.sourcePath)] } ]
  else []

namespace Extraction

def descentEvent (stage : Stage) (depth : Nat) : Event :=
  { level := .debug, part := "generator::nested", message := "extracting nested document"
    fields := [("path", stage.sourcePath), ("depth", Text.ofNat depth)] }

mutual

/-- The events of building an extraction within a limit, in order. -/
def eventsAt (limit depth : Nat) : Extraction → List Event
  | node stage nested =>
      stage.events ++ stage.limitEvents depth limit ++ eventsOf limit (depth + 1) nested

def eventsOf (limit depth : Nat) : List Extraction → List Event
  | [] => []
  | child :: rest =>
      descentEvent child.stage depth :: eventsAt limit depth child ++ eventsOf limit depth rest

end

def events (limit : Nat) (extraction : Extraction) : List Event :=
  eventsAt limit 0 extraction

end Extraction

/-- Writing a file. -/
def Log.writeEvent (path : String) : Event :=
  { level := .debug, part := "codeblock_cli::writer", message := "wrote output"
    fields := [("path", path)] }

end Tangle
