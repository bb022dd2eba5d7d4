import Tangle.Directive.Basic
import Tangle.Source.Position
import Tangle.Yaml.Decode

/-!
Contract: the body of a directive comment as a value.

Owns: the three written forms of an settings (nothing, a bare file name, a YAML
record), the removal of common indentation, and the shapes of a replace rule.

Does **not** own: YAML itself (`Tangle.Yaml.Decode`), or finding the comment
(`Tangle.Document.Item`).
-/

set_option autoImplicit false

namespace Tangle.Directive

open Tangle.Yaml

/-- Why a body could not be decoded. -/
inductive DecodeError where
  | yaml (error : Yaml.Error)
  | emptySuffix (index : Nat)
  deriving DecidableEq, Repr, Inhabited

def DecodeError.message : DecodeError → String
  | yaml error => error.message
  | emptySuffix index => "additionalFiles[" ++ Text.ofNat index ++ "] has an empty suffix"

/-- Characters that open some other YAML form than a bare file name. -/
def opensYaml (c : Char) : Bool :=
  "[-#|>&*!".toList.contains c || c == Text.Symbol.openBrace || c == Text.Symbol.quote
    || c == Text.Symbol.apostrophe

/-- A word that names a file without further ado. -/
def isBareToken (text : String) : Bool :=
  let chars := text.toList
  !chars.isEmpty && !chars.any Text.isBlank && !chars.contains ':' && !(chars.head?.any opensYaml)

/-- Spaces and tabs at the start of a line, in characters. -/
def padWidth (line : List Char) : Nat :=
  (line.takeWhile isPad).length

/-- The least indentation of the lines that are not blank. -/
def commonIndent (lines : List (List Char)) : Nat :=
  (((lines.filter fun line => !line.all Text.isBlank).map padWidth).min?).getD 0

/-- Removes the common indentation; blank lines become empty, and every line gets
a line feed. -/
def dedent (text : List Char) : List Char :=
  let lines := Text.terminatedLines text
  let indent := commonIndent lines
  lines.flatMap fun line =>
    (if line.all Text.isBlank then [] else line.drop indent) ++ ['\n']

/-- The line behind its first `count` bytes, unless it is shorter or they end within a character. -/
def cutBytes? (count : Nat) (line : List Char) : Option (List Char) :=
  let text := String.ofList line
  ((⟨count, text.utf8ByteSize⟩ : Source.Span).cut? text).map String.toList

/-- Spaces and tabs at the start of a line, in bytes. -/
def padBytes (line : List Char) : Nat :=
  Text.byteSize line - Text.byteSize (line.dropWhile isPad)

/-- What `dedent` does, with all measures and cuts in bytes: it fails where a line cannot be cut. -/
def dedentBytes? (text : List Char) : Option (List Char) :=
  let lines := Text.terminatedLines text
  let indent := (((lines.filter fun line => !line.all Text.isBlank).map padBytes).min?).getD 0
  let cut (line : List Char) : Option (List Char) :=
    if line.all Text.isBlank then some ['\n'] else (cutBytes? indent line).map (· ++ ['\n'])
  (lines.mapM cut).map List.flatten

/-- The YAML text of a body. One that starts on the line after the keyword loses
its common indentation; one that starts on the keyword's line is used as written. -/
def normalizeBody (body : List Char) : List Char :=
  match body.dropWhile isPad with
  | '\r' :: '\n' :: rest => dedent rest
  | '\n' :: rest => dedent rest
  | rest => rest

/-- Scalars of every kind are taken as text. -/
def scalarText : Value → Except Refusal String
  | .text value => .ok value
  | .integer value => .ok (Data.intText value)
  | .real value => .ok (Yaml.realText value)
  | .boolean value => .ok (if value then "true" else "false")
  | _ => .error .ruleShape

/-- A scalar, or a list of one or two. -/
def ruleShape : Value → Except Refusal ReplaceRule
  | .list [find] => do return .remove (← scalarText find)
  | .list [find, insert] => do return .pair (← scalarText find) (← scalarText insert)
  | .list _ => .error .ruleShape
  | value => do return .remove (← scalarText value)

/-- A rule from a value; the text to find may not be empty. -/
def ruleOfValue (value : Value) : Except Refusal ReplaceRule :=
  if value.hasDuplicate then .error .unmatchedRule
  else
    match ruleShape value with
    | .error refusal => .error refusal
    | .ok rule => if rule.find.isEmpty then .error .emptyFind else .ok rule

def readRule (context : Context) (node : Node) : Decoder (Except Refusal ReplaceRule) := do
  return ruleOfValue (← Context.readValue context.source context.depth context.path node)

/-- Suffix and content while the fields are being read. -/
structure PartialFile where
  suffix : Option String := none
  content : Option String := none
  deriving Inhabited

def readAdditionalFile (context : Context) (node : Node) :
    Decoder (Except Refusal AdditionalFile) := do
  let read (_ : Context × Mark) (name : String) (place : Context) (value : Node)
      (file : PartialFile) : Decoder PartialFile := do
    let text ← place.readText value
    return if name == "suffix" then { file with suffix := some text }
      else { file with content := some text }
  let (file, mark) ← context.readRecord "AdditionalFile" ["suffix", "content"] read {} node
  match file.suffix, file.content with
  | some suffix, some content => return .ok ⟨suffix, content⟩
  | none, _ => context.refuse (.missingField "suffix") mark
  | _, none => context.refuse (.missingField "content") mark

def settingsFields : List String :=
  ["file", "prefix", "postfix", "skip", "replace", "additionalFiles"]

def readSettingsField (outer : Context × Mark) (name : String) (context : Context)
    (node : Node) (settings : Settings) : Decoder Settings := do
  if name == "file" then return { settings with file := ← context.readOptionalText outer node }
  else if name == "prefix" then
    return { settings with header := ← context.readOptionalText outer node }
  else if name == "postfix" then
    return { settings with footer := ← context.readOptionalText outer node }
  else if name == "skip" then return { settings with skip := ← context.readBool node }
  else if name == "replace" then
    return { settings with replace := ← context.readList readRule node }
  else
    return { settings with
             additionalFiles := ← context.readList readAdditionalFile node }

def readSettings (context : Context) (node : Node) : Decoder Settings := do
  return (← context.readRecord "Annotation" settingsFields readSettingsField {} node).1

def configFields : List String :=
  ["outDir", "prefix", "postfix"]

def readConfigField (outer : Context × Mark) (name : String) (context : Context)
    (node : Node) (config : Config) : Decoder Config := do
  let text ← context.readOptionalText outer node
  return if name == "outDir" then { config with outDir := text }
    else if name == "prefix" then { config with header := text }
    else { config with footer := text }

def readConfig (context : Context) (node : Node) : Decoder Config := do
  return (← context.readRecord "Config" configFields readConfigField {} node).1

/-- The first additional file without a suffix. -/
def emptySuffix? (settings : Settings) : Option Nat :=
  settings.additionalFiles.findIdx? fun file => file.suffix.isEmpty

/-- Decodes the text between the keyword of a block directive and its end. -/
def decodeSettings (body : String) : Except DecodeError Settings :=
  let trimmed := Text.trim body
  if trimmed.isEmpty then .ok {}
  else if isBareToken trimmed then .ok (.forFile trimmed)
  else
    match decodeText readSettings (normalizeBody body.toList) with
    | .error error => .error (.yaml error)
    | .ok settings =>
        match emptySuffix? settings with
        | some index => .error (.emptySuffix index)
        | none => .ok settings

/-- Decodes the text between the keyword of a configuration directive and its end. -/
def decodeConfig (body : String) : Except DecodeError Config :=
  if (Text.trim body).isEmpty then .ok {}
  else
    match decodeText readConfig (normalizeBody body.toList) with
    | .error error => .error (.yaml error)
    | .ok config => .ok config

end Tangle.Directive
