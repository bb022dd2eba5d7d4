import Tangle.Command

/-!
Contract: the program as it runs on a real file system.

Owns: the answers of the disk to the requests of `FileAccess`, and the program's
entry point.

Does **not** own: any decision. What is asked of the disk, and what is said about
it, is decided by `Tangle.Command`.
-/

set_option autoImplicit false

namespace Tangle.Disk

open Tangle.Files

/-- A code of the system; some requests report it with its sign turned around. -/
def isCode (number code : UInt32) : Bool :=
  code == number || code == 0 - number

/-- The failure that an error of the system stands for. -/
def failureOf : IO.Error → FileError
  | .noFileOrDirectory _ _ _ => .notFound
  | .noSuchThing _ _ _ => .notFound
  | .alreadyExists _ _ _ => .alreadyExists
  | .inappropriateType _ code details =>
      if isCode 20 code then .notDirectory
      else if isCode 21 code then .isDirectory
      else .other details
  | failure => .other (toString failure)

/-- Runs a request, its failure as a value. -/
def request {α : Type} (action : IO α) : IO (Except FileError α) := do
  match ← action.toBaseIO with
  | .ok value => return .ok value
  | .error failure => return .error (failureOf failure)

/-- The entry of a directory with an empty name, that is the directory itself. -/
def entryOf (path : String) : IO.FS.DirEntry :=
  ⟨⟨path⟩, ""⟩

def readText (path : String) : IO (Except FileError String) := do
  match ← request (IO.FS.readBinFile path) with
  | .error failure => return .error failure
  | .ok bytes =>
      match String.fromUTF8? bytes with
      | some text => return .ok text
      | none => return .error .notText

def kindOf? (path : String) : IO (Option FileKind) := do
  match ← request (entryOf path).root.metadata with
  | .error _ => return none
  | .ok found =>
      match found.type with
      | .dir => return some .directory
      | .file => return some .file
      | _ => return none

/-- The system's names come with marks in place of what is no text. If the marked
name leads nowhere, the name was no text; nothing is called by its stand-in. -/
def entryIn (path name : String) : IO Entry := do
  let isMarked := name.toList.contains '\ufffd'
  if isMarked && (← kindOf? (Path.join path name)).isNone then
    return ⟨name ++ "\x00", name⟩
  else return ⟨name, name⟩

def list (path : String) : IO (Except FileError (List Entry)) := do
  match ← request (entryOf path).root.readDir with
  | .error failure => return .error failure
  | .ok entries => return .ok (← entries.toList.mapM fun entry => entryIn path entry.fileName)

/-- The system takes no path of so many bytes, and a level takes two at least. -/
def levels : Nat := 4096

instance : FileAccess IO where
  readText := readText
  writeText path text := request (IO.FS.writeFile path text)
  makeDirectory path := request (IO.FS.createDir path)
  kindOf? := kindOf?
  list := list
  levels := return levels

def usage : String :=
  "usage: codeblock [--no-color] [-v] extract FILE [--outdir DIR] [--no-nested] [-q]\n"
    ++ "       codeblock [--no-color] [-v] check FILE [--outdir DIR]\n"
    ++ "       codeblock [--no-color] [-v] test PATH [-c CATEGORY]... [--list-categories]"

end Tangle.Disk

def main (arguments : List String) : IO UInt32 := do
  match Tangle.Invocation.parse arguments with
  | none =>
      IO.eprintln Tangle.Disk.usage
      return 2
  | some invocation =>
      let outcome ← (invocation.run : IO Tangle.Outcome)
      IO.eprint outcome.text
      return outcome.exitCode.toUInt32
