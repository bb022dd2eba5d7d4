import Tangle.Path

/-!
Contract: what the program asks of a file system.

Owns: the ways a request can fail and their wording, the kinds of file, and the
requests themselves as an interface.

Does **not** own: an answer to any request. `Tangle.Files.Tree` answers from a
value, the command line answers from the disk.
-/

set_option autoImplicit false

namespace Tangle.Files

/-- Why a request failed. -/
inductive FileError where
  | notFound
  | alreadyExists
  | notDirectory
  | isDirectory
  | notText
  | invalidPath
  | other (message : String)
  deriving DecidableEq, Repr, Inhabited

def FileError.message : FileError → String
  | notFound => "No such file or directory (os error 2)"
  | alreadyExists => "File exists (os error 17)"
  | notDirectory => "Not a directory (os error 20)"
  | isDirectory => "Is a directory (os error 21)"
  | notText => "stream did not contain valid UTF-8"
  | invalidPath => "file name contained an unexpected NUL byte"
  | other message => message

inductive FileKind where
  | file
  | directory
  deriving DecidableEq, Repr, Inhabited

/-- What is in a directory. A name that is no text is reached by a stand-in, which
stands where the name would stand in order, and is shown with marks for what is no
text. A name that is a text is shown as it is. -/
structure Entry where
  name : String
  shown : String
  deriving DecidableEq, Repr, Inhabited

/-- Requests to a file system. `kindOf?` has no answer where nothing can be
reached. `list` names what is in one directory, in any order; `levels` is a bound on
the directories on the way down from one to a file in it. -/
class FileAccess (m : Type → Type) where
  readText : String → m (Except FileError String)
  writeText : String → String → m (Except FileError Unit)
  makeDirectory : String → m (Except FileError Unit)
  kindOf? : String → m (Option FileKind)
  list : String → m (Except FileError (List Entry))
  levels : m Nat

variable {m : Type → Type} [Monad m] [FileAccess m]

def isDirectory (path : String) : m Bool := do
  return (← FileAccess.kindOf? path) == some .directory

def isFile (path : String) : m Bool := do
  return (← FileAccess.kindOf? path) == some .file

/-- A directory that is already there is as good as a new one. -/
def acceptExisting (path : String) (failure : FileError) : m (Except FileError Unit) := do
  if ← isDirectory path then return .ok ()
  else return .error failure

/-- Makes the first of the given directories; the ones after it are its ancestors,
nearest first, and are made if they are missing. -/
def makeDirectoriesFrom : List String → m (Except FileError Unit)
  | [] => return .ok ()
  | path :: above => do
      match ← FileAccess.makeDirectory path with
      | .ok () => return .ok ()
      | .error .notFound =>
          match ← makeDirectoriesFrom above with
          | .error failure => return .error failure
          | .ok () =>
              match ← FileAccess.makeDirectory path with
              | .ok () => return .ok ()
              | .error failure => acceptExisting path failure
      | .error failure => acceptExisting path failure

/-- Makes a directory and all that is missing above it. -/
def makeDirectories (path : String) : m (Except FileError Unit) :=
  makeDirectoriesFrom (Path.ancestors path)

end Tangle.Files
