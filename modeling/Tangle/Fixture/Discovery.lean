import Tangle.Files.Walk
import Tangle.Text.Replace

/-!
Contract: the fixtures below a directory, by category.

Owns: what counts as a fixture, its category, and the choice of categories.

A category is the directory of a fixture relative to where the search began, with
slashes for backslashes. A request for a category includes the categories below it. A
file whose name is no text is no fixture, whatever its name ends in.
-/

set_option autoImplicit false

namespace Tangle.Fixture

open Tangle.Files

/-- The fixtures of one category. -/
structure Category where
  name : String
  files : List FoundPath
  deriving DecidableEq, Repr, Inhabited

/-- The name shown for a category. -/
def Category.title (category : Category) : String :=
  if category.name.isEmpty then "(root)" else category.name

/-- Whether a file name is a text, and ends like that of a fixture. -/
def isFixture (found : FoundPath) : Bool :=
  match Path.fileName? found.path with
  | some name => Path.fileName? found.shown == some name && Text.endsWith name ".test.md"
  | none => false

def categoryOf (root : String) (found : FoundPath) : String :=
  match (Path.parent? found.shown).bind (Path.below? root) with
  | some directory => Text.replace "\\" "/" directory
  | none => ""

/-- Adds a fixture to its category; categories stay in order of names. -/
def addFixture (name : String) (file : FoundPath) : List Category → List Category
  | [] => [⟨name, [file]⟩]
  | first :: rest =>
      if Text.before name first.name then ⟨name, [file]⟩ :: first :: rest
      else if Text.before first.name name then first :: addFixture name file rest
      else { first with files := first.files ++ [file] } :: rest

/-- Adds a file, if it is a fixture. -/
def addFile (root : String) (categories : List Category) (found : FoundPath) : List Category :=
  if isFixture found then addFixture (categoryOf root found) found categories else categories

def sortFiles (files : List FoundPath) : List FoundPath :=
  files.mergeSort fun left right => !Path.before right.path left.path

def Category.sorted (category : Category) : Category :=
  { category with files := sortFiles category.files }

/-- The fixtures below a directory, the files of each category in order. -/
def discover {m : Type → Type} [Monad m] [FileAccess m] (root : String) : m (List Category) := do
  return (← takeFiles (addFile root) [] root).map Category.sorted

/-- A request without slashes at its ends. -/
def trimRequest (request : String) : String :=
  Text.mapChars (fun chars => Text.dropTailWhile (· == '/') (chars.dropWhile (· == '/'))) request

/-- A request, already trimmed, for a category or one above it. -/
def requests (request : String) (category : Category) : Bool :=
  category.name == request || Text.startsWith category.name (request ++ "/")

/-- Categories that were asked for, in order of names, and warnings on the way. -/
structure Choice where
  categories : List Category := []
  warnings : List String := []
  deriving DecidableEq, Repr, Inhabited

/-- Adds a category in its place; a later one of the same name wins. -/
def insertCategory (category : Category) : List Category → List Category
  | [] => [category]
  | first :: rest =>
      if Text.before category.name first.name then category :: first :: rest
      else if Text.before first.name category.name then first :: insertCategory category rest
      else category :: rest

/-- Adds the categories that are requested, and notes whether there is one. -/
def insertRequested (request : String) (categories chosen : List Category) :
    List Category × Bool :=
  categories.foldl
    (fun found category =>
      if requests request category then (insertCategory category found.1, true) else found)
    (chosen, false)

/-- A line about a request that asks for nothing. -/
def requestWarning (categories : List Category) (request : String) : String :=
  "warning: category '" ++ request ++ "' not found (available: "
    ++ Text.join ", " (categories.map Category.title) ++ ")"

/-- What one more request adds to a choice. -/
def choose (categories : List Category) (choice : Choice) (wanted : String) : Choice :=
  let request := trimRequest wanted
  let (chosen, isFound) := insertRequested request categories choice.categories
  { categories := chosen
    warnings := choice.warnings ++ if isFound then [] else [requestWarning categories request] }

/-- The categories that are asked for; without a request all of them. -/
def select (categories : List Category) (wanted : List String) : Choice :=
  if wanted.isEmpty then { categories := categories }
  else wanted.foldl (choose categories) {}

end Tangle.Fixture
