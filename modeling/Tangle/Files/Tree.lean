import Tangle.Files.Access

/-!
Contract: a file system as a value.

Owns: `Tree`, the resolution of a path in it, and its answers to the requests of
`FileAccess`.

Does **not** own: links, permissions, or anything else that is not a directory or
a file.

A path is walked hop by hop from the root or from the working directory, and each
hop needs a directory to start from; `..` leaves a directory that exists.
-/

set_option autoImplicit false

namespace Tangle.Files

/-- The bytes of a file, as the text they encode if they encode one. -/
inductive Content where
  | text (text : String)
  | binary (bytes : List UInt8)
  deriving DecidableEq, Repr, Inhabited

def Content.ofBytes (bytes : List UInt8) : Content :=
  match String.fromUTF8? (ByteArray.mk bytes.toArray) with
  | some decoded => .text decoded
  | none => .binary bytes

inductive Node where
  | directory
  | file (content : Content)
  deriving DecidableEq, Repr, Inhabited

/-- The names on the way from the root. -/
abbrev Location := List String

/-- Everything below the root, no location twice, and the working directory. The
stand-ins for names that are no text come with the way these are shown. -/
structure Tree where
  entries : List (Location × Node) := []
  home : Location := []
  standIns : List (String × String) := []
  deriving DecidableEq, Repr, Inhabited

namespace Tree

/-- What is at a location; the root is always a directory. -/
def node? (tree : Tree) (location : Location) : Option Node :=
  if location = [] then some .directory
  else (tree.entries.find? fun entry => entry.1 == location).map Prod.snd

def erase (tree : Tree) (location : Location) : Tree :=
  { tree with entries := tree.entries.filter fun entry => entry.1 != location }

def put (tree : Tree) (location : Location) (node : Node) : Tree :=
  { tree with entries := (location, node) :: (tree.erase location).entries }

/-- Takes away a location and all below it. -/
def eraseBelow (tree : Tree) (location : Location) : Tree :=
  { tree with entries := tree.entries.filter fun entry => !location.isPrefixOf entry.1 }

/-- One hop on the way along a path. -/
inductive Hop where
  | here
  | up
  | name (text : String)
  deriving DecidableEq, Repr, Inhabited

/-- A path as the hops it asks for. A slash at the end asks for a directory. -/
structure Trail where
  rooted : Bool
  hops : List Hop
  slash : Bool
  deriving DecidableEq, Repr, Inhabited

def hopOf (segment : List Char) : Hop :=
  if segment = ['.'] then .here
  else if segment = ['.', '.'] then .up
  else .name (String.ofList segment)

def trailOf (path : String) : Trail :=
  let hops := ((Text.splitChars '/' path.toList).filter fun segment => !segment.isEmpty).map hopOf
  { rooted := Path.isRooted path
    hops := hops
    slash := !hops.isEmpty && path.toList.getLast? == some '/' }

/-- The hops of a path that can be asked for at all. -/
def trail? (path : String) : Except FileError Trail :=
  if path.toList.contains '\x00' then .error .invalidPath
  else if path.toList.isEmpty then .error .notFound
  else .ok (trailOf path)

def start (tree : Tree) (trail : Trail) : Location :=
  if trail.rooted then [] else tree.home

/-- Fails unless there is a directory at the location. -/
def requireDirectory (tree : Tree) (location : Location) : Except FileError Unit :=
  match tree.node? location with
  | some .directory => .ok ()
  | some (.file _) => .error .notDirectory
  | none => .error .notFound

def enter (tree : Tree) (location : Location) (hop : Hop) : Except FileError Location := do
  tree.requireDirectory location
  match hop with
  | .here => .ok location
  | .up => .ok location.dropLast
  | .name text =>
      if (tree.node? (location ++ [text])).isSome then .ok (location ++ [text])
      else .error .notFound

def walk (tree : Tree) (location : Location) : List Hop → Except FileError Location
  | [] => .ok location
  | hop :: rest => do tree.walk (← tree.enter location hop) rest

/-- Where a path leads, if there is something there. -/
def locate (tree : Tree) (path : String) : Except FileError Location := do
  let trail ← trail? path
  let location ← tree.walk (tree.start trail) trail.hops
  if trail.slash then tree.requireDirectory location
  return location

/-- Where the entry that a path names is or would be. -/
inductive Slot where
  | directory
  | entry (location : Location) (slash : Bool)
  deriving DecidableEq, Repr, Inhabited

/-- The directory that the last hop starts from has to exist; the last hop need
not lead anywhere. -/
def slotFor (tree : Tree) (path : String) : Except FileError Slot := do
  let trail ← trail? path
  match trail.hops.getLast? with
  | none => return .directory
  | some last =>
      let above ← tree.walk (tree.start trail) trail.hops.dropLast
      tree.requireDirectory above
      match last with
      | .name text => return .entry (above ++ [text]) trail.slash
      | _ => return .directory

def read (tree : Tree) (path : String) : Except FileError String := do
  let location ← tree.locate path
  match tree.node? location with
  | some (.file (.text text)) => return text
  | some (.file (.binary _)) => .error .notText
  | some .directory => .error .isDirectory
  | none => .error .notFound

/-- The location that a file is written to. -/
def writeLocation (tree : Tree) (path : String) : Except FileError Location := do
  match ← tree.slotFor path with
  | .directory => .error .isDirectory
  | .entry location slash =>
      if slash || tree.node? location == some .directory then .error .isDirectory
      else return location

def write (tree : Tree) (path : String) (content : Content) : Except FileError Tree := do
  let location ← tree.writeLocation path
  return tree.put location (.file content)

def makeDirectory (tree : Tree) (path : String) : Except FileError Tree := do
  match ← tree.slotFor path with
  | .directory => .error .alreadyExists
  | .entry location _ =>
      if (tree.node? location).isSome then .error .alreadyExists
      else return tree.put location .directory

def kindOf? (tree : Tree) (path : String) : Option FileKind :=
  match tree.locate path with
  | .error _ => none
  | .ok location =>
      match tree.node? location with
      | some .directory => some .directory
      | some (.file _) => some .file
      | none => none

/-- How a name is shown. -/
def shown (tree : Tree) (name : String) : String :=
  ((tree.standIns.find? fun standIn => standIn.1 == name).map Prod.snd).getD name

/-- The name of an entry that is right in a directory. -/
def nameIn? (directory : Location) (entry : Location × Node) : Option String :=
  if entry.1.dropLast = directory then entry.1.getLast? else none

def list (tree : Tree) (path : String) : Except FileError (List Entry) := do
  let directory ← tree.locate path
  tree.requireDirectory directory
  return (tree.entries.filterMap (nameIn? directory)).map fun name => ⟨name, tree.shown name⟩

/-- No location has more names. -/
def levels (tree : Tree) : Nat :=
  (tree.entries.map fun entry => entry.1.length).foldr max 0

/-- Runs a change, which leaves the tree alone if it fails. -/
def change (f : Tree → Except FileError Tree) : StateM Tree (Except FileError Unit) := fun tree =>
  match f tree with
  | .ok after => (.ok (), after)
  | .error failure => (.error failure, tree)

instance : FileAccess (StateM Tree) where
  readText path := fun tree => (tree.read path, tree)
  writeText path text := change fun tree => tree.write path (.text text)
  makeDirectory path := change fun tree => tree.makeDirectory path
  kindOf? path := fun tree => (tree.kindOf? path, tree)
  list path := fun tree => (tree.list path, tree)
  levels := fun tree => (tree.levels, tree)

def locationBefore : Location → Location → Bool
  | [], [] => false
  | [], _ :: _ => true
  | _ :: _, [] => false
  | a :: left, b :: right => Text.before a b || (a == b && locationBefore left right)

/-- The entries below a location, each directory ahead of what is in it and names
in order. -/
def listing (tree : Tree) (top : Location) : List (Location × Node) :=
  let below := tree.entries.filterMap fun entry =>
    if top.isPrefixOf entry.1 && top != entry.1 then some (entry.1.drop top.length, entry.2)
    else none
  below.mergeSort fun a b => !locationBefore b.1 a.1

end Tree

end Tangle.Files
