import Tangle.Text.Basic

/-!
Contract: file paths as text, and the steps they stand for.

Owns: the reading of a path as steps, comparison by steps, joining, and the
parts of a path (parent, file name, stem, extension, remainder below a base).

Does **not** own: what a path leads to (`Tangle.Files.Tree`).

A path is kept exactly as it was put together. Slashes separate its segments;
an empty segment and a segment `.` are fillers that take no step, except that a
`.` at the very start is a step of its own. Two paths are the same when their
steps are, whatever their text.
-/

set_option autoImplicit false

namespace Tangle.Path

/-- One step of a path. -/
inductive Step where
  | root
  | here
  | up
  | name (text : String)
  deriving DecidableEq, Repr, Inhabited

/-- A segment that takes no step. -/
def isFiller (segment : List Char) : Bool :=
  segment == [] || segment == ['.']

/-- A path cut into its lead, which is `/`, `.` or nothing, and the segments
behind it. The segment right behind a lead `.` is empty. -/
structure Parts where
  lead : List Char
  segments : List (List Char)
  deriving DecidableEq, Repr, Inhabited

def parts (path : String) : Parts :=
  match path.toList with
  | '/' :: rest => ⟨['/'], Text.splitChars '/' rest⟩
  | ['.'] => ⟨['.'], []⟩
  | '.' :: '/' :: rest => ⟨['.'], [] :: Text.splitChars '/' rest⟩
  | [] => ⟨[], []⟩
  | chars => ⟨[], Text.splitChars '/' chars⟩

/-- Segments with slashes between them. -/
def joinSegments : List (List Char) → List Char
  | [] => []
  | [only] => only
  | first :: rest => first ++ '/' :: joinSegments rest

/-- The path that consists of the given parts. -/
def Parts.text (parts : Parts) : String :=
  String.ofList (parts.lead ++ joinSegments parts.segments)

def leadStep (lead : List Char) : List Step :=
  if lead = ['/'] then [.root] else if lead = ['.'] then [.here] else []

def segmentStep (segment : List Char) : Option Step :=
  if isFiller segment then none
  else if segment = ['.', '.'] then some .up
  else some (.name (String.ofList segment))

def steps (path : String) : List Step :=
  leadStep (parts path).lead ++ (parts path).segments.filterMap segmentStep

/-- Two texts for one path. -/
def same (left right : String) : Bool :=
  steps left == steps right

def Step.rank : Step → Nat
  | root => 0
  | here => 1
  | up => 2
  | name _ => 3

def Step.label : Step → List Char
  | name text => text.toList
  | _ => []

def Step.before (left right : Step) : Bool :=
  left.rank < right.rank || (left.rank == right.rank && Text.charsBefore left.label right.label)

def stepsBefore : List Step → List Step → Bool
  | [], [] => false
  | [], _ :: _ => true
  | _ :: _, [] => false
  | a :: left, b :: right => a.before b || (a == b && stepsBefore left right)

/-- Order of paths: by their steps, a shorter path ahead of what lies below it. -/
def before (left right : String) : Bool :=
  stepsBefore (steps left) (steps right)

def isRooted (path : String) : Bool :=
  path.toList.head? == some '/'

/-- Adds a path to paths in order, unless it is among them in some spelling. -/
def insert (path : String) : List String → List String
  | [] => [path]
  | first :: rest =>
      if before path first then path :: first :: rest
      else if before first path then first :: insert path rest
      else first :: rest

/-- The paths in order; of several spellings of one path the first stays. -/
def sortDistinct (paths : List String) : List String :=
  paths.foldl (fun sorted path => insert path sorted) []

/-- `path` seen from `base`: a rooted path stands alone. -/
def join (base path : String) : String :=
  if isRooted path then path
  else if base.toList.isEmpty || base.toList.getLast? == some '/' then base ++ path
  else base ++ "/" ++ path

def dropTailFillers (segments : List (List Char)) : List (List Char) :=
  (segments.reverse.dropWhile isFiller).reverse

/-- The path one step shorter, unless there is no step or only the root. -/
def parent? (path : String) : Option String :=
  let whole := parts path
  match (whole.segments.reverse.dropWhile isFiller) with
  | _ :: rest =>
      some (Parts.text ⟨whole.lead, (rest.dropWhile isFiller).reverse⟩)
  | [] => if whole.lead = ['.'] then some "" else none

/-- At most `fuel` paths: `path`, its parent, and so on, the empty path left out. -/
def ancestorsWithin : Nat → String → List String
  | 0, _ => []
  | fuel + 1, path =>
      if path.toList.isEmpty then []
      else
        path :: match parent? path with
          | some above => ancestorsWithin fuel above
          | none => []

/-- `path`, then each path above it; a parent is always shorter. -/
def ancestors (path : String) : List String :=
  ancestorsWithin path.length path

/-- The name that the last step takes. -/
def fileName? (path : String) : Option String :=
  match (steps path).getLast? with
  | some (.name text) => some text
  | _ => none

/-- A file name cut at its last dot, unless nothing stands before that dot. -/
def splitExtension (name : String) : String × Option String :=
  let tail := name.toList.reverse
  match tail.dropWhile (· != '.') with
  | _ :: stem =>
      if stem.isEmpty then (name, none)
      else (String.ofList stem.reverse, some (String.ofList (tail.takeWhile (· != '.')).reverse))
  | [] => (name, none)

def extension? (path : String) : Option String :=
  (fileName? path).bind fun name => (splitExtension name).2

def fileStem? (path : String) : Option String :=
  (fileName? path).map fun name => (splitExtension name).1

/-- The segments left once `wanted` steps have been taken. -/
def consume? : List Step → List (List Char) → Option (List (List Char))
  | [], segments => some segments
  | _ :: _, [] => none
  | step :: wanted, segment :: rest =>
      match segmentStep segment with
      | none => consume? (step :: wanted) rest
      | some taken => if taken = step then consume? wanted rest else none
termination_by wanted segments => wanted.length + segments.length

/-- The part of `path` below `base`, without fillers at its ends. -/
def below? (base path : String) : Option String :=
  let whole := parts path
  match steps base with
  | [] => some (Parts.text ⟨whole.lead, dropTailFillers whole.segments⟩)
  | wanted =>
      let lead := leadStep whole.lead
      if lead.isPrefixOf wanted then
        (consume? (wanted.drop lead.length) whole.segments).map fun rest =>
          Parts.text ⟨[], dropTailFillers (rest.dropWhile isFiller)⟩
      else none

end Tangle.Path
