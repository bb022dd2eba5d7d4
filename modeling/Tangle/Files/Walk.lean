import Tangle.Files.Access

/-!
Contract: the files below a directory.

Owns: the paths that a walk puts together, and the recursion over the listings of
directories.

Does **not** own: what is done with a file that is found (`Tangle.Files.Outputs`,
`Tangle.Fixture.Discovery`).
-/

set_option autoImplicit false

namespace Tangle.Files

/-- A path that a walk put together, and how it is shown. -/
structure FoundPath where
  path : String
  shown : String
  deriving DecidableEq, Repr, Inhabited

/-- A path that is a text. -/
def FoundPath.ofText (path : String) : FoundPath :=
  ⟨path, path⟩

def FoundPath.enter (directory : FoundPath) (entry : Entry) : FoundPath :=
  ⟨Path.join directory.path entry.name, Path.join directory.shown entry.shown⟩

section Walking

variable {m : Type → Type} [Monad m] [FileAccess m] {α : Type}

/-- Takes each file below a directory, as far down as `levels`; whatever is no
directory counts as a file, and a directory that cannot be listed as empty. -/
def walk (take : α → FoundPath → α) : Nat → α → FoundPath → m α
  | 0, taken, _ => return taken
  | levels + 1, taken, directory => do
      match ← FileAccess.list directory.path with
      | .error _ => return taken
      | .ok entries =>
          entries.foldlM (fun taken entry => do
            let found := directory.enter entry
            if ← isDirectory found.path then walk take levels taken found
            else return take taken found) taken

/-- Takes each file below a path. -/
def takeFiles (take : α → FoundPath → α) (taken : α) (path : String) : m α := do
  walk take (← FileAccess.levels) taken (.ofText path)

end Walking

end Tangle.Files
