import Tangle.Markdown.Lead

/-!
Contract: the containers a block lies in.

Owns: `Container`, the spine of open containers, and which of them a line
continues.

Does **not** own: when containers open and close (`Tangle.Markdown.Block`).
-/

set_option autoImplicit false

namespace Tangle.Markdown

/-- A list is tight as long as no blank line divides its items or their blocks. -/
inductive Container where
  | quote
  | list (mark : Char) (tight : Bool)
  | item (indent : Nat)
  deriving DecidableEq, Repr, Inhabited

def Container.isTightList : Container → Bool
  | .list _ tight => tight
  | _ => false

/-- The list, no longer tight. -/
def Container.loosen : Container → Container
  | .list mark _ => .list mark false
  | container => container

/-- The open containers, the outermost first. -/
abbrev Spine := List Container

/-- The rest of a line that continues a container. -/
def Container.continue? (container : Container) (lead : Lead) : Option Lead :=
  match container with
  | .quote => ((lead.space 3).1).quoteMarker?
  | .list _ _ => some lead
  | .item indent =>
      let (after, indented) := lead.space indent
      if indented || after.atLineEnd then some after else none

/-- How many containers a line continues, and the rest of the line behind them. -/
def Spine.continued : Spine → Lead → Nat × Lead
  | [], lead => (0, lead)
  | container :: rest, lead =>
      match container.continue? lead with
      | some after =>
          let (count, final) := Spine.continued rest after
          (count + 1, final)
      | none => (0, lead)

/-- The rest of a line that continues every container. -/
def Spine.continue? (spine : Spine) (text : List Char) : Option Lead :=
  let (count, lead) := Spine.continued spine { rest := text }
  if count = spine.length then some lead else none

end Tangle.Markdown
