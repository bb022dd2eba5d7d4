import Tangle.Document.Basic

/-!
Contract: the text of a generated file and the place of each block's code in it.

Owns: how one block is rendered, how rendered blocks are joined and wrapped, and
the line accounting of the result.

Does **not** own: which blocks form a file (`Tangle.Generate.Group`).

`renderFile` and `layout` are two independent readings of the same blocks: the
first writes characters, the second only counts lines.
-/

set_option autoImplicit false

namespace Tangle.Generate

open Tangle.Directive
open Tangle.Document

/-- One block after its substitutions, between its own header and footer lines. -/
structure RenderedBlock where
  text : String
  headerLines : Nat
  codeLines : Nat
  deriving DecidableEq, Repr, Inhabited

/-- The generated lines that hold the code of a block, counted from one. -/
structure BlockLayout where
  codeStart : Nat
  codeLines : Nat
  deriving DecidableEq, Repr, Inhabited

/-- What stands between two blocks of one file. -/
def blockSeparator : String := "\n\n"

/-- Lines a header occupies; blank lines at its end do not count. -/
def headerLineCount (header : String) : Nat :=
  Text.lineCount (Text.trimEnd header)

/-- A header as whole lines, without blanks at its end. -/
def leadingLines (header : Option String) : String :=
  match header.map Text.trimEnd with
  | none => ""
  | some lines => if lines.toList.isEmpty then "" else lines ++ "\n"

/-- A footer as whole lines after the code. -/
def trailingLines (footer : Option String) : String :=
  match footer.map Text.trimEnd with
  | none => ""
  | some lines => if lines.toList.isEmpty then "" else "\n" ++ lines

/-- The code of a block after its substitutions. -/
def transformedCode (block : CodeBlock) : String :=
  ReplaceRule.applyAll (block.settings.getD {}).replace block.code

def renderBlock (block : CodeBlock) : RenderedBlock :=
  let settings := block.settings.getD {}
  let code := transformedCode block
  let header := leadingLines settings.header
  { text := header ++ code ++ trailingLines settings.footer
    headerLines := headerLineCount header
    codeLines := Text.lineCount code }

/-- A file footer starts on a line of its own, unless it is blank: then it is
appended as it stands. -/
def fileFooter (footer : Option String) : String :=
  match footer with
  | none => ""
  | some text => if Text.allBlank text then text else "\n" ++ text

def renderFile (config : Option Config) (blocks : List RenderedBlock) : String :=
  leadingLines (config.bind Config.header)
    ++ Text.join blockSeparator (blocks.map RenderedBlock.text)
    ++ fileFooter (config.bind Config.footer)

/-- Places blocks from line `cursor` on. -/
def layoutFrom (cursor : Nat) : List RenderedBlock → List BlockLayout
  | [] => []
  | block :: rest =>
      ⟨cursor + block.headerLines, block.codeLines⟩
        :: layoutFrom (cursor + Text.newlineCount block.text + 2) rest

def layout (config : Option Config) (blocks : List RenderedBlock) : List BlockLayout :=
  layoutFrom (1 + headerLineCount ((config.bind Config.header).getD "")) blocks

end Tangle.Generate
