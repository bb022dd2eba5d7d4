import Tangle.Proofs.Document.Lockstep
import Tangle.Proofs.Generate.Admitted
import Tangle.Proofs.Generate.Outputs

/-!
Contract: what a document generates once it has been printed and read again.

Owns: `Node.Writable`, that a node has nothing in it that gets lost in print; that documents
of such nodes generate the same after printing, as long as each node stands where its print
can take its place; and what is generated of others.

Does **not** own: how source and print are read (`Tangle.Proofs.Document.Lockstep`), or how
settings are written and read (`Tangle.Proofs.Directive.Reread`).

## What is lost in print

The printer writes every directive and fence from the first column on, in one style. So a
fence that was indented, or stood in a list or a quote, has lost its container: its lines no
longer have the indentation that the opening line still has. Settings that span several lines
hold their texts as they are, and a text with the end of a comment in it ends the directive.
-/

set_option autoImplicit false

namespace Tangle.Document

open Tangle.Source
open Tangle.Markdown
open Tangle.Directive
open Tangle.Generate
open Cursor

/-! ## Nodes that can be written -/

/-- Nothing in a node gets lost in print: its texts keep their lines, no comment ends early,
the fence is not taken for inline code, and no line of the code ends with a return. -/
def Node.Writable : Node → Prop
  | .text _ => True
  | .config node => (∀ text ∈ node.config.texts, Legible text) ∧ CleanBody node.config.encode
  | .code block =>
      (∀ settings ∈ block.settings,
        (∀ text ∈ settings.texts, Legible text) ∧ CleanBody settings.encode)
        ∧ Text.Symbol.backtick ∉ block.language.toList
        ∧ ¬ "\r\n".toList <:+: block.code.toList ++ ['\n']

instance (body : String) : Decidable (CleanBody body) :=
  inferInstanceAs (Decidable (_ → _))

instance (node : Node) : Decidable node.Writable :=
  match node with
  | .text _ => isTrue trivial
  | .config _ => inferInstanceAs (Decidable (_ ∧ _))
  | .code block =>
      have : Decidable (∀ settings ∈ block.settings,
          (∀ text ∈ settings.texts, Legible text) ∧ CleanBody settings.encode) :=
        Option.decidableForallMem _
      inferInstanceAs (Decidable (_ ∧ _))

instance (source : String) (node : Node) : Decidable (node.InPlace source) :=
  decidable_of_iff
    ((positionAt source node.span.start).column = 1
      ∧ ¬ escapedBreak <:+ (⟨0, node.span.start⟩ : Span).chars source
      ∧ holdsMetadataEnd (node.span.chars source) = holdsMetadataEnd node.print.toList)
    ⟨fun ⟨flush, unescaped, metadata⟩ => ⟨flush, unescaped, metadata⟩,
      fun place => ⟨place.flush, place.unescaped, place.metadata⟩⟩

/-- What was parsed was admitted, so it is admitted again. -/
theorem readable_of_writable {text path : String} {node : Node}
    (member : node ∈ (parse text path).document.nodes) (writable : node.Writable) :
    node.Readable := by
  cases node with
  | text node => trivial
  | config node => exact ⟨decodeConfig_encode writable.1, writable.2⟩
  | code block =>
      obtain ⟨settingsWritable, noBacktick, noReturn⟩ := writable
      refine ⟨?_, noBacktick, noReturn⟩
      intro settings isSettings
      obtain ⟨legible, clean⟩ := settingsWritable settings isSettings
      have isBlock : block ∈ (parse text path).document.codeBlocks :=
        List.mem_filterMap.mpr ⟨.code block, member, rfl⟩
      have admissible := settings_admissible_of_parse isBlock
      rw [Option.mem_def.mp isSettings, Option.getD_some] at admissible
      exact ⟨(decodes_encoded_iff_admissible legible).mpr admissible, clean⟩

/-! ## Printing -/

/-- The items of a text are those from its start on. -/
theorem items_eq (source : String) :
    items source = itemsFrom source (source.length + 1) {} (Cursor.start source) :=
  rfl

/-- **A printed document** has nodes of the same effects as its source. -/
theorem effects_reprint {text path other : String}
    (reprints : ∀ node ∈ nodesOf text (items text), Reprints text node) :
    effects (parse (print (parse text path).document) other).document.nodes
      = effects (parse text path).document.nodes := by
  have run : Run text {} (Cursor.start text) (items text) := by
    rw [items_eq]
    exact exists_run (text.length + 1) (text.length + 1) (Nat.lt_succ_self _) (Nat.lt_succ_self _)
      State.sound_start (at_start text) fun node member => (reprints node member).flush
  have isPrint : (print (parse text path).document).toList
      = printFrom text (Cursor.start text).offset (nodesOf text (items text)) :=
    print_build text path (items text)
  have step := run.lockstep State.sound_start (at_start text) reprints
    ((print (parse text path).document).length + 1) _ (at_start _) isPrint (Nat.lt_succ_self _)
  rw [← items_eq] at step
  rw [← effects_outline, ← effects_outline (parse text path).document.nodes, parse, build_outline,
    parse, build_outline]
  exact step.sameEffects

/-- **Printing keeps what is generated**: the same files, with the same content and in the same
order, and the same directory. -/
theorem reprint_keeps_outputs (text path other : String) (options : Options)
    (reprintable : ∀ node ∈ (parse text path).document.nodes, node.isText = false →
      node.InPlace text ∧ node.Writable) :
    (generate (parse (print (parse text path).document) other).document options).sameOutputs
      (generate (parse text path).document options) = true := by
  refine sameOutputs_of_effects (effects_reprint ?_) options
  intro node member
  rw [← build_outline text path, outline, List.mem_filter, Bool.not_eq_true'] at member
  obtain ⟨isNode, noText⟩ := member
  obtain ⟨inPlace, writable⟩ := reprintable node isNode noText
  exact { inPlace with readable := readable_of_writable isNode writable }

/-- A configuration and a file of two blocks with a plain fence between them, not one of them
as the printer writes it. -/
def looselyWritten : String :=
  "<!-- @codeblock-config outDir: out -->\n# Guide\n\n"
    ++ "<!--@codeblock\n  prefix: '// a'\n  file: a.ts -->\n\n~~~ts x\nlet f = \"```\";\n~~~\n"
    ++ "```\nshown\n```\n\n<!-- @codeblock -->\n~~~\nrest\n~~~"

theorem reprint_keeps_outputs_looselyWritten :
    (∀ node ∈ (parse looselyWritten "doc.md").document.nodes, node.isText = false →
      node.InPlace looselyWritten ∧ node.Writable)
      ∧ print (parse looselyWritten "doc.md").document ≠ looselyWritten
      ∧ (generate (parse (print (parse looselyWritten "doc.md").document) "doc.md").document
          {}).sameOutputs (generate (parse looselyWritten "doc.md").document {}) = true := by
  have facts : (∀ node ∈ (parse looselyWritten "doc.md").document.nodes, node.isText = false →
      node.InPlace looselyWritten ∧ node.Writable)
      ∧ print (parse looselyWritten "doc.md").document ≠ looselyWritten := by decide +kernel
  exact ⟨facts.1, facts.2, reprint_keeps_outputs looselyWritten "doc.md" "doc.md" {} facts.1⟩

/-! ## What print does not keep -/

/-- A source whose file name holds the end of a comment. -/
def commentEndInName : String :=
  "<!-- @codeblock file: x --> -->\n```\ncode\n```\n"

theorem reprint_changes_outputs :
    ∃ document, document = (parse commentEndInName "doc.md").document
      ∧ ¬ (generate (parse (print document) "doc.md").document {}).sameOutputs
            (generate document {}) := by
  exact ⟨_, rfl, by decide +kernel⟩

/-- A source with a fence in a list, whose indentation is printed without that of its lines. -/
def listedFence : String :=
  "- item\n\n  ```\n  code\n  ```\n\n<!-- @codeblock a.ts -->\n```\nx\n```\n"

-- The opening line stays in the list, so the closing one opens a fence of its own.
example : ¬ (generate (parse (print (parse listedFence "doc.md").document) "doc.md").document
    {}).sameOutputs (generate (parse listedFence "doc.md").document {}) := by decide +kernel

end Tangle.Document
