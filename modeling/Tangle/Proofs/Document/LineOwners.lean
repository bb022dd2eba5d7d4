import Tangle.Proofs.Generate.LeftEdge

/-!
Contract: which block of a parsed text a line belongs to.

Owns: that an opening fence stands where a fence was found, that the content lines of a fence are
lines of the text, and that every line is a content line of one block at most.

Does **not** own: the order of the blocks (`Tangle.Proofs.Document.ContentLines`).

The content lines of a block are counted from its opening fence, by the line feeds of its code.
The text is never looked at again. That they are lines of the text after all rests on
`fenceLines_lines`: reading a fence takes up as many lines as it gives.
-/

set_option autoImplicit false

namespace Tangle.Document

open Tangle.Source
open Tangle.Markdown
open Tangle.Markdown.Cursor
open Tangle.Generate

/-- The lines of a fence end before the lines of the text do. -/
theorem fencedCode_within {source : String} {content : Cursor} (placed : At source content)
    (spine : Spine) (mark : FenceMark) (indent : Nat) :
    lineAt source content.offset
        + (cutLines (blockText (fencedCode spine mark indent content).1)).length
      ≤ Text.newlineCount source + 1 := by
  have lines : (cutLines (blockText (fencedCode spine mark indent content).1)).length
        + (cutLines (fencedCode spine mark indent content).2.rest).length
      ≤ (cutLines content.nextLine.rest).length :=
    fenceLines_lines spine mark indent (content.rest.length + 1) content.nextLine
  have here := lineAt_add_count placed
  by_cases nothing : content.nextLine.rest = []
  · -- The opening fence is on the last line, and nothing is left for its content.
    rw [nothing, cutLines, List.length_nil] at lines
    omega
  · have opening := count_nextLine nothing
    have left := length_cutLines_le content.nextLine.rest
    omega

/-- **Where a fence was found** the text has an opening fence, and as many lines behind that line
as the fence has lines of code. -/
theorem fence_of_mem_items {source : String} {fence : FenceItem}
    (isItem : .fence fence ∈ items source) :
    (∃ mark, fence? (Text.dropBytes fence.span.start source.toList) = some mark)
    ∧ lineAt source fence.span.start + Text.lineCount fence.code ≤ Text.newlineCount source + 1 := by
  obtain ⟨block, member, ofBlock⟩ := List.mem_filterMap.mp isItem
  obtain ⟨isFence, -, -⟩ := ofBlock?_fence ofBlock
  obtain ⟨count, -, keptAt⟩ := readBlocks_places _ member
  have placed : At source ((Cursor.start source).advance count) := (at_start source).advance count
  have isStart : fence.span.start = ((Cursor.start source).advance count).offset :=
    (Item.ofBlock?_start ofBlock).trans keptAt.start
  rw [isStart, placed.dropBytes]
  generalize (Cursor.start source).advance count = content at keptAt placed
  cases keptAt with
  | inl isHtml =>
      obtain ⟨spine, after, read⟩ := isHtml
      rw [htmlBlock?_isFence read] at isFence
      cases isFence
  | inr isFenced =>
      obtain ⟨spine, mark, indent, opens, rfl⟩ := isFenced
      refine ⟨⟨mark, opens⟩, ?_⟩
      have isCode : fence.code = String.ofList (dropFinalBreak
          (blockText (fencedCode spine mark indent content).1)) := by
        obtain rfl := Item.fence.inj (Option.some.inj ofBlock)
        rfl
      have fewer := lineCount_dropFinalBreak_le (blockText (fencedCode spine mark indent content).1)
      have within := fencedCode_within placed spine mark indent
      rw [isCode]
      omega

/-- **Every line belongs to one block at most.** The content lines of a later block lie behind
those of an earlier one. They start on the line behind the opening fence of their block, and all
of them are lines of the text. A look-up by line finds a block exactly when the line is one of its
content lines, so no line is one of two blocks. -/
theorem content_lines_have_one_block (text path : String) :
    ((parse text path).document.codeBlocks.Pairwise fun earlier later =>
      earlier.codeRange.start.line + earlier.codeLineCount < later.codeRange.start.line)
    ∧ (∀ block ∈ (parse text path).document.codeBlocks,
        (∃ fence mark, OpenedBy text fence block
          ∧ fence? (Text.dropBytes fence.span.start text.toList) = some mark
          ∧ block.codeRange.start.line = lineAt text fence.span.start + 1)
        ∧ ∀ line, block.codeRange.start.line ≤ line →
            line < block.codeRange.start.line + block.codeLineCount →
            1 ≤ line ∧ line ≤ (Text.splitLines text).length)
    ∧ ∀ p block, (parse text path).document.blockAt? p = some block
        ↔ block ∈ (parse text path).document.codeBlocks
          ∧ block.codeRange.start.line ≤ p.line
          ∧ p.line < block.codeRange.start.line + block.codeLineCount := by
  refine ⟨parse_content_increasing text path, ?_, ?_⟩
  · intro block member
    obtain ⟨fence, isItem, directive, rfl⟩ := exists_openedBy member
    obtain ⟨⟨mark, opens⟩, within⟩ := fence_of_mem_items isItem
    have isStart : (codeBlock text fence directive).codeRange.start.line
        = lineAt text fence.span.start + 1 := codeRange_start _ _
    refine ⟨⟨fence, mark, ⟨isItem, directive, rfl⟩, opens, isStart⟩, ?_⟩
    intro line start stop
    have isCount : (codeBlock text fence directive).codeLineCount = Text.lineCount fence.code := rfl
    rw [isStart] at start stop
    rw [Text.splitLines_length]
    omega
  · intro p block
    constructor
    · intro found
      exact ⟨mem_codeBlocks_of_blockAt? found, containsLine_of_blockAt? found⟩
    · intro owned
      apply blockAt?_of_containsLine (parse_disjointContent text path) owned.1
      exact (containsLine_iff block p.line).mpr owned.2

/-- A fence of two lines, and one of a line in a quotation. -/
def twoFences : String :=
  "```\na\nb\n```\n\n> ```\n> c\n> ```\n"

example :
    let document := (parse twoFences "doc.md").document
    document.codeBlocks.map (fun block => (block.codeRange.start.line, block.codeLineCount))
        = [(2, 2), (7, 1)]
      ∧ [1, 2, 3, 4, 7].map (fun line => (document.blockAt? ⟨line, 1⟩).map CodeBlock.code)
        = [none, some "a\nb", some "a\nb", none, some "c"] := by
  decide +kernel

end Tangle.Document
