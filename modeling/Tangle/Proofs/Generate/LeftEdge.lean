import Tangle.Proofs.Document.FlushIndents
import Tangle.Proofs.Generate.Inverse

/-!
Contract: positions in fences that open in the first column.

Owns: that content lines of a parsed text are disjoint, and the round trip of a position on a
content line of such a fence.

Does **not** own: the indents recorded for it (`Tangle.Proofs.Document.FlushIndents`).

Columns are kept on every line but one kind: an empty line that ends in a carriage return is
recorded with an indent of one, so its first column is taken for its second.
-/

set_option autoImplicit false

namespace Tangle.Generate

open Tangle.Source
open Tangle.Document

/-! ## Blocks of a parsed text -/

theorem containsLine_iff (block : CodeBlock) (line : Nat) :
    block.containsLine line = true
      ↔ block.codeRange.start.line ≤ line
        ∧ line < block.codeRange.start.line + block.codeLineCount := by
  rw [CodeBlock.containsLine, Bool.and_eq_true, decide_eq_true_eq, decide_eq_true_eq]

/-- No line is a content line of two blocks of a parsed text. -/
theorem parse_disjointContent (text path : String) :
    DisjointContent (parse text path).document := by
  refine (parse_content_increasing text path).imp ?_
  rintro earlier later before line ⟨inEarlier, inLater⟩
  rw [containsLine_iff] at inEarlier inLater
  omega

/-- The block was made of the fence, with or without a directive. -/
def OpenedBy (text : String) (fence : FenceItem) (block : CodeBlock) : Prop :=
  .fence fence ∈ items text ∧ ∃ directive, block = codeBlock text fence directive

theorem exists_openedBy {text path : String} {block : CodeBlock}
    (member : block ∈ (parse text path).document.codeBlocks) :
    ∃ fence, OpenedBy text fence block := by
  rw [parse, build_codeBlocks, List.mem_filterMap] at member
  obtain ⟨node, isNode, isCode⟩ := member
  cases made_of_mem_nodesOf isNode with
  | config => cases isCode
  | plain isFence => exact ⟨_, isFence, none, (Option.some.inj isCode).symm⟩
  | annotated adjacent =>
      exact ⟨_, adjacent.mem (List.mem_cons_of_mem _ List.mem_cons_self), some _,
        (Option.some.inj isCode).symm⟩

theorem exists_place_of_source (document : Document) {file : GeneratedFile} {block : CodeBlock}
    (source : block ∈ file.sourceBlocks) : ∃ place, (place, block) ∈ placedBlocks document file := by
  rw [← placedBlocks_blocks document file] at source
  obtain ⟨⟨place, _⟩, placed, rfl⟩ := List.mem_map.mp source
  exact ⟨place, placed⟩

/-! ## Content at the left edge -/

/-- The indent of a content line is what reading left out in front of it. -/
theorem indentAt_flush {text : String} {fence : FenceItem} {block : CodeBlock}
    (opened : OpenedBy text fence block)
    (first : (positionAt text fence.span.start).column = 1) {line : Nat}
    (inside : block.containsLine line = true) :
    ∃ content, (cutLines text.toList)[line - 1]? = some content
      ∧ block.indentAt line = lostReturn content := by
  obtain ⟨isItem, directive, rfl⟩ := opened
  obtain ⟨lines, isPrefix, isIndents, enough⟩ := indents_flush isItem first
  have isStart : (codeBlock text fence directive).codeRange.start.line
      = lineAt text fence.span.start + 1 := codeRange_start _ _
  have isCount : (codeBlock text fence directive).codeLineCount = Text.lineCount fence.code := rfl
  rw [containsLine_iff, isStart, isCount] at inside
  obtain ⟨index, rfl⟩ := Nat.exists_eq_add_of_le inside.1
  have bound : index < lines.length := by omega
  refine ⟨lines[index], ?_, ?_⟩
  · obtain ⟨later, isLines⟩ := isPrefix
    have isIndex : lineAt text fence.span.start + 1 + index - 1
        = lineAt text fence.span.start + index := by omega
    rw [isIndex, ← List.getElem?_drop, ← isLines, List.getElem?_append_left bound,
      List.getElem?_eq_getElem bound]
  · have isRecorded : (codeBlock text fence directive).indents = lines.map lostReturn := isIndents
    rw [CodeBlock.indentAt, isStart, if_pos (Nat.le_add_right _ _), Nat.add_sub_cancel_left,
      isRecorded, List.getElem?_map, List.getElem?_eq_getElem bound]
    rfl

section Plain

variable {block : CodeBlock} (plain : (block.settings.getD {}).replace = [])
include plain

private theorem transformedCode_of_plain : transformedCode block = block.code := by
  rw [transformedCode, plain]
  rfl

/-- Without substitutions a position comes back on its own line. -/
theorem returned_of_plain {p : Position} (inside : block.containsLine p.line = true) :
    returned block p
      = ⟨p.line,
          addColumns (max 1 (p.column - block.indentAt p.line)) (block.indentAt p.line)⟩ := by
  rw [containsLine_iff] at inside
  have sameLine : block.codeRange.start.line
      + min (p.line - block.codeRange.start.line) (Text.lineCount block.code - 1) = p.line := by
    have isCount : block.codeLineCount = Text.lineCount block.code := rfl
    omega
  simp only [returned, transformedCode_of_plain plain, sameLine]

end Plain

/-- **Positions at the left edge.** Every block of a generated file was made of a fence. If the
fence opens in the first column and the block has no substitutions, each position on its content
lines has a generated position in that file, in the same column, from which the way back leads
to the position itself: on every line in front of which reading leaves nothing out, and with that
much of an indent on the others. The column is any machine word. -/
theorem flush_position_round_trip (text path : String) (options : Options) (file : GeneratedFile)
    (kept : file ∈ (generate (parse text path).document options).files) (block : CodeBlock)
    (source : block ∈ file.sourceBlocks) :
    (∃ fence, OpenedBy text fence block)
    ∧ ∀ fence, OpenedBy text fence block → (positionAt text fence.span.start).column = 1 →
        (block.settings.getD {}).replace = [] →
        ∀ p : Position, block.containsLine p.line = true → 1 ≤ p.column →
        p.column < columnBound →
        ∃ line hit, (cutLines text.toList)[p.line - 1]? = some line
          ∧ block.indentAt p.line = lostReturn line
          ∧ toGenerated? (parse text path).document
              (generate (parse text path).document options).files p = some hit
          ∧ hit.path = file.path
          ∧ hit.position.column = max 1 (p.column - lostReturn line)
          ∧ toSource? (parse text path).document
              (generate (parse text path).document options).files hit.path hit.position
            = some ⟨p.line, max 1 (p.column - lostReturn line) + lostReturn line⟩
          ∧ (lostReturn line = 0 → hit.position.column = p.column
              ∧ toSource? (parse text path).document
                  (generate (parse text path).document options).files hit.path hit.position
                = some p) := by
  have member := mem_codeBlocks_of_mem_sourceBlocks kept source
  have distinct : DistinctSpans (parse text path).document := parse_spans_nodup text path
  refine ⟨exists_openedBy member, ?_⟩
  intro fence opened first plain p inside column word
  obtain ⟨line, isLine, isIndent⟩ := indentAt_flush opened first inside
  have found := blockAt?_of_containsLine (parse_disjointContent text path) member inside
  obtain ⟨place, placed⟩ := exists_place_of_source (parse text path).document source
  have someLines : 0 < place.codeLines := by
    rw [codeLines_of_mem_placedBlocks placed, transformedCode_of_plain plain]
    rw [containsLine_iff] at inside
    exact Nat.pos_of_lt_add_right (Nat.lt_of_le_of_lt inside.1 inside.2)
  have mapped := toGenerated?_of_placed distinct found kept placed someLines
  have back := toSource?_toGenerated? distinct found mapped
  have fits : max 1 (p.column - lostReturn line) + lostReturn line < columnBound := by
    have small : lostReturn line ≤ 1 := lostReturn_le line
    have isBound : columnBound = 2 ^ 64 := rfl
    omega
  rw [returned_of_plain plain inside, isIndent, addColumns_of_lt fits] at back
  have isColumn : (placePosition block place p).column = max 1 (p.column - lostReturn line) := by
    rw [← isIndent]
    rfl
  refine ⟨line, _, isLine, isIndent, mapped, rfl, isColumn, back, ?_⟩
  intro nothingLost
  have sameColumn : max 1 (p.column - lostReturn line) = p.column := by omega
  rw [sameColumn, nothingLost] at back
  exact ⟨isColumn.trans sameColumn, back⟩

def crlfText : String :=
  "<!-- @codeblock a.ts -->\r\n```\r\none\r\n\r\ntwo\r\n```\r\n"

def crlfFence : FenceItem :=
  { language := "", code := "one\n\ntwo", indents := [0, 1, 0], span := ⟨26, 46⟩ }

def crlfBlock : CodeBlock :=
  codeBlock crlfText crlfFence (some (⟨0, 24⟩, { file := some "a.ts" }))

private theorem crlfBlock_opened : OpenedBy crlfText crlfFence crlfBlock :=
  ⟨by decide +kernel, _, rfl⟩

private theorem crlfBlock_placed : groupFile none ⟨"a.ts", crlfBlock, []⟩
    ∈ (generate (parse crlfText "doc.md").document {}).files := by decide +kernel

/-- On a line with code every column comes back. -/
theorem flush_position_round_trip_crlf :
    (positionAt crlfText crlfFence.span.start).column = 1
    ∧ ∃ hit, toGenerated? (parse crlfText "doc.md").document
          (generate (parse crlfText "doc.md").document {}).files ⟨5, 2⟩ = some hit
        ∧ hit.path = "a.ts" ∧ hit.position.column = 2
        ∧ toSource? (parse crlfText "doc.md").document
            (generate (parse crlfText "doc.md").document {}).files hit.path hit.position
          = some ⟨5, 2⟩ := by
  have first : (positionAt crlfText crlfFence.span.start).column = 1 := by decide +kernel
  obtain ⟨line, hit, isLine, -, mapped, isPath, -, -, stays⟩ :=
    (flush_position_round_trip crlfText "doc.md" {} _ crlfBlock_placed crlfBlock
      List.mem_cons_self).2 crlfFence crlfBlock_opened first rfl ⟨5, 2⟩ (by decide +kernel)
      (by decide) (by decide)
  obtain rfl : line = ['t', 'w', 'o', '\r', '\n'] :=
    Option.some.inj (isLine.symm.trans (by decide +kernel))
  obtain ⟨sameColumn, back⟩ := stays rfl
  exact ⟨first, hit, mapped, isPath, sameColumn, back⟩

/-- **An empty line that moves.** Its first column comes back as the second, and its second
column is generated as the first: nothing was stripped in front of it, but the carriage return
that reading left out is recorded as its indent. -/
theorem empty_line_moves_behind_return :
    OpenedBy crlfText crlfFence crlfBlock
    ∧ (positionAt crlfText crlfFence.span.start).column = 1
    ∧ (crlfBlock.settings.getD {}).replace = []
    ∧ crlfBlock.containsLine 4 = true
    ∧ crlfBlock.indentAt 4 = 1
    ∧ toGenerated? (parse crlfText "doc.md").document
        (generate (parse crlfText "doc.md").document {}).files ⟨4, 1⟩
      = some ⟨"a.ts", ⟨2, 1⟩⟩
    ∧ toGenerated? (parse crlfText "doc.md").document
        (generate (parse crlfText "doc.md").document {}).files ⟨4, 2⟩
      = some ⟨"a.ts", ⟨2, 1⟩⟩
    ∧ toSource? (parse crlfText "doc.md").document
        (generate (parse crlfText "doc.md").document {}).files "a.ts" ⟨2, 1⟩
      = some ⟨4, 2⟩ :=
  ⟨crlfBlock_opened, by decide +kernel⟩

end Tangle.Generate
