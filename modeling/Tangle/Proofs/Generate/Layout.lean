import Tangle.Generate.Render
import Tangle.Proofs.Text.Lines

/-!
Contract: the line accounting of a generated file agrees with its text.

Owns: where the code of each block stands in the rendered file, and that the
placed intervals follow one another.

Does **not** own: position maps (`Tangle.Proofs.Generate.Mapping`).

## Two readings, one decomposition

`renderFile` concatenates and `layout` counts; neither knows of the other. What
ties them together is that every header, and every block with its separator, is a
run of whole lines. `layoutFrom_standsAt` walks both at once, with the text written
so far as the only state: its line feeds are the cursor of the layout.
-/

set_option autoImplicit false

namespace Tangle.Generate

open Tangle.Directive
open Tangle.Document
open Tangle.Text

/-! ## Headers and footers are whole lines -/

theorem leadingLines_of_allBlank {header : String} (blank : allBlank header = true) :
    leadingLines (some header) = "" := by
  have nothing : (trimEnd header).toList = [] := (trimEnd_eq_nil_iff header).mpr blank
  simp [leadingLines, nothing]

private theorem leadingLines_of_visible {header : String} (visible : ¬ allBlank header = true) :
    leadingLines (some header) = trimEnd header ++ "\n" := by
  have something : (trimEnd header).toList ≠ [] := fun nothing =>
    visible ((trimEnd_eq_nil_iff header).mp nothing)
  simp [leadingLines, something]

private theorem leadingLines_endsLine (header : Option String) :
    EndsLine (leadingLines header).toList := by
  cases header with
  | none => exact Or.inl rfl
  | some text =>
      by_cases blank : allBlank text = true
      · rw [leadingLines_of_allBlank blank]
        exact Or.inl rfl
      · rw [leadingLines_of_visible blank, String.toList_append]
        exact Or.inr ⟨_, rfl⟩

/-- A header is written on as many lines as are counted for it. -/
theorem newlineCount_leadingLines (header : Option String) :
    newlineCount (leadingLines header) = headerLineCount (header.getD "") := by
  cases header with
  | none => rfl
  | some text =>
      by_cases blank : allBlank text = true
      · have nothing : (trimEnd text).toList = [] := (trimEnd_eq_nil_iff text).mpr blank
        rw [leadingLines_of_allBlank blank, Option.getD_some, headerLineCount, lineCount, nothing]
        rfl
      · have something : (trimEnd text).toList ≠ [] := fun nothing =>
          blank ((trimEnd_eq_nil_iff text).mp nothing)
        rw [leadingLines_of_visible blank, newlineCount_append, Option.getD_some,
          headerLineCount, lineCount_of_ne_nil something]
        rfl

/-- Counting the lines of a header that is already written changes nothing. -/
theorem headerLineCount_leadingLines (header : Option String) :
    headerLineCount (leadingLines header) = newlineCount (leadingLines header) := by
  cases header with
  | none => rfl
  | some text =>
      by_cases blank : allBlank text = true
      · rw [leadingLines_of_allBlank blank]
        rfl
      · rw [newlineCount_leadingLines, leadingLines_of_visible blank, headerLineCount,
          trimEnd_trimEnd_append_newline]
        rfl

def hasVisibleFooter (block : CodeBlock) : Bool :=
  ((block.settings.getD {}).footer).any fun footer => !allBlank footer

/-- Behind a visible footer, or a footer that is left out, only what comes next can
run on in the last line of the code. -/
theorem spill_trailingLines (block : CodeBlock) (later : List Char) :
    spill '\n' ((trailingLines (block.settings.getD {}).footer).toList ++ later)
      = if hasVisibleFooter block then [] else spill '\n' later := by
  unfold hasVisibleFooter
  cases (block.settings.getD {}).footer with
  | none => rfl
  | some footer =>
      have emptyIff := trimEnd_eq_nil_iff footer
      by_cases blank : allBlank footer = true
      · simp [trailingLines, emptyIff.mpr blank, blank]
      · have something : (trimEnd footer).toList ≠ [] := fun nothing => blank (emptyIff.mp nothing)
        simp [trailingLines, something, blank, String.toList_append, spill]

/-! ## Rendered blocks -/

theorem renderBlock_text (block : CodeBlock) :
    (renderBlock block).text
      = leadingLines (block.settings.getD {}).header ++ transformedCode block
          ++ trailingLines (block.settings.getD {}).footer := rfl

@[simp] theorem renderBlock_codeLines (block : CodeBlock) :
    (renderBlock block).codeLines = lineCount (transformedCode block) := rfl

private theorem renderBlock_headerLines (block : CodeBlock) :
    (renderBlock block).headerLines
      = newlineCount (leadingLines (block.settings.getD {}).header) := by
  dsimp only [renderBlock]
  exact headerLineCount_leadingLines _

/-- Header and code of a block fit on the lines of its text and one more. -/
theorem renderBlock_lines_le (block : CodeBlock) :
    (renderBlock block).headerLines + (renderBlock block).codeLines
      ≤ newlineCount (renderBlock block).text + 1 := by
  have codeLines := lineCount_le (transformedCode block)
  rw [renderBlock_headerLines, renderBlock_codeLines, renderBlock_text, newlineCount_append,
    newlineCount_append]
  omega

/-! ## Placed intervals follow one another -/

theorem layoutFrom_length (cursor : Nat) (blocks : List RenderedBlock) :
    (layoutFrom cursor blocks).length = blocks.length := by
  induction blocks generalizing cursor with
  | nil => rfl
  | cons block rest inductionHypothesis =>
      rw [layoutFrom, List.length_cons, List.length_cons, inductionHypothesis]

theorem layout_length (config : Option Config) (blocks : List RenderedBlock) :
    (layout config blocks).length = blocks.length :=
  layoutFrom_length _ _

/-- Nothing is placed ahead of the cursor. -/
theorem le_codeStart_of_mem_layoutFrom {cursor : Nat} {blocks : List RenderedBlock}
    {place : BlockLayout} (member : place ∈ layoutFrom cursor blocks) :
    cursor ≤ place.codeStart := by
  induction blocks generalizing cursor with
  | nil => exact absurd member List.not_mem_nil
  | cons block rest inductionHypothesis =>
      rw [layoutFrom, List.mem_cons] at member
      rcases member with rfl | later
      · exact Nat.le_add_right _ _
      · have bound := inductionHypothesis later
        omega

/-- **Intervals are apart.** At least one line lies between the code of two blocks. -/
theorem layoutFrom_apart (cursor : Nat) (blocks : List CodeBlock) :
    (layoutFrom cursor (blocks.map renderBlock)).Pairwise fun earlier later =>
      earlier.codeStart + earlier.codeLines < later.codeStart := by
  induction blocks generalizing cursor with
  | nil => exact List.Pairwise.nil
  | cons block rest inductionHypothesis =>
      rw [List.map_cons, layoutFrom, List.pairwise_cons]
      refine ⟨?_, inductionHypothesis _⟩
      intro later member
      have start := le_codeStart_of_mem_layoutFrom member
      have fits := renderBlock_lines_le block
      show cursor + (renderBlock block).headerLines + (renderBlock block).codeLines
        < later.codeStart
      omega

/-! ## Where the code of a block stands -/

private theorem separator_toList : blockSeparator.toList = ['\n', '\n'] := rfl

private theorem endsLine_separator (before : List Char) :
    EndsLine (before ++ blockSeparator.toList) := by
  refine Or.inr ⟨before ++ ['\n'], ?_⟩
  rw [separator_toList, List.append_assoc]
  rfl

/-- The code of a block stands behind what was written before and its own header,
and is followed by its own footer. -/
theorem block_standsAt {before : List Char} (ends : EndsLine before) (block : CodeBlock)
    (later : List Char) :
    StandsAt (before ++ (renderBlock block).text.toList ++ later) (transformedCode block).toList
      (before.count '\n' + 1 + (renderBlock block).headerLines)
      (if hasVisibleFooter block then [] else spill '\n' later) := by
  refine ⟨before ++ (leadingLines (block.settings.getD {}).header).toList,
    (trailingLines (block.settings.getD {}).footer).toList ++ later, ?_, ?_, ?_, ?_⟩
  · rw [renderBlock_text, String.toList_append, String.toList_append]
    simp only [List.append_assoc]
  · exact ends.append (leadingLines_endsLine _)
  · rw [renderBlock_headerLines, List.count_append, newlineCount]
    omega
  · exact (spill_trailingLines block later).symm

/-- What runs on in the last code line of block `index`: nothing, unless it is the
last block, it shows no footer, and `footer`, which ends the file, does not start
on a new line. -/
def runOn (blocks : List CodeBlock) (index : Nat) (footer : List Char) : List Char :=
  if index + 1 = blocks.length ∧ ¬ (blocks[index]?).any hasVisibleFooter then spill '\n' footer
  else []

/-- **Counting meets writing.** With the text written so far as state, the place that
the layout gives to a block is the place where its code stands. -/
theorem layoutFrom_standsAt (footer : List Char) :
    ∀ (blocks : List CodeBlock) (before : List Char), EndsLine before →
      ∀ (index : Nat) (block : CodeBlock), blocks[index]? = some block →
        ∃ place, (layoutFrom (before.count '\n' + 1) (blocks.map renderBlock))[index]? = some place
          ∧ place.codeLines = lineCount (transformedCode block)
          ∧ StandsAt
              (before ++ (Text.join blockSeparator
                ((blocks.map renderBlock).map RenderedBlock.text)).toList ++ footer)
              (transformedCode block).toList place.codeStart (runOn blocks index footer)
  | [], _, _, _, _, found => by simp at found
  | [only], before, ends, index, block, found => by
      have first : index = 0 ∧ block = only := by
        cases index with
        | zero => simpa [eq_comm] using found
        | succ later => simp at found
      obtain ⟨rfl, rfl⟩ := first
      refine ⟨⟨before.count '\n' + 1 + (renderBlock block).headerLines,
        (renderBlock block).codeLines⟩, rfl, rfl, ?_⟩
      have stands := block_standsAt ends block footer
      have same : (if hasVisibleFooter block then [] else spill '\n' footer)
          = runOn [block] 0 footer := by
        by_cases visible : hasVisibleFooter block = true <;> simp [runOn, visible]
      rw [same] at stands
      exact stands
  | head :: second :: rest, before, ends, index, block, found => by
      cases index with
      | zero =>
          have isHead : head = block := by simpa using found
          subst isHead
          refine ⟨⟨before.count '\n' + 1 + (renderBlock head).headerLines,
            (renderBlock head).codeLines⟩, rfl, rfl, ?_⟩
          -- The separator starts with a line feed, so nothing runs on.
          have stands := block_standsAt ends head
            (blockSeparator.toList ++ (Text.join blockSeparator
              (((second :: rest).map renderBlock).map RenderedBlock.text)).toList ++ footer)
          have nothing : runOn (head :: second :: rest) 0 footer = [] := by simp [runOn]
          rw [nothing]
          rw [separator_toList] at stands
          simp only [List.cons_append, spill_mark, ite_self] at stands
          simpa only [List.map_cons, Text.join, String.toList_append, separator_toList,
            List.append_assoc, List.cons_append, List.nil_append] using stands
      | succ later =>
          have foundLater : (second :: rest)[later]? = some block := by simpa using found
          obtain ⟨place, placed, lines, stands⟩ :=
            layoutFrom_standsAt footer (second :: rest)
              (before ++ (renderBlock head).text.toList ++ blockSeparator.toList)
              (endsLine_separator _) later block foundLater
          refine ⟨place, ?_, lines, ?_⟩
          · have cursor :
                (before ++ (renderBlock head).text.toList ++ blockSeparator.toList).count '\n' + 1
                  = before.count '\n' + 1 + newlineCount (renderBlock head).text + 2 := by
              rw [List.count_append, List.count_append, newlineCount, separator_toList]
              simp only [List.count_cons_self, List.count_nil]
              omega
            rw [List.map_cons, layoutFrom, List.getElem?_cons_succ, ← cursor]
            exact placed
          · have same : runOn (head :: second :: rest) (later + 1) footer
                = runOn (second :: rest) later footer := by
              simp [runOn]
            rw [same]
            simpa only [List.map_cons, Text.join, String.toList_append,
              List.append_assoc] using stands

/-- The place of a block in the layout of a file is where its code stands in the text
of the file. -/
theorem layout_standsAt (config : Option Config) (blocks : List CodeBlock) {index : Nat}
    {block : CodeBlock} (found : blocks[index]? = some block) :
    ∃ place, (layout config (blocks.map renderBlock))[index]? = some place
      ∧ place.codeLines = lineCount (transformedCode block)
      ∧ StandsAt (renderFile config (blocks.map renderBlock)).toList (transformedCode block).toList
          place.codeStart (runOn blocks index (fileFooter (config.bind Config.footer)).toList) := by
  have header := leadingLines_endsLine (config.bind Config.header)
  obtain ⟨place, placed, lines, stands⟩ :=
    layoutFrom_standsAt (fileFooter (config.bind Config.footer)).toList blocks _ header index block
      found
  refine ⟨place, ?_, lines, ?_⟩
  · have cursor : (leadingLines (config.bind Config.header)).toList.count '\n' + 1
        = 1 + headerLineCount ((config.bind Config.header).getD "") := by
      rw [← newlineCount_leadingLines, newlineCount, Nat.add_comm]
    rwa [layout, ← cursor]
  · rwa [renderFile, String.toList_append, String.toList_append]

end Tangle.Generate
