import Tangle.Proofs.Generate.LeftEdge
import Tangle.Proofs.Text.Substitution

/-!
Contract: rules that stay within lines, and the generated lines they are read on.

Owns: `LineLocal` rules, that they act on each line of a code by itself, and that a content line of
a block with such rules is mapped to the generated line made from it.

Does **not** own: where the code of a block stands in its file (`Tangle.Proofs.Generate.Layout`).

## One line for one line

A position map knows offsets only: it takes the line at offset `k` of the source for the line at
offset `k` of the transformed code. Rules that search for a line feed or insert one break that. All
others keep the list of lines as a list, so the two offsets mean the same line, and the clamp at the
last generated line is never reached.
-/

set_option autoImplicit false

namespace Tangle.Directive.ReplaceRule

open Tangle.Text

/-- The rule searches for something, and neither that nor what it inserts holds a line feed. -/
def LineLocal (rule : ReplaceRule) : Prop :=
  rule.find ≠ "" ∧ '\n' ∉ rule.find.toList ∧ '\n' ∉ rule.insert.toList

instance : DecidablePred LineLocal := fun rule =>
  inferInstanceAs
    (Decidable (rule.find ≠ "" ∧ '\n' ∉ rule.find.toList ∧ '\n' ∉ rule.insert.toList))

private theorem LineLocal.splitLines_apply {rule : ReplaceRule} (lineLocal : rule.LineLocal)
    (code : String) : splitLines (rule.apply code) = (splitLines code).map rule.apply :=
  splitLines_replace lineLocal.1 lineLocal.2.1 lineLocal.2.2 code

/-- **Rules within lines act line by line**, one after another. -/
theorem splitLines_applyAll {rules : List ReplaceRule} (lineLocal : ∀ rule ∈ rules, rule.LineLocal)
    (code : String) :
    splitLines (applyAll rules code) = (splitLines code).map (applyAll rules) := by
  induction rules generalizing code with
  | nil =>
      have unchanged : applyAll [] = id := rfl
      rw [unchanged, List.map_id]
      rfl
  | cons rule later inductionHypothesis =>
      rw [List.forall_mem_cons] at lineLocal
      have inTurn : applyAll (rule :: later) = applyAll later ∘ rule.apply := rfl
      rw [inTurn, Function.comp_apply, inductionHypothesis lineLocal.2, lineLocal.1.splitLines_apply,
        List.map_map]

private theorem newlineCount_applyAll {rules : List ReplaceRule}
    (lineLocal : ∀ rule ∈ rules, rule.LineLocal) (code : String) :
    newlineCount (applyAll rules code) = newlineCount code := by
  have sameLength := congrArg List.length (splitLines_applyAll lineLocal code)
  rw [List.length_map, splitLines_length, splitLines_length] at sameLength
  exact Nat.succ.inj sameLength

end Tangle.Directive.ReplaceRule

namespace Tangle.Generate

open Tangle.Directive
open Tangle.Source
open Tangle.Document

/-! ## The generated line of a content line -/

/-- In a list without repetitions an item stands last at the last index only. -/
theorem index_last_iff {α : Type} {items : List α} (distinct : items.Nodup) {index : Nat} {item : α}
    (found : items[index]? = some item) :
    index + 1 = items.length ↔ items.getLast? = some item := by
  obtain ⟨bound, -⟩ := List.getElem?_eq_some_iff.mp found
  rw [List.getLast?_eq_getElem?, ← found]
  constructor
  · intro last
    congr 1
    omega
  · intro same
    have sameIndex := (List.getElem?_inj (by omega) distinct).mp same
    omega

/-- What follows line `k` of the code of a block on its generated line: the start of a blank file
footer, if the line ends the code of the file. -/
def lineTail (document : Document) (file : GeneratedFile) (block : CodeBlock) (k : Nat) : String :=
  if file.sourceBlocks.getLast? = some block ∧ k + 1 = Text.lineCount (transformedCode block)
    ∧ hasVisibleFooter block = false then blankFooterStart document.config? else ""

private theorem allBlank_blankFooterStart (config : Option Config) :
    Text.allBlank (blankFooterStart config) = true := by
  unfold blankFooterStart
  split
  · next footer _ =>
      split
      · next blank =>
          rw [Text.allBlank, List.all_eq_true] at blank ⊢
          intro c isIn
          rw [String.toList_ofList] at isIn
          exact blank c ((List.takeWhile_prefix _).subset isIn)
      · rfl
  · rfl

private theorem allBlank_lineTail (document : Document) (file : GeneratedFile) (block : CodeBlock)
    (k : Nat) : Text.allBlank (lineTail document file block k) = true := by
  unfold lineTail
  split
  · exact allBlank_blankFooterStart _
  · rfl

/-- The lines of placed code are lines of the file, from the place on. -/
theorem content_at_place {document : Document} {options : Options} {file : GeneratedFile}
    {place : BlockLayout} {block : CodeBlock} (distinct : DistinctSpans document)
    (kept : file ∈ (generate document options).files)
    (placed : (place, block) ∈ placedBlocks document file) {k : Nat} (inside : k < place.codeLines) :
    1 ≤ place.codeStart
    ∧ ∃ line, (Text.splitLines (transformedCode block))[k]? = some line
      ∧ (Text.splitLines file.content)[place.codeStart + k - 1]?
        = some (line ++ lineTail document file block k) := by
  have source := mem_sourceBlocks_of_placed placed
  have lines := codeLines_of_mem_placedBlocks placed
  have single := sourceBlocks_nodup distinct kept
  obtain ⟨index, found⟩ := List.mem_iff_getElem?.mp placed
  rw [placedBlocks, List.getElem?_zip_eq_some] at found
  obtain ⟨isPlace, isBlock⟩ := found
  obtain ⟨group, -, rfl⟩ := exists_group_of_mem_files kept (List.ne_nil_of_mem source)
  have positive := (place_within_lines _ _ (List.mem_of_getElem? isPlace)).1
  obtain ⟨line, isLine, inFile⟩ := line_at_place _ _ isBlock isPlace inside
  simp only [index_last_iff single isBlock, lines] at inFile
  exact ⟨positive, line, isLine, inFile⟩

/-! ## Blocks with local rules -/

/-- Code that is not emptied keeps its number of lines. -/
theorem lineCount_transformedCode {block : CodeBlock}
    (lineLocal : ∀ rule ∈ (block.settings.getD {}).replace, rule.LineLocal)
    (visible : transformedCode block ≠ "") :
    Text.lineCount (transformedCode block) = block.codeLineCount := by
  have searching : Searching block := by
    intro rule member
    exact (lineLocal rule member).1
  have code : (transformedCode block).toList ≠ [] := by simpa using visible
  have generated := (Text.lineCount_pos_iff _).mpr code
  have source : block.code.toList ≠ [] := by
    rw [← Text.lineCount_pos_iff]
    exact codeLineCount_pos searching generated
  calc Text.lineCount (transformedCode block)
      = Text.newlineCount (transformedCode block) + 1 := Text.lineCount_of_ne_nil code
    _ = Text.newlineCount block.code + 1 := by
        rw [transformedCode, ReplaceRule.newlineCount_applyAll lineLocal]
    _ = block.codeLineCount := (Text.lineCount_of_ne_nil source).symm

/-- **One line for one line.** Rules that stay within lines act on each line of a code by itself.
So a block with such rules, if they leave anything of its code, keeps its number of lines, and each
of its content lines is mapped to the line of its file that its own rules make from it; only the
blank footer of the configuration may follow, behind the last line of code in the file. -/
theorem local_rules_keep_lines (rules : List ReplaceRule)
    (lineLocal : ∀ rule ∈ rules, rule.LineLocal) :
    (∀ code, Text.splitLines (ReplaceRule.applyAll rules code)
      = (Text.splitLines code).map (ReplaceRule.applyAll rules))
    ∧ ∀ (document : Document) (options : Options), DistinctSpans document →
        DisjointContent document → ∀ file ∈ (generate document options).files,
        ∀ block ∈ file.sourceBlocks, (block.settings.getD {}).replace = rules →
        transformedCode block ≠ "" →
        Text.lineCount (transformedCode block) = block.codeLineCount
        ∧ ∀ k < block.codeLineCount, ∀ column,
          ∃ hit line, toGenerated? document (generate document options).files
              ⟨block.codeRange.start.line + k, column⟩ = some hit
            ∧ hit.path = file.path
            ∧ (Text.splitLines block.code)[k]? = some line
            ∧ 1 ≤ hit.position.line
            ∧ (Text.splitLines file.content)[hit.position.line - 1]?
              = some (ReplaceRule.applyAll rules line ++ lineTail document file block k)
            ∧ Text.allBlank (lineTail document file block k) = true := by
  refine ⟨ReplaceRule.splitLines_applyAll lineLocal, ?_⟩
  intro document options distinct disjoint file kept block source isRules visible
  subst isRules
  have sameCount := lineCount_transformedCode lineLocal visible
  refine ⟨sameCount, ?_⟩
  intro k bound column
  let p : Position := ⟨block.codeRange.start.line + k, column⟩
  have content : block.containsLine p.line = true := by
    rw [containsLine_iff]
    exact ⟨Nat.le_add_right _ _, Nat.add_lt_add_left bound _⟩
  have member := mem_codeBlocks_of_mem_sourceBlocks kept source
  have found := blockAt?_of_containsLine disjoint member content
  obtain ⟨place, placed⟩ := exists_place_of_source document source
  have lines : place.codeLines = block.codeLineCount :=
    (codeLines_of_mem_placedBlocks placed).trans sameCount
  have mapped := toGenerated?_of_placed distinct found kept placed (by omega)
  obtain ⟨positive, line, isLine, inFile⟩ := content_at_place distinct kept placed (k := k) (by omega)
  -- With as many generated lines as content lines the clamp keeps the offset.
  have isOffset : (placePosition block place p).line = place.codeStart + k := by
    simp only [placePosition, p]
    omega
  rw [transformedCode, ReplaceRule.splitLines_applyAll lineLocal, List.getElem?_map,
    Option.map_eq_some_iff] at isLine
  obtain ⟨own, isOwn, rfl⟩ := isLine
  refine ⟨_, own, mapped, rfl, isOwn, ?_, ?_, allBlank_lineTail document file block k⟩
  · rw [isOffset]
    omega
  · rw [isOffset]
    exact inFile

/-- Three lines; the first rule makes what the second removes, and the last line is emptied. -/
def maskedBlock : CodeBlock :=
  { language := "ts", code := "key = aaa\n\nX", span := ⟨40, 90⟩
    range := ⟨⟨4, 1⟩, ⟨9, 4⟩⟩, codeRange := ⟨⟨6, 1⟩, ⟨8, 2⟩⟩, indents := [0, 0, 0]
    settingsRange := some ⟨⟨4, 1⟩, ⟨4, 25⟩⟩
    settings := some
      { file := some "a.ts", header := some "// keys", replace := [.pair "aa" "X", .remove "X"] } }

/-- The masked block behind a plain fence, under a configuration that ends every file in blanks. -/
def maskedDocument : Document :=
  { sourcePath := "doc.md"
    nodes :=
      [ .config ⟨{ footer := some "  " }, ⟨0, 5⟩, default⟩
      , .code { maskedBlock with
          span := ⟨5, 40⟩, code := "X", codeRange := ⟨⟨2, 1⟩, ⟨2, 2⟩⟩, settings := none }
      , .code maskedBlock ] }

/-- The first content line is mapped to the line with one letter left; the last, of which nothing
is left, to the line that only the blanks of the configuration are on. -/
theorem local_rules_keep_lines_masked :
    (∀ rule ∈ (maskedBlock.settings.getD {}).replace, rule.LineLocal)
    ∧ Text.lineCount (transformedCode maskedBlock) = 3
    ∧ (∃ hit, toGenerated? maskedDocument (generate maskedDocument {}).files ⟨6, 9⟩ = some hit
        ∧ hit.path = "a.ts"
        ∧ (Text.splitLines "// keys\nkey = a\n\n  ")[hit.position.line - 1]? = some "key = a")
    ∧ ∃ hit, toGenerated? maskedDocument (generate maskedDocument {}).files ⟨8, 1⟩ = some hit
        ∧ hit.path = "a.ts"
        ∧ (Text.splitLines "// keys\nkey = a\n\n  ")[hit.position.line - 1]? = some "  " := by
  have lineLocal : ∀ rule ∈ (maskedBlock.settings.getD {}).replace, rule.LineLocal := by
    decide +kernel
  have distinct : DistinctSpans maskedDocument := by decide +kernel
  have disjoint : DisjointContent maskedDocument := by
    refine List.pairwise_pair.mpr ?_
    rintro line ⟨first, second⟩
    rw [containsLine_iff] at first second
    have stop : line < 2 + 1 := first.2
    have start : 6 ≤ line := second.1
    omega
  have kept : groupFile maskedDocument.config? ⟨"a.ts", maskedBlock, []⟩
      ∈ (generate maskedDocument {}).files := by decide +kernel
  have text : (groupFile maskedDocument.config? ⟨"a.ts", maskedBlock, []⟩).content
      = "// keys\nkey = a\n\n  " := by decide +kernel
  obtain ⟨sameCount, mapped⟩ := (local_rules_keep_lines _ lineLocal).2 maskedDocument {} distinct
    disjoint _ kept maskedBlock List.mem_cons_self rfl (by decide +kernel)
  rw [text] at mapped
  refine ⟨lineLocal, sameCount, ?_, ?_⟩
  · obtain ⟨hit, line, isHit, isPath, isLine, -, inFile, -⟩ := mapped 0 (by decide +kernel) 9
    obtain rfl : line = "key = aaa" := Option.some.inj (isLine.symm.trans (by decide +kernel))
    exact ⟨hit, isHit, isPath, inFile.trans (by decide +kernel)⟩
  · obtain ⟨hit, line, isHit, isPath, isLine, -, inFile, -⟩ := mapped 2 (by decide +kernel) 1
    obtain rfl : line = "X" := Option.some.inj (isLine.symm.trans (by decide +kernel))
    exact ⟨hit, isHit, isPath, inFile.trans (by decide +kernel)⟩

end Tangle.Generate
