import Mathlib.Data.List.Pairwise
import Tangle.Document.Build
import Tangle.Generate.Mapping
import Tangle.Proofs.Generate.Files
import Tangle.Proofs.Generate.Layout

/-!
Contract: positions go to the generated files and come back.

Owns: what a position map finds in the files of a generation, the round trip of a
source position, and the agreement of the layout with the text and with the map
back.

Does **not** own: positions through several stages (`Tangle.Proofs.Extraction.RoundTrip`).

## What decides a look-up

The maps search three times: a block by its line, a file by the span of a block or
by its path, and a place by its line. Each search stops at the first hit, so each
needs an argument that there is only one: spans are distinct by assumption, paths
because a generation keeps the first claimant, places because the layout leaves a
line between two blocks.
-/

set_option autoImplicit false

namespace Tangle.Generate

open Tangle.Directive
open Tangle.Source
open Tangle.Document

/-! ## Places within one file -/

theorem fileLayout_length (document : Document) (file : GeneratedFile) :
    (fileLayout document file).length = file.sourceBlocks.length := by
  rw [fileLayout, layout_length, List.length_map]

def placedBlocks (document : Document) (file : GeneratedFile) : List (BlockLayout × CodeBlock) :=
  (fileLayout document file).zip file.sourceBlocks

private theorem placedBlocks_places (document : Document) (file : GeneratedFile) :
    (placedBlocks document file).map Prod.fst = fileLayout document file :=
  List.map_fst_zip (Nat.le_of_eq (fileLayout_length document file))

theorem placedBlocks_blocks (document : Document) (file : GeneratedFile) :
    (placedBlocks document file).map Prod.snd = file.sourceBlocks :=
  List.map_snd_zip (Nat.le_of_eq (fileLayout_length document file).symm)

theorem codeLines_of_mem_placedBlocks {document : Document} {file : GeneratedFile}
    {place : BlockLayout} {block : CodeBlock}
    (placed : (place, block) ∈ placedBlocks document file) :
    place.codeLines = Text.lineCount (transformedCode block) := by
  obtain ⟨index, found⟩ := List.mem_iff_getElem?.mp placed
  rw [placedBlocks, List.getElem?_zip_eq_some] at found
  obtain ⟨placeFound, blockFound⟩ := found
  obtain ⟨standing, standingFound, lines, -⟩ := layout_standsAt document.config? _ blockFound
  rw [fileLayout, standingFound, Option.some.injEq] at placeFound
  subst placeFound
  exact lines

theorem BlockLayout.containsLine_iff (place : BlockLayout) (line : Nat) :
    place.containsLine line = true
      ↔ place.codeStart ≤ line ∧ line < place.codeStart + place.codeLines := by
  simp only [BlockLayout.containsLine, Bool.and_eq_true, decide_eq_true_eq]

/-- **One block per line.** A generated line belongs to the code of one block only. -/
theorem placedBlocks_unique {document : Document} {file : GeneratedFile} {line : Nat}
    {first second : BlockLayout × CodeBlock}
    (firstPlaced : first ∈ placedBlocks document file)
    (secondPlaced : second ∈ placedBlocks document file)
    (firstHolds : first.1.containsLine line = true)
    (secondHolds : second.1.containsLine line = true) : first = second := by
  have apart : ((placedBlocks document file).map Prod.fst).Pairwise fun earlier later =>
      earlier.codeStart + earlier.codeLines < later.codeStart := by
    rw [placedBlocks_places]
    exact layoutFrom_apart _ _
  let agree (left right : BlockLayout × CodeBlock) : Prop :=
    left.1.containsLine line = true → right.1.containsLine line = true → left = right
  have symmetric : Std.Symm agree :=
    ⟨fun left right agreed rightHolds leftHolds => (agreed leftHolds rightHolds).symm⟩
  have pairwise : (placedBlocks document file).Pairwise agree := by
    refine (List.pairwise_map.mp apart).imp ?_
    intro earlier later gap earlierHolds laterHolds
    rw [BlockLayout.containsLine_iff] at earlierHolds laterHolds
    omega
  exact pairwise.forall_of_forall (fun _ _ _ _ => rfl) firstPlaced secondPlaced firstHolds
    secondHolds

/-! ## From a generated position back to the source -/

section Back

variable {document : Document} {options : Options} {file : GeneratedFile}

/-- A path leads to the one file that has it. -/
theorem toSource?_of_mem_files (member : file ∈ (generate document options).files) (p : Position) :
    toSource? document (generate document options).files file.path p
      = ((placedBlocks document file).find? fun pair => pair.1.containsLine p.line).map
          fun pair => sourcePosition pair.2 pair.1 p := by
  have samePath : ∀ other ∈ (generate document options).files, other.path = file.path →
      other = file := fun other otherMember same =>
    List.inj_on_of_nodup_map (generate_paths_nodup document options) otherMember member same
  by_cases sourced : file.sourceBlocks = []
  · -- An additional file is skipped, and it has no places either.
    have noFile : (generate document options).files.find?
        (fun other => other.path == file.path && !other.sourceBlocks.isEmpty) = none := by
      rw [List.find?_eq_none]
      intro other otherMember hit
      rw [Bool.and_eq_true, beq_iff_eq] at hit
      rw [samePath other otherMember hit.1, sourced] at hit
      exact absurd hit.2 (by decide)
    rw [toSource?, noFile, placedBlocks, sourced, List.zip_nil_right]
    rfl
  · have found : (generate document options).files.find?
        (fun other => other.path == file.path && !other.sourceBlocks.isEmpty) = some file := by
      refine find?_eq_some_of_unique member (by simp [sourced]) ?_
      intro other otherMember hit
      rw [Bool.and_eq_true, beq_iff_eq] at hit
      exact samePath other otherMember hit.1
    rw [toSource?, found, Option.bind_eq_bind, Option.bind_some, ← placedBlocks]
    cases (placedBlocks document file).find? fun pair => pair.1.containsLine p.line <;> rfl

private theorem toSource?_isSome_iff (member : file ∈ (generate document options).files) (p : Position) :
    (toSource? document (generate document options).files file.path p).isSome = true
      ↔ ∃ place ∈ fileLayout document file, place.containsLine p.line = true := by
  rw [toSource?_of_mem_files member, Option.isSome_map, List.find?_isSome,
    ← placedBlocks_places document file]
  constructor
  · rintro ⟨pair, placed, holds⟩
    exact ⟨pair.1, List.mem_map_of_mem placed, holds⟩
  · rintro ⟨place, placed, holds⟩
    obtain ⟨pair, paired, rfl⟩ := List.mem_map.mp placed
    exact ⟨pair, paired, holds⟩

private theorem toSource?_of_placed (member : file ∈ (generate document options).files)
    {place : BlockLayout} {block : CodeBlock}
    (placed : (place, block) ∈ placedBlocks document file) {p : Position}
    (holds : place.containsLine p.line = true) :
    toSource? document (generate document options).files file.path p
      = some (sourcePosition block place p) := by
  have found : (placedBlocks document file).find? (fun pair => pair.1.containsLine p.line)
      = some (place, block) :=
    find?_eq_some_of_unique placed holds fun other otherPlaced otherHolds =>
      placedBlocks_unique otherPlaced placed otherHolds holds
  rw [toSource?_of_mem_files member, found]
  rfl

end Back

/-! ## From the source to a generated position -/

section Forth

variable {document : Document} {options : Options} {block : CodeBlock}

/-- Spans tell the blocks of a document apart. -/
def DistinctSpans (document : Document) : Prop :=
  (document.codeBlocks.map CodeBlock.span).Nodup

instance : DecidablePred DistinctSpans := fun document =>
  inferInstanceAs (Decidable (document.codeBlocks.map CodeBlock.span).Nodup)

private theorem eq_of_span_eq (distinct : DistinctSpans document) {other : CodeBlock}
    (member : block ∈ document.codeBlocks) (otherMember : other ∈ document.codeBlocks)
    (same : other.span = block.span) : other = block :=
  List.inj_on_of_nodup_map distinct otherMember member same

/-- The place found for a block is one that the block has in a kept file. -/
theorem placed_of_placeOf? (distinct : DistinctSpans document)
    (member : block ∈ document.codeBlocks) {path : String} {place : BlockLayout}
    (found : placeOf? document (generate document options).files block = some (path, place)) :
    ∃ file ∈ (generate document options).files,
      file.path = path ∧ (place, block) ∈ placedBlocks document file := by
  obtain ⟨file, kept, hit⟩ := List.exists_of_findSome?_eq_some found
  obtain ⟨inFile, hitInFile, samePath⟩ := Option.map_eq_some_iff.mp hit
  obtain ⟨rfl, rfl⟩ := Prod.mk.injEq .. ▸ samePath
  obtain ⟨⟨candidatePlace, candidate⟩, placed, sameSpan⟩ :=
    List.exists_of_findSome?_eq_some hitInFile
  dsimp only at sameSpan
  split at sameSpan
  · next same =>
      obtain rfl : candidatePlace = inFile := Option.some.inj sameSpan
      have source : candidate ∈ file.sourceBlocks := by
        rw [← placedBlocks_blocks document file]
        exact List.mem_map_of_mem (f := Prod.snd) placed
      have isBlock := eq_of_span_eq distinct member
        (mem_codeBlocks_of_mem_sourceBlocks kept source) same
      exact ⟨file, kept, rfl, isBlock ▸ placed⟩
  · exact absurd sameSpan (by simp)

/-- A block has a place once some file is made from it. -/
theorem placeOf?_isSome_of_source {files : List GeneratedFile} {file : GeneratedFile}
    (kept : file ∈ files) (source : block ∈ file.sourceBlocks) :
    (placeOf? document files block).isSome = true := by
  rw [← placedBlocks_blocks document file] at source
  obtain ⟨pair, placed, isBlock⟩ := List.mem_map.mp source
  rw [placeOf?, List.findSome?_isSome_iff]
  refine ⟨file, kept, ?_⟩
  rw [Option.isSome_map, placeInFile?, List.findSome?_isSome_iff]
  refine ⟨pair, placed, ?_⟩
  simp [isBlock]

theorem mem_codeBlocks_of_blockAt? {p : Position} (found : document.blockAt? p = some block) :
    block ∈ document.codeBlocks :=
  List.mem_of_find?_eq_some found

theorem containsLine_of_blockAt? {p : Position} (found : document.blockAt? p = some block) :
    block.codeRange.start.line ≤ p.line
      ∧ p.line < block.codeRange.start.line + block.codeLineCount := by
  have holds := List.find?_some found
  simpa [CodeBlock.containsLine] using holds

/-- **What a hit is made of.** The block at the position, a kept file with a place for
it, and code that is left after substitution. -/
theorem placed_of_toGenerated? (distinct : DistinctSpans document) {p : Position}
    (found : document.blockAt? p = some block) {hit : GeneratedPosition}
    (mapped : toGenerated? document (generate document options).files p = some hit) :
    ∃ file ∈ (generate document options).files, ∃ place,
      (place, block) ∈ placedBlocks document file ∧ 0 < place.codeLines
        ∧ hit = ⟨file.path, placePosition block place p⟩ := by
  simp only [toGenerated?, found, Option.bind_eq_bind, Option.bind_some] at mapped
  obtain ⟨⟨path, place⟩, placeFound, rest⟩ := Option.bind_eq_some_iff.mp mapped
  obtain ⟨file, kept, rfl, placed⟩ :=
    placed_of_placeOf? distinct (mem_codeBlocks_of_blockAt? found) placeFound
  dsimp only at rest
  split at rest
  · exact absurd rest (by simp)
  · next someLines =>
      exact ⟨file, kept, place, placed, Nat.pos_of_ne_zero someLines,
        (Option.some.inj rest).symm⟩

/-- A block with code that some kept file is made from gives a hit. -/
theorem toGenerated?_isSome_of_source (distinct : DistinctSpans document) {p : Position}
    (found : document.blockAt? p = some block) {file : GeneratedFile}
    (kept : file ∈ (generate document options).files) (source : block ∈ file.sourceBlocks)
    (code : (transformedCode block).toList ≠ []) :
    (toGenerated? document (generate document options).files p).isSome = true := by
  have somePlace : (placeOf? document (generate document options).files block).isSome = true :=
    placeOf?_isSome_of_source kept source
  obtain ⟨⟨path, place⟩, placeFound⟩ := Option.isSome_iff_exists.mp somePlace
  obtain ⟨holder, -, -, placed⟩ :=
    placed_of_placeOf? distinct (mem_codeBlocks_of_blockAt? found) placeFound
  have someLines : place.codeLines ≠ 0 := by
    rw [codeLines_of_mem_placedBlocks placed]
    exact Nat.ne_of_gt ((Text.lineCount_pos_iff _).mpr code)
  simp [toGenerated?, found, placeFound, someLines]

end Forth

/-! ## There and back -/

/-- Where a position on a code line of `block` is after both maps: on the last line
that substitution left, if it was behind it, and not inside the indentation. -/
def returned (block : CodeBlock) (p : Position) : Position :=
  let line := block.codeRange.start.line
    + min (p.line - block.codeRange.start.line) (Text.lineCount (transformedCode block) - 1)
  ⟨line, addColumns (max 1 (p.column - block.indentAt p.line)) (block.indentAt line)⟩

theorem addColumns_of_lt {column columns : Nat} (fits : column + columns < columnBound) :
    addColumns column columns = column + columns :=
  Nat.mod_eq_of_lt fits

/-- A position behind the indentation, on a line that substitution left, stays. -/
theorem returned_eq_self {block : CodeBlock} {p : Position}
    (start : block.codeRange.start.line ≤ p.line)
    (line : p.line - block.codeRange.start.line < Text.lineCount (transformedCode block))
    (column : block.indentAt p.line < p.column) (fits : p.column < columnBound) :
    returned block p = p := by
  have sameLine : block.codeRange.start.line
      + min (p.line - block.codeRange.start.line) (Text.lineCount (transformedCode block) - 1)
      = p.line := by
    omega
  have sameSum : max 1 (p.column - block.indentAt p.line) + block.indentAt p.line = p.column := by
    omega
  have sameColumn : addColumns (max 1 (p.column - block.indentAt p.line)) (block.indentAt p.line)
      = p.column := by
    rw [addColumns_of_lt (sameSum.trans_lt fits), sameSum]
  simp only [returned, sameLine, sameColumn]

/-- **The round trip.** A hit comes back to the block it left. -/
theorem toSource?_toGenerated? {document : Document} {options : Options}
    (distinct : DistinctSpans document) {block : CodeBlock} {p : Position}
    (found : document.blockAt? p = some block) {hit : GeneratedPosition}
    (mapped : toGenerated? document (generate document options).files p = some hit) :
    toSource? document (generate document options).files hit.path hit.position
      = some (returned block p) := by
  obtain ⟨file, kept, place, placed, someLines, rfl⟩ :=
    placed_of_toGenerated? distinct found mapped
  have lines := codeLines_of_mem_placedBlocks placed
  obtain ⟨start, stop⟩ := containsLine_of_blockAt? found
  have inside : place.containsLine (placePosition block place p).line = true := by
    rw [BlockLayout.containsLine_iff]
    simp only [placePosition]
    omega
  rw [toSource?_of_placed kept placed inside]
  -- The second clamp does nothing: the position lay on a source line of the block.
  have sameLine : block.codeRange.start.line
        + min (place.codeStart
              + min (p.line - block.codeRange.start.line) (place.codeLines - 1) - place.codeStart)
            (block.codeLineCount - 1)
      = block.codeRange.start.line
        + min (p.line - block.codeRange.start.line)
            (Text.lineCount (transformedCode block) - 1) := by
    omega
  simp only [sourcePosition, placePosition, returned, sameLine]

/-- An indented block of three lines, the first of which a substitution removes. -/
def shortenedBlock : CodeBlock :=
  { language := "ts", code := "// gone\nlet a = 1;\nlet b = 2;", span := ⟨12, 96⟩
    range := ⟨⟨3, 1⟩, ⟨9, 6⟩⟩, codeRange := ⟨⟨6, 1⟩, ⟨8, 11⟩⟩, indents := [2, 2, 2]
    settingsRange := some ⟨⟨3, 1⟩, ⟨4, 4⟩⟩
    settings := some { file := some "a.ts", header := some "// begin\n", replace := [.remove "// gone\n"] } }

/-- The shortened block behind a plain fence, under a configuration that ends every
file with a blank line. -/
def shortenedDocument : Document :=
  { sourcePath := "doc.md"
    nodes :=
      [ .config ⟨{ header := some "// top\n// of file", footer := some "  \n" }, ⟨0, 5⟩, default⟩
      , .code { shortenedBlock with span := ⟨5, 12⟩, code := "", settings := none }
      , .code shortenedBlock ] }

/-- The part of a blank file footer that runs on in the last line of the file's code. -/
def blankFooterStart (config : Option Config) : String :=
  match config.bind Config.footer with
  | some footer =>
      if Text.allBlank footer then String.ofList (Text.spill '\n' footer.toList) else ""
  | none => ""

private theorem spill_fileFooter (config : Option Config) :
    Text.spill '\n' (fileFooter (config.bind Config.footer)).toList
      = (blankFooterStart config).toList := by
  unfold fileFooter blankFooterStart
  cases config.bind Config.footer with
  | none => rfl
  | some footer =>
      by_cases blank : Text.allBlank footer = true
      · simp [blank]
      · simp [blank, String.toList_append, Text.spill]

/-- A line of code is found in the text of the file where the layout says. -/
theorem line_at_place (config : Option Config) (blocks : List CodeBlock) {index : Nat}
    {block : CodeBlock} (found : blocks[index]? = some block) {place : BlockLayout}
    (placed : (layout config (blocks.map renderBlock))[index]? = some place) {offset : Nat}
    (inside : offset < place.codeLines) :
    ∃ line, (Text.splitLines (transformedCode block))[offset]? = some line
      ∧ (Text.splitLines (renderFile config (blocks.map renderBlock)))[place.codeStart + offset - 1]?
          = some (line ++
              if index + 1 = blocks.length ∧ offset + 1 = place.codeLines
                ∧ hasVisibleFooter block = false then blankFooterStart config else "") := by
  obtain ⟨standing, isStanding, lines, stands⟩ := layout_standsAt config blocks found
  obtain rfl : standing = place := Option.some.inj (isStanding.symm.trans placed)
  have code : (transformedCode block).toList ≠ [] :=
    (Text.lineCount_pos_iff _).mp (by omega)
  rw [lines, Text.lineCount_of_ne_nil code] at inside
  have bound : offset ≤ (transformedCode block).toList.count '\n' := Nat.le_of_lt_succ inside
  have inLines : offset < (Text.splitChars '\n' (transformedCode block).toList).length := by
    rw [Text.splitChars_length]
    exact inside
  refine ⟨String.ofList (Text.splitChars '\n' (transformedCode block).toList)[offset], ?_, ?_⟩
  · rw [Text.splitLines, List.getElem?_map, List.getElem?_eq_getElem inLines]
    rfl
  · rw [Text.splitLines, List.getElem?_map, stands.getElem? bound,
      List.getElem?_eq_getElem inLines, Option.map_some, Option.map_some, Option.some.injEq,
      runOn, spill_fileFooter, found, lines, Text.lineCount_of_ne_nil code, Text.newlineCount]
    apply String.toList_inj.mp
    by_cases lastLine : offset = (transformedCode block).toList.count '\n'
    · by_cases exception : index + 1 = blocks.length ∧ hasVisibleFooter block = false
      · simp [lastLine, exception]
      · simp only [lastLine, if_true, Option.any_some, Bool.not_eq_true, if_neg exception,
          true_and]
        simp
    · simp [lastLine]

/-- A placed interval lies within the lines of the file. -/
theorem place_within_lines (config : Option Config) (blocks : List CodeBlock)
    {place : BlockLayout} (placed : place ∈ layout config (blocks.map renderBlock)) :
    1 ≤ place.codeStart
      ∧ place.codeStart + place.codeLines
        ≤ (Text.splitLines (renderFile config (blocks.map renderBlock))).length + 1 := by
  obtain ⟨index, isPlace⟩ := List.mem_iff_getElem?.mp placed
  have bound : index < blocks.length := by
    have inLayout := (List.getElem?_eq_some_iff.mp isPlace).1
    rwa [layout_length, List.length_map] at inLayout
  obtain ⟨standing, isStanding, lines, stands⟩ :=
    layout_standsAt config blocks (List.getElem?_eq_getElem bound)
  obtain rfl : standing = place := Option.some.inj (isStanding.symm.trans isPlace)
  obtain ⟨positive, within⟩ := stands.within
  have fits := Text.lineCount_le (transformedCode blocks[index])
  rw [Text.newlineCount] at fits
  rw [lines, Text.splitLines, List.length_map]
  omega

/-- **The layout agrees with the text.** Every line of code stands in the file on the
line that the layout gives it; only the start of a blank file footer may follow the
very last one. The intervals leave a line between them and lie within the file, and
the lines that have a source position are exactly those inside an interval. -/
theorem layout_agrees_with_text (config : Option Config) (blocks : List CodeBlock) :
    (layout config (blocks.map renderBlock)).length = blocks.length
    ∧ (∀ index block place, blocks[index]? = some block →
        (layout config (blocks.map renderBlock))[index]? = some place →
        place.codeLines = Text.lineCount (transformedCode block)
        ∧ ∀ offset < place.codeLines,
          ∃ line, (Text.splitLines (transformedCode block))[offset]? = some line
            ∧ (Text.splitLines (renderFile config (blocks.map renderBlock)))[
                  place.codeStart + offset - 1]?
                = some (line ++
                    if index + 1 = blocks.length ∧ offset + 1 = place.codeLines
                      ∧ hasVisibleFooter block = false then blankFooterStart config else ""))
    ∧ (layout config (blocks.map renderBlock)).Pairwise (fun earlier later =>
        earlier.codeStart + earlier.codeLines < later.codeStart)
    ∧ (∀ place ∈ layout config (blocks.map renderBlock), 1 ≤ place.codeStart
        ∧ place.codeStart + place.codeLines
          ≤ (Text.splitLines (renderFile config (blocks.map renderBlock))).length + 1)
    ∧ ∀ (document : Document) (options : Options) (file : GeneratedFile) (p : Position),
        document.config? = config → file ∈ (generate document options).files →
        file.sourceBlocks = blocks →
        (blocks ≠ [] → file.content = renderFile config (blocks.map renderBlock))
        ∧ ((toSource? document (generate document options).files file.path p).isSome = true
          ↔ ∃ place ∈ layout config (blocks.map renderBlock),
              place.containsLine p.line = true) := by
  refine ⟨?_, ?_, layoutFrom_apart _ _, ?_, ?_⟩
  · rw [layout_length, List.length_map]
  · intro index block place found placed
    obtain ⟨standing, isStanding, lines, -⟩ := layout_standsAt config blocks found
    obtain rfl : standing = place := Option.some.inj (isStanding.symm.trans placed)
    exact ⟨lines, fun offset inside => line_at_place config blocks found placed inside⟩
  · intro place placed
    exact place_within_lines config blocks placed
  · rintro document options file p rfl member rfl
    refine ⟨?_, toSource?_isSome_iff member p⟩
    intro sourced
    obtain ⟨group, -, rfl⟩ := exists_group_of_mem_files member sourced
    rfl

/-- The blank footer of the configuration runs on in the last code line, and the lines
around the code have no source position. -/
theorem layout_agrees_with_text_shortened :
    (∃ line, (Text.splitLines (transformedCode shortenedBlock))[1]? = some line
      ∧ (Text.splitLines (renderFile shortenedDocument.config? [renderBlock shortenedBlock]))[4]?
        = some (line ++ "  "))
    ∧ ∀ p, ((toSource? shortenedDocument (generate shortenedDocument {}).files "a.ts" p).isSome = true
        ↔ p.line = 4 ∨ p.line = 5) := by
  obtain ⟨-, lines, -, -, back⟩ :=
    layout_agrees_with_text shortenedDocument.config? [shortenedBlock]
  refine ⟨?_, ?_⟩
  · exact (lines 0 shortenedBlock ⟨4, 2⟩ rfl (by decide +kernel)).2 1 (by decide)
  · intro p
    have places : layout shortenedDocument.config? ([shortenedBlock].map renderBlock) = [⟨4, 2⟩] := by
      decide +kernel
    have mapped := (back shortenedDocument {}
      (groupFile shortenedDocument.config? ⟨"a.ts", shortenedBlock, []⟩) p rfl (by decide +kernel)
      rfl).2
    rw [places] at mapped
    refine mapped.trans ?_
    rw [List.exists_mem_cons_iff]
    simp only [BlockLayout.containsLine_iff, List.not_mem_nil, false_and, exists_false, or_false]
    omega

end Tangle.Generate
