import Tangle.Document.Build
import Tangle.Proofs.Directive.Admissible
import Tangle.Proofs.Document.Partition
import Tangle.Proofs.Generate.Inverse

/-!
Contract: what generation may rely on in the blocks of a parsed text.

Owns: that their settings are admissible, that their substitutions make nothing out of nothing,
and that their additional files stand beside the file of their group and not in its place.

Does **not** own: the checks themselves (`Tangle.Proofs.Directive.Admissible`).

Blocks that were not parsed have no such guarantee: a rule that searches for nothing puts its
text between all characters, and an empty suffix names the file of the group again.
-/

set_option autoImplicit false

namespace Tangle.Generate

open Tangle.Directive
open Tangle.Document

/-! ## Blocks of a parsed text -/

/-- A directive has a value only if it was closed. -/
theorem exists_body_of_decodes {α : Type} {decode : String → Except DecodeError α}
    {body : Option String} {value : α} (decodes : decodeBody decode body = .ok value) :
    ∃ text, body = some text ∧ decode text = .ok value := by
  unfold decodeBody at decodes
  split at decodes
  · cases decodes
  · next text =>
      split at decodes
      · next read =>
          obtain rfl := Except.ok.inj decodes
          exact ⟨text, rfl, read⟩
      · cases decodes

/-- A block has the settings of a directive, or none. -/
theorem settings_admissible_of_parse {text path : String} {block : CodeBlock}
    (member : block ∈ (parse text path).document.codeBlocks) :
    (block.settings.getD {}).Admissible := by
  cases isSettings : block.settings with
  | none => exact .of_bare rfl rfl
  | some settings =>
      rw [parse, build_codeBlocks, List.mem_filterMap] at member
      obtain ⟨node, isNode, isCode⟩ := member
      cases node with
      | code own =>
          obtain rfl := Option.some.inj isCode
          obtain ⟨item, _, _, decodes, _⟩ := (made_of_mem_nodesOf isNode).annotated_span isSettings
          obtain ⟨body, -, decoded⟩ := exists_body_of_decodes decodes
          exact admissible_of_decodeSettings decoded
      | text => cases isCode
      | config => cases isCode

private theorem searching_of_parse {text path : String} {block : CodeBlock}
    (member : block ∈ (parse text path).document.codeBlocks) : Searching block :=
  (settings_admissible_of_parse member).finds

private theorem mem_codeBlocks_of_mem_group {document : Document} {group : FileGroup} {block : CodeBlock}
    (grouped : group ∈ fileGroups document) (member : block ∈ group.blocks) :
    block ∈ document.codeBlocks := by
  have resolved := (exists_fileGroup_iff document group.path block).mp ⟨group, grouped, rfl, member⟩
  exact ((mem_participants_iff document block).mp (mem_participants_of_resolved resolved)).1

/-! ## Additional files -/

/-- A suffix with something in it makes a longer path. -/
theorem additionalFile_extends (groupPath : String) {extra : AdditionalFile}
    (named : extra.suffix ≠ "") :
    groupPath.toList <+: (additionalFile groupPath extra).path.toList
      ∧ (additionalFile groupPath extra).path ≠ groupPath := by
  have isPath : (additionalFile groupPath extra).path.toList
      = groupPath.toList ++ extra.suffix.toList := String.toList_append
  refine ⟨isPath ▸ List.prefix_append _ _, fun same => named ?_⟩
  rw [same] at isPath
  exact String.toList_inj.mp (List.self_eq_append_right.mp isPath)

/-- **Only admissible settings reach generation.** Whatever is decoded has no rule that searches
for nothing and no additional file without a suffix. So, in every parsed text, empty code stays
empty, and the additional files of a block have longer paths than the file that the block is
in. -/
theorem parsed_settings_admissible :
    (∀ (body : String) (settings : Settings), decodeSettings body = .ok settings →
      (∀ rule ∈ settings.replace, rule.find ≠ "")
        ∧ ∀ extra ∈ settings.additionalFiles, extra.suffix ≠ "")
    ∧ ∀ text path : String,
      (∀ block ∈ (parse text path).document.codeBlocks,
        transformedCode { block with code := "" } = "")
      ∧ ∀ group ∈ fileGroups (parse text path).document, ∀ block ∈ group.blocks,
        ∀ candidate ∈ blockCandidates group.path block,
          group.path.toList <+: candidate.file.path.toList
            ∧ candidate.file.path ≠ group.path := by
  refine ⟨?_, fun text path => ⟨?_, ?_⟩⟩
  · intro body settings decoded
    have admissible := admissible_of_decodeSettings decoded
    exact ⟨admissible.finds, admissible.suffixes⟩
  · intro block member
    have searching : Searching block := searching_of_parse member
    exact applyAll_empty searching
  · intro group grouped block member candidate asked
    have admissible := settings_admissible_of_parse (mem_codeBlocks_of_mem_group grouped member)
    obtain ⟨extra, isExtra, rfl⟩ := List.mem_map.mp asked
    exact additionalFile_extends group.path (admissible.suffixes extra isExtra)

def shapesBody : String :=
  "\nfile: a.rs\nreplace:\n- x\n- 4\n- true\n- [y]\n- [z, w]\n"
    ++ "additionalFiles:\n- suffix: .txt\n  content: c\n"

def shapesText : String :=
  "<!-- @codeblock" ++ shapesBody ++ "-->\n```rs\nx4\n```\n"

def shapesSettings : Settings :=
  { file := some "a.rs"
    replace := [.remove "x", .remove "4", .remove "true", .remove "y", .pair "z" "w"]
    additionalFiles := [⟨".txt", "c"⟩] }

def shapesDirective : DirectiveItem :=
  ⟨.block, some shapesBody, ⟨0, 114⟩⟩

def shapesFence : FenceItem :=
  ⟨"rs", "x4", [0], ⟨115, 127⟩⟩

def shapesBlock : CodeBlock :=
  codeBlock shapesText shapesFence (some (shapesDirective.span, shapesSettings))

private theorem decodeSettings_shapes : decodeSettings shapesBody = .ok shapesSettings := by
  have decoded : (decodeSettings shapesBody).toOption = some shapesSettings := by decide +kernel
  cases result : decodeSettings shapesBody with
  | error reason =>
      rw [result] at decoded
      cases decoded
  | ok settings =>
      rw [result] at decoded
      rw [Option.some.inj decoded]

private theorem parse_shapes : (parse shapesText "doc.md").document.codeBlocks = [shapesBlock] := by
  have isItems : items shapesText = [.directive shapesDirective, .fence shapesFence] := by
    decide +kernel
  have adopted : settingsFor? shapesText shapesDirective shapesFence = some shapesSettings := by
    have adjoined : (shapesDirective.kind == .block
        && adjoins shapesText shapesDirective.span shapesFence.span) = true := by decide +kernel
    rw [settingsFor?, if_pos adjoined]
    show (decodeBody decodeSettings (some shapesBody)).toOption = some shapesSettings
    rw [decodeBody, decodeSettings_shapes]
    rfl
  rw [parse, build_codeBlocks, isItems, nodesOf, adopted]
  rfl

/-- A number and a boolean are searched for as they are written, and the additional file stands
beside the file of the block. -/
theorem parsed_settings_admissible_shapes :
    decodeSettings shapesBody = .ok shapesSettings
    ∧ (∀ rule ∈ shapesSettings.replace, rule.find ≠ "")
    ∧ (parse shapesText "doc.md").document.codeBlocks = [shapesBlock]
    ∧ transformedCode { shapesBlock with code := "" } = ""
    ∧ fileGroups (parse shapesText "doc.md").document = [⟨"a.rs", shapesBlock, []⟩]
    ∧ blockCandidates "a.rs" shapesBlock = [⟨⟨"a.rs.txt", "c", []⟩, shapesBlock⟩]
    ∧ "a.rs.txt" ≠ "a.rs" := by
  obtain ⟨emptied, extended⟩ := parsed_settings_admissible.2 shapesText "doc.md"
  have isGroups : fileGroups (parse shapesText "doc.md").document = [⟨"a.rs", shapesBlock, []⟩] := by
    rw [fileGroups, resolvedBlocks, participants, Document.annotatedBlocks, parse_shapes]
    rfl
  have isAsked : blockCandidates "a.rs" shapesBlock = [⟨⟨"a.rs.txt", "c", []⟩, shapesBlock⟩] := rfl
  refine ⟨decodeSettings_shapes, (parsed_settings_admissible.1 _ _ decodeSettings_shapes).1,
    parse_shapes, ?_, isGroups, isAsked, ?_⟩
  · exact emptied shapesBlock (parse_shapes ▸ List.mem_singleton_self shapesBlock)
  · exact (extended ⟨"a.rs", shapesBlock, []⟩ (isGroups ▸ List.mem_singleton_self _)
      shapesBlock List.mem_cons_self ⟨⟨"a.rs.txt", "c", []⟩, shapesBlock⟩
      (isAsked ▸ List.mem_singleton_self _)).2

end Tangle.Generate
