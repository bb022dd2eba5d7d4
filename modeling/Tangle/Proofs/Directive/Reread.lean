import Tangle.Proofs.Directive.Bodies
import Tangle.Proofs.Directive.Layout
import Tangle.Proofs.Directive.Trees

/-!
Contract: what is read back from a directive body that was written.

Owns: the values that come back, those whose texts are legible, and settings that do not,
because a line of blanks is emptied before the body is read as YAML.

Does **not** own: how bodies are written or read (`Tangle.Directive.Encode`,
`Tangle.Directive.Decode`).
-/

set_option autoImplicit false

namespace Tangle.Directive

open Tangle.Yaml
open Write (Tree)

/-! ## Texts -/

def ReplaceRule.texts : ReplaceRule → List String
  | pair find insert => [find, insert]
  | remove find => [find]

def Settings.texts (settings : Settings) : List String :=
  settings.file.toList ++ settings.header.toList ++ settings.footer.toList
    ++ settings.replace.flatMap ReplaceRule.texts
    ++ settings.additionalFiles.flatMap fun file => [file.suffix, file.content]

def Config.texts (config : Config) : List String :=
  config.outDir.toList ++ config.header.toList ++ config.footer.toList

theorem ReplaceRule.legible {rule : ReplaceRule} (legible : ∀ text ∈ rule.texts, Legible text) :
    LegibleTree rule.tree := by
  cases rule with
  | pair find insert =>
      obtain ⟨first, second⟩ := List.forall_mem_cons.mp legible
      refine .list (List.forall_mem_cons.mpr ⟨.text first, List.forall_mem_singleton.mpr (.text ?_)⟩)
      exact second insert (List.mem_singleton_self _)
  | remove find => exact .text (legible find (List.mem_singleton_self _))

theorem AdditionalFile.legible {file : AdditionalFile} (suffix : Legible file.suffix)
    (content : Legible file.content) : LegibleTree file.tree := by
  refine .record (List.forall_mem_cons.mpr ⟨.text suffix, ?_⟩)
  exact List.forall_mem_singleton.mpr (.text content)

private theorem legible_fieldsTree {fields : List (String × Tree)}
    (each : ∀ field ∈ fields, LegibleTree field.2) : LegibleTree (fieldsTree fields) := by
  refine .record ?_
  rw [fieldsTree_zip]
  exact each

theorem Settings.legible {settings : Settings} (legible : ∀ text ∈ settings.texts, Legible text) :
    LegibleTree settings.tree := by
  simp only [Settings.texts, List.forall_mem_append] at legible
  obtain ⟨⟨⟨⟨file, header⟩, footer⟩, rules⟩, files⟩ := legible
  refine legible_fieldsTree fun field isIn => ?_
  rcases Settings.mem_fields isIn with ⟨text, isText, rfl⟩ | ⟨text, isText, rfl⟩ | ⟨text, isText, rfl⟩
    | ⟨_, rfl⟩ | ⟨_, rfl⟩ | ⟨_, rfl⟩
  · exact .text (file text (by simp [isText]))
  · exact .text (header text (by simp [isText]))
  · exact .text (footer text (by simp [isText]))
  · exact .boolean true
  · refine .list (List.forall_mem_map.mpr fun rule isRule => ReplaceRule.legible fun text isText => ?_)
    exact rules text (List.mem_flatMap.mpr ⟨rule, isRule, isText⟩)
  · refine .list (List.forall_mem_map.mpr fun file isFile => ?_)
    have each := fun text isText => files text (List.mem_flatMap.mpr ⟨file, isFile, isText⟩)
    exact AdditionalFile.legible (each _ (by simp)) (each _ (by simp))

theorem Config.legible {config : Config} (legible : ∀ text ∈ config.texts, Legible text) :
    LegibleTree config.tree := by
  simp only [Config.texts, List.forall_mem_append] at legible
  obtain ⟨⟨outDir, header⟩, footer⟩ := legible
  refine legible_fieldsTree fun field isIn => ?_
  rcases Config.mem_fields isIn with ⟨text, isText, rfl⟩ | ⟨text, isText, rfl⟩ | ⟨text, isText, rfl⟩
  · exact .text (outDir text (by simp [isText]))
  · exact .text (header text (by simp [isText]))
  · exact .text (footer text (by simp [isText]))

/-! ## Values that come back -/

/-- A record that is written has a colon. -/
theorem colon_mem_document {fields : List (String × Tree)} (filled : fields ≠ []) :
    ':' ∈ Write.document (fieldsTree fields) := by
  obtain ⟨field, more, rfl⟩ := List.exists_cons_of_ne_nil filled
  rw [fieldsTree, List.map_cons, List.map_cons, Write.document, Write.node, Write.recordFields]
  simp

theorem decodeSettings_encode {settings : Settings}
    (finds : ∀ rule ∈ settings.replace, rule.find ≠ "")
    (suffixes : ∀ file ∈ settings.additionalFiles, file.suffix ≠ "")
    (legible : ∀ text ∈ settings.texts, Legible text) :
    decodeSettings settings.encode = .ok settings := by
  rcases settings.encode_cases with ⟨rfl, isEncoded⟩ | ⟨file, bare, rfl, isEncoded⟩
    | ⟨other, isEncoded⟩
  · rw [isEncoded]
    rfl
  · have isTrimmed : Text.trim (Settings.forFile file).encode = file := by
      rw [isEncoded, Text.trim_space_append (isBareToken_unblank bare)]
    have filled : file.isEmpty = false := by
      refine Bool.eq_false_iff.mpr fun isEmpty => ?_
      rw [String.isEmpty_iff.mp isEmpty] at bare
      exact absurd bare (by decide)
    rw [decodeSettings_line (Or.inr (by rwa [isTrimmed])), isTrimmed, filled]
    rfl
  · have colon : ':' ∈ Write.document settings.tree :=
      colon_mem_document (Settings.fields_filled other)
    have isDedented : dedent (Write.document settings.tree) = Write.document settings.tree :=
      dedent_document (Settings.proper other) (Settings.legible legible)
    have filled : ∀ rule ∈ settings.replace, rule.find.isEmpty = false := fun rule isIn =>
      Bool.eq_false_iff.mpr fun isEmpty => finds rule isIn (String.isEmpty_iff.mp isEmpty)
    have suffixed : emptySuffix? settings = none := by
      rw [emptySuffix?, List.findIdx?_eq_none_iff]
      exact fun file isIn =>
        Bool.eq_false_iff.mpr fun isEmpty => suffixes file isIn (String.isEmpty_iff.mp isEmpty)
    rw [isEncoded]
    refine decodeSettings_yamlBody colon ?_ suffixed
    rw [isDedented]
    exact decodeText_settings other filled

theorem decodeConfig_encode {config : Config} (legible : ∀ text ∈ config.texts, Legible text) :
    decodeConfig config.encode = .ok config := by
  rw [Config.encode]
  split
  · next isDefault =>
      rw [isDefault]
      rfl
  · next other =>
      have colon : ':' ∈ Write.document config.tree :=
        colon_mem_document (Config.fields_filled other)
      have isDedented : dedent (Write.document config.tree) = Write.document config.tree :=
        dedent_document (Config.proper other) (Config.legible legible)
      refine decodeConfig_yamlBody colon ?_
      rw [isDedented]
      exact decodeText_config other

/-- **Reading undoes writing** for settings without empty searches and suffixes, and for every
configuration, as long as their texts are legible. -/
theorem decode_encode_of_legible (settings : Settings) (config : Config) :
    ((∀ rule ∈ settings.replace, rule.find ≠ "") →
      (∀ file ∈ settings.additionalFiles, file.suffix ≠ "") →
      (∀ text ∈ settings.texts, Legible text) →
      decodeSettings settings.encode = .ok settings)
    ∧ ((∀ text ∈ config.texts, Legible text) → decodeConfig config.encode = .ok config) := by
  constructor
  · intro finds suffixes legible
    exact decodeSettings_encode finds suffixes legible
  · intro legible
    exact decodeConfig_encode legible

/-- Settings in every style: a plain text, a literal with an empty line, a word that needs
quotes, and one that needs escapes. -/
def mixedStyles : Settings :=
  { file := some "src/lib.rs"
    header := some "// a\n\n  b\n"
    replace := [.pair "true" "tab\there", .remove "#"]
    additionalFiles := [⟨".txt", "it's"⟩] }

theorem decode_encode_mixedStyles :
    (∀ text ∈ mixedStyles.texts, Legible text)
      ∧ Write.style "// a\n\n  b\n" = .literal
      ∧ decodeSettings mixedStyles.encode = .ok mixedStyles := by
  have legible : ∀ text ∈ mixedStyles.texts, Legible text := by decide +kernel
  have finds : ∀ rule ∈ mixedStyles.replace, rule.find ≠ "" := by decide
  have suffixes : ∀ file ∈ mixedStyles.additionalFiles, file.suffix ≠ "" := by decide
  exact ⟨legible, by decide +kernel, (decode_encode_of_legible mixedStyles {}).1 finds suffixes legible⟩

/-! ## Values that do not -/

/-- Settings whose header has a line of nothing but an ideographic space. -/
def wideBlankHeader : Settings :=
  { header := some "a\n\u3000\nb\n" }

/-- The header is written in literal style, where the removal of indentation takes the
ideographic space for indentation of an empty line. -/
theorem reread_empties_blank_line :
    (decodeSettings wideBlankHeader.encode).toOption = some { header := some "a\n\nb\n" }
      ∧ decodeSettings wideBlankHeader.encode ≠ .ok wideBlankHeader := by
  have reread :
      (decodeSettings wideBlankHeader.encode).toOption = some { header := some "a\n\nb\n" } := by
    decide +kernel
  refine ⟨reread, fun same => ?_⟩
  rw [same] at reread
  exact absurd reread (by decide)

end Tangle.Directive
