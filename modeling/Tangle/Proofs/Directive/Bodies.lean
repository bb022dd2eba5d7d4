import Tangle.Directive.Encode
import Tangle.Proofs.Text.Lines

/-!
Contract: the forms in which the body of a directive is written, and how each is read.

Owns: which form a value gets, and what the decoders do with a body of each form.

Does **not** own: the YAML of a body (`Tangle.Proofs.Directive.Trees`).
-/

set_option autoImplicit false

namespace Tangle.Directive

open Tangle.Yaml

/-! ## Forms -/

theorem isBareToken_unblank {text : String} (bare : isBareToken text = true) :
    ∀ c ∈ text.toList, Text.isBlank c = false := by
  simp only [isBareToken, Bool.and_eq_true, Bool.not_eq_true'] at bare
  simpa using bare.1.1.2

private theorem not_isBareToken_of_colon {text : String} (isIn : ':' ∈ text.toList) :
    isBareToken text = false := by
  simp [isBareToken, isIn]

/-- Nothing, a bare file name, or YAML. -/
theorem Settings.encode_cases (settings : Settings) :
    (settings = {} ∧ settings.encode = "")
      ∨ (∃ file, isBareToken file = true ∧ settings = .forFile file ∧ settings.encode = " " ++ file)
      ∨ (settings ≠ {} ∧ settings.encode = yamlBody settings.tree) := by
  rw [Settings.encode]
  split
  · next isDefault => exact Or.inl ⟨isDefault, rfl⟩
  · next other =>
      split
      · next file isFile =>
          split
          · next bare =>
              rw [Bool.and_eq_true, decide_eq_true_eq] at bare
              exact Or.inr (Or.inl ⟨file, bare.2, bare.1, rfl⟩)
          · exact Or.inr (Or.inr ⟨other, rfl⟩)
      · exact Or.inr (Or.inr ⟨other, rfl⟩)

/-- Settings that are written on one line are none, or a bare file name. -/
theorem Settings.encode_line (settings : Settings) :
    '\n' ∈ settings.encode.toList ∨ (Text.trim settings.encode).isEmpty = true
      ∨ isBareToken (Text.trim settings.encode) = true := by
  rcases settings.encode_cases with ⟨_, isEncoded⟩ | ⟨file, bare, _, isEncoded⟩ | ⟨_, isEncoded⟩
  · rw [isEncoded]
    exact Or.inr (Or.inl (by decide))
  · rw [isEncoded, Text.trim_space_append (isBareToken_unblank bare)]
    exact Or.inr (Or.inr bare)
  · rw [isEncoded]
    exact Or.inl (by simp [yamlBody])

/-! ## Bodies on one line -/

/-- On one line, only what is left after trimming counts. -/
theorem decodeSettings_line {body : String}
    (plain : (Text.trim body).isEmpty = true ∨ isBareToken (Text.trim body) = true) :
    decodeSettings body
      = .ok (if (Text.trim body).isEmpty then {} else .forFile (Text.trim body)) := by
  unfold decodeSettings
  dsimp only
  by_cases empty : (Text.trim body).isEmpty = true
  · rw [if_pos empty, if_pos empty]
  · rw [if_neg empty, if_neg empty, if_pos (plain.resolve_left empty)]

/-! ## YAML bodies -/

section

variable {tree : Write.Tree} (isIn : ':' ∈ Write.document tree)

include isIn

private theorem mem_trim_yamlBody : ':' ∈ (Text.trim (yamlBody tree)).toList := by
  refine Text.mem_trim ?_ (by decide)
  rw [yamlBody, String.toList_ofList]
  exact List.mem_cons_of_mem _ isIn

private theorem trim_yamlBody_filled : (Text.trim (yamlBody tree)).isEmpty = false := by
  refine Bool.eq_false_iff.mpr fun isEmpty => ?_
  have colon := mem_trim_yamlBody isIn
  rw [String.isEmpty_iff.mp isEmpty] at colon
  cases colon

omit isIn in
private theorem normalizeBody_yamlBody (tree : Write.Tree) :
    normalizeBody (yamlBody tree).toList = dedent (Write.document tree) := by
  rw [yamlBody, String.toList_ofList]
  rfl

theorem decodeSettings_yamlBody {settings : Settings}
    (decodes : decodeText readSettings (dedent (Write.document tree)) = .ok settings)
    (suffixed : emptySuffix? settings = none) : decodeSettings (yamlBody tree) = .ok settings := by
  rw [decodeSettings, if_neg (by rw [trim_yamlBody_filled isIn]; exact Bool.false_ne_true),
    if_neg (by rw [not_isBareToken_of_colon (mem_trim_yamlBody isIn)]; exact Bool.false_ne_true),
    normalizeBody_yamlBody, decodes]
  dsimp only
  rw [suffixed]

theorem decodeConfig_yamlBody {config : Config}
    (decodes : decodeText readConfig (dedent (Write.document tree)) = .ok config) :
    decodeConfig (yamlBody tree) = .ok config := by
  rw [decodeConfig, if_neg (by rw [trim_yamlBody_filled isIn]; exact Bool.false_ne_true),
    normalizeBody_yamlBody, decodes]

end

end Tangle.Directive
