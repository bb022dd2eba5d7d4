import Mathlib.Tactic.SplitIfs
import Tangle.Proofs.Directive.Reread
import Tangle.Proofs.Yaml.Answers

/-!
Contract: settings that a body is decoded to never search for nothing and never name a file
after nothing.

Owns: `Settings.Admissible`, that nothing else is decoded, and that nothing else is turned away
of what can be written.

Does **not** own: what admissible settings are good for (`Tangle.Proofs.Generate.Admitted`), or
how they are written and read again (`Tangle.Proofs.Directive.Reread`).

The two halves are checked at different times. A rule without a search is refused while the list
of rules is read, so it is an invariant of the record being filled in; an empty suffix is looked
for once the record is complete.
-/

set_option autoImplicit false

namespace Tangle.Directive

open Tangle.Yaml

/-- Every substitution searches for something, and every additional file adds something to the
name of the file it stands beside. -/
structure Settings.Admissible (settings : Settings) : Prop where
  finds : ∀ rule ∈ settings.replace, rule.find ≠ ""
  suffixes : ∀ file ∈ settings.additionalFiles, file.suffix ≠ ""

/-- Settings without rules and additional files have nothing to check. -/
theorem Settings.Admissible.of_bare {settings : Settings} (noRules : settings.replace = [])
    (noFiles : settings.additionalFiles = []) : settings.Admissible where
  finds := fun _ member => absurd (noRules ▸ member) List.not_mem_nil
  suffixes := fun _ member => absurd (noFiles ▸ member) List.not_mem_nil

/-! ## Rules -/

/-- Whatever its shape, a rule passes one check before it is handed on. -/
theorem find_ne_of_ruleOfValue {value : Value} {rule : ReplaceRule}
    (isRule : ruleOfValue value = .ok rule) : rule.find ≠ "" := by
  intro findsNothing
  unfold ruleOfValue at isRule
  split at isRule
  · cases isRule
  · split at isRule
    · cases isRule
    · next shaped _ =>
        split at isRule
        · cases isRule
        · next searching =>
            rw [Except.ok.inj isRule, findsNothing] at searching
            exact searching rfl

private theorem readRule_promises (context : Context) (node : Node) :
    Promises (fun reply => ∀ rule : ReplaceRule, reply = .ok rule → rule.find ≠ "")
      (readRule context node) :=
  Promises.after fun _ => Promises.pure fun _ => find_ne_of_ruleOfValue

/-! ## Records -/

/-- Only one field has rules to read; every other one leaves the rules as they are. -/
theorem readSettingsField_promises (outer : Context × Mark) (name : String) (context : Context)
    (node : Node) (settings : Settings) (searching : ∀ rule ∈ settings.replace, rule.find ≠ "") :
    Promises (fun record : Settings => ∀ rule ∈ record.replace, rule.find ≠ "")
      (readSettingsField outer name context node settings) := by
  unfold readSettingsField
  by_cases isRules : (name == "replace") = true
  · obtain rfl := beq_iff_eq.mp isRules
    exact Promises.bind (Promises.readList readRule_promises node) fun rules isSearching =>
      Promises.pure isSearching
  · rw [if_neg isRules]
    split_ifs <;> exact Promises.after fun _ => Promises.pure searching

private theorem readSettings_promises (context : Context) (node : Node) :
    Promises (fun settings : Settings => ∀ rule ∈ settings.replace, rule.find ≠ "")
      (readSettings context node) := by
  have started : ∀ rule ∈ ({} : Settings).replace, rule.find ≠ "" := fun _ member =>
    absurd member List.not_mem_nil
  exact Promises.bind (Promises.readRecord readSettingsField_promises started node)
    fun _ searching => Promises.pure searching

private theorem suffix_ne_of_emptySuffix? {settings : Settings} (complete : emptySuffix? settings = none) :
    ∀ file ∈ settings.additionalFiles, file.suffix ≠ "" := by
  intro file member isEmpty
  have named := List.findIdx?_eq_none_iff.mp complete file member
  rw [isEmpty] at named
  cases named

/-! ## Bodies -/

/-- **Only admissible settings are decoded**, on each of the three ways to write them. -/
theorem admissible_of_decodeSettings {body : String} {settings : Settings}
    (decoded : decodeSettings body = .ok settings) : settings.Admissible := by
  unfold decodeSettings at decoded
  dsimp only at decoded
  split at decoded
  · rw [← Except.ok.inj decoded]
    exact .of_bare rfl rfl
  · split at decoded
    · rw [← Except.ok.inj decoded]
      exact .of_bare rfl rfl
    · split at decoded
      · cases decoded
      · next record isRecord =>
          split at decoded
          · cases decoded
          · next complete =>
              obtain rfl := Except.ok.inj decoded
              exact ⟨decodeText_promises readSettings_promises isRecord,
                suffix_ne_of_emptySuffix? complete⟩

/-- **The checks are exact** on settings whose texts are legible: written and read again they come
back just when they are admissible. -/
theorem decodes_encoded_iff_admissible {settings : Settings}
    (legible : ∀ text ∈ settings.texts, Legible text) :
    decodeSettings settings.encode = .ok settings ↔ settings.Admissible := by
  constructor
  · exact admissible_of_decodeSettings
  · intro admissible
    exact decodeSettings_encode admissible.finds admissible.suffixes legible

end Tangle.Directive
