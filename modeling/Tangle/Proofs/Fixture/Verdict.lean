import Mathlib.Data.List.Forall2
import Mathlib.Data.List.Induction
import Tangle.Files.Tree
import Tangle.Fixture.Run
import Tangle.Proofs.Path.Order

/-!
Contract: when a fixture passes.

Owns: what it means that an extraction meets the expectations of a fixture, and that a fixture
passes exactly if its file is one and the extraction of its body meets them.

Does **not** own: which fixtures are run (`Tangle.Proofs.Fixture.Run`).

The checks stop at the first expectation that is not met. So there is nothing to say exactly if
every single expectation is met, whatever the order of the checks.
-/

set_option autoImplicit false

namespace Tangle.Fixture

open Tangle.Document (Diagnostic)
open Tangle.Files (Content)

/-! ## What is expected -/

/-- The last output of a name has this content. -/
def LastOutput (extraction : Extraction) (name content : String) : Prop :=
  ∃ front path back, extraction.allOutputs = front ++ (path, content) :: back
    ∧ outputName extraction.stage.outputDir path = name
    ∧ ∀ later ∈ back, outputName extraction.stage.outputDir later.1 ≠ name

/-- A report of the expected kind, on the expected line if there is one. -/
def Reported (actual : Diagnostic) (expected : ExpectedDiagnostic) : Prop :=
  actual.problem.code = expected.kind ∧ ∀ line ∈ expected.line, actual.range.start.line = line

/-- A position of the body leads to the expected position of the expected file, and back. -/
def Mapped (extraction : Extraction) (expected : ExpectedPosition) : Prop :=
  ∃ hit, extraction.toLeafGenerated? expected.source = some hit
    ∧ Path.steps hit.path = Path.steps (Path.join extraction.stage.outputDir expected.file)
    ∧ hit.position = expected.generated
    ∧ extraction.toRootSource? (Path.join extraction.stage.outputDir expected.file)
        expected.generated = some expected.source

structure Meets (expectation : Expectation) (extraction : Extraction) : Prop where
  files : ∀ file ∈ expectation.files, ∃ content, LastOutput extraction file.path content
    ∧ ∀ expected ∈ file.content, content = expected
  noOthers : expectation.exactFiles = true → ∀ output ∈ extraction.allOutputs,
    ∃ file ∈ expectation.files, file.path = outputName extraction.stage.outputDir output.1
  diagnostics : ∀ expected ∈ expectation.diagnostics,
    List.Forall₂ Reported extraction.diagnostics expected
  positions : ∀ expected ∈ expectation.positions, Mapped extraction expected

def Passes (content : Content) : Prop :=
  ∃ text expectation body, content = .text text ∧ parseFixture text = .ok (expectation, body)
    ∧ Meets expectation (bodyExtraction expectation body)

/-! ## Outputs by name -/

section Outputs

variable {name content other : String} {outputs : Outputs}

private theorem not_before_self (name : String) : Text.before name name = false := by
  rw [Text.before, Bool.eq_false_iff, ne_eq, Path.charsBefore_iff]
  exact lt_irrefl _

private theorem find?_name_cons (first : String × String) (rest : Outputs) (name : String) :
    (first :: rest).find? (fun output => output.1 == name)
      = if first.1 = name then some first else rest.find? fun output => output.1 == name := by
  rw [List.find?_cons]
  by_cases isName : first.1 = name
  · rw [if_pos isName, beq_iff_eq.mpr isName]
  · rw [if_neg isName, beq_eq_false_iff_ne.mpr isName]

private theorem find?_insertOutput (name content other : String) (outputs : Outputs) :
    (insertOutput name content outputs).find? (fun output => output.1 == other)
      = if name = other then some (name, content)
        else outputs.find? fun output => output.1 == other := by
  induction outputs with
  | nil => exact find?_name_cons _ [] other
  | cons first rest inductionHypothesis =>
      rw [insertOutput]
      split
      · exact find?_name_cons _ _ other
      · split
        · next isBefore =>
            rw [find?_name_cons, find?_name_cons, inductionHypothesis]
            by_cases isFirst : first.1 = other
            · have different : name ≠ other := by
                rintro rfl
                rw [isFirst, not_before_self] at isBefore
                cases isBefore
              rw [if_pos isFirst, if_pos isFirst, if_neg different]
            · rw [if_neg isFirst, if_neg isFirst]
        · next notBehind notBefore =>
            have isFirst : name = first.1 :=
              Path.eq_of_not_before (Bool.eq_false_iff.mpr notBehind) (Bool.eq_false_iff.mpr notBefore)
            rw [find?_name_cons, find?_name_cons, ← isFirst]
            by_cases same : name = other
            · rw [if_pos same, if_pos same]
            · rw [if_neg same, if_neg same, if_neg same]

/-- The last output of a name, in a list that goes on by one. -/
private theorem exists_last_concat (key : String → String) (added : List (String × String))
    (last : String × String) (name content : String) :
    (∃ front path back, added ++ [last] = front ++ (path, content) :: back ∧ key path = name
        ∧ ∀ later ∈ back, key later.1 ≠ name)
      ↔ if key last.1 = name then last.2 = content
        else ∃ front path back, added = front ++ (path, content) :: back ∧ key path = name
          ∧ ∀ later ∈ back, key later.1 ≠ name := by
  constructor
  · rintro ⟨front, path, back, isSplit, isKey, later⟩
    rcases List.eq_nil_or_concat' back with rfl | ⟨back, final, rfl⟩
    · obtain rfl := List.singleton_inj.mp (List.append_inj' isSplit rfl).2
      rw [if_pos isKey]
    · rw [← List.cons_append, ← List.append_assoc] at isSplit
      obtain ⟨isFront, isLast⟩ := List.append_inj' isSplit rfl
      obtain rfl := List.singleton_inj.mp isLast
      rw [if_neg (later last (List.mem_append_right _ List.mem_cons_self))]
      exact ⟨front, path, back, isFront, isKey, fun output isIn =>
        later output (List.mem_append_left _ isIn)⟩
  · intro isLast
    split at isLast
    · next same =>
        refine ⟨added, last.1, [], ?_, same, fun _ none => absurd none List.not_mem_nil⟩
        rw [← isLast]
    · next different =>
        obtain ⟨front, path, back, rfl, isKey, later⟩ := isLast
        refine ⟨front, path, back ++ [last], List.append_assoc _ _ _, isKey, ?_⟩
        exact List.forall_mem_append.mpr ⟨later, List.forall_mem_singleton.mpr different⟩

/-- Outputs added in a row, each under a name of its own making. -/
private theorem find?_foldl_insertOutput (key : String → String) (added : List (String × String))
    (outputs : Outputs) (name content : String) :
    (added.foldl (fun outputs output => insertOutput (key output.1) output.2 outputs)
        outputs).find? (fun output => output.1 == name) = some (name, content)
      ↔ (∃ front path back, added = front ++ (path, content) :: back ∧ key path = name
            ∧ ∀ later ∈ back, key later.1 ≠ name)
        ∨ (∀ output ∈ added, key output.1 ≠ name)
            ∧ outputs.find? (fun output => output.1 == name) = some (name, content) := by
  induction added using List.reverseRecOn with
  | nil => simp
  | append_singleton added last inductionHypothesis =>
      rw [List.foldl_append, List.foldl_cons, List.foldl_nil, find?_insertOutput, exists_last_concat,
        List.forall_mem_append, List.forall_mem_singleton]
      by_cases same : key last.1 = name
      · rw [if_pos same, if_pos same, same]
        simp
      · rw [if_neg same, if_neg same, inductionHypothesis, and_iff_left same]

variable {extraction : Extraction}

private theorem find?_namedOutputs :
    (namedOutputs extraction).find? (fun output => output.1 == name) = some (name, content)
      ↔ LastOutput extraction name content := by
  rw [namedOutputs, find?_foldl_insertOutput (outputName extraction.stage.outputDir), LastOutput]
  exact or_iff_left fun absent => by cases absent.2

private theorem mem_names_insertOutput (name content : String) (outputs : Outputs) :
    other ∈ (insertOutput name content outputs).map Prod.fst
      ↔ other = name ∨ other ∈ outputs.map Prod.fst := by
  induction outputs with
  | nil => simp [insertOutput]
  | cons first rest inductionHypothesis =>
      rw [insertOutput]
      split
      · simp
      · split
        · rw [List.map_cons, List.mem_cons, inductionHypothesis, List.map_cons, List.mem_cons]
          exact or_left_comm
        · next notBehind notBefore =>
            have isFirst : name = first.1 :=
              Path.eq_of_not_before (Bool.eq_false_iff.mpr notBehind) (Bool.eq_false_iff.mpr notBefore)
            simp [isFirst]

private theorem mem_names_namedOutputs :
    name ∈ (namedOutputs extraction).map Prod.fst
      ↔ ∃ output ∈ extraction.allOutputs, outputName extraction.stage.outputDir output.1 = name := by
  rw [namedOutputs]
  induction extraction.allOutputs using List.reverseRecOn with
  | nil => simp
  | append_singleton front last inductionHypothesis =>
      rw [List.foldl_append, List.foldl_cons, List.foldl_nil, mem_names_insertOutput,
        inductionHypothesis]
      simp only [List.mem_append, List.mem_singleton, or_and_right, exists_or, exists_eq_left]
      rw [or_comm, eq_comm]

end Outputs

/-! ## One check at a time -/

section Checks

variable {extraction : Extraction}

private theorem fileReason?_eq_none_iff (file : ExpectedFile) :
    fileReason? (namedOutputs extraction) file = none
      ↔ ∃ content, LastOutput extraction file.path content
          ∧ ∀ expected ∈ file.content, content = expected := by
  simp only [← find?_namedOutputs]
  rw [fileReason?]
  cases isFound : (namedOutputs extraction).find? fun output => output.1 == file.path with
  | none => simp
  | some output =>
      have isName : output.1 = file.path := by simpa using List.find?_some isFound
      obtain ⟨name, content⟩ := output
      obtain rfl : name = file.path := isName
      cases file.content with
      | none => simp
      | some expected => simp

private theorem filesReason?_eq_none_iff (expectation : Expectation) :
    filesReason? (namedOutputs extraction) expectation = none
      ↔ (∀ file ∈ expectation.files, ∃ content, LastOutput extraction file.path content
          ∧ ∀ expected ∈ file.content, content = expected)
        ∧ (expectation.exactFiles = true → ∀ output ∈ extraction.allOutputs,
            ∃ file ∈ expectation.files,
              file.path = outputName extraction.stage.outputDir output.1) := by
  have noOthers : unexpectedNames (namedOutputs extraction) expectation.files = []
      ↔ ∀ output ∈ extraction.allOutputs, ∃ file ∈ expectation.files,
          file.path = outputName extraction.stage.outputDir output.1 := by
    rw [unexpectedNames, List.filter_eq_nil_iff]
    simp only [mem_names_namedOutputs, forall_exists_index, and_imp, forall_apply_eq_imp_iff₂]
    simp
  rw [filesReason?, Option.or_eq_none_iff, List.findSome?_eq_none_iff]
  simp only [fileReason?_eq_none_iff]
  refine and_congr_right' ?_
  rw [← noOthers]
  cases expectation.exactFiles with
  | false => simp
  | true =>
      by_cases none : unexpectedNames (namedOutputs extraction) expectation.files = []
      · simp [none]
      · simp [none]

private theorem diagnosticReason?_eq_none_iff (index : Nat) (actual : Diagnostic)
    (expected : ExpectedDiagnostic) :
    diagnosticReason? index actual expected = none ↔ Reported actual expected := by
  rw [diagnosticReason?, Reported]
  by_cases isKind : actual.problem.code = expected.kind
  · cases expected.line with
    | none => simp [isKind]
    | some line => simp [isKind]
  · simp [isKind]

private theorem diagnosticsReason?_eq_none_iff (actual : List Diagnostic)
    (expected : List ExpectedDiagnostic) :
    diagnosticsReason? actual expected = none ↔ List.Forall₂ Reported actual expected := by
  have inTurn (index : Nat) : ∀ pairs, diagnosticsReasonFrom? index pairs = none
      ↔ ∀ pair ∈ pairs, Reported pair.1 pair.2 := by
    intro pairs
    induction pairs generalizing index with
    | nil => simp [diagnosticsReasonFrom?]
    | cons pair rest inductionHypothesis =>
        rw [diagnosticsReasonFrom?, Option.or_eq_none_iff, diagnosticReason?_eq_none_iff,
          inductionHypothesis, List.forall_mem_cons]
  rw [diagnosticsReason?, List.forall₂_iff_zip]
  by_cases sameLength : actual.length = expected.length
  · rw [if_pos sameLength, inTurn, Prod.forall]
    exact (and_iff_right sameLength).symm
  · rw [if_neg sameLength]
    exact iff_of_false (Option.some_ne_none _) fun both => sameLength both.1

private theorem positionReason?_eq_none_iff (index : Nat) (expected : ExpectedPosition) :
    positionReason? extraction index expected = none ↔ Mapped extraction expected := by
  rw [positionReason?, Mapped]
  dsimp only
  cases extraction.toLeafGenerated? expected.source with
  | none => simp
  | some hit =>
      by_cases isHit : Path.steps hit.path
          = Path.steps (Path.join extraction.stage.outputDir expected.file)
        ∧ hit.position = expected.generated
      · obtain ⟨isPath, isPosition⟩ := isHit
        simp [Path.same, isPath, isPosition]
      · have missed : (Path.same hit.path (Path.join extraction.stage.outputDir expected.file)
            && hit.position == expected.generated) = false := by
          simpa [Path.same] using isHit
        simp only [missed]
        refine iff_of_false (Option.some_ne_none _) ?_
        rintro ⟨other, isOther, isPath, isPosition, -⟩
        obtain rfl := Option.some.inj isOther
        exact isHit ⟨isPath, isPosition⟩

private theorem positionsReasonFrom?_eq_none_iff (index : Nat) (expected : List ExpectedPosition) :
    positionsReasonFrom? extraction index expected = none
      ↔ ∀ position ∈ expected, Mapped extraction position := by
  induction expected generalizing index with
  | nil => simp [positionsReasonFrom?]
  | cons position rest inductionHypothesis =>
      rw [positionsReasonFrom?, Option.or_eq_none_iff, positionReason?_eq_none_iff,
        inductionHypothesis, List.forall_mem_cons]

end Checks

/-! ## The verdict -/

/-- **There is nothing to say exactly if all expectations are met.** -/
theorem reason?_eq_none_iff (expectation : Expectation) (extraction : Extraction) :
    reason? expectation extraction = none ↔ Meets expectation extraction := by
  have reports : expectation.diagnostics.bind (diagnosticsReason? extraction.diagnostics) = none
      ↔ ∀ expected ∈ expectation.diagnostics,
          List.Forall₂ Reported extraction.diagnostics expected := by
    cases expectation.diagnostics with
    | none => simp
    | some expected => simp [diagnosticsReason?_eq_none_iff]
  rw [reason?, Option.or_eq_none_iff, Option.or_eq_none_iff, filesReason?_eq_none_iff, reports,
    positionsReasonFrom?_eq_none_iff]
  constructor
  · rintro ⟨⟨⟨files, noOthers⟩, diagnostics⟩, positions⟩
    exact ⟨files, noOthers, diagnostics, positions⟩
  · rintro ⟨files, noOthers, diagnostics, positions⟩
    exact ⟨⟨⟨files, noOthers⟩, diagnostics⟩, positions⟩

def verdictOn (path : String) : Content → Result
  | .text text => judge path text
  | .binary _ =>
      { path := path, failure := some ("cannot read file: " ++ Files.FileError.notText.message) }

/-- **A fixture passes** exactly if it can be read and parsed, and its expectations are met. -/
theorem passed_verdictOn_iff (path : String) (content : Content) :
    (verdictOn path content).passed = true ↔ Passes content := by
  cases content with
  | binary bytes =>
      refine iff_of_false Bool.false_ne_true ?_
      rintro ⟨text, expectation, body, isText, -⟩
      cases isText
  | text text =>
      rw [verdictOn, judge]
      cases isParsed : parseFixture text with
      | error problem =>
          refine iff_of_false Bool.false_ne_true ?_
          rintro ⟨other, expectation, body, isText, parsed, -⟩
          obtain rfl := Content.text.inj isText
          rw [isParsed] at parsed
          cases parsed
      | ok parts =>
          obtain ⟨expectation, body⟩ := parts
          rw [Result.passed, Option.isNone_iff_eq_none]
          dsimp only
          rw [reason?_eq_none_iff]
          constructor
          · exact fun meets => ⟨text, expectation, body, rfl, isParsed, meets⟩
          · rintro ⟨other, _, _, isText, parsed, meets⟩
            obtain rfl := Content.text.inj isText
            rw [isParsed] at parsed
            obtain ⟨rfl, rfl⟩ := Prod.mk.inj (Except.ok.inj parsed)
            exact meets

end Tangle.Fixture
