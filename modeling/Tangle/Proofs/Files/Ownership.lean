import Tangle.Files.Outputs
import Tangle.Proofs.Files.Places
import Tangle.Proofs.Path.Resolve

/-!
Contract: which output directories belong to an extraction alone.

Owns: what steps that stay below a directory resolve to, and `ownsDirectory_iff_strictlyBelow`.

Does **not** own: what is found in such a directory (`Tangle.Proofs.Files.Stale`).

## A depth without names

The rule counts how many names have been entered and forgets which. Below a directory this is the
number of names behind it, as long as the directory has not been left. Once it has been left, names
may lead back to a directory with the same name, but only to one with that name: below a directory
whose name is not in the path at all, nothing leads back.
-/

set_option autoImplicit false

namespace Tangle.Files

open Tangle.Path (Step IsOrdinary StrictlyBelow Within directory resolve resolveStep)

/-! ## Steps that stay below -/

section Stay

variable {base steps earlier later : List Step} {below : List String}

/-- **What the depth counts.** Up to any step the base has not been left, and the names behind it
are as many as the depth says. -/
theorem staysBelow_append (stays : staysBelow below.length (earlier ++ later) = true) :
    ∃ more : List String, earlier.foldl resolveStep (base ++ below.map Step.name)
        = base ++ more.map Step.name
      ∧ staysBelow more.length later = true := by
  induction earlier generalizing below with
  | nil => exact ⟨below, rfl, stays⟩
  | cons step rest inductionHypothesis =>
      rw [List.foldl_cons]
      cases step with
      | root => cases below <;> cases stays
      | here =>
          apply inductionHypothesis
          cases below <;> exact stays
      | up =>
          rcases List.eq_nil_or_concat' below with rfl | ⟨front, last, rfl⟩
          · cases stays
          · rw [Path.resolveStep_back]
            apply inductionHypothesis
            rwa [List.length_append] at stays
      | name text =>
          rw [Path.resolveStep_enter]
          apply inductionHypothesis
          rw [List.length_append]
          cases below <;> exact stays

/-- Steps that stay below end with a name. -/
theorem foldl_resolveStep_of_staysBelow (stays : staysBelow below.length steps = true) :
    ∃ more : List String, more ≠ [] ∧ steps.foldl resolveStep (base ++ below.map Step.name)
      = base ++ more.map Step.name := by
  rw [← List.append_nil steps] at stays
  obtain ⟨more, isResolved, entered⟩ := @staysBelow_append base steps [] below stays
  refine ⟨more, ?_, isResolved⟩
  rintro rfl
  cases entered

/-- **Steps that do not stay below** do not end below a directory with a name of its own. -/
theorem not_strictlyBelow_of_leaves {lead : List Step} {own : String} (notAhead : .name own ∉ lead)
    (notBehind : .name own ∉ steps) (leaves : staysBelow below.length steps = false) :
    ¬ StrictlyBelow (lead ++ [.name own])
      (steps.foldl resolveStep (lead ++ [.name own] ++ below.map Step.name)) := by
  -- Without the name, the end is not below the directory.
  have lost : ∀ {resolved : List Step} {rest : List Step}, .name own ∉ resolved → .name own ∉ rest →
      ¬ StrictlyBelow (lead ++ [.name own]) (rest.foldl resolveStep resolved) := by
    rintro resolved rest absent noStep ⟨⟨names, isWithin⟩, -⟩
    apply Path.not_mem_foldl_resolveStep absent noStep
    rw [isWithin]
    simp
  induction steps generalizing below with
  | nil =>
      have noName : below = [] := by
        rw [staysBelow] at leaves
        simpa using leaves
      rintro ⟨-, other⟩
      rw [noName] at other
      exact other (List.append_nil _)
  | cons step rest inductionHypothesis =>
      rw [List.mem_cons, not_or] at notBehind
      rw [List.foldl_cons]
      cases step with
      | root => exact lost (by simp [resolveStep]) notBehind.2
      | here =>
          apply inductionHypothesis notBehind.2
          cases below <;> exact leaves
      | up =>
          rcases List.eq_nil_or_concat' below with rfl | ⟨front, last, rfl⟩
          · have left : resolveStep (lead ++ [.name own] ++ [].map Step.name) .up = lead := by
              rw [List.map_nil, List.append_nil]
              exact Path.resolveStep_up_name lead own
            rw [left]
            exact lost notAhead notBehind.2
          · rw [Path.resolveStep_back]
            apply inductionHypothesis notBehind.2
            rwa [List.length_append] at leaves
      | name text =>
          rw [Path.resolveStep_enter]
          apply inductionHypothesis notBehind.2
          rw [List.length_append]
          cases below <;> exact leaves

end Stay

/-! ## Directories of their own -/

section Owned

variable {outDir : String}

theorem relative_of_owns (owns : ownsDirectory outDir = true) : Path.isRooted outDir = false := by
  rw [← Bool.not_eq_true]
  intro rooted
  rw [ownsDirectory, Path.steps_eq, Path.lead_of_isRooted rooted] at owns
  cases owns

private theorem strictlyBelow_of_owns (owns : ownsDirectory outDir = true) (base : String) :
    StrictlyBelow (resolve base) (resolve (Path.join base outDir)) := by
  have stays : staysBelow ([] : List String).length (Path.steps outDir) = true := owns
  obtain ⟨more, entered, isResolved⟩ := @foldl_resolveStep_of_staysBelow (resolve base) _ _ stays
  rw [List.map_nil, List.append_nil] at isResolved
  rw [Path.resolve_join, isResolved]
  refine ⟨⟨more, rfl⟩, fun same => entered ?_⟩
  exact List.map_eq_nil_iff.mp (List.append_cancel_left (same.trans (List.append_nil _).symm))

/-- Where a directory is not owned, some base shows it. -/
theorem exists_base_of_not_owns (notOwned : ownsDirectory outDir = false) (rooted : Bool) :
    ∃ name, IsOrdinary name ∧ ¬ StrictlyBelow (resolve (directory rooted [name]))
      (resolve (Path.join (directory rooted [name]) outDir)) := by
  obtain ⟨name, ordinary, notBehind⟩ := Path.exists_ordinary_not_mem (Path.steps outDir)
  have leaves : staysBelow ([] : List String).length (Path.steps outDir) = false := notOwned
  have notAhead : Step.name name ∉ Path.leadStep (if rooted then ['/'] else []) := by
    cases rooted <;> simp [Path.leadStep]
  have notBelow := not_strictlyBelow_of_leaves notAhead notBehind leaves
  have isBase := Path.resolve_directory rooted (List.forall_mem_singleton.mpr ordinary)
  rw [List.map_nil, List.append_nil] at notBelow
  refine ⟨name, ordinary, ?_⟩
  rw [Path.resolve_join, isBase]
  exact notBelow

/-- **Owned directories are those that lie below every base.** An output directory is owned exactly
if, joined to any directory of ordinary names and resolved, it lies strictly below that directory: it
makes no difference whether the directories are taken from the root or not. A rooted path is not
owned, and neither is one whose steps leave the base at some point, whatever they enter behind
it. -/
theorem ownsDirectory_iff_strictlyBelow (outDir : String) :
    (∀ rooted, ownsDirectory outDir = true
        ↔ ∀ names, (∀ name ∈ names, IsOrdinary name) →
            StrictlyBelow (resolve (directory rooted names))
              (resolve (Path.join (directory rooted names) outDir)))
    ∧ (Path.isRooted outDir = true → ownsDirectory outDir = false)
    ∧ ∀ base earlier, earlier <+: Path.steps outDir → ¬ Within base (earlier.foldl resolveStep base) →
        ownsDirectory outDir = false := by
  refine ⟨?_, ?_, ?_⟩
  · intro rooted
    constructor
    · intro owns names _
      exact strictlyBelow_of_owns owns (directory rooted names)
    · intro belowAll
      by_contra notOwned
      obtain ⟨name, ordinary, notBelow⟩ :=
        exists_base_of_not_owns (Bool.not_eq_true _ ▸ notOwned) rooted
      exact notBelow (belowAll [name] (List.forall_mem_singleton.mpr ordinary))
  · intro rooted
    rw [← Bool.not_eq_true]
    intro owns
    rw [relative_of_owns owns] at rooted
    cases rooted
  · intro base earlier isStart left
    rw [← Bool.not_eq_true]
    intro owns
    obtain ⟨later, isSteps⟩ := isStart
    have stays : staysBelow ([] : List String).length (earlier ++ later) = true := by
      rw [isSteps]
      exact owns
    obtain ⟨more, isResolved, -⟩ := @staysBelow_append base earlier later [] stays
    rw [List.map_nil, List.append_nil] at isResolved
    exact left ⟨more, isResolved⟩

/-- A path that leaves `docs` and comes back to a directory of that name is not owned; one that goes
up inside `docs` is. -/
theorem ownsDirectory_iff_strictlyBelow_returning :
    resolve (Path.join "docs" "../docs/out") = [.name "docs", .name "out"]
      ∧ ¬ Within [.name "docs"] ([Step.up].foldl resolveStep [.name "docs"])
      ∧ ownsDirectory "../docs/out" = false
      ∧ Path.isRooted "/docs/out" = true ∧ ownsDirectory "/docs/out" = false
      ∧ IsOrdinary "docs" ∧ ownsDirectory "./a/../out" = true
      ∧ StrictlyBelow (resolve (directory false ["docs"]))
          (resolve (Path.join (directory false ["docs"]) "./a/../out")) := by
  have left : ¬ Within [.name "docs"] ([Step.up].foldl resolveStep [.name "docs"]) := by
    rintro ⟨names, isResolved⟩
    cases isResolved
  have isStart : [Step.up] <+: Path.steps "../docs/out" := by decide +kernel
  have ordinary : IsOrdinary "docs" := by decide +kernel
  have owned : ownsDirectory "./a/../out" = true := by decide +kernel
  have rooted : Path.isRooted "/docs/out" = true := by decide +kernel
  exact ⟨by decide +kernel, left,
    (ownsDirectory_iff_strictlyBelow "../docs/out").2.2 [.name "docs"] [.up] isStart left, rooted,
    (ownsDirectory_iff_strictlyBelow "/docs/out").2.1 rooted, ordinary, owned,
    ((ownsDirectory_iff_strictlyBelow "./a/../out").1 false).mp owned ["docs"]
      (List.forall_mem_singleton.mpr ordinary)⟩

end Owned

/-! ## Places -/

/-- From the root, a path is followed as it is resolved. -/
theorem foldl_resolveStep_root (location : Location) (steps : List Step) :
    steps.foldl resolveStep (.root :: location.map Step.name)
      = .root :: (steps.foldl follow location).map Step.name := by
  induction steps generalizing location with
  | nil => rfl
  | cons step rest inductionHypothesis =>
      rw [List.foldl_cons, List.foldl_cons, ← inductionHypothesis]
      congr 1
      cases step with
      | root => rfl
      | here => rfl
      | name text => simp [resolveStep, follow]
      | up =>
          rcases List.eq_nil_or_concat' location with rfl | ⟨front, last, rfl⟩
          · rfl
          · rw [follow, List.dropLast_concat, List.map_append, ← List.cons_append]
            exact Path.resolveStep_up_name _ last

/-- **Steps that stay below a place** end strictly below it. -/
theorem foldl_follow_of_staysBelow (location : Location) {steps : List Step} {below : Location}
    (stays : staysBelow below.length steps = true) :
    ∃ more, more ≠ [] ∧ steps.foldl follow (location ++ below) = location ++ more := by
  obtain ⟨more, visible, isResolved⟩ :=
    @foldl_resolveStep_of_staysBelow (.root :: location.map Step.name) _ _ stays
  rw [List.cons_append, ← List.map_append, foldl_resolveStep_root, List.cons_append,
    ← List.map_append, List.cons.injEq] at isResolved
  exact ⟨more, visible, List.map_injective_iff.mpr (fun _ _ => Step.name.inj) isResolved.2⟩

end Tangle.Files
