import Mathlib.Data.Finset.Preimage
import Mathlib.Data.Fintype.EquivFin
import Tangle.Proofs.Path.Below

/-!
Contract: paths without detours.

Owns: `resolve`, which drops every step that stays and lets a step up take back the name before it;
what a path joined to a directory resolves to; and when one resolved path lies below another.

Does **not** own: where a path leads in a file tree (`Tangle.Proofs.Files.Places`).

## Nothing to take back

A step up at the start of a relative path, or behind other such steps, has no name to take back and
is kept. Above the root there is nothing, so a step up from there stays.
-/

set_option autoImplicit false

namespace Tangle.Path

open Tangle.Text

/-! ## Resolution -/

def resolveStep (resolved : List Step) : Step → List Step
  | .root => [.root]
  | .here => resolved
  | .name text => resolved ++ [.name text]
  | .up =>
      match resolved.getLast? with
      | some (.name _) => resolved.dropLast
      | some .root => resolved
      | _ => resolved ++ [.up]

/-- The steps of a path without those that stay and those that are taken back. -/
def resolve (path : String) : List Step :=
  (steps path).foldl resolveStep []

section Steps

variable (resolved : List Step)

theorem resolveStep_up_name (text : String) :
    resolveStep (resolved ++ [.name text]) .up = resolved := by
  rw [resolveStep, List.getLast?_concat]
  exact List.dropLast_concat

theorem resolveStep_enter (names : List String) (text : String) :
    resolveStep (resolved ++ names.map Step.name) (.name text)
      = resolved ++ (names ++ [text]).map Step.name := by
  rw [resolveStep, List.map_append, List.append_assoc]
  rfl

theorem resolveStep_back (names : List String) (last : String) :
    resolveStep (resolved ++ (names ++ [last]).map Step.name) .up
      = resolved ++ names.map Step.name := by
  rw [List.map_append, ← List.append_assoc]
  exact resolveStep_up_name _ last

private theorem foldl_resolveStep_names (names : List String) :
    (names.map Step.name).foldl resolveStep resolved = resolved ++ names.map Step.name := by
  induction names generalizing resolved with
  | nil => exact (List.append_nil resolved).symm
  | cons first rest inductionHypothesis =>
      rw [List.map_cons, List.foldl_cons, inductionHypothesis, resolveStep, List.append_assoc]
      rfl

/-- A name that is nowhere in a path is not in its resolution. -/
theorem not_mem_foldl_resolveStep {resolved : List Step} {steps : List Step} {text : String}
    (absent : .name text ∉ resolved) (noStep : .name text ∉ steps) :
    .name text ∉ steps.foldl resolveStep resolved := by
  induction steps generalizing resolved with
  | nil => exact absent
  | cons step rest inductionHypothesis =>
      rw [List.mem_cons, not_or] at noStep
      refine inductionHypothesis ?_ noStep.2
      cases step with
      | root => simp [resolveStep]
      | here => exact absent
      | name other => simpa [resolveStep, absent] using noStep.1
      | up =>
          rw [resolveStep]
          split
          · exact fun isIn => absent (List.dropLast_subset _ isIn)
          · exact absent
          · simpa using absent

end Steps

/-- **A joined path** is resolved by going on from the resolution of its base. -/
theorem resolve_join (base path : String) :
    resolve (join base path) = (steps path).foldl resolveStep (resolve base) := by
  by_cases rooted : isRooted path = true
  · -- The base is dropped: the first step starts over.
    have isSteps : steps path = .root :: segmentSteps (splitChars '/' path.toList) := by
      rw [steps_eq, lead_of_isRooted rooted]
      rfl
    rw [join, if_pos rooted, resolve, isSteps]
    rfl
  · have relative : isRooted path = false := by simpa using rooted
    by_cases empty : base.toList = []
    · obtain rfl : base = "" := String.toList_inj.mp empty
      rw [join_empty]
      rfl
    · rw [resolve, steps_join_relative empty relative, List.foldl_append, steps_eq path]
      rcases lead_of_not_rooted relative with none | here
      · rw [none]
        rfl
      · rw [here]
        rfl

/-! ## Directories of names -/

/-- A segment that is the name of something else than the directory above. -/
def IsOrdinary (name : String) : Prop :=
  IsSegment name ∧ name ≠ ".."

instance : DecidablePred IsOrdinary := fun name =>
  inferInstanceAs (Decidable (('/' ∉ name.toList ∧ isFiller name.toList = false) ∧ name ≠ ".."))

def directory (rooted : Bool) (names : List String) : String :=
  Parts.text ⟨if rooted then ['/'] else [], segmentsOf names⟩

section Directory

variable {names : List String}

private theorem segmentStep_ordinary {name : String} (ordinary : IsOrdinary name) :
    segmentStep name.toList = some (.name name) := by
  have notUp : name.toList ≠ ['.', '.'] := fun isUp =>
    ordinary.2 (String.toList_injective (isUp.trans rfl))
  rw [segmentStep, ordinary.1.2, if_neg Bool.false_ne_true, if_neg notUp, String.ofList_toList]

private theorem segmentSteps_ordinary (ordinary : ∀ name ∈ names, IsOrdinary name) :
    segmentSteps (segmentsOf names) = names.map Step.name := by
  induction names with
  | nil => rfl
  | cons first rest inductionHypothesis =>
      obtain ⟨ordinaryFirst, ordinaryRest⟩ := List.forall_mem_cons.mp ordinary
      have isRest := inductionHypothesis ordinaryRest
      rw [segmentsOf, List.map_cons, List.map_cons, ← isRest]
      exact List.filterMap_cons_some (segmentStep_ordinary ordinaryFirst)

/-- A directory of names is resolved already. -/
theorem resolve_directory (rooted : Bool) (ordinary : ∀ name ∈ names, IsOrdinary name) :
    resolve (directory rooted names)
      = leadStep (if rooted then ['/'] else []) ++ names.map Step.name := by
  have free := free_of_segments fun name isIn => (ordinary name isIn).1
  have visible := visible_of_segments fun name isIn => (ordinary name isIn).1
  have written : Parts.Written ⟨if rooted then ['/'] else [], segmentsOf names⟩ := by
    refine ⟨free, ?_⟩
    cases rooted with
    | true => exact Or.inl rfl
    | false =>
        exact Or.inr (Or.inr ⟨rfl, fun first isFirst => visible first (List.mem_of_mem_head? isFirst)⟩)
  rw [resolve, directory, written.steps, List.foldl_append, segmentSteps_ordinary ordinary,
    foldl_resolveStep_names]
  cases rooted <;> rfl

/-- There is always one more ordinary name. -/
theorem exists_ordinary_not_mem (steps : List Step) :
    ∃ name, IsOrdinary name ∧ Step.name name ∉ steps := by
  have injective : Function.Injective fun count => Step.name (repeated (count + 1) 'a') := by
    intro first second same
    have sameLength := congrArg List.length (String.ofList_inj.mp (Step.name.inj same))
    simpa using sameLength
  obtain ⟨count, isNew⟩ := Infinite.exists_notMem_finset
    (steps.toFinset.preimage _ injective.injOn)
  refine ⟨repeated (count + 1) 'a', ⟨⟨?_, ?_⟩, ?_⟩, fun isStep => isNew ?_⟩
  · rw [repeated, String.toList_ofList]
    exact fun isSlash => absurd (List.eq_of_mem_replicate isSlash) (by decide)
  · rw [repeated, String.toList_ofList, List.replicate_succ]
    simp [isFiller]
  · intro isUp
    have letters := congrArg String.toList isUp
    rw [repeated, String.toList_ofList, List.replicate_succ] at letters
    cases letters
  · simpa using isStep

end Directory

/-! ## Below -/

/-- Behind the base the resolved path only enters names. -/
def Within (base resolved : List Step) : Prop :=
  ∃ names : List String, resolved = base ++ names.map Step.name

/-- The resolved path lies in the base and is not the base. -/
def StrictlyBelow (base resolved : List Step) : Prop :=
  Within base resolved ∧ resolved ≠ base

end Tangle.Path
