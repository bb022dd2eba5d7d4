import Mathlib.Data.Char
import Mathlib.Data.List.Lex
import Mathlib.Data.Prod.Lex
import Tangle.Path

/-!
Contract: the order of paths, and lists of distinct paths in that order.

Owns: that paths are ordered as their steps are, linearly and up to spelling, and what
`sortDistinct` keeps: every path in one of its spellings, and none in two.

Does **not** own: which paths are sorted (`Tangle.Proofs.Files.Stale`).

The order is read through keys in a linear order, so that none of its laws is proved by hand.
-/

set_option autoImplicit false

namespace Tangle.Path

open Tangle.Text (charsBefore)

/-! ## Keys -/

theorem charsBefore_iff (left right : List Char) : charsBefore left right = true ↔ left < right := by
  induction left generalizing right with
  | nil =>
      cases right with
      | nil => simp [charsBefore]
      | cons b right => simp [charsBefore]
  | cons a left inductionHypothesis =>
      cases right with
      | nil => simp [charsBefore]
      | cons b right =>
          rw [charsBefore, List.cons_lt_cons_iff, ← inductionHypothesis]
          simp

/-- Texts of which neither comes first are the same. -/
theorem eq_of_not_before {left right : String} (notBefore : Text.before left right = false)
    (notBehind : Text.before right left = false) : left = right := by
  rw [Text.before, Bool.eq_false_iff, ne_eq, charsBefore_iff] at notBefore notBehind
  exact String.toList_inj.mp (le_antisymm (not_lt.mp notBehind) (not_lt.mp notBefore))

def Step.key (step : Step) : ℕ ×ₗ List Char :=
  toLex (step.rank, step.label)

private theorem Step.key_injective : Function.Injective Step.key := by
  intro left right same
  obtain ⟨sameRank, sameLabel⟩ := Prod.mk.inj (toLex.injective same)
  cases left <;> cases right <;> simp_all [Step.rank, Step.label, String.toList_inj]

theorem Step.before_iff (left right : Step) : left.before right = true ↔ left.key < right.key := by
  rw [Step.before, Step.key, Step.key, Prod.Lex.toLex_lt_toLex, ← charsBefore_iff]
  simp

private theorem stepsBefore_iff (left right : List Step) :
    stepsBefore left right = true ↔ left.map Step.key < right.map Step.key := by
  induction left generalizing right with
  | nil =>
      cases right with
      | nil => simp [stepsBefore]
      | cons b right => simp [stepsBefore]
  | cons a left inductionHypothesis =>
      cases right with
      | nil => simp [stepsBefore]
      | cons b right =>
          rw [stepsBefore, List.map_cons, List.map_cons, List.cons_lt_cons_iff,
            ← inductionHypothesis, ← Step.before_iff, Step.key_injective.eq_iff]
          simp

def key (path : String) : List (ℕ ×ₗ List Char) :=
  (steps path).map Step.key

theorem before_iff (left right : String) : before left right = true ↔ key left < key right :=
  stepsBefore_iff _ _

private theorem key_eq_iff {left right : String} : key left = key right ↔ steps left = steps right :=
  (List.map_injective_iff.mpr Step.key_injective).eq_iff

/-! ## Distinct paths in order -/

def Ascending (paths : List String) : Prop :=
  paths.Pairwise fun left right => key left < key right

private theorem mem_of_mem_insert {path other : String} {sorted : List String}
    (member : other ∈ insert path sorted) : other = path ∨ other ∈ sorted := by
  induction sorted with
  | nil => exact Or.inl (List.mem_singleton.mp member)
  | cons first rest inductionHypothesis =>
      rw [insert] at member
      split at member
      · exact List.mem_cons.mp member
      · split at member
        · rcases List.mem_cons.mp member with rfl | later
          · exact Or.inr List.mem_cons_self
          · exact (inductionHypothesis later).imp id (List.mem_cons_of_mem first)
        · exact Or.inr member

theorem Ascending.insert {sorted : List String} (ascending : Ascending sorted) (path : String) :
    Ascending (Path.insert path sorted) := by
  induction sorted with
  | nil => exact List.pairwise_singleton _ path
  | cons first rest inductionHypothesis =>
      obtain ⟨ahead, later⟩ := List.pairwise_cons.mp ascending
      rw [Path.insert]
      split
      · next isBefore =>
          have below := (before_iff path first).mp isBefore
          apply List.pairwise_cons.mpr
          refine ⟨?_, ascending⟩
          intro other member
          rcases List.mem_cons.mp member with rfl | isLater
          · exact below
          · exact below.trans (ahead other isLater)
      · split
        · next isBehind =>
            apply List.pairwise_cons.mpr
            refine ⟨?_, inductionHypothesis later⟩
            intro other member
            rcases mem_of_mem_insert member with rfl | isLater
            · exact (before_iff first other).mp isBehind
            · exact ahead other isLater
        · exact ascending

/-- Insertion adds one path, in whatever spelling. -/
theorem mem_steps_insert (path : String) (sorted : List String) (wanted : List Step) :
    wanted ∈ (insert path sorted).map steps ↔ wanted = steps path ∨ wanted ∈ sorted.map steps := by
  induction sorted with
  | nil => simp [insert]
  | cons first rest inductionHypothesis =>
      rw [insert]
      split
      · simp
      · next notBefore =>
          split
          · rw [List.map_cons, List.mem_cons, inductionHypothesis, List.map_cons, List.mem_cons]
            exact or_left_comm
          · next notBehind =>
              have sameKey : key path = key first := by
                rw [before_iff] at notBefore notBehind
                exact le_antisymm (not_lt.mp notBehind) (not_lt.mp notBefore)
              rw [key_eq_iff.mp sameKey, List.map_cons, List.mem_cons, ← or_assoc, or_self]

/-! ## The whole sort -/

section Sorting

variable {paths sorted : List String}

private theorem mem_of_mem_foldl_insert {path : String}
    (member : path ∈ paths.foldl (fun sorted path => insert path sorted) sorted) :
    path ∈ sorted ∨ path ∈ paths := by
  induction paths generalizing sorted with
  | nil => exact Or.inl member
  | cons first rest inductionHypothesis =>
      rcases inductionHypothesis member with inserted | isLater
      · rcases mem_of_mem_insert inserted with rfl | earlier
        · exact Or.inr List.mem_cons_self
        · exact Or.inl earlier
      · exact Or.inr (List.mem_cons_of_mem first isLater)

private theorem Ascending.foldl_insert (ascending : Ascending sorted) :
    Ascending (paths.foldl (fun sorted path => Path.insert path sorted) sorted) := by
  induction paths generalizing sorted with
  | nil => exact ascending
  | cons first rest inductionHypothesis => exact inductionHypothesis (ascending.insert first)

private theorem mem_steps_foldl_insert {wanted : List Step} :
    wanted ∈ (paths.foldl (fun sorted path => insert path sorted) sorted).map steps
      ↔ wanted ∈ sorted.map steps ∨ wanted ∈ paths.map steps := by
  induction paths generalizing sorted with
  | nil => simp
  | cons first rest inductionHypothesis =>
      rw [List.foldl_cons, inductionHypothesis, mem_steps_insert, List.map_cons, List.mem_cons]
      tauto

/-- Sorting makes up no path. -/
theorem mem_of_mem_sortDistinct {path : String} (member : path ∈ sortDistinct paths) :
    path ∈ paths :=
  (mem_of_mem_foldl_insert member).resolve_left List.not_mem_nil

/-- **No path is left in two spellings.** -/
theorem sortDistinct_steps_nodup (paths : List String) :
    ((sortDistinct paths).map steps).Nodup := by
  have ascending : Ascending (sortDistinct paths) := Ascending.foldl_insert List.Pairwise.nil
  apply List.pairwise_map.mpr
  apply ascending.imp
  intro left right isBelow same
  exact absurd (key_eq_iff.mpr same) (ne_of_lt isBelow)

/-- **Every path is left in one spelling.** -/
theorem mem_steps_sortDistinct {wanted : List Step} :
    wanted ∈ (sortDistinct paths).map steps ↔ wanted ∈ paths.map steps := by
  rw [sortDistinct, mem_steps_foldl_insert]
  simp

end Sorting

end Tangle.Path
