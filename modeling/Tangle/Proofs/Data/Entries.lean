import Mathlib.Data.List.Nodup

/-!
Contract: lists of entries in which every key stands once.

Owns: the value of a key, and what taking a key out and putting one in do to it.

Does **not** own: what is kept by key (`Tangle.Proofs.Cache.History`, `Tangle.Proofs.Files.Places`).
-/

set_option autoImplicit false

namespace Tangle.Entries

variable {κ α : Type} [BEq κ] [LawfulBEq κ]

def value? (entries : List (κ × α)) (key : κ) : Option α :=
  (entries.find? fun entry => entry.1 == key).map Prod.snd

def without (entries : List (κ × α)) (key : κ) : List (κ × α) :=
  entries.filter fun entry => entry.1 != key

variable (entries : List (κ × α)) (key : κ) (value : α)

theorem value?_without_self : value? (without entries key) key = none := by
  simp [value?, without]

theorem value?_without_of_ne {other : κ} (different : other ≠ key) :
    value? (without entries key) other = value? entries other := by
  have sameSearch : (fun entry : κ × α => entry.1 != key && entry.1 == other)
      = fun entry => entry.1 == other := by
    funext entry
    by_cases isOther : entry.1 = other
    · simp [isOther, different]
    · simp [isOther]
  simp only [value?, without, List.find?_filter, Bool.decide_and, Bool.decide_eq_true, sameSearch]

theorem value?_cons_self : value? ((key, value) :: entries) key = some value := by
  simp [value?]

theorem value?_cons_of_ne {other : κ} (different : other ≠ key) :
    value? ((key, value) :: entries) other = value? entries other := by
  simp [value?, different.symm]

theorem mem_keys_iff : key ∈ entries.map Prod.fst ↔ (value? entries key).isSome = true := by
  simp only [value?, Option.isSome_map, List.find?_isSome, beq_iff_eq, List.mem_map]

theorem mem_of_value? {entries : List (κ × α)} {key : κ} {value : α}
    (found : value? entries key = some value) : (key, value) ∈ entries := by
  obtain ⟨entry, isFound, rfl⟩ := Option.map_eq_some_iff.mp found
  have sameKey := List.find?_some isFound
  rw [beq_iff_eq] at sameKey
  subst sameKey
  exact List.mem_of_find?_eq_some isFound

/-- Where no key stands twice, every entry is found. -/
theorem value?_eq_some_iff {entries : List (κ × α)} (distinct : (entries.map Prod.fst).Nodup)
    (key : κ) (value : α) : value? entries key = some value ↔ (key, value) ∈ entries := by
  refine ⟨mem_of_value?, ?_⟩
  intro member
  have present : (value? entries key).isSome = true :=
    (mem_keys_iff entries key).mp (List.mem_map_of_mem (f := Prod.fst) member)
  obtain ⟨found, isFound⟩ := Option.isSome_iff_exists.mp present
  have sameEntry := List.inj_on_of_nodup_map distinct (mem_of_value? isFound) member rfl
  rw [isFound, (Prod.mk.inj sameEntry).2]

omit [LawfulBEq κ] in
theorem keys_without_nodup (distinct : (entries.map Prod.fst).Nodup) :
    ((without entries key).map Prod.fst).Nodup :=
  distinct.sublist (List.filter_sublist.map Prod.fst)

theorem keys_put_nodup (distinct : (entries.map Prod.fst).Nodup) :
    (((key, value) :: without entries key).map Prod.fst).Nodup := by
  have absent : key ∉ (without entries key).map Prod.fst := by
    rw [mem_keys_iff, value?_without_self]
    exact Bool.false_ne_true
  exact List.nodup_cons.mpr ⟨absent, keys_without_nodup entries key distinct⟩

end Tangle.Entries
