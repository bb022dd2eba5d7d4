import Tangle.Proofs.Extraction.RoundTrip

/-!
Contract: what the bound on nesting does to a tree of stages.

Owns: `truncate`, the trees that lie within a built tree, which generated files give rise to a
stage, and that a lower bound leaves out the deeper stages and nothing else.

Does **not** own: positions through the stages (`Tangle.Proofs.Extraction.RoundTrip`).

## Why a bound cannot change what it keeps

A stage is built from its text, its path and its options. None of these depends on how many
levels are left: the bound is only asked whether to follow the Markdown files of a finished stage.
So every tree within a built tree is itself the result of a build, with fewer levels left
(`PartAt.built`), and cutting a tree after building it is the same as stopping earlier
(`truncate_buildFrom`).
-/

set_option autoImplicit false

namespace Tangle

open Tangle.Generate

/-! ## Endings of Markdown files -/

def IsLetter (letter c : Char) : Prop :=
  c = letter ∨ c = letter.toUpper

/-- The capital of a letter. The distance to the capitals is added modulo the size of a word. -/
theorem toNat_toUpper {letter : Char} (small : 'a'.val ≤ letter.val ∧ letter.val ≤ 'z'.val) :
    letter.toUpper.toNat = letter.toNat - 32 := by
  have bounds : 97 ≤ letter.toNat ∧ letter.toNat ≤ 122 := small
  have isMoved : letter.toUpper.toNat = (letter.val + ('A'.val - 'a'.val)).toNat := by
    delta Char.toUpper
    rw [dif_pos small]
    rfl
  rw [isMoved, UInt32.toNat_add]
  change (letter.toNat + 4294967264) % 2 ^ 32 = letter.toNat - 32
  omega

private theorem toNat_toLower {capital : Char} (large : 'A'.val ≤ capital.val ∧ capital.val ≤ 'Z'.val) :
    capital.toLower.toNat = capital.toNat + 32 := by
  have bounds : 65 ≤ capital.toNat ∧ capital.toNat ≤ 90 := large
  have isMoved : capital.toLower.toNat = (capital.val + ('a'.val - 'A'.val)).toNat := by
    delta Char.toLower
    rw [dif_pos large]
    rfl
  rw [isMoved, UInt32.toNat_add]
  change (capital.toNat + 32) % 2 ^ 32 = capital.toNat + 32
  omega

private theorem toLower_eq_iff {letter : Char} (small : letter.isLower = true) (c : Char) :
    c.toLower = letter ↔ IsLetter letter c := by
  have within : 'a'.val ≤ letter.val ∧ letter.val ≤ 'z'.val := by
    have tested : (decide ('a'.val ≤ letter.val) && decide (letter.val ≤ 'z'.val)) = true := small
    simpa using tested
  have bounds : 97 ≤ letter.toNat ∧ letter.toNat ≤ 122 := within
  rw [IsLetter, ← Char.toNat_inj, ← Char.toNat_inj, ← Char.toNat_inj, toNat_toUpper within]
  by_cases large : 'A'.val ≤ c.val ∧ c.val ≤ 'Z'.val
  · have range : 65 ≤ c.toNat ∧ c.toNat ≤ 90 := large
    rw [toNat_toLower large]
    omega
  · have range : ¬ (65 ≤ c.toNat ∧ c.toNat ≤ 90) := large
    have unmoved : c.toLower.toNat = c.toNat := congrArg Char.toNat (dif_neg large)
    rw [unmoved]
    omega

def Spells (name text : String) : Prop :=
  List.Forall₂ IsLetter name.toList text.toList

private theorem toLower_eq_iff_spells (name text : String)
    (small : name.toList.all Char.isLower = true) :
    text.toLower = name ↔ Spells name text := by
  rw [← String.toList_inj, Spells]
  change (text.map Char.toLower).toList = name.toList ↔ _
  rw [String.toList_map]
  generalize name.toList = letters at small
  generalize text.toList = chars
  induction letters generalizing chars with
  | nil => simp
  | cons letter letters inductionHypothesis =>
      rw [List.all_cons, Bool.and_eq_true] at small
      cases chars with
      | nil => simp
      | cons c chars =>
          rw [List.map_cons, List.cons.injEq, List.forall₂_cons, toLower_eq_iff small.1,
            inductionHypothesis small.2]

/-- **Markdown files** are those whose extension spells one of two names. -/
theorem isMarkdown_iff (path : String) :
    isMarkdown path = true
      ↔ ∃ ending, Path.extension? path = some ending
          ∧ (Spells "md" ending ∨ Spells "markdown" ending) := by
  rw [isMarkdown]
  cases Path.extension? path with
  | none => simp
  | some ending =>
      have short := toLower_eq_iff_spells "md" ending (by decide)
      have long := toLower_eq_iff_spells "markdown" ending (by decide)
      simp [short, long]

namespace Extraction

/-! ## Trees cut off at a level -/

/-- The tree without the stages that lie more than `depth` levels below its first. -/
def truncate : Nat → Extraction → Extraction
  | 0, node stage _ => node stage []
  | depth + 1, node stage nested => node stage (nested.map (truncate depth))

/-- **Stopping earlier is cutting off.** -/
theorem truncate_buildFrom (shallow deep : Nat) (text sourcePath : String)
    (origin : Option String) (options : Options) :
    truncate shallow (buildFrom deep text sourcePath origin options)
      = buildFrom (min shallow deep) text sourcePath origin options := by
  induction shallow generalizing deep text sourcePath origin options with
  | zero =>
      rw [Nat.zero_min]
      cases deep <;> rfl
  | succ shallow inductionHypothesis =>
      cases deep with
      | zero => rfl
      | succ deep =>
          rw [Nat.succ_min_succ, buildFrom, buildFrom, truncate, List.map_map]
          apply congrArg
          apply List.map_congr_left
          intro file _
          exact inductionHypothesis deep _ _ _ _

mutual

def leveled (level : Nat) : Extraction → List (Nat × Stage)
  | node stage nested => (level, stage) :: leveledAll (level + 1) nested

def leveledAll (level : Nat) : List Extraction → List (Nat × Stage)
  | [] => []
  | child :: rest => leveled level child ++ leveledAll level rest

end

mutual

private theorem map_leveled (level : Nat) : ∀ tree, (leveled level tree).map Prod.snd = stages tree
  | node stage nested => by
      rw [leveled, stages, List.map_cons, map_leveledAll (level + 1) nested]

private theorem map_leveledAll (level : Nat) :
    ∀ nested, (leveledAll level nested).map Prod.snd = stagesOfAll nested
  | [] => rfl
  | child :: rest => by
      rw [leveledAll, stagesOfAll, List.map_append, map_leveled level child,
        map_leveledAll level rest]

end

mutual

/-- Levels count up from the first stage. -/
theorem le_of_mem_leveled {level : Nat} {entry : Nat × Stage} :
    ∀ tree, entry ∈ leveled level tree → level ≤ entry.1
  | node stage nested, member => by
      rw [leveled, List.mem_cons] at member
      cases member with
      | inl isFirst => rw [isFirst]
      | inr below => exact Nat.le_of_succ_le (le_of_mem_leveledAll nested below)

private theorem le_of_mem_leveledAll {level : Nat} {entry : Nat × Stage} :
    ∀ nested, entry ∈ leveledAll level nested → level ≤ entry.1
  | [], member => by cases member
  | child :: rest, member => by
      rw [leveledAll, List.mem_append] at member
      cases member with
      | inl inChild => exact le_of_mem_leveled child inChild
      | inr later => exact le_of_mem_leveledAll rest later

end

mutual

/-- **Cutting off removes the deeper stages,** and the others stay in their order. -/
theorem leveled_truncate (level depth : Nat) :
    ∀ tree, leveled level (truncate depth tree)
      = (leveled level tree).filter fun entry => entry.1 ≤ level + depth
  | node stage nested => by
      cases depth with
      | zero =>
          have nothing : (leveledAll (level + 1) nested).filter
              (fun entry => decide (entry.1 ≤ level + 0)) = [] := by
            apply List.filter_eq_nil_iff.mpr
            intro entry member
            have deeper := le_of_mem_leveledAll nested member
            simp
            omega
          rw [truncate, leveled, leveled, List.filter_cons_of_pos (by simp), nothing, leveledAll]
      | succ depth =>
          have sameBound : level + (depth + 1) = level + 1 + depth := by omega
          rw [truncate, leveled, leveled, List.filter_cons_of_pos (by simp),
            leveledAll_truncate (level + 1) depth nested, sameBound]

private theorem leveledAll_truncate (level depth : Nat) :
    ∀ nested, leveledAll level (nested.map (truncate depth))
      = (leveledAll level nested).filter fun entry => entry.1 ≤ level + depth
  | [] => rfl
  | child :: rest => by
      rw [List.map_cons, leveledAll, leveledAll, List.filter_append,
        leveled_truncate level depth child, leveledAll_truncate level depth rest]

end

/-! ## Trees within a tree -/

/-- `part` is the tree itself, or lies within it, `level` levels down. -/
inductive PartAt : Extraction → Nat → Extraction → Prop
  | whole (tree : Extraction) : PartAt tree 0 tree
  | within {tree child part : Extraction} {level : Nat} (member : child ∈ tree.nested)
      (inside : PartAt child level part) : PartAt tree (level + 1) part

/-- **A tree within a built tree was built,** with the levels that were left. -/
theorem PartAt.built {depth level : Nat} {text sourcePath : String} {origin : Option String}
    {options : Options} {part : Extraction}
    (inside : PartAt (buildFrom depth text sourcePath origin options) level part) :
    level ≤ depth ∧ ∃ ownText ownPath ownOrigin ownOptions,
      part = buildFrom (depth - level) ownText ownPath ownOrigin ownOptions := by
  generalize isTree : buildFrom depth text sourcePath origin options = tree at inside
  induction inside generalizing depth text sourcePath origin options with
  | whole tree => exact ⟨Nat.zero_le _, text, sourcePath, origin, options, isTree.symm⟩
  | within member inside inductionHypothesis =>
      subst isTree
      cases depth with
      | zero => cases member
      | succ depth =>
          obtain ⟨file, -, isChild⟩ := List.mem_map.mp member
          obtain ⟨bound, isBuilt⟩ := inductionHypothesis isChild
          rw [Nat.succ_sub_succ]
          exact ⟨Nat.succ_le_succ bound, isBuilt⟩

/-- The children of a stage that has a level left are those of its Markdown files. -/
theorem nested_buildFrom (depth : Nat) (text sourcePath : String) (origin : Option String)
    (options : Options) :
    let built := buildFrom (depth + 1) text sourcePath origin options
    built.nested.map (fun child => (child.stage.origin, child.stage.text, child.stage.sourcePath))
      = (built.stage.generation.files.filter fun file => isMarkdown file.path).map
          fun file => (some file.path, file.content, built.stage.outputPath file) := by
  intro built
  have isNested : built.nested = built.stage.markdownFiles.map fun file =>
      buildFrom depth file.content (built.stage.outputPath file) (some file.path) {} := rfl
  rw [isNested, List.map_map]
  apply List.map_congr_left
  intro file _
  cases depth <;> rfl

/-! ## The bound -/

/-- **A bound on nesting only cuts off.** With a lower bound a tree lacks the stages below it, and
the others are the same, in the same order. A stage above the bound has one child for each
Markdown file that it generates, read from that file; a stage on the bound has none. Outputs come
stage by stage, so those of the first stage are ahead of all others. -/
theorem depth_limit_truncates (text sourcePath : String) (options : Options) (shallow deep : Nat)
    (lower : shallow ≤ deep) :
    buildWithin shallow text sourcePath options
        = truncate shallow (buildWithin deep text sourcePath options)
    ∧ (leveled 0 (buildWithin deep text sourcePath options)).map Prod.snd
        = (buildWithin deep text sourcePath options).stages
    ∧ leveled 0 (buildWithin shallow text sourcePath options)
        = (leveled 0 (buildWithin deep text sourcePath options)).filter
            (fun entry => entry.1 ≤ shallow)
    ∧ (∀ level part, PartAt (buildWithin deep text sourcePath options) level part →
        level ≤ deep
        ∧ (level = deep → part.nested = [])
        ∧ (level < deep →
            part.nested.map
                (fun child => (child.stage.origin, child.stage.text, child.stage.sourcePath))
              = (part.stage.generation.files.filter fun file => isMarkdown file.path).map
                  fun file => (some file.path, file.content, part.stage.outputPath file)))
    ∧ (∀ path, isMarkdown path = true
        ↔ ∃ ending, Path.extension? path = some ending
            ∧ (Spells "md" ending ∨ Spells "markdown" ending))
    ∧ (buildWithin deep text sourcePath options).allOutputs
        = (buildWithin deep text sourcePath options).stages.flatMap (fun stage =>
            stage.generation.files.map fun file => (stage.outputPath file, file.content))
    ∧ (buildWithin 0 text sourcePath options).allOutputs
        <+: (buildWithin deep text sourcePath options).allOutputs := by
  have isCut : buildWithin shallow text sourcePath options
      = truncate shallow (buildWithin deep text sourcePath options) := by
    rw [buildWithin, buildWithin, truncate_buildFrom, Nat.min_eq_left lower]
  refine ⟨isCut, map_leveled 0 _, ?_, ?_, isMarkdown_iff, allOutputs_eq_flatMap _, ?_⟩
  · rw [isCut, leveled_truncate, Nat.zero_add]
  · intro level part inside
    obtain ⟨bound, ownText, ownPath, ownOrigin, ownOptions, rfl⟩ := inside.built
    refine ⟨bound, ?_, ?_⟩
    · intro atBound
      rw [atBound, Nat.sub_self]
      rfl
    · intro below
      obtain ⟨left, isLeft⟩ := Nat.exists_eq_add_of_lt below
      have levels : deep - level = left + 1 := by omega
      rw [levels]
      exact nested_buildFrom left ownText ownPath ownOrigin ownOptions
  · have isFirst : (buildWithin 0 text sourcePath options).allOutputs
        = (Stage.build text sourcePath none options).outputs := List.append_nil _
    rw [isFirst]
    cases deep <;> exact List.prefix_append _ _

/-- With no level left the inner guide is generated, but not read; with two it has no child,
because what it generates is no document. -/
theorem depth_limit_truncates_guide :
    0 ≤ 2
    ∧ buildWithin 0 nestedGuide "g.md" {} = truncate 0 (buildWithin 2 nestedGuide "g.md" {})
    ∧ (buildWithin 2 nestedGuide "g.md" {}).nested.map
          (fun child => (child.stage.origin, child.stage.text, child.stage.sourcePath))
        = [(some "a.md", "<!-- @codeblock b.c -->\n ```\n x\n ```", ".examples/a.md")]
    ∧ [(".examples/a.md", "<!-- @codeblock b.c -->\n ```\n x\n ```")]
        <+: (buildWithin 2 nestedGuide "g.md" {}).allOutputs := by
  obtain ⟨isCut, -, -, parts, -, -, outputs⟩ :=
    depth_limit_truncates nestedGuide "g.md" {} 0 2 (by decide)
  have children := (parts 0 (buildWithin 2 nestedGuide "g.md" {}) (PartAt.whole _)).2.2 (by decide)
  have first : (buildWithin 0 nestedGuide "g.md" {}).allOutputs
      = [(".examples/a.md", "<!-- @codeblock b.c -->\n ```\n x\n ```")] := by decide +kernel
  rw [first] at outputs
  refine ⟨by decide, isCut, ?_, outputs⟩
  rw [children]
  decide +kernel

end Extraction

end Tangle
