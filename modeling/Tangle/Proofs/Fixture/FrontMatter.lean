import Tangle.Fixture.Run
import Tangle.Proofs.Text.Lines

/-!
Contract: a fixture file is taken apart at its two delimiter lines.

Owns: `fixtureText`, the file made of a header and a body; that it is split into just these, and the
header for which it is not.

Does **not** own: what the header says (`Tangle.Toml.Decode`).

## Why a header needs a line

The opening delimiter takes its line break with it, and the closing one is looked for together with
the line break in front of it. With a line in between these are two line breaks. Without one they
are the same, and it is gone when the search starts.
-/

set_option autoImplicit false

namespace Tangle.Fixture

/-! ## Files with front matter -/

inductive LineBreak where
  | feed
  | returnFeed
  deriving DecidableEq, Repr, Inhabited

def LineBreak.lead : LineBreak → List Char
  | feed => []
  | returnFeed => ['\r']

def LineBreak.chars (lineBreak : LineBreak) : List Char :=
  lineBreak.lead ++ ['\n']

/-- A line that can stand in a header: it is one line and no delimiter. -/
def IsHeaderLine (line : List Char) : Prop :=
  '\n' ∉ line ∧ ¬ delimiter <+: line

instance : DecidablePred IsHeaderLine := fun _ => inferInstanceAs (Decidable (_ ∧ _))

def brokenLines (lineBreak : LineBreak) (lines : List (List Char)) : List Char :=
  lines.flatMap (· ++ lineBreak.chars)

def joinedLines (lineBreak : LineBreak) (lines : List (List Char)) : List Char :=
  lineBreak.chars.intercalate lines

/-- What follows the closing delimiter: its line break and the body, or the end of the file. -/
def Closes (lineBreak : LineBreak) (tail body : List Char) : Prop :=
  tail = lineBreak.chars ++ body ∨ (tail = [] ∧ body = [])

/-- A fixture file: byte order marks, a delimiter line, header lines, a delimiter, and what follows. -/
def fixtureText (marks : Nat) (lineBreak : LineBreak) (lines : List (List Char)) (tail : List Char) :
    String :=
  String.ofList (List.replicate marks '\ufeff' ++ delimiter ++ lineBreak.chars
    ++ brokenLines lineBreak lines ++ delimiter ++ tail)

/-! ## The search for the closing delimiter -/

section Search

variable {mark : Char} {pattern line rest : List Char}

/-- Nothing is found within a line. -/
theorem findSplit?_append_free (free : mark ∉ line) :
    Text.findSplit? (mark :: pattern) (line ++ rest)
      = (Text.findSplit? (mark :: pattern) rest).map fun found => (line ++ found.1, found.2) := by
  induction line with
  | nil => exact (congrFun Option.map_id _).symm
  | cons c later inductionHypothesis =>
      rw [List.mem_cons, not_or] at free
      have notHere : Text.stripLead? (mark :: pattern) (c :: (later ++ rest)) = none := by
        rw [Text.stripLead?, if_neg]
        rw [List.isPrefixOf_iff_prefix, List.cons_prefix_cons]
        exact fun found => free.1 found.1
      rw [List.cons_append, Text.findSplit?, notHere, inductionHypothesis free.2, Option.map_map]
      rfl

private theorem findSplit?_here (after : List Char) :
    Text.findSplit? (mark :: pattern) (mark :: (pattern ++ after)) = some ([], after) := by
  have here : Text.stripLead? (mark :: pattern) (mark :: (pattern ++ after)) = some after := by
    rw [Text.stripLead?, if_pos]
    · exact congrArg some (@List.drop_left _ (mark :: pattern) after)
    · rw [List.isPrefixOf_iff_prefix, List.cons_prefix_cons]
      exact ⟨rfl, List.prefix_append pattern after⟩
  rw [Text.findSplit?, here]

/-- A mark that another text follows is passed over. -/
theorem findSplit?_passes (other : ¬ pattern <+: rest) :
    Text.findSplit? (mark :: pattern) (mark :: rest)
      = (Text.findSplit? (mark :: pattern) rest).map fun found => (mark :: found.1, found.2) := by
  have notHere : Text.stripLead? (mark :: pattern) (mark :: rest) = none := by
    rw [Text.stripLead?, if_neg]
    rw [List.isPrefixOf_iff_prefix, List.cons_prefix_cons]
    exact fun found => other found.2
  rw [Text.findSplit?, notHere]

end Search

section Header

variable {lineBreak : LineBreak}

private theorem LineBreak.feed_not_mem_lead (lineBreak : LineBreak) : '\n' ∉ lineBreak.lead := by
  cases lineBreak <;> decide

private theorem dropLineBreak_chars (lineBreak : LineBreak) (rest : List Char) :
    dropLineBreak (lineBreak.chars ++ rest) = rest := by
  cases lineBreak <;> rfl

/-- A line is no delimiter because of what follows it. -/
theorem delimiter_prefix_iff (lineBreak : LineBreak) (line rest : List Char) :
    delimiter <+: line ++ lineBreak.chars ++ rest ↔ delimiter <+: line := by
  rw [List.append_assoc]
  cases lineBreak with
  | feed => exact Text.prefix_append_mark_iff (by decide) line rest
  | returnFeed => exact Text.prefix_append_mark_iff (by decide) line ('\n' :: rest)

/-- **The first delimiter behind a line break is the closing one.** -/
theorem findSplit?_header {lines : List (List Char)} (filled : lines ≠ [])
    (proper : ∀ line ∈ lines, IsHeaderLine line) (tail : List Char) :
    Text.findSplit? ('\n' :: delimiter) (brokenLines lineBreak lines ++ delimiter ++ tail)
      = some (joinedLines lineBreak lines ++ lineBreak.lead, tail) := by
  induction lines with
  | nil => exact absurd rfl filled
  | cons line others inductionHypothesis =>
      obtain ⟨isLine, later⟩ := List.forall_mem_cons.mp proper
      have free : '\n' ∉ line ++ lineBreak.lead := by
        rw [List.mem_append, not_or]
        exact ⟨isLine.1, lineBreak.feed_not_mem_lead⟩
      have isText : brokenLines lineBreak (line :: others) ++ delimiter ++ tail
          = (line ++ lineBreak.lead)
            ++ '\n' :: (brokenLines lineBreak others ++ delimiter ++ tail) := by
        simp [brokenLines, LineBreak.chars]
      rw [isText, findSplit?_append_free free]
      cases others with
      | nil =>
          have closing : brokenLines lineBreak [] ++ delimiter ++ tail = delimiter ++ tail := rfl
          rw [closing, findSplit?_here]
          simp [joinedLines]
      | cons next more =>
          have another : ¬ delimiter <+: brokenLines lineBreak (next :: more) ++ delimiter ++ tail := by
            have isNext : brokenLines lineBreak (next :: more) ++ delimiter ++ tail
                = next ++ lineBreak.chars ++ (brokenLines lineBreak more ++ delimiter ++ tail) := by
              simp [brokenLines]
            rw [isNext, delimiter_prefix_iff]
            exact (later next List.mem_cons_self).2
          rw [findSplit?_passes another, inductionHypothesis (List.cons_ne_nil _ _) later]
          simp [joinedLines, LineBreak.chars]

private theorem LineBreak.getLast?_chars (lineBreak : LineBreak) :
    lineBreak.chars.getLast? = some '\n' :=
  List.getLast?_concat

/-- Lines that are put together end in a carriage return only if the last of them does. -/
theorem getLast?_joinedLines {lines : List (List Char)}
    (unreturned : ∀ line ∈ lines.getLast?, line.getLast? ≠ some '\r') :
    (joinedLines lineBreak lines).getLast? ≠ some '\r' := by
  induction lines with
  | nil => exact Option.some_ne_none _ |>.symm
  | cons line others inductionHypothesis =>
      by_cases only : others = []
      · subst only
        rw [joinedLines, List.intercalate_singleton]
        exact unreturned line rfl
      · have isEnd := inductionHypothesis (by rwa [List.getLast?_cons_of_ne_nil only] at unreturned)
        rw [joinedLines, List.intercalate_cons_of_ne_nil only, List.append_assoc,
          List.getLast?_append, List.getLast?_append, lineBreak.getLast?_chars]
        rw [joinedLines] at isEnd
        cases isLast : (lineBreak.chars.intercalate others).getLast? with
        | none => simp
        | some c =>
            rw [isLast] at isEnd
            exact isEnd

/-- The carriage return of the last line break is dropped, and no other. -/
theorem dropTailWhile_joinedLines {lines : List (List Char)}
    (unreturned : ∀ line ∈ lines.getLast?, line.getLast? ≠ some '\r') :
    Text.dropTailWhile (· == '\r') (joinedLines lineBreak lines ++ lineBreak.lead)
      = joinedLines lineBreak lines := by
  have kept : (joinedLines lineBreak lines).rdropWhile (· == '\r') = joinedLines lineBreak lines := by
    rw [List.rdropWhile_eq_self_iff]
    intro filled
    have isEnd := @getLast?_joinedLines lineBreak lines unreturned
    rw [List.getLast?_eq_some_getLast filled] at isEnd
    simpa using isEnd
  rw [Text.dropTailWhile_eq_rdropWhile]
  cases lineBreak with
  | feed => rw [LineBreak.lead, List.append_nil, kept]
  | returnFeed => rw [LineBreak.lead, List.rdropWhile_concat_pos _ _ _ rfl, kept]

private theorem dropLineBreak_of_closes {tail body : List Char} (closes : Closes lineBreak tail body) :
    dropLineBreak tail = body := by
  rcases closes with rfl | ⟨rfl, rfl⟩
  · exact dropLineBreak_chars lineBreak body
  · rfl

/-- The opening delimiter is found, and the closing one is looked for behind its line. -/
theorem split_fixtureText (marks : Nat) (lineBreak : LineBreak) (lines : List (List Char))
    (tail : List Char) :
    split (fixtureText marks lineBreak lines tail)
      = match Text.findSplit? ('\n' :: delimiter)
            (brokenLines lineBreak lines ++ delimiter ++ tail) with
        | none => .error .closing
        | some (header, rest) =>
            .ok ⟨String.ofList (Text.dropTailWhile (· == '\r') header),
              String.ofList (dropLineBreak rest)⟩ := by
  have unmarked : (fixtureText marks lineBreak lines tail).toList.dropWhile (· == '\ufeff')
      = delimiter ++ (lineBreak.chars ++ (brokenLines lineBreak lines ++ delimiter ++ tail)) := by
    rw [fixtureText, String.toList_ofList]
    simp only [List.append_assoc]
    rw [List.dropWhile_append_of_pos]
    · rfl
    · intro c isIn
      rw [List.eq_of_mem_replicate isIn]
      rfl
  rw [split, unmarked]
  show (match Text.findSplit? ('\n' :: delimiter) (dropLineBreak (lineBreak.chars ++ _)) with
    | none => _
    | some (header, rest) => _) = _
  rw [dropLineBreak_chars]

end Header

/-! ## Main statement -/

/-- Without a line the closing delimiter is no end of the header: it is not found, or it is in it. -/
theorem split_without_lines (marks : Nat) (lineBreak : LineBreak) (tail : List Char) (body : String) :
    split (fixtureText marks lineBreak [] tail) ≠ .ok ⟨"", body⟩ := by
  have isText : brokenLines lineBreak [] ++ delimiter ++ tail = delimiter ++ tail := rfl
  rw [split_fixtureText, isText, findSplit?_append_free (by decide)]
  cases Text.findSplit? ('\n' :: delimiter) tail with
  | none =>
      intro isSplit
      cases isSplit
  | some found =>
      intro isSplit
      have isHeader := congrArg FrontMatter.header (Except.ok.inj isSplit)
      have dropped := congrArg String.toList isHeader
      rw [Text.dropTailWhile_eq_rdropWhile, String.toList_ofList, String.toList_empty,
        List.rdropWhile_eq_nil_iff] at dropped
      exact absurd (dropped '-' List.mem_cons_self) (by decide)

/-- **Front matter is split at its delimiter lines** exactly if there is a line between them: the
header is its lines put together again and is read as TOML, and the body is all that follows. -/
theorem front_matter_splits (marks : Nat) (lineBreak : LineBreak) (lines : List (List Char))
    (tail body : List Char) (proper : ∀ line ∈ lines, IsHeaderLine line)
    (unreturned : ∀ line ∈ lines.getLast?, line.getLast? ≠ some '\r')
    (closes : Closes lineBreak tail body) :
    let content := fixtureText marks lineBreak lines tail
    let header := String.ofList (joinedLines lineBreak lines)
    (split content = .ok ⟨header, String.ofList body⟩ ↔ lines ≠ [])
      ∧ (lines ≠ [] → parseFixture content
          = match Expectation.parse header with
            | .error message => .error ("TOML parse error: " ++ message)
            | .ok expectation => .ok (expectation, String.ofList body)) := by
  intro content header
  have splits : lines ≠ [] → split content = .ok ⟨header, String.ofList body⟩ := by
    intro filled
    rw [split_fixtureText, findSplit?_header filled proper]
    dsimp only
    rw [dropTailWhile_joinedLines unreturned, dropLineBreak_of_closes closes]
  refine ⟨⟨fun isSplit none => ?_, splits⟩, fun filled => ?_⟩
  · subst none
    exact split_without_lines marks lineBreak tail (String.ofList body) isSplit
  · cases parsed : Expectation.parse header <;> simp only [parseFixture, splits filled, parsed]

theorem front_matter_splits_broken :
    (∀ line ∈ ["out_dir = \"gen\"".toList, [], "#---".toList], IsHeaderLine line)
      ∧ Closes .returnFeed "\r\n---\nbody".toList "---\nbody".toList
      ∧ split "\ufeff---\r\nout_dir = \"gen\"\r\n\r\n#---\r\n---\r\n---\nbody"
        = .ok ⟨"out_dir = \"gen\"\r\n\r\n#---", "---\nbody"⟩ := by
  have proper : ∀ line ∈ ["out_dir = \"gen\"".toList, [], "#---".toList], IsHeaderLine line := by decide
  have closes : Closes .returnFeed "\r\n---\nbody".toList "---\nbody".toList := Or.inl (by decide)
  have splits := front_matter_splits 1 .returnFeed _ _ _ proper (by decide) closes
  exact ⟨proper, closes, splits.1.mpr (List.cons_ne_nil _ _)⟩

/-- A header without lines is good TOML and expects nothing, but its file has no closing delimiter. -/
theorem empty_front_matter_refused :
    fixtureText 0 .feed [] "\n# Body\n".toList = "---\n---\n# Body\n"
      ∧ Expectation.parse (String.ofList (joinedLines .feed [])) = .ok {}
      ∧ split "---\n---\n# Body\n" = .error .closing
      ∧ parseFixture "---\n---\n# Body\n" = .error "missing closing --- frontmatter delimiter" := by
  decide +kernel

end Tangle.Fixture
