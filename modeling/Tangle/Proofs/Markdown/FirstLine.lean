import Tangle.Markdown.Block

/-!
Contract: what is asked about the start of a text is answered by its first line.

Owns: `Shut`, which says that the first line of a text ends before something that
follows it, and, for every question asked at the start of a line, that what follows
does not change the answer.

Does **not** own: readers that go on to a second line
(`Tangle.Proofs.Markdown.Region`).

Every lemma here has the same form: the answer for `text ++ later` is the answer for
`text`. A reader can then be followed line by line through a text whose end has been
replaced.
-/

set_option autoImplicit false

namespace Tangle.Markdown

/-- The first line of `text ++ later` ends within `text`. -/
def Shut (text later : List Char) : Prop :=
  '\n' ∈ text ∨ later = []

theorem Shut.nil (text : List Char) : Shut text [] :=
  Or.inr rfl

theorem Shut.later_eq_nil {later : List Char} (shut : Shut [] later) : later = [] :=
  shut.resolve_left List.not_mem_nil

theorem Shut.tail {c : Char} {text later : List Char} (shut : Shut (c :: text) later)
    (other : c ≠ '\n') : Shut text later := by
  rcases shut with feed | nothing
  · exact Or.inl ((List.mem_cons.mp feed).resolve_left (Ne.symm other))
  · exact Or.inr nothing

/-- Behind characters that are no line feeds, the line still ends in `text`. -/
theorem Shut.drop {text later : List Char} (shut : Shut text later) {count : Nat}
    (free : '\n' ∉ text.take count) : Shut (text.drop count) later := by
  rcases shut with feed | nothing
  · rw [← List.take_append_drop count text, List.mem_append] at feed
    exact Or.inl (feed.resolve_left free)
  · exact Or.inr nothing

/-! ## Runs of characters -/

theorem countWhile_cons (keep : Char → Bool) (c : Char) (text : List Char) :
    countWhile keep (c :: text) = if keep c then countWhile keep text + 1 else 0 := by
  unfold countWhile
  rw [List.takeWhile_cons]
  split <;> simp

theorem countWhile_le (keep : Char → Bool) (text : List Char) :
    countWhile keep text ≤ text.length :=
  (List.takeWhile_prefix keep).length_le

section Runs

variable {text later : List Char} (shut : Shut text later) (keep : Char → Bool)
  (stops : keep '\n' = false)
include shut stops

theorem takeWhile_append_shut : (text ++ later).takeWhile keep = text.takeWhile keep := by
  induction text with
  | nil => rw [shut.later_eq_nil]; rfl
  | cons c rest inductionHypothesis =>
      rw [List.cons_append, List.takeWhile_cons, List.takeWhile_cons]
      by_cases kept : keep c
      · have other : c ≠ '\n' := by
          rintro rfl
          exact absurd kept (by rw [stops]; exact Bool.false_ne_true)
        rw [if_pos kept, if_pos kept, inductionHypothesis (shut.tail other)]
      · rw [if_neg kept, if_neg kept]

theorem countWhile_append : countWhile keep (text ++ later) = countWhile keep text := by
  rw [countWhile, takeWhile_append_shut shut keep stops]
  rfl

/-- Behind a run that no line feed belongs to, the line still ends in `text`. -/
theorem Shut.behind : Shut (text.drop (countWhile keep text)) later := by
  induction text with
  | nil => exact Or.inr shut.later_eq_nil
  | cons c rest inductionHypothesis =>
      rw [countWhile_cons]
      by_cases kept : keep c
      · have other : c ≠ '\n' := by
          rintro rfl
          exact absurd kept (by rw [stops]; exact Bool.false_ne_true)
        rw [if_pos kept, List.drop_succ_cons]
        exact inductionHypothesis (shut.tail other)
      · rw [if_neg kept, List.drop_zero]
        exact shut

end Runs

theorem drop_countWhile_append (keep : Char → Bool) (text later : List Char) :
    (text ++ later).drop (countWhile keep text) = text.drop (countWhile keep text) ++ later :=
  List.drop_append_of_le_length (countWhile_le keep text)

theorem lineLength_le (text : List Char) : lineLength text ≤ text.length := by
  induction text with
  | nil => exact Nat.le_refl 0
  | cons c rest inductionHypothesis =>
      rw [lineLength, List.length_cons]
      split <;> omega

theorem lineLength_append {text later : List Char} (shut : Shut text later) :
    lineLength (text ++ later) = lineLength text := by
  induction text with
  | nil => rw [shut.later_eq_nil]; rfl
  | cons c rest inductionHypothesis =>
      rw [List.cons_append, lineLength, lineLength]
      by_cases feed : c = '\n'
      · rw [if_pos feed, if_pos feed]
      · rw [if_neg feed, if_neg feed, inductionHypothesis (shut.tail feed)]

theorem take_lineLength_append {text later : List Char} (shut : Shut text later) :
    (text ++ later).take (lineLength (text ++ later)) = text.take (lineLength text) := by
  rw [lineLength_append shut, List.take_append_of_le_length (lineLength_le text)]

theorem head?_append_shut {text later : List Char} (shut : Shut text later) :
    (text ++ later).head? = text.head? := by
  cases text with
  | nil => rw [shut.later_eq_nil]; rfl
  | cons c rest => rfl

/-! ## Line ends -/

theorem lineEnd?_append {text later : List Char} (shut : Shut text later) :
    lineEnd? (text ++ later) = lineEnd? text := by
  match text, shut with
  | [], shut => rw [shut.later_eq_nil]; rfl
  | [c], shut =>
      by_cases feed : c = '\n'
      · subst feed; rfl
      · rw [(shut.tail feed).later_eq_nil]; rfl
  | c :: d :: rest, _ =>
      simp only [List.cons_append]
      by_cases feed : c = '\n'
      · subst feed; rfl
      · by_cases ret : c = '\r'
        · subst ret
          by_cases second : d = '\n'
          · subst second; rfl
          · simp [lineEnd?, second]
        · simp [lineEnd?, feed, ret]

theorem blankLine?_append {text later : List Char} (shut : Shut text later) :
    blankLine? (text ++ later) = blankLine? text := by
  simp only [blankLine?, countWhile_append shut isPad rfl, drop_countWhile_append,
    lineEnd?_append (shut.behind isPad rfl)]

theorem lineEnd?_le {text : List Char} {ending : Nat} (ends : lineEnd? text = some ending) : ending ≤ text.length := by
  unfold lineEnd? at ends
  split at ends <;> cases ends <;> simp

theorem blankLine?_le {text : List Char} {length : Nat} (blank : blankLine? text = some length) :
    length ≤ text.length := by
  simp only [blankLine?, Option.map_eq_some_iff] at blank
  obtain ⟨ending, ends, rfl⟩ := blank
  have within := lineEnd?_le ends
  have run := countWhile_le isPad text
  rw [List.length_drop] at within
  omega

/-! ## Rests of a line -/

section Rests

variable {text later : List Char}

/-- Two answers that are rests of a line, the second one in a text that goes on. -/
def RestAlike (later : List Char) (here there : Option (List Char)) : Prop :=
  there = here.map (· ++ later) ∧ ∀ rest ∈ here, Shut rest later

theorem RestAlike.nil (text : Option (List Char)) : RestAlike [] text text :=
  ⟨by simp, fun _ _ => Shut.nil _⟩

/-- Answers stay alike when the same question is asked about alike rests. -/
theorem RestAlike.bind {here there : Option (List Char)}
    {ask askThere : List Char → Option (List Char)} (alike : RestAlike later here there)
    (askAlike : ∀ rest ∈ here, Shut rest later →
      RestAlike later (ask rest) (askThere (rest ++ later))) :
    RestAlike later (here.bind ask) (there.bind askThere) := by
  obtain ⟨rfl, shut⟩ := alike
  cases here with
  | none => exact ⟨rfl, by simp⟩
  | some rest => exact askAlike rest rfl (shut rest rfl)

theorem dropWhile_append_shut (shut : Shut text later) (keep : Char → Bool)
    (stops : keep '\n' = false) :
    (text ++ later).dropWhile keep = text.dropWhile keep ++ later
      ∧ Shut (text.dropWhile keep) later := by
  induction text with
  | nil => simp [shut.later_eq_nil, Shut.nil]
  | cons c rest inductionHypothesis =>
      rw [List.cons_append, List.dropWhile_cons, List.dropWhile_cons]
      by_cases kept : keep c
      · rw [if_pos kept, if_pos kept]
        refine inductionHypothesis (shut.tail ?_)
        rintro rfl
        exact absurd kept (by rw [stops]; exact Bool.false_ne_true)
      · rw [if_neg kept, if_neg kept]
        exact ⟨rfl, shut⟩

end Rests

/-! ## Leads -/

namespace Lead

/-- `later` is where `lead` gets by taking characters of its line. -/
def Passes (lead later : Lead) : Prop :=
  ∃ ahead, lead.rest = ahead ++ later.rest ∧ later.taken = lead.taken + ahead.length
    ∧ '\n' ∉ ahead

theorem Passes.refl (lead : Lead) : Passes lead lead :=
  ⟨[], rfl, rfl, List.not_mem_nil⟩

theorem Passes.trans {first second third : Lead} (before : Passes first second)
    (after : Passes second third) : Passes first third := by
  obtain ⟨ahead, split, taken, free⟩ := before
  obtain ⟨ahead', split', taken', free'⟩ := after
  refine ⟨ahead ++ ahead', ?_, ?_, ?_⟩
  · rw [split, split', List.append_assoc]
  · rw [taken', taken, List.length_append, Nat.add_assoc]
  · simp only [List.mem_append, not_or]
    exact ⟨free, free'⟩

theorem Passes.shut {first second : Lead} (passes : Passes first second) {later : List Char}
    (shut : Shut first.rest later) : Shut second.rest later := by
  obtain ⟨ahead, split, -, free⟩ := passes
  rcases shut with feed | nothing
  · rw [split, List.mem_append] at feed
    exact Or.inl (feed.resolve_left free)
  · exact Or.inr nothing

/-- What a lead has taken is what its rest lacks. -/
theorem Passes.length_add {first second : Lead} (passes : Passes first second) :
    second.rest.length + second.taken = first.rest.length + first.taken
      ∧ first.taken ≤ second.taken := by
  obtain ⟨ahead, split, taken, -⟩ := passes
  rw [split, taken, List.length_append]
  omega

/-- A lead that starts a text stands where its count of characters says. -/
theorem Passes.rest_eq {text : List Char} {lead : Lead} (passes : Passes { rest := text } lead) :
    lead.rest = text.drop lead.taken ∧ lead.taken ≤ text.length
      ∧ '\n' ∉ text.take lead.taken := by
  obtain ⟨ahead, split, taken, free⟩ := passes
  dsimp only at split taken
  rw [Nat.zero_add] at taken
  rw [split, taken, List.drop_left, List.take_left, List.length_append]
  exact ⟨rfl, Nat.le_add_right _ _, free⟩

private theorem passes_skip (lead : Lead) {count : Nat} (inside : count ≤ lead.rest.length)
    (free : '\n' ∉ lead.rest.take count) : Passes lead (lead.skip count) :=
  ⟨lead.rest.take count, (List.take_append_drop _ _).symm, by
    rw [List.length_take, Nat.min_eq_left inside]; rfl, free⟩

/-- Taking columns never takes a line feed. -/
theorem passes_takeColumns :
    ∀ (chars : List Char) (lead : Lead) (count : Nat), lead.rest = chars →
      Passes lead (takeColumns chars lead count).1
  | chars, lead, 0, _ => by
      rw [takeColumns]
      exact Passes.refl lead
  | [], lead, count + 1, _ => Passes.refl lead
  | c :: rest, lead, count + 1, isRest => by
      rw [takeColumns]
      by_cases space : c = ' '
      · subst space
        rw [if_pos rfl]
        have onward := passes_takeColumns rest
          { lead with rest := rest, taken := lead.taken + 1 } count rfl
        refine Passes.trans ?_ onward
        exact ⟨[' '], isRest, rfl, by decide⟩
      · rw [if_neg space]
        by_cases tab : c = '\t'
        · subst tab
          rw [if_pos rfl]
          have onward := passes_takeColumns rest
            { rest := rest, taken := lead.taken + 1, tabStart := lead.taken + 1
              pending := 4 - (lead.taken - lead.tabStart) % 4
                - min (4 - (lead.taken - lead.tabStart) % 4) (count + 1) }
            (count + 1 - min (4 - (lead.taken - lead.tabStart) % 4) (count + 1)) rfl
          refine Passes.trans ?_ onward
          exact ⟨['\t'], isRest, rfl, by decide⟩
        · rw [if_neg tab]
          exact Passes.refl lead

private theorem passes_takeSpace (lead : Lead) (count : Nat) : Passes lead (lead.takeSpace count).1 :=
  passes_takeColumns lead.rest { lead with pending := lead.pending - min lead.pending count }
    (count - min lead.pending count) rfl

theorem passes_space (lead : Lead) (count : Nat) : Passes lead (lead.space count).1 :=
  passes_takeSpace lead count

theorem passes_spaceUpTo (lead : Lead) (count : Nat) : Passes lead (lead.spaceUpTo count).1 :=
  passes_takeSpace lead count

theorem passes_allSpace (lead : Lead) : Passes lead lead.allSpace := by
  refine passes_skip lead (countWhile_le _ _) ?_
  rw [countWhile, ← List.prefix_iff_eq_take.mp (List.takeWhile_prefix _)]
  intro feed
  exact absurd (List.all_eq_true.mp List.all_takeWhile _ feed) (by decide)

theorem passes_quoteMarker? {lead after : Lead} (marked : lead.quoteMarker? = some after) :
    Passes lead after ∧ lead.taken < after.taken := by
  unfold quoteMarker? at marked
  split at marked
  · next rest isRest =>
      rw [← Option.some.inj marked]
      have skipped : Passes lead (lead.skip 1) :=
        passes_skip lead (by simp [isRest]) (by simp [isRest])
      exact ⟨skipped.trans (passes_space _ _), (passes_space (lead.skip 1) 1).length_add.2⟩
  · cases marked

/-! ### In a text that goes on -/

def before (lead : Lead) (later : List Char) : Lead :=
  { lead with rest := lead.rest ++ later }

@[simp] theorem before_rest (lead : Lead) (later : List Char) :
    (lead.before later).rest = lead.rest ++ later := rfl

@[simp] theorem before_taken (lead : Lead) (later : List Char) :
    (lead.before later).taken = lead.taken := by
  cases lead
  rfl

private theorem takeColumns_before {later : List Char} :
    ∀ (chars : List Char) (lead : Lead) (count : Nat), Shut chars later →
      takeColumns (chars ++ later) (lead.before later) count
        = ((takeColumns chars lead count).1.before later, (takeColumns chars lead count).2)
  | chars, lead, 0, _ => by rw [takeColumns, takeColumns]
  | [], lead, count + 1, shut => by
      rw [shut.later_eq_nil, List.append_nil]
      simp only [takeColumns, before, List.append_nil]
  | c :: rest, lead, count + 1, shut => by
      rw [List.cons_append, takeColumns, takeColumns]
      by_cases space : c = ' '
      · subst space
        rw [if_pos rfl, if_pos rfl]
        exact takeColumns_before rest { lead with rest := rest, taken := lead.taken + 1 } count
          (shut.tail (by decide))
      · rw [if_neg space, if_neg space]
        by_cases tab : c = '\t'
        · subst tab
          rw [if_pos rfl, if_pos rfl]
          exact takeColumns_before rest
            { rest := rest, taken := lead.taken + 1, tabStart := lead.taken + 1
              pending := 4 - (lead.taken - lead.tabStart) % 4
                - min (4 - (lead.taken - lead.tabStart) % 4) (count + 1) } _
            (shut.tail (by decide))
        · rw [if_neg tab, if_neg tab]

section Space

variable {lead : Lead} {later : List Char} (shut : Shut lead.rest later)
include shut

private theorem takeSpace_before (count : Nat) :
    (lead.before later).takeSpace count
      = ((lead.takeSpace count).1.before later, (lead.takeSpace count).2) :=
  takeColumns_before lead.rest { lead with pending := lead.pending - min lead.pending count }
    (count - min lead.pending count) shut

theorem space_before (count : Nat) :
    (lead.before later).space count = ((lead.space count).1.before later, (lead.space count).2) := by
  simp only [space, takeSpace_before shut]

theorem spaceUpTo_before (count : Nat) :
    (lead.before later).spaceUpTo count
      = ((lead.spaceUpTo count).1.before later, (lead.spaceUpTo count).2) := by
  simp only [spaceUpTo, takeSpace_before shut]

theorem atLineEnd_before : (lead.before later).atLineEnd = lead.atLineEnd := by
  unfold atLineEnd
  rw [before_rest]
  cases isRest : lead.rest with
  | nil =>
      rw [isRest] at shut
      rw [shut.later_eq_nil]
      rfl
  | cons c rest => rfl

omit shut in
private theorem skip_before (lead : Lead) (later : List Char) {count : Nat}
    (inside : count ≤ lead.rest.length) :
    (lead.before later).skip count = (lead.skip count).before later := by
  simp only [skip, before, List.drop_append_of_le_length inside]

theorem allSpace_before : (lead.before later).allSpace = lead.allSpace.before later := by
  have run := countWhile_append shut (fun c => c == ' ' || c == '\t') rfl
  simp only [allSpace, before_rest, run, skip_before lead later (countWhile_le _ _)]
  rfl

theorem quoteMarker?_before :
    (lead.before later).quoteMarker? = lead.quoteMarker?.map (·.before later) := by
  unfold quoteMarker?
  rw [before_rest]
  cases isRest : lead.rest with
  | nil =>
      rw [isRest] at shut
      rw [shut.later_eq_nil]
      rfl
  | cons c rest =>
      by_cases mark : c = '>'
      · subst mark
        have behind : Shut (lead.skip 1).rest later :=
          (passes_skip lead (by simp [isRest]) (by simp [isRest])).shut shut
        have moved := skip_before lead later (show 1 ≤ lead.rest.length by simp [isRest])
        simp only [List.cons_append, moved, space_before behind, Option.map_some]
      · simp [mark]

end Space

end Lead

/-! ## Markers -/

theorem thematicBreak?_append {text later : List Char} (shut : Shut text later) :
    thematicBreak? (text ++ later) = thematicBreak? text := by
  have line := takeWhile_append_shut shut (fun c => c != '\n' && c != '\r') rfl
  have behind := shut.behind (fun c => c != '\n' && c != '\r') rfl
  have ends : lineEnd? ((text ++ later).drop
        ((text.takeWhile fun c => c != '\n' && c != '\r').length))
      = lineEnd? (text.drop ((text.takeWhile fun c => c != '\n' && c != '\r').length)) := by
    have moved := drop_countWhile_append (fun c => c != '\n' && c != '\r') text later
    rw [countWhile] at moved behind
    rw [moved, lineEnd?_append behind]
  cases text with
  | nil => rw [shut.later_eq_nil]; rfl
  | cons c rest =>
      rw [List.cons_append] at line ends ⊢
      simp only [thematicBreak?, line, ends]

namespace Lead

private theorem passes_finishMarker (lead : Lead) (mark : Char) (number indent : Nat) :
    Passes lead (lead.finishMarker mark number indent).2 := by
  unfold finishMarker
  split
  · exact Passes.refl lead
  · dsimp only
    split
    · exact passes_spaceUpTo lead 4
    · exact Passes.refl lead

private theorem finishMarker_before {lead : Lead} {later : List Char} (shut : Shut lead.rest later)
    (mark : Char) (number indent : Nat) :
    (lead.before later).finishMarker mark number indent
      = ((lead.finishMarker mark number indent).1,
          (lead.finishMarker mark number indent).2.before later) := by
  unfold finishMarker
  simp only [before_rest, blankLine?_append shut, spaceUpTo_before shut]
  split
  · rfl
  · split <;> rfl

def behindMarker (lead : Lead) (width : Nat) (mark : Char) (number indent : Nat) :
    Option (ListMarker × Lead) :=
  if ((lead.skip width).space 1).2 || ((lead.skip width).space 1).1.atLineEnd then
    some (((lead.skip width).space 1).1.finishMarker mark number indent)
  else none

private theorem passes_behindMarker {lead after : Lead} {width : Nat} {mark : Char} {number indent : Nat}
    {marker : ListMarker} (inside : width ≤ lead.rest.length)
    (free : '\n' ∉ lead.rest.take width)
    (marked : lead.behindMarker width mark number indent = some (marker, after)) :
    Passes lead after ∧ lead.taken + width ≤ after.taken := by
  unfold behindMarker at marked
  split at marked
  · have skipped := passes_skip lead inside free
    have finished := passes_finishMarker ((lead.skip width).space 1).1 mark number indent
    rw [Option.some.inj marked] at finished
    have spaced := (passes_space (lead.skip width) 1).trans finished
    exact ⟨skipped.trans spaced, spaced.length_add.2⟩
  · cases marked

private theorem behindMarker_before {lead : Lead} {later : List Char} {width : Nat}
    (inside : width ≤ lead.rest.length) (shut : Shut (lead.rest.drop width) later)
    (mark : Char) (number indent : Nat) :
    (lead.before later).behindMarker width mark number indent
      = (lead.behindMarker width mark number indent).map
          (fun found => (found.1, found.2.before later)) := by
  have behind : Shut (lead.skip width).rest later := shut
  have spaced := (passes_space (lead.skip width) 1).shut behind
  simp only [behindMarker, skip_before lead later inside, space_before behind,
    atLineEnd_before spaced, finishMarker_before spaced]
  split <;> rfl

/-- The marker of a numbered item, given the characters of the line that are digits. -/
def numberMarker? (lead : Lead) (digits : List Char) (indent : Nat) :
    Option (ListMarker × Lead) :=
  if digits.isEmpty || digits.length > 9 then none
  else
    match lead.rest.drop digits.length with
    | mark :: _ =>
        if mark == '.' || mark == ')' then
          lead.behindMarker (digits.length + 1) mark
            (digits.foldl (fun value d => value * 10 + (d.toNat - 48)) 0)
            (indent + 1 + (digits.length + 1))
        else none
    | [] => none

theorem listMarker?_of_cons {lead : Lead} {c : Char} {rest : List Char}
    (isRest : lead.rest = c :: rest) (indent : Nat) :
    lead.listMarker? indent =
      if isBullet c then
        if (thematicBreak? lead.rest).isSome then none else lead.behindMarker 1 c 0 (indent + 2)
      else lead.numberMarker? (lead.rest.takeWhile Char.isDigit) indent := by
  unfold listMarker?
  rw [isRest]
  dsimp only
  rw [← isRest]
  rfl

/-- Digits at the start of a line, and the mark behind them, are no line feeds. -/
theorem take_digits_free {text more : List Char} {mark : Char}
    (isMark : text.drop (countWhile Char.isDigit text) = mark :: more) (other : mark ≠ '\n') :
    countWhile Char.isDigit text + 1 ≤ text.length
      ∧ '\n' ∉ text.take (countWhile Char.isDigit text + 1) := by
  have size := congrArg List.length isMark
  rw [List.length_drop, List.length_cons] at size
  refine ⟨by omega, ?_⟩
  have digits : text.take (countWhile Char.isDigit text) = text.takeWhile Char.isDigit :=
    (List.prefix_iff_eq_take.mp (List.takeWhile_prefix _)).symm
  rw [List.take_add, digits, isMark, List.take_succ_cons, List.take_zero, List.mem_append,
    List.mem_singleton, not_or]
  refine ⟨?_, Ne.symm other⟩
  intro feed
  exact absurd (List.all_eq_true.mp List.all_takeWhile _ feed) (by decide)

private theorem isEnd_ne_feed {mark : Char} (ends : (mark == '.' || mark == ')') = true) :
    mark ≠ '\n' := by
  rintro rfl
  exact absurd ends (by decide)

private theorem isBullet_ne_feed {c : Char} (bullet : isBullet c = true) : c ≠ '\n' := by
  rintro rfl
  exact absurd bullet (by decide)

/-- A list marker lies on its line. -/
theorem passes_listMarker? {lead after : Lead} {indent : Nat} {marker : ListMarker}
    (marked : lead.listMarker? indent = some (marker, after)) :
    Passes lead after ∧ lead.taken < after.taken := by
  cases isRest : lead.rest with
  | nil => simp [listMarker?, isRest] at marked
  | cons c rest =>
      rw [listMarker?_of_cons isRest] at marked
      split at marked
      · next bullet =>
          split at marked
          · cases marked
          · refine passes_behindMarker (by simp [isRest]) ?_ marked
            rw [isRest, List.take_succ_cons, List.take_zero, List.mem_singleton]
            exact Ne.symm (isBullet_ne_feed bullet)
      · unfold numberMarker? at marked
        split at marked
        · cases marked
        · split at marked
          · next mark more isMark =>
              split at marked
              · next ends =>
                  obtain ⟨inside, free⟩ := take_digits_free isMark (isEnd_ne_feed ends)
                  obtain ⟨passes, further⟩ := passes_behindMarker inside free marked
                  exact ⟨passes, by omega⟩
              · cases marked
          · cases marked

private theorem numberMarker?_before {lead : Lead} {later : List Char} (shut : Shut lead.rest later)
    (indent : Nat) :
    (lead.before later).numberMarker? (lead.rest.takeWhile Char.isDigit) indent
      = (lead.numberMarker? (lead.rest.takeWhile Char.isDigit) indent).map
          (fun found => (found.1, found.2.before later)) := by
  have behind := shut.behind Char.isDigit (by decide)
  have moved := drop_countWhile_append Char.isDigit lead.rest later
  rw [countWhile] at behind moved
  unfold numberMarker?
  rw [before_rest, moved]
  split
  · rfl
  · cases isMark : lead.rest.drop (lead.rest.takeWhile Char.isDigit).length with
    | nil =>
        rw [isMark] at behind
        rw [behind.later_eq_nil]
        rfl
    | cons mark more =>
        rw [List.cons_append]
        dsimp only
        by_cases ends : (mark == '.' || mark == ')') = true
        · rw [if_pos ends, if_pos ends]
          obtain ⟨inside, free⟩ := take_digits_free isMark (isEnd_ne_feed ends)
          exact behindMarker_before inside (shut.drop free) _ _ _
        · rw [if_neg ends, if_neg ends]
          rfl

theorem listMarker?_before {lead : Lead} {later : List Char} (shut : Shut lead.rest later)
    (indent : Nat) :
    (lead.before later).listMarker? indent
      = (lead.listMarker? indent).map (fun found => (found.1, found.2.before later)) := by
  cases isRest : lead.rest with
  | nil =>
      rw [isRest] at shut
      have same : lead.before [] = lead := by simp [before]
      rw [shut.later_eq_nil, same]
      simp [listMarker?, isRest]
  | cons c rest =>
      have isRestBefore : (lead.before later).rest = c :: (rest ++ later) := by
        rw [before_rest, isRest, List.cons_append]
      rw [listMarker?_of_cons isRestBefore, listMarker?_of_cons isRest, before_rest,
        thematicBreak?_append shut, takeWhile_append_shut shut Char.isDigit (by decide)]
      by_cases bullet : isBullet c
      · rw [if_pos bullet, if_pos bullet]
        split
        · rfl
        · refine behindMarker_before (by simp [isRest]) ?_ c 0 (indent + 2)
          rw [isRest] at shut ⊢
          exact shut.tail (isBullet_ne_feed bullet)
      · rw [if_neg bullet, if_neg bullet]
        exact numberMarker?_before shut indent

end Lead

/-! ## Containers -/

theorem Container.passes_continue? {container : Container} {lead after : Lead}
    (continues : container.continue? lead = some after) : Lead.Passes lead after := by
  cases container with
  | quote => exact (Lead.passes_space lead 3).trans (Lead.passes_quoteMarker? continues).1
  | list mark tight =>
      rw [← Option.some.inj continues]
      exact Lead.Passes.refl lead
  | item indent =>
      simp only [Container.continue?] at continues
      split at continues
      · rw [← Option.some.inj continues]
        exact Lead.passes_space lead indent
      · cases continues

private theorem Container.continue?_before (container : Container) {lead : Lead} {later : List Char}
    (shut : Shut lead.rest later) :
    container.continue? (lead.before later)
      = (container.continue? lead).map (·.before later) := by
  cases container with
  | quote =>
      have spaced := (Lead.passes_space lead 3).shut shut
      simp only [Container.continue?, Lead.space_before shut, Lead.quoteMarker?_before spaced]
  | list mark tight => rfl
  | item indent =>
      have spaced := (Lead.passes_space lead indent).shut shut
      simp only [Container.continue?, Lead.space_before shut, Lead.atLineEnd_before spaced]
      split <;> rfl

theorem Spine.passes_continued :
    ∀ (spine : Spine) (lead : Lead), Lead.Passes lead (Spine.continued spine lead).2
  | [], lead => Lead.Passes.refl lead
  | container :: rest, lead => by
      rw [Spine.continued]
      split
      · next after continues =>
          exact (Container.passes_continue? continues).trans (passes_continued rest after)
      · exact Lead.Passes.refl lead

private theorem Spine.continued_before {later : List Char} :
    ∀ (spine : Spine) {lead : Lead}, Shut lead.rest later →
      Spine.continued spine (lead.before later)
        = ((Spine.continued spine lead).1, (Spine.continued spine lead).2.before later)
  | [], _, _ => rfl
  | container :: rest, lead, shut => by
      rw [Spine.continued, Spine.continued, container.continue?_before shut]
      cases continues : container.continue? lead with
      | none => rfl
      | some after =>
          have afterShut := (Container.passes_continue? continues).shut shut
          simp only [Option.map_some, continued_before rest afterShut]

theorem Spine.passes_continue? {spine : Spine} {text : List Char} {lead : Lead}
    (continues : spine.continue? text = some lead) : Lead.Passes { rest := text } lead := by
  have passes := Spine.passes_continued spine { rest := text }
  simp only [Spine.continue?] at continues
  split at continues
  · rwa [← Option.some.inj continues]
  · cases continues

theorem Spine.continued_append (spine : Spine) {text later : List Char} (shut : Shut text later) :
    Spine.continued spine { rest := text ++ later }
      = ((Spine.continued spine { rest := text }).1,
          (Spine.continued spine { rest := text }).2.before later) :=
  @Spine.continued_before later spine { rest := text } shut

theorem Spine.continue?_append (spine : Spine) {text later : List Char} (shut : Shut text later) :
    spine.continue? (text ++ later) = (spine.continue? text).map (·.before later) := by
  simp only [Spine.continue?, Spine.continued_append spine shut]
  split <;> rfl

end Tangle.Markdown
