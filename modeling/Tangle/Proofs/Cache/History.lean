import Mathlib.Data.List.Induction
import Tangle.Cache
import Tangle.Proofs.Data.Entries

/-!
Contract: a cache answers from its history what building afresh would answer.

Owns: the requests to a cache, what a history of requests leaves to be remembered, and the
agreement of every answer with it.

Does **not** own: what an extraction holds (`Tangle.Extraction`).

## Why the history has to be consistent

A cache never looks at the text of a version that it holds. Its entries therefore mirror the
history only as long as one version of a key always comes with one text; under that condition
`Mirrors` is kept by every request, and each answer is read off it.
-/

set_option autoImplicit false

namespace Tangle.Cache

open Tangle.Generate

/-! ## Requests and histories -/

inductive Request where
  | build (key : String) (version : Nat) (text : String)
  | get (key : String) (version : Nat)
  | forget (key : String)
  deriving DecidableEq, Repr, Inhabited

namespace Request

def key : Request → String
  | build key _ _ => key
  | get key _ => key
  | forget key => key

/-- A request after which something else is remembered for `key`. -/
def settles (wanted : String) : Request → Bool
  | build key _ _ => key == wanted
  | get _ _ => false
  | forget key => key == wanted

/-- Two requests that do not give one version of a key two texts. -/
def Agrees : Request → Request → Prop
  | build key version text, build other otherVersion otherText =>
      key = other → version = otherVersion → text = otherText
  | _, _ => True

instance (first second : Request) : Decidable (first.Agrees second) := by
  unfold Agrees
  split <;> infer_instance

end Request

inductive Answer where
  | built (extraction : Extraction)
  | found (extraction : Option Extraction)
  | forgotten (existed : Bool)

/-- The answer to one request, and the cache behind it. -/
def answer (cache : Cache) : Request → Answer × Cache
  | .build key version text =>
      (.built (cache.getOrBuild key version text).1, (cache.getOrBuild key version text).2)
  | .get key version => (.found (cache.get? key version), cache)
  | .forget key => (.forgotten (cache.invalidate key).1, (cache.invalidate key).2)

def replayFrom (cache : Cache) (history : List Request) : Cache :=
  history.foldl (fun current request => (current.answer request).2) cache

def replay (options : Options) (history : List Request) : Cache :=
  replayFrom (empty options) history

def answersFrom (cache : Cache) : List Request → List (Request × Answer)
  | [] => []
  | request :: later =>
      (request, (cache.answer request).1) :: answersFrom (cache.answer request).2 later

def answers (options : Options) (history : List Request) : List (Request × Answer) :=
  answersFrom (empty options) history

/-- One version of a key always comes with one text. -/
def Consistent (history : List Request) : Prop :=
  ∀ first ∈ history, ∀ second ∈ history, first.Agrees second

instance : DecidablePred Consistent := fun history =>
  inferInstanceAs (Decidable (∀ first ∈ history, ∀ second ∈ history, first.Agrees second))

/-- The last build of `key` was of this version and text, and nothing was forgotten since. -/
def LastBuilt (history : List Request) (key : String) (version : Nat) (text : String) : Prop :=
  ∃ earlier later, history = earlier ++ .build key version text :: later
    ∧ ∀ request ∈ later, request.settles key = false

section LastBuilt

variable {history : List Request} {key : String} {version : Nat} {text : String}

theorem LastBuilt.mem (last : LastBuilt history key version text) :
    .build key version text ∈ history := by
  obtain ⟨earlier, later, rfl, -⟩ := last
  exact List.mem_append_right _ List.mem_cons_self

private theorem not_lastBuilt_nil : ¬ LastBuilt [] key version text := by
  intro last
  exact absurd last.mem List.not_mem_nil

/-- A request about something else leaves the last build of `key` as it was. -/
theorem lastBuilt_concat_of_idle {request : Request} (idle : request.settles key = false) :
    LastBuilt (history ++ [request]) key version text ↔ LastBuilt history key version text := by
  constructor
  · rintro ⟨earlier, later, split, still⟩
    rcases List.eq_nil_or_concat' later with rfl | ⟨front, last, rfl⟩
    · obtain ⟨-, isBuild⟩ := List.append_inj' split rfl
      rw [List.cons.injEq] at isBuild
      rw [isBuild.1, Request.settles, beq_self_eq_true] at idle
      cases idle
    · rw [← List.cons_append, ← List.append_assoc] at split
      obtain ⟨isHistory, -⟩ := List.append_inj' split rfl
      exact ⟨earlier, front, isHistory, fun other member =>
        still other (List.mem_append_left _ member)⟩
  · rintro ⟨earlier, later, rfl, still⟩
    refine ⟨earlier, later ++ [request], by simp, ?_⟩
    intro other member
    rcases List.mem_append.mp member with before | isLast
    · exact still other before
    · rw [List.mem_singleton.mp isLast]
      exact idle

/-- A request that settles `key` is all that counts. -/
theorem lastBuilt_concat_of_settles {request : Request} (settling : request.settles key = true) :
    LastBuilt (history ++ [request]) key version text ↔ request = .build key version text := by
  constructor
  · rintro ⟨earlier, later, split, still⟩
    rcases List.eq_nil_or_concat' later with rfl | ⟨front, last, rfl⟩
    · obtain ⟨-, isBuild⟩ := List.append_inj' split rfl
      exact (List.cons.inj isBuild).1
    · rw [← List.cons_append, ← List.append_assoc] at split
      obtain ⟨-, isLast⟩ := List.append_inj' split rfl
      have settled := still last (List.mem_append_right _ List.mem_cons_self)
      rw [← (List.cons.inj isLast).1, settling] at settled
      cases settled
  · rintro rfl
    exact ⟨history, [], rfl, fun _ member => absurd member List.not_mem_nil⟩

end LastBuilt

/-! ## Entries by key -/

section Entries

variable (cache : Cache) (key : String) (entry : CacheEntry)

private theorem find?_erase_self : (cache.erase key).find? key = none :=
  Entries.value?_without_self cache.entries key

private theorem find?_erase_of_ne {other : String} (different : other ≠ key) :
    (cache.erase key).find? other = cache.find? other :=
  Entries.value?_without_of_ne cache.entries key different

private theorem find?_insert_self : (cache.insert key entry).find? key = some entry :=
  Entries.value?_cons_self _ key entry

private theorem find?_insert_of_ne {other : String} (different : other ≠ key) :
    (cache.insert key entry).find? other = cache.find? other :=
  (Entries.value?_cons_of_ne _ key entry different).trans (find?_erase_of_ne cache key different)

end Entries

/-! ## What one request does to the entries -/

section Step

variable (cache : Cache)

private theorem answer_options (request : Request) : (cache.answer request).2.options = cache.options := by
  cases request with
  | build key version text =>
      simp only [answer, getOrBuild]
      split <;> rfl
  | get key version => rfl
  | forget key => rfl

private theorem answer_keys_nodup (distinct : (cache.entries.map Prod.fst).Nodup) (request : Request) :
    ((cache.answer request).2.entries.map Prod.fst).Nodup := by
  cases request with
  | build key version text =>
      simp only [answer, getOrBuild]
      split
      · exact distinct
      · exact Entries.keys_put_nodup cache.entries key _ distinct
  | get key version => exact distinct
  | forget key => exact Entries.keys_without_nodup cache.entries key distinct

/-- **Other keys are left alone.** -/
theorem find?_answer_of_ne {request : Request} {key : String} (different : request.key ≠ key) :
    (cache.answer request).2.find? key = cache.find? key := by
  cases request with
  | build own version text =>
      simp only [answer, getOrBuild]
      split
      · rfl
      · exact find?_insert_of_ne cache own _ (Ne.symm different)
  | get own version => rfl
  | forget own => exact find?_erase_of_ne cache own (Ne.symm different)

/-- An answer depends on the entry of its own key only. -/
theorem answer_congr {other : Cache} (sameOptions : cache.options = other.options)
    {request : Request} (sameEntry : cache.find? request.key = other.find? request.key) :
    (cache.answer request).1 = (other.answer request).1
      ∧ (cache.answer request).2.find? request.key = (other.answer request).2.find? request.key := by
  cases request with
  | build key version text =>
      have sameFound : cache.get? key version = other.get? key version := by
        simp only [get?]
        rw [show cache.find? key = other.find? key from sameEntry]
      simp only [answer, getOrBuild, Request.key, sameFound, sameOptions]
      split
      · exact ⟨rfl, sameEntry⟩
      · exact ⟨rfl, by rw [find?_insert_self, find?_insert_self]⟩
  | get key version =>
      simp only [answer, get?]
      rw [show cache.find? key = other.find? key from sameEntry]
      exact ⟨rfl, sameEntry⟩
  | forget key =>
      refine ⟨?_, ?_⟩
      · simp only [answer, invalidate]
        rw [show cache.find? key = other.find? key from sameEntry]
      · show (cache.erase key).find? key = (other.erase key).find? key
        rw [find?_erase_self, find?_erase_self]

end Step

/-! ## Histories of one key -/

/-- The requests about one key get the answers that they get with no other key around. -/
theorem answersFrom_filter (key : String) (history : List Request) :
    ∀ (whole alone : Cache), whole.options = alone.options → whole.find? key = alone.find? key →
      (answersFrom whole history).filter (fun pair => pair.1.key == key)
        = answersFrom alone (history.filter fun request => request.key == key) := by
  induction history with
  | nil =>
      intro whole alone _ _
      rfl
  | cons request later inductionHypothesis =>
      intro whole alone sameOptions sameEntry
      by_cases own : request.key = key
      · subst own
        obtain ⟨sameAnswer, sameAfter⟩ := whole.answer_congr sameOptions sameEntry
        have afterOptions : (whole.answer request).2.options = (alone.answer request).2.options := by
          rw [answer_options, answer_options, sameOptions]
        simp only [answersFrom, List.filter_cons, beq_self_eq_true, if_true, sameAnswer]
        rw [inductionHypothesis _ _ afterOptions sameAfter]
      · have afterOptions : (whole.answer request).2.options = alone.options := by
          rw [answer_options, sameOptions]
        have afterEntry : (whole.answer request).2.find? key = alone.find? key := by
          rw [find?_answer_of_ne whole own, sameEntry]
        have isOther : (request.key == key) = false := beq_eq_false_iff_ne.mpr own
        simp only [answersFrom, List.filter_cons, isOther, Bool.false_eq_true, if_false]
        exact inductionHypothesis _ _ afterOptions afterEntry

/-! ## Entries mirror the history -/

/-- The entries are those of the keys last built, each with the extraction of its text. -/
structure Mirrors (options : Options) (history : List Request) (cache : Cache) : Prop where
  options_eq : cache.options = options
  distinct : (cache.entries.map Prod.fst).Nodup
  entry_iff : ∀ key entry, cache.find? key = some entry
    ↔ ∃ text, LastBuilt history key entry.version text
        ∧ entry.extraction = Extraction.build text key options

private theorem mirrors_empty (options : Options) : Mirrors options [] (empty options) where
  options_eq := rfl
  distinct := List.nodup_nil
  entry_iff := by
    intro key entry
    constructor
    · intro found
      cases found
    · rintro ⟨text, last, -⟩
      exact absurd last not_lastBuilt_nil

section Mirrors

variable {options : Options} {history : List Request} {cache : Cache}

private theorem Mirrors.get?_eq_some_iff (mirrors : Mirrors options history cache) (key : String)
    (version : Nat) (extraction : Extraction) :
    cache.get? key version = some extraction
      ↔ ∃ text, LastBuilt history key version text
          ∧ extraction = Extraction.build text key options := by
  have isEntry : cache.get? key version = some extraction
      ↔ cache.find? key = some ⟨version, extraction⟩ := by
    simp only [get?]
    cases cache.find? key with
    | none => simp
    | some entry =>
        obtain ⟨ownVersion, own⟩ := entry
        simp
  rw [isEntry, mirrors.entry_iff]

private theorem Mirrors.exists_iff (mirrors : Mirrors options history cache) (key : String) :
    (cache.find? key).isSome = true ↔ ∃ version text, LastBuilt history key version text := by
  rw [Option.isSome_iff_exists]
  constructor
  · rintro ⟨entry, found⟩
    obtain ⟨text, last, -⟩ := (mirrors.entry_iff key entry).mp found
    exact ⟨entry.version, text, last⟩
  · rintro ⟨version, text, last⟩
    exact ⟨⟨version, Extraction.build text key options⟩,
      (mirrors.entry_iff key _).mpr ⟨text, last, rfl⟩⟩

/-- **A build is never a surprise.** What is remembered for a version came from its one text. -/
theorem Mirrors.getOrBuild_eq (mirrors : Mirrors options history cache) {key : String}
    {version : Nat} {text : String}
    (agrees : ∀ earlier ∈ history, earlier.Agrees (.build key version text)) :
    (cache.getOrBuild key version text).1 = Extraction.build text key options := by
  unfold getOrBuild
  cases found : cache.get? key version with
  | none =>
      show Extraction.build text key cache.options = _
      rw [mirrors.options_eq]
  | some extraction =>
      obtain ⟨ownText, last, isBuilt⟩ := (mirrors.get?_eq_some_iff key version extraction).mp found
      have sameText : ownText = text := agrees _ last.mem rfl rfl
      show extraction = _
      rw [isBuilt, sameText]

/-- The entry of `key` behind a build of it. -/
theorem Mirrors.find?_getOrBuild (mirrors : Mirrors options history cache) {key : String}
    {version : Nat} {text : String}
    (agrees : ∀ earlier ∈ history, earlier.Agrees (.build key version text)) :
    (cache.getOrBuild key version text).2.find? key
      = some ⟨version, Extraction.build text key options⟩ := by
  have isBuilt := mirrors.getOrBuild_eq agrees
  unfold getOrBuild at isBuilt ⊢
  cases found : cache.get? key version with
  | none =>
      rw [found] at isBuilt
      show (cache.insert key _).find? key = _
      rw [find?_insert_self]
      exact congrArg (fun extraction => some (CacheEntry.mk version extraction)) isBuilt
  | some extraction =>
      obtain ⟨ownText, last, isOwn⟩ := (mirrors.get?_eq_some_iff key version extraction).mp found
      have sameText : ownText = text := agrees _ last.mem rfl rfl
      subst sameText
      exact (mirrors.entry_iff key _).mpr ⟨ownText, last, rfl⟩

/-- **One request keeps the mirror.** -/
theorem Mirrors.answer (mirrors : Mirrors options history cache) {request : Request}
    (agrees : ∀ earlier ∈ history, earlier.Agrees request) :
    Mirrors options (history ++ [request]) (cache.answer request).2 where
  options_eq := (answer_options cache request).trans mirrors.options_eq
  distinct := answer_keys_nodup cache mirrors.distinct request
  entry_iff := by
    intro key entry
    by_cases settling : request.settles key = true
    · simp only [lastBuilt_concat_of_settles settling]
      cases request with
      | build own version text =>
          obtain rfl : own = key := beq_iff_eq.mp settling
          rw [show (cache.answer (.build own version text)).2
            = (cache.getOrBuild own version text).2 from rfl, mirrors.find?_getOrBuild agrees]
          obtain ⟨ownVersion, extraction⟩ := entry
          simp only [Option.some.injEq, CacheEntry.mk.injEq, Request.build.injEq, true_and]
          constructor
          · rintro ⟨rfl, rfl⟩
            exact ⟨text, ⟨rfl, rfl⟩, rfl⟩
          · rintro ⟨_, ⟨rfl, rfl⟩, rfl⟩
            exact ⟨rfl, rfl⟩
      | get own version => cases settling
      | forget own =>
          obtain rfl : own = key := beq_iff_eq.mp settling
          rw [show (cache.answer (.forget own)).2 = cache.erase own from rfl, find?_erase_self]
          simp
    · rw [Bool.not_eq_true] at settling
      simp only [lastBuilt_concat_of_idle settling]
      rw [← mirrors.entry_iff key entry]
      cases request with
      | build own version text =>
          rw [find?_answer_of_ne cache (beq_eq_false_iff_ne.mp settling)]
      | get own version => rfl
      | forget own => rw [find?_answer_of_ne cache (beq_eq_false_iff_ne.mp settling)]

end Mirrors

/-- **A whole history is mirrored.** -/
theorem mirrors_replay (options : Options) {history : List Request}
    (consistent : Consistent history) : Mirrors options history (replay options history) := by
  induction history using List.reverseRecOn with
  | nil => exact mirrors_empty options
  | append_singleton earlier request inductionHypothesis =>
      have before : Consistent earlier := fun first member second secondMember =>
        consistent first (List.mem_append_left _ member) second
          (List.mem_append_left _ secondMember)
      have agrees : ∀ other ∈ earlier, other.Agrees request := fun other member =>
        consistent other (List.mem_append_left _ member) request
          (List.mem_append_right _ List.mem_cons_self)
      have mirrored := (inductionHypothesis before).answer agrees
      rwa [replay, replayFrom, List.foldl_append]

/-- **The cache is transparent.** At every moment of a consistent history a build gives what
building afresh gives, a version is found exactly if it is the one last built and not
forgotten, forgetting tells whether there was something to forget, and the size counts the
keys built and not forgotten. The requests about one key are answered as if there were no
other key. -/
theorem answers_mirror_history (options : Options) (history : List Request)
    (consistent : Consistent history) :
    (∀ earlier later key version text, history = earlier ++ .build key version text :: later →
      ((replay options earlier).getOrBuild key version text).1
        = Extraction.build text key options)
    ∧ (∀ earlier later, history = earlier ++ later →
        (∀ key version extraction, (replay options earlier).get? key version = some extraction
          ↔ ∃ text, LastBuilt earlier key version text
              ∧ extraction = Extraction.build text key options)
        ∧ (∀ key, ((replay options earlier).invalidate key).1 = true
            ↔ ∃ version text, LastBuilt earlier key version text)
        ∧ ∃ keys : List String, keys.Nodup
            ∧ (∀ key, key ∈ keys ↔ ∃ version text, LastBuilt earlier key version text)
            ∧ (replay options earlier).size = keys.length)
    ∧ ∀ key, (answers options history).filter (fun pair => pair.1.key == key)
        = answers options (history.filter fun request => request.key == key) := by
  have part : ∀ earlier later, history = earlier ++ later → Consistent earlier := by
    rintro earlier later rfl first member second secondMember
    exact consistent first (List.mem_append_left _ member) second
      (List.mem_append_left _ secondMember)
  refine ⟨?_, ?_, ?_⟩
  · intro earlier later key version text split
    refine (mirrors_replay options (part earlier _ split)).getOrBuild_eq ?_
    intro other member
    subst split
    exact consistent other (List.mem_append_left _ member) _
      (List.mem_append_right _ List.mem_cons_self)
  · intro earlier later split
    have mirrors := mirrors_replay options (part earlier later split)
    refine ⟨mirrors.get?_eq_some_iff, mirrors.exists_iff, ?_⟩
    refine ⟨(replay options earlier).entries.map Prod.fst, mirrors.distinct, ?_, ?_⟩
    · intro key
      exact (Entries.mem_keys_iff _ key).trans (mirrors.exists_iff key)
    · exact (List.length_map _).symm
  · intro key
    exact answersFrom_filter key history _ _ rfl rfl

/-- Two documents, one of which goes to a second version and back while the other is forgotten. -/
def backAndForth : List Request :=
  [ .build "a.md" 1 "one", .build "b.md" 1 "other", .build "a.md" 2 "two", .get "a.md" 1
  , .forget "b.md", .build "a.md" 1 "one" ]

/-- The first version is built again, and its key is the only one left. -/
theorem answers_mirror_history_backAndForth :
    Consistent backAndForth
    ∧ (replay {} backAndForth).get? "a.md" 1 = some (Extraction.build "one" "a.md" {})
    ∧ ((replay {} backAndForth).invalidate "b.md").1 = false
    ∧ ((replay {} (backAndForth.take 5)).getOrBuild "a.md" 1 "one").1
        = Extraction.build "one" "a.md" {} := by
  have consistent : Consistent backAndForth := by decide
  obtain ⟨builds, moments, -⟩ := answers_mirror_history {} backAndForth consistent
  obtain ⟨finds, forgets, -⟩ := moments backAndForth [] rfl
  refine ⟨consistent, ?_, ?_, ?_⟩
  · exact (finds "a.md" 1 _).mpr ⟨"one", ⟨backAndForth.take 5, [], rfl, by decide⟩, rfl⟩
  · have lastOfB : ∀ version text, ¬ LastBuilt backAndForth "b.md" version text := by
      intro version text last
      have whole : LastBuilt (backAndForth.take 5 ++ [.build "a.md" 1 "one"]) "b.md" version text :=
        last
      have idle : LastBuilt (backAndForth.take 4 ++ [.forget "b.md"]) "b.md" version text :=
        (lastBuilt_concat_of_idle (by decide)).mp whole
      have isBuild := (lastBuilt_concat_of_settles (by decide)).mp idle
      cases isBuild
    rw [← Bool.not_eq_true, forgets "b.md"]
    rintro ⟨version, text, last⟩
    exact lastOfB version text last
  · exact builds (backAndForth.take 5) [] "a.md" 1 "one" rfl

end Tangle.Cache
