import Mathlib.Data.List.Chain
import Tangle.Proofs.Markdown.Steps

/-!
Contract: how containers lie in one another while a text is read.

Owns: `State.Sound`, and that every reading keeps it.

Does **not** own: what it is good for (`Tangle.Proofs.Markdown.Edge`).

A list holds items and nothing else. An item whose first line was blank gets the
indentation zero, which every line has; it is the innermost container then, and the next
line that is not blank ends it.
-/

set_option autoImplicit false

namespace Tangle.Markdown

/-! ## Containers -/

def Container.isOpen : Container → Bool
  | .quote => true
  | .list _ _ => false
  | .item indent => indent ≠ 0

/-- What may stand directly inside what. -/
def Container.Holds (outer inner : Container) : Prop :=
  outer.isOpen = true ∨ ((∃ mark tight, outer = .list mark tight) ∧ ∃ indent, inner = .item indent)

private theorem Container.holds_loosen {outer inner : Container} :
    outer.loosen.Holds inner.loosen ↔ outer.Holds inner := by
  cases outer <;> cases inner <;> simp [Holds, loosen, isOpen]

/-- Whether lists are tight has no part in how containers are nested. -/
theorem nested_of_loosen {first second : Spine}
    (same : first.map Container.loosen = second.map Container.loosen)
    (nested : first.IsChain Container.Holds) : second.IsChain Container.Holds := by
  have alike : (first.map Container.loosen).IsChain Container.Holds :=
    (List.isChain_map _).mpr (nested.imp fun _ _ => Container.holds_loosen.mpr)
  rw [same, List.isChain_map] at alike
  exact alike.imp fun _ _ => Container.holds_loosen.mp

namespace State

/-! ## States -/

/-- The containers are nested, and an item that every line continues waits to be ended. -/
structure Sound (state : State) : Prop where
  nested : state.spine.IsChain Container.Holds
  emptied : state.innermost? = some (.item 0) → state.emptyItem = true ∧ state.lastBlank = true

/-- The containers are nested, and no item waits to be ended. -/
structure Settled (state : State) : Prop where
  nested : state.spine.IsChain Container.Holds
  filled : state.innermost? ≠ some (.item 0)

structure Ready (state : State) : Prop where
  nested : state.spine.IsChain Container.Holds
  opened : ∀ container ∈ state.innermost?, container.isOpen = true

theorem Settled.sound {state : State} (settled : state.Settled) : state.Sound :=
  ⟨settled.nested, fun waits => absurd waits settled.filled⟩

theorem Ready.settled {state : State} (ready : state.Ready) : state.Settled :=
  ⟨ready.nested, fun waits => absurd (ready.opened _ waits) (by decide)⟩

theorem sound_start : Sound {} :=
  ⟨List.IsChain.nil, fun waits => by cases waits⟩

variable {state : State}

/-- The spine with its innermost container apart. -/
theorem exists_innermost {container : Container} (inner : state.innermost? = some container) :
    ∃ outer, state.spine = outer ++ [container] :=
  List.getLast?_eq_some_iff.mp inner

private theorem innermost_of_spine {outer : Spine} {container : Container}
    (isSpine : state.spine = outer ++ [container]) : state.innermost? = some container := by
  rw [innermost?, isSpine, List.getLast?_concat]

private theorem pop_spine {outer : Spine} {container : Container}
    (isSpine : state.spine = outer ++ [container]) : state.pop.spine = outer := by
  show state.spine.take (state.spine.length - 1) = outer
  rw [isSpine]
  simp

/-- The container around the innermost one may hold it. -/
theorem holds_innermost {outer : Spine} {container around : Container}
    (nested : state.spine.IsChain Container.Holds) (isSpine : state.spine = outer ++ [container])
    (isAround : around ∈ outer.getLast?) : around.Holds container := by
  rw [isSpine, List.isChain_append] at nested
  exact nested.2.2 around isAround container (by simp)

private theorem nested_outer {outer : Spine} {container : Container}
    (nested : state.spine.IsChain Container.Holds) (isSpine : state.spine = outer ++ [container]) :
    outer.IsChain Container.Holds := by
  rw [isSpine] at nested
  exact nested.left_of_append

theorem keep_sound (sound : state.Sound) (count : Nat) : (state.keep count).Sound := by
  refine ⟨sound.nested.take count, ?_⟩
  intro waits
  show (state.emptyItem && !(state.spine.drop count).any Container.isTightList) = true
    ∧ state.lastBlank = true
  rcases Nat.lt_or_ge count state.spine.length with some_left | all
  · -- What the item would hold is still there to be closed.
    obtain ⟨outer, isTake⟩ := exists_innermost waits
    have nested := sound.nested
    rw [← List.take_append_drop count state.spine, List.isChain_append] at nested
    obtain ⟨next, rest, isDrop⟩ :=
      List.exists_cons_of_length_pos (l := state.spine.drop count) (by
        rw [List.length_drop]
        omega)
    have held := nested.2.2 (.item 0) (by
      show Container.item 0 ∈ (state.keep count).spine.getLast?
      rw [isTake]
      simp) next (by rw [isDrop]; simp)
    simp [Container.Holds, Container.isOpen] at held
  · have isKept : (state.keep count).innermost? = state.innermost? := by
      show (state.spine.take count).getLast? = _
      rw [List.take_of_length_le all]
      rfl
    obtain ⟨empty, blank⟩ := sound.emptied (isKept ▸ waits)
    rw [List.drop_of_length_le all, empty]
    exact ⟨rfl, blank⟩

/-- Closing the innermost container leaves one that could hold it. -/
theorem pop_settled {container : Container} (nested : state.spine.IsChain Container.Holds)
    (inner : state.innermost? = some container) : state.pop.Settled := by
  obtain ⟨outer, isSpine⟩ := exists_innermost inner
  have isOuter := pop_spine isSpine
  refine ⟨by rw [isOuter]; exact nested_outer nested isSpine, ?_⟩
  intro waits
  rw [innermost?, isOuter] at waits
  have held := holds_innermost nested isSpine waits
  simp [Container.Holds, Container.isOpen] at held

private theorem finishEmptyItem_settled (sound : state.Sound) : state.finishEmptyItem.Settled := by
  have flagged : ∀ {inner : State}, inner.Settled → Settled { inner with emptyItem := false } :=
    fun settled => ⟨settled.nested, settled.filled⟩
  unfold finishEmptyItem
  refine flagged ?_
  split
  · next indent inner =>
      split
      · exact pop_settled sound.nested inner
      · next goesOn =>
          refine ⟨sound.nested, ?_⟩
          intro waits
          obtain ⟨empty, blank⟩ := sound.emptied waits
          exact goesOn (by rw [empty, blank]; rfl)
  · next noItem => exact ⟨sound.nested, noItem 0⟩

private theorem loosenOuter_ready (ready : state.Ready) (two : 2 ≤ state.spine.length) :
    state.loosenOuter.Ready := by
  have same : ∀ (spine : Spine) (index : Nat),
      spine.map Container.loosen = (spine.modify index Container.loosen).map Container.loosen := by
    intro spine
    induction spine with
    | nil => intro index; simp
    | cons container rest inductionHypothesis =>
        intro index
        cases index with
        | zero => cases container <;> simp [Container.loosen]
        | succ index => simp [inductionHypothesis index]
  refine ⟨nested_of_loosen (same _ _) ready.nested, ?_⟩
  intro container isInner
  refine ready.opened container ?_
  have kept : state.loosenOuter.innermost? = state.innermost? := by
    show (state.spine.modify (state.spine.length - 2) Container.loosen).getLast? = _
    rw [innermost?, List.getLast?_eq_getElem?, List.getLast?_eq_getElem?, List.length_modify,
      List.getElem?_modify]
    simp only [show state.spine.length - 2 ≠ state.spine.length - 1 by omega, if_false]
    exact id_map _
  rw [← kept]
  exact isInner

def leaveList (state : State) : State :=
  match state.innermost? with
  | some (.list _ _) => state.pop
  | _ => state

private theorem finishList_eq (state : State) :
    state.finishList =
      let left := state.finishEmptyItem.leaveList
      { (if left.lastBlank && 2 ≤ left.spine.length then left.loosenOuter else left) with
        lastBlank := false } := rfl

private theorem leaveList_ready (settled : state.Settled) : state.leaveList.Ready := by
  unfold leaveList
  split
  · next mark tight inner =>
      refine ⟨(pop_settled settled.nested inner).nested, ?_⟩
      intro container isInner
      obtain ⟨outer, isSpine⟩ := exists_innermost inner
      rw [innermost?, pop_spine isSpine] at isInner
      have held := holds_innermost settled.nested isSpine isInner
      simpa [Container.Holds] using held
  · next noList =>
      refine ⟨settled.nested, ?_⟩
      intro container isInner
      cases container with
      | quote => rfl
      | list mark tight => exact absurd isInner (noList mark tight)
      | item indent =>
          have visible : indent ≠ 0 := by
            rintro rfl
            exact settled.filled isInner
          simpa [Container.isOpen] using visible

private theorem finishList_ready (sound : state.Sound) : state.finishList.Ready := by
  have ready := leaveList_ready (finishEmptyItem_settled sound)
  have flagged : ∀ {inner : State}, inner.Ready → Ready { inner with lastBlank := false } :=
    fun ready => ⟨ready.nested, ready.opened⟩
  rw [finishList_eq]
  refine flagged ?_
  split
  · next both =>
      simp only [Bool.and_eq_true, decide_eq_true_eq] at both
      exact loosenOuter_ready ready both.2
  · exact ready

/-- In a state where any block may follow, a container may be opened. -/
theorem push_nested {container : Container} (ready : state.Ready) :
    (state.push container).spine.IsChain Container.Holds := by
  show (state.spine ++ [container]).IsChain Container.Holds
  rw [List.isChain_append]
  refine ⟨ready.nested, List.isChain_singleton _, ?_⟩
  intro around isAround inner _
  exact Or.inl (ready.opened around isAround)

private theorem continueList_push_settled (sound : state.Sound) (mark : Char) {indent : Nat}
    (visible : indent ≠ 0) : ((state.continueList mark).push (.item indent)).Settled := by
  have settled := finishEmptyItem_settled sound
  have isInner : ∀ inner : State, (inner.push (.item indent)).innermost? = some (.item indent) :=
    fun inner => innermost_of_spine rfl
  -- It is enough that the list is there for the item to lie in.
  suffices listed : ∃ outer tight, (state.continueList mark).spine = outer ++ [.list mark tight]
      ∧ (outer ++ [Container.list mark tight]).IsChain Container.Holds by
    obtain ⟨outer, tight, isSpine, nested⟩ := listed
    refine ⟨?_, by rw [isInner]; simpa using visible⟩
    show ((state.continueList mark).spine ++ [Container.item indent]).IsChain Container.Holds
    rw [isSpine, List.isChain_append]
    refine ⟨nested, List.isChain_singleton _, ?_⟩
    intro around isAround inner isInner
    simp only [List.getLast?_concat, Option.mem_some_iff] at isAround
    simp only [List.head?_cons, Option.mem_some_iff] at isInner
    exact Or.inr ⟨⟨mark, tight, isAround.symm⟩, indent, isInner.symm⟩
  unfold continueList
  dsimp only
  split
  · next same =>
      have listed : ∃ tight, state.finishEmptyItem.innermost? = some (.list mark tight) := by
        simp only [Bool.or_eq_true, decide_eq_true_eq] at same
        exact same.elim (fun found => ⟨_, found⟩) (fun found => ⟨_, found⟩)
      obtain ⟨tight, inner⟩ := listed
      obtain ⟨outer, isSpine⟩ := exists_innermost inner
      refine ⟨outer, _, by rw [push, pop_spine isSpine], ?_⟩
      refine nested_of_loosen ?_ (isSpine ▸ settled.nested)
      simp [Container.loosen]
  · refine ⟨_, _, rfl, ?_⟩
    split
    · next empty =>
        rw [List.isEmpty_iff.mp empty]
        exact List.isChain_singleton _
    · exact push_nested (finishList_ready settled.sound)

private theorem blankLine_sound (sound : state.Sound) : state.blankLine.Sound := by
  unfold blankLine
  split
  · exact sound
  · next indent inner =>
      obtain ⟨outer, isSpine⟩ := exists_innermost inner
      split
      · next empty =>
          refine ⟨?_, ?_⟩
          · show (state.pop.spine ++ [Container.item 0]).IsChain Container.Holds
            rw [pop_spine isSpine, List.isChain_append]
            refine ⟨nested_outer sound.nested isSpine, List.isChain_singleton _, ?_⟩
            intro around isAround item isItem
            simp only [List.head?_cons, Option.mem_some_iff] at isItem
            rcases holds_innermost sound.nested isSpine isAround with opened | ⟨isList, -⟩
            · exact Or.inl opened
            · exact Or.inr ⟨isList, 0, isItem.symm⟩
          · intro _
            refine ⟨?_, rfl⟩
            show (state.emptyItem && !(state.spine.drop (state.spine.length - 1)).any
              Container.isTightList) = true
            rw [empty, isSpine]
            simp [Container.isTightList]
      · next filled =>
          refine ⟨sound.nested, ?_⟩
          intro waits
          exact absurd (sound.emptied waits).1 filled
  · next noItem => exact ⟨sound.nested, fun waits => absurd waits (noItem 0)⟩

end State

/-! ## Readings -/

namespace Lead

private theorem behindMarker_indent {lead after : Lead} {width : Nat} {mark : Char} {number indent : Nat}
    {marker : ListMarker} (positive : 0 < indent)
    (marked : lead.behindMarker width mark number indent = some (marker, after)) :
    marker.indent ≠ 0 := by
  have finished : ∀ inner : Lead, 0 < (inner.finishMarker mark number indent).1.indent := by
    intro inner
    unfold finishMarker
    split
    · exact positive
    · dsimp only
      split
      · exact Nat.lt_of_lt_of_le positive (Nat.le_add_right _ _)
      · exact positive
  unfold behindMarker at marked
  split at marked
  · have visible := finished ((lead.skip width).space 1).1
    rw [Option.some.inj marked] at visible
    exact Nat.ne_of_gt visible
  · cases marked

/-- The content of an item is indented. -/
theorem listMarker?_indent {lead after : Lead} {indent : Nat} {marker : ListMarker}
    (marked : lead.listMarker? indent = some (marker, after)) : marker.indent ≠ 0 := by
  cases isRest : lead.rest with
  | nil => simp [listMarker?, isRest] at marked
  | cons c rest =>
      rw [listMarker?_of_cons isRest] at marked
      split at marked
      · split at marked
        · cases marked
        · exact behindMarker_indent (by omega) marked
      · unfold numberMarker? at marked
        split at marked
        · cases marked
        · split at marked
          · split at marked
            · exact behindMarker_indent (by omega) marked
            · cases marked
          · cases marked

end Lead

def Opened.state : Opened → State
  | .content state _ => state
  | .blankItem state _ => state

private theorem openContainers_sound :
    ∀ (fuel : Nat) {state : State} (lead : Lead), state.Sound →
      (openContainers fuel state lead).state.Sound
  | 0, _, _, sound => sound
  | fuel + 1, state, lead, sound => by
      rw [openContainers]
      dsimp only
      split
      · exact sound
      · split
        · next marker after marked =>
            have settled := State.continueList_push_settled sound marker.mark
              (Lead.listMarker?_indent marked)
            split
            · exact ⟨settled.nested, fun waits => absurd waits settled.filled⟩
            · exact openContainers_sound fuel after settled.sound
        · split
          · next after quoted =>
              refine openContainers_sound fuel after ⟨State.push_nested (State.finishList_ready sound), ?_⟩
              intro waits
              rw [State.innermost_of_spine rfl] at waits
              cases waits
          · exact sound

theorem readContent_spine (isMetadata : List Char → Bool) (ended : State) (indent : Nat)
    (content : Cursor) :
    (readContent isMetadata ended indent content).state.spine = ended.spine := by
  unfold readContent
  dsimp only
  repeat' split
  all_goals rfl

/-- **Every reading keeps the containers nested.** -/
theorem readBlock_sound {state : State} (sound : state.Sound) (cursor : Cursor) :
    (readBlock state cursor).state.Sound := by
  have opened := openContainers_sound (cursor.rest.length + 1)
    (Spine.continued state.spine { rest := cursor.rest }).2
    (State.keep_sound sound (Spine.continued state.spine { rest := cursor.rest }).1)
  rw [readBlock_eq, readBlockWith]
  dsimp only
  split
  · next inner length isOpened =>
      rw [isOpened] at opened
      exact opened
  · next inner lead isOpened =>
      rw [isOpened] at opened
      split
      · exact State.blankLine_sound opened
      · have ready := State.finishList_ready opened
        have settled : ∀ {other : State}, other.spine = inner.finishList.spine → other.Sound := by
          intro other same
          refine State.Settled.sound ⟨by rw [same]; exact ready.nested, ?_⟩
          rw [State.innermost?, same]
          exact ready.settled.filled
        exact settled (readContent_spine _ _ _ _)

end Tangle.Markdown
