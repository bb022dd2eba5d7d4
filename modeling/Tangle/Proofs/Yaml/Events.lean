import Tangle.Proofs.Yaml.Document

/-!
Contract: the events of a written document.

Owns: the kinds of the events of a tree, what the grammar does with the tokens of a tree,
and `events_document`.

Does **not** own: the tokens (`Tangle.Proofs.Yaml.Document`), or the tree behind the events
(`Tangle.Proofs.Yaml.Nodes`).

The grammar keeps on its stack where to go on behind a node. Each lemma on a node therefore
ends in the state that was on top of the stack, with the tokens behind the node left.
-/

set_option autoImplicit false

namespace Tangle.Yaml

open Write (Tree)

mutual

def nodeEvents : Tree → List EventKind
  | .text value => [.scalar none none value (Write.style value)]
  | .boolean value => [.scalar none none (booleanText value) .plain]
  | .list items => .sequenceStart none none :: itemEvents items ++ [.sequenceEnd]
  | .record names values => .mappingStart none none :: fieldEvents names values ++ [.mappingEnd]

def itemEvents : List Tree → List EventKind
  | [] => []
  | item :: rest => nodeEvents item ++ itemEvents rest

def fieldEvents : List String → List Tree → List EventKind
  | name :: names, value :: values =>
      .scalar none none name .plain :: nodeEvents value ++ fieldEvents names values
  | _, _ => []

end

theorem fieldEvents_none {names : List String} {values : List Tree}
    (vacant : names.zip values = []) : fieldEvents names values = [] := by
  match names, values with
  | name :: names, value :: values => exact absurd vacant (List.cons_ne_nil _ _)
  | [], _ => rw [fieldEvents]; simp
  | _ :: _, [] => rw [fieldEvents]; simp

namespace Grammar

/-! ## Views -/

/-- The machine in a state, with what is on its stack and the tokens that are left. -/
structure Machine.Expects (machine : Machine) (state : State) (stack : List State)
    (kinds : List TokenKind) : Prop where
  state : machine.state = state
  stack : machine.stack = stack
  kinds : machine.stream.tokens.map Token.kind = kinds
  whole : machine.stream.failure = none

/-- A run that gives events of the given kinds, none of them the last of the stream. -/
inductive Emits : Machine → List EventKind → Machine → Prop
  | refl (machine : Machine) : Emits machine [] machine
  | step {machine next later : Machine} {event : Event} {kinds : List EventKind}
      (isStep : step machine = .ok (event, next)) (goesOn : event.kind ≠ .streamEnd)
      (emits : Emits next kinds later) : Emits machine (event.kind :: kinds) later

/-- A step whose event and the run behind it give events of the given kinds. -/
def Yields (first : Step) (kinds : List EventKind) (Reached : Machine → Prop) : Prop :=
  ∃ event next behind later, first = .ok (event, next) ∧ event.kind ≠ .streamEnd
    ∧ kinds = event.kind :: behind ∧ Emits next behind later ∧ Reached later

section

variable {machine later last : Machine} {kinds kinds' : List EventKind} {first : Step}
  {Reached Reached' : Machine → Prop}

theorem Emits.trans (emits : Emits machine kinds later) (emits' : Emits later kinds' last) :
    Emits machine (kinds ++ kinds') last := by
  induction emits with
  | refl => exact emits'
  | step isStep goesOn _ inductionHypothesis => exact .step isStep goesOn (inductionHypothesis emits')

private theorem Yields.emits (yields : Yields (step machine) kinds Reached) :
    ∃ later, Emits machine kinds later ∧ Reached later := by
  obtain ⟨event, next, behind, later, isStep, goesOn, rfl, emits, reached⟩ := yields
  exact ⟨later, .step isStep goesOn emits, reached⟩

/-- A run goes on where another one has come to. -/
theorem Yields.bind (yields : Yields first kinds Reached)
    (more : ∀ later, Reached later → Yields (step later) kinds' Reached') :
    Yields first (kinds ++ kinds') Reached' := by
  obtain ⟨event, next, behind, later, isStep, goesOn, rfl, emits, reached⟩ := yields
  obtain ⟨last, emits', reached'⟩ := (more later reached).emits
  exact ⟨event, next, behind ++ kinds', last, isStep, goesOn, rfl, emits.trans emits', reached'⟩

theorem Yields.single (event : Event) {next : Machine} (isStep : first = .ok (event, next))
    (goesOn : event.kind ≠ .streamEnd) (reached : Reached next) :
    Yields first [event.kind] Reached :=
  ⟨event, next, [], next, isStep, goesOn, rfl, .refl next, reached⟩

theorem Yields.cons (event : Event) {next : Machine} (isStep : first = .ok (event, next))
    (goesOn : event.kind ≠ .streamEnd) (yields : Yields (step next) kinds Reached) :
    Yields first (event.kind :: kinds) Reached := by
  obtain ⟨later, emits, reached⟩ := yields.emits
  exact ⟨event, next, kinds, later, isStep, goesOn, rfl, emits, reached⟩

/-- The events of a run, given fuel for each of them. -/
theorem run_emits (emits : Emits machine kinds later) (fuel : Nat) :
    ∃ events, events.map Event.kind = kinds
      ∧ run (kinds.length + fuel) machine = (events ++ (run fuel later).1, (run fuel later).2) := by
  induction emits with
  | refl => exact ⟨[], rfl, by simp⟩
  | @step machine next later event kinds isStep goesOn _ inductionHypothesis =>
      obtain ⟨events, isKinds, isRun⟩ := inductionHypothesis
      refine ⟨event :: events, by rw [List.map_cons, isKinds], ?_⟩
      rw [List.length_cons, Nat.add_right_comm, run, isStep]
      dsimp only
      rw [if_neg (by simpa using goesOn), isRun]
      rfl

end

/-! ## Single steps -/

section

variable {machine : Machine} {state current : State} {stack : List State} {kind : TokenKind}
  {rest : List TokenKind}

theorem Machine.Expects.peek (expects : machine.Expects state stack (kind :: rest)) :
    ∃ token, machine.peek = .ok token ∧ token.kind = kind := by
  obtain ⟨token, tokens, isTokens, isKind, _⟩ := List.map_eq_cons_iff.mp expects.kinds
  exact ⟨token, by rw [Machine.peek, isTokens], isKind⟩

theorem Machine.Expects.skip (expects : machine.Expects state stack (kind :: rest)) :
    machine.skip.Expects state stack rest := by
  refine ⟨expects.state, expects.stack, ?_, expects.whole⟩
  show (machine.stream.tokens.drop 1).map Token.kind = _
  rw [List.map_drop, expects.kinds]
  rfl

theorem Machine.Expects.call (expects : machine.Expects current stack rest) (state : State) :
    (machine.call state).Expects current (state :: stack) rest :=
  ⟨expects.state, by rw [← expects.stack]; rfl, expects.kinds, expects.whole⟩

theorem Machine.Expects.back (expects : machine.Expects current (state :: stack) rest) :
    machine.back.Expects state stack rest := by
  refine ⟨?_, ?_, expects.kinds, expects.whole⟩
  · rw [Machine.back, expects.stack]
    rfl
  · rw [Machine.back, expects.stack]
    rfl

theorem Machine.Expects.goto (expects : machine.Expects current stack rest) (state : State) :
    (machine.goto state).Expects state stack rest :=
  ⟨rfl, expects.stack, expects.kinds, expects.whole⟩

theorem Machine.Expects.close (expects : machine.Expects state stack rest) :
    machine.close.Expects state stack rest :=
  ⟨expects.state, expects.stack, expects.kinds, expects.whole⟩

private theorem enter_expects (expects : machine.Expects state stack (kind :: rest)) :
    ∃ entered, enter machine = .ok entered ∧ entered.Expects state stack rest := by
  obtain ⟨token, isPeek, _⟩ := expects.peek
  refine ⟨(machine.openAt token.start).skip, ?_, ?_⟩
  · rw [enter, isPeek]
    rfl
  · exact @Machine.Expects.skip (machine.openAt token.start) _ _ _ _
      ⟨expects.state, expects.stack, expects.kinds, expects.whole⟩

private theorem parseNode_scalar {value : String} {style : ScalarStyle} (block indentless : Bool)
    (expects : machine.Expects current (state :: stack) (.scalar value style :: rest)) :
    ∃ event, parseNode machine block indentless = .ok (event, machine.skip.back)
      ∧ event.kind = .scalar none none value style := by
  obtain ⟨⟨kind, start, stop⟩, isPeek, rfl⟩ := expects.peek
  refine ⟨⟨.scalar none none value style, start⟩, ?_, rfl⟩
  simp [parseNode, readProperties, resolveTag, isPeek, Machine.emit, bind, Except.bind, pure,
    Except.pure]

/-- The state and the event for a token that opens a block collection; the dash of a list that
is not indented opens one too. -/
def opened? (indentless : Bool) : TokenKind → Option (State × EventKind)
  | .blockSequenceStart => some (.blockSequenceFirst, .sequenceStart none none)
  | .blockMappingStart => some (.blockMappingFirst, .mappingStart none none)
  | .blockEntry => if indentless then some (.indentlessEntry, .sequenceStart none none) else none
  | _ => none

private theorem parseNode_opens {indentless : Bool} {inside : State} {eventKind : EventKind}
    (expects : machine.Expects current stack (kind :: rest))
    (opens : opened? indentless kind = some (inside, eventKind)) :
    ∃ event, parseNode machine true indentless = .ok (event, machine.goto inside)
      ∧ event.kind = eventKind ∧ event.kind ≠ .streamEnd := by
  obtain ⟨⟨kind, start, stop⟩, isPeek, rfl⟩ := expects.peek
  refine ⟨⟨eventKind, start⟩, ?_, rfl, ?_⟩
  · cases kind <;> cases indentless <;> cases opens
    all_goals
      simp [parseNode, readProperties, resolveTag, isPeek, Machine.emit, bind, Except.bind, pure,
        Except.pure]
  · cases kind <;> cases indentless <;> cases opens <;> exact EventKind.noConfusion

/-- A token that is there starts a node. -/
theorem nodeOrEmpty_present {absent : List TokenKind} {block indentless : Bool} (mark : Mark)
    (expects : machine.Expects current stack (kind :: rest))
    (present : absent.contains kind = false) :
    nodeOrEmpty machine state absent block indentless mark
      = parseNode (machine.call state) block indentless := by
  obtain ⟨token, isPeek, rfl⟩ := expects.peek
  rw [nodeOrEmpty, isPeek]
  exact if_neg (by rw [present]; exact Bool.false_ne_true)

/-! ## Steps at the indicators -/

def startsNode (kind : TokenKind) : Bool :=
  !([.blockEntry, .key, .value, .blockEnd].contains kind)

def startsValue (kind : TokenKind) : Bool :=
  !([.key, .value, .blockEnd].contains kind)

private theorem parseBlockSequence_entry (expects : machine.Expects current stack (.blockEntry :: kind :: rest))
    (starts : startsNode kind = true) :
    parseBlockSequence machine = parseNode (machine.skip.call .blockSequenceEntry) true false := by
  obtain ⟨⟨_, start, stop⟩, isPeek, rfl⟩ := expects.peek
  rw [parseBlockSequence, isPeek]
  refine nodeOrEmpty_present stop expects.skip ?_
  simp only [startsNode, List.contains_cons, Bool.not_eq_true', Bool.or_eq_false_iff] at starts ⊢
  exact ⟨starts.1, starts.2.2.2⟩

private theorem parseIndentless_entry (expects : machine.Expects current stack (.blockEntry :: kind :: rest))
    (starts : startsNode kind = true) :
    parseIndentless machine = parseNode (machine.skip.call .indentlessEntry) true false := by
  obtain ⟨⟨_, start, stop⟩, isPeek, rfl⟩ := expects.peek
  rw [parseIndentless, isPeek]
  exact nodeOrEmpty_present stop expects.skip (by simpa [startsNode] using starts)

private theorem parseBlockMappingKey_field (expects : machine.Expects current stack (.key :: kind :: rest))
    (starts : startsValue kind = true) :
    parseBlockMappingKey machine = parseNode (machine.skip.call .blockMappingValue) true true := by
  obtain ⟨⟨_, start, stop⟩, isPeek, rfl⟩ := expects.peek
  rw [parseBlockMappingKey, isPeek]
  exact nodeOrEmpty_present stop expects.skip (by simpa [startsValue] using starts)

private theorem parseBlockMappingValue_field
    (expects : machine.Expects current stack (.value :: kind :: rest))
    (starts : startsValue kind = true) :
    parseBlockMappingValue machine = parseNode (machine.skip.call .blockMappingKey) true true := by
  obtain ⟨⟨_, start, stop⟩, isPeek, rfl⟩ := expects.peek
  rw [parseBlockMappingValue, isPeek]
  exact nodeOrEmpty_present stop expects.skip (by simpa [startsValue] using starts)

end

/-! ## Trees -/

def NodeYields (tree : Tree) : Prop :=
  ∀ ⦃machine : Machine⦄ ⦃current state : State⦄ ⦃stack : List State⦄ ⦃rest : List TokenKind⦄,
    machine.Expects current (state :: stack) (nodeKinds tree ++ rest) → ∀ indentless,
    Yields (parseNode machine true indentless) (nodeEvents tree)
      fun later => later.Expects state stack rest

/-- The value of a field. Where it is a list, its end shows only in the token behind it. -/
def ValueYields (tree : Tree) : Prop :=
  ∀ ⦃machine : Machine⦄ ⦃current state : State⦄ ⦃stack : List State⦄ ⦃kind : TokenKind⦄
    ⦃rest : List TokenKind⦄,
    machine.Expects current (state :: stack) (valueKinds tree ++ kind :: rest) →
    kind ≠ .blockEntry →
    Yields (parseNode machine true true) (nodeEvents tree)
      fun later => later.Expects state stack (kind :: rest)

private theorem nodeKinds_head (tree : Tree) (rest : List TokenKind) :
    ∃ kind more, nodeKinds tree ++ rest = kind :: more ∧ startsNode kind = true := by
  cases tree <;> rw [nodeKinds] <;> exact ⟨_, _, rfl, rfl⟩

private theorem valueKinds_head {tree : Tree} (proper : Proper tree) (rest : List TokenKind) :
    ∃ kind more, valueKinds tree ++ rest = kind :: more ∧ startsValue kind = true := by
  cases proper with
  | text => rw [valueKinds]; exact ⟨_, _, rfl, rfl⟩
  | boolean => rw [valueKinds]; exact ⟨_, _, rfl, rfl⟩
  | list filled =>
      obtain ⟨item, items, rfl⟩ := List.exists_cons_of_ne_nil filled
      rw [valueKinds, entryKinds]
      exact ⟨_, _, rfl, rfl⟩
  | record => rw [valueKinds]; exact ⟨_, _, rfl, rfl⟩

/-- Behind the fields so far stands a name or the end of the record. -/
theorem fieldKinds_head (names : List String) (values : List Tree) (rest : List TokenKind) :
    ∃ kind more, fieldKinds names values ++ .blockEnd :: rest = kind :: more
      ∧ kind ≠ .blockEntry := by
  match names, values with
  | name :: names, value :: values =>
      rw [fieldKinds]
      exact ⟨_, _, rfl, TokenKind.noConfusion⟩
  | [], _ =>
      rw [fieldKinds_none rfl]
      exact ⟨_, _, rfl, TokenKind.noConfusion⟩
  | _ :: _, [] =>
      rw [fieldKinds_none rfl]
      exact ⟨_, _, rfl, TokenKind.noConfusion⟩

variable {machine : Machine} {state current : State} {stack : List State} {rest : List TokenKind}

private theorem blockSequence_yields {items : List Tree} (each : ∀ item ∈ items, NodeYields item)
    (expects : machine.Expects current (state :: stack) (entryKinds items ++ .blockEnd :: rest)) :
    Yields (parseBlockSequence machine) (itemEvents items ++ [.sequenceEnd])
      fun later => later.Expects state stack rest := by
  induction items generalizing machine current with
  | nil =>
      rw [entryKinds] at expects
      obtain ⟨⟨_, start, stop⟩, isPeek, rfl⟩ := expects.peek
      rw [itemEvents]
      refine .single ⟨.sequenceEnd, start⟩ ?_ EventKind.noConfusion expects.skip.back.close
      rw [parseBlockSequence, isPeek]
      rfl
  | cons item more inductionHypothesis =>
      obtain ⟨yieldsItem, yieldsMore⟩ := List.forall_mem_cons.mp each
      rw [entryKinds, List.cons_append, List.cons_append, List.append_assoc] at expects
      obtain ⟨kind, others, isHead, starts⟩ :=
        nodeKinds_head item (entryKinds more ++ .blockEnd :: rest)
      have isStep := parseBlockSequence_entry (isHead ▸ expects) starts
      rw [isStep, itemEvents, List.append_assoc]
      refine (yieldsItem (expects.skip.call _) false).bind fun later reached => ?_
      rw [step, reached.state]
      exact inductionHypothesis yieldsMore reached

private theorem indentless_yields {items : List Tree} {kind : TokenKind}
    (each : ∀ item ∈ items, NodeYields item)
    (expects : machine.Expects current (state :: stack) (entryKinds items ++ kind :: rest))
    (ends : kind ≠ .blockEntry) :
    Yields (parseIndentless machine) (itemEvents items ++ [.sequenceEnd])
      fun later => later.Expects state stack (kind :: rest) := by
  induction items generalizing machine current with
  | nil =>
      rw [entryKinds] at expects
      obtain ⟨⟨kind, start, stop⟩, isPeek, rfl⟩ := expects.peek
      rw [itemEvents]
      refine .single ⟨.sequenceEnd, start⟩ ?_ EventKind.noConfusion expects.back
      rw [parseIndentless, isPeek]
      cases kind <;> first | rfl | exact absurd rfl ends
  | cons item more inductionHypothesis =>
      obtain ⟨yieldsItem, yieldsMore⟩ := List.forall_mem_cons.mp each
      rw [entryKinds, List.cons_append, List.cons_append, List.append_assoc] at expects
      obtain ⟨first, others, isHead, starts⟩ := nodeKinds_head item (entryKinds more ++ kind :: rest)
      have isStep := parseIndentless_entry (isHead ▸ expects) starts
      rw [isStep, itemEvents, List.append_assoc]
      refine (yieldsItem (expects.skip.call _) false).bind fun later reached => ?_
      rw [step, reached.state]
      exact inductionHypothesis yieldsMore reached

private theorem blockMapping_ends
    (expects : machine.Expects current (state :: stack) (.blockEnd :: rest)) :
    Yields (parseBlockMappingKey machine) [.mappingEnd] fun later => later.Expects state stack rest := by
  obtain ⟨⟨_, start, stop⟩, isPeek, rfl⟩ := expects.peek
  refine .single ⟨.mappingEnd, start⟩ ?_ EventKind.noConfusion expects.skip.back.close
  rw [parseBlockMappingKey, isPeek]
  rfl

private theorem blockMapping_yields {names : List String} {values : List Tree}
    (proper : ∀ field ∈ names.zip values, Proper field.2)
    (each : ∀ field ∈ names.zip values, ValueYields field.2)
    (expects : machine.Expects current (state :: stack)
      (fieldKinds names values ++ .blockEnd :: rest)) :
    Yields (parseBlockMappingKey machine) (fieldEvents names values ++ [.mappingEnd])
      fun later => later.Expects state stack rest := by
  induction names generalizing machine current values with
  | nil =>
      rw [fieldKinds_none rfl] at expects
      rw [fieldEvents_none rfl]
      exact blockMapping_ends expects
  | cons name names inductionHypothesis =>
      cases values with
      | nil =>
          rw [fieldKinds_none rfl] at expects
          rw [fieldEvents_none rfl]
          exact blockMapping_ends expects
      | cons value values =>
          rw [List.zip_cons_cons] at proper each
          obtain ⟨properValue, properMore⟩ := List.forall_mem_cons.mp proper
          obtain ⟨yieldsValue, yieldsMore⟩ := List.forall_mem_cons.mp each
          obtain ⟨ends, others, isBehind, notEntry⟩ := fieldKinds_head names values rest
          have isText : fieldKinds (name :: names) (value :: values) ++ .blockEnd :: rest
              = .key :: .scalar name .plain :: .value :: (valueKinds value ++ ends :: others) := by
            rw [fieldKinds, ← isBehind]
            simp
          rw [isText] at expects
          -- The name is one event, and its colon follows in the state of a value.
          obtain ⟨event, isName, isEvent⟩ :=
            parseNode_scalar true true (expects.skip.call .blockMappingValue)
          rw [parseBlockMappingKey_field expects rfl, fieldEvents, List.cons_append, List.cons_append,
            List.append_assoc, ← isEvent]
          refine .cons event isName (by rw [isEvent]; exact EventKind.noConfusion) ?_
          have atColon := (expects.skip.call .blockMappingValue).skip.back
          obtain ⟨first, more, isHead, starts⟩ := @valueKinds_head value properValue (ends :: others)
          rw [step, atColon.state]
          dsimp only
          rw [parseBlockMappingValue_field (isHead ▸ atColon) starts]
          refine (yieldsValue (atColon.skip.call .blockMappingKey) notEntry).bind
            fun later reached => ?_
          rw [step, reached.state]
          exact inductionHypothesis properMore yieldsMore (isBehind ▸ reached)

private theorem scalar_yields {value : String} {style : ScalarStyle} (indentless : Bool)
    (expects : machine.Expects current (state :: stack) (.scalar value style :: rest)) :
    Yields (parseNode machine true indentless) [.scalar none none value style]
      fun later => later.Expects state stack rest := by
  obtain ⟨event, isStep, isEvent⟩ := parseNode_scalar true indentless expects
  rw [← isEvent]
  exact .single event isStep (by rw [isEvent]; exact EventKind.noConfusion) expects.skip.back

/-- A list or record behind the token that opens it. -/
theorem opened_yields {kind : TokenKind} {inner : List TokenKind} {inside : State}
    {eventKind : EventKind} {events : List EventKind} {indentless : Bool}
    (opens : opened? indentless kind = some (inside, eventKind))
    (expects : machine.Expects current (state :: stack) (kind :: inner))
    (yields : ∀ entered : Machine, entered.Expects inside (state :: stack) (kind :: inner) →
      Yields (step entered) events fun later => later.Expects state stack rest) :
    Yields (parseNode machine true indentless) (eventKind :: events)
      fun later => later.Expects state stack rest := by
  obtain ⟨event, isStep, isEvent, goesOn⟩ := parseNode_opens expects opens
  rw [← isEvent]
  exact .cons event isStep goesOn (yields _ (expects.goto inside))

private theorem step_blockSequenceFirst {items : List Tree} (each : ∀ item ∈ items, NodeYields item)
    (expects : machine.Expects .blockSequenceFirst (state :: stack)
      (.blockSequenceStart :: (entryKinds items ++ .blockEnd :: rest))) :
    Yields (step machine) (itemEvents items ++ [.sequenceEnd])
      fun later => later.Expects state stack rest := by
  obtain ⟨entered, isEntered, expects'⟩ := enter_expects expects
  rw [step, expects.state]
  dsimp only
  rw [isEntered]
  exact blockSequence_yields each expects'

private theorem step_blockMappingFirst {names : List String} {values : List Tree}
    (proper : ∀ field ∈ names.zip values, Proper field.2)
    (each : ∀ field ∈ names.zip values, ValueYields field.2)
    (expects : machine.Expects .blockMappingFirst (state :: stack)
      (.blockMappingStart :: (fieldKinds names values ++ .blockEnd :: rest))) :
    Yields (step machine) (fieldEvents names values ++ [.mappingEnd])
      fun later => later.Expects state stack rest := by
  obtain ⟨entered, isEntered, expects'⟩ := enter_expects expects
  rw [step, expects.state]
  dsimp only
  rw [isEntered]
  exact blockMapping_yields proper each expects'

/-- The tokens of a tree give its events. -/
theorem yields_of_proper {tree : Tree} (proper : Proper tree) :
    NodeYields tree ∧ ValueYields tree := by
  induction proper with
  | text value =>
      constructor
      · intro machine current state stack rest expects indentless
        rw [nodeKinds] at expects
        rw [nodeEvents]
        exact scalar_yields indentless expects
      · intro machine current state stack kind rest expects _
        rw [valueKinds] at expects
        rw [nodeEvents]
        exact scalar_yields true expects
  | boolean value =>
      constructor
      · intro machine current state stack rest expects indentless
        rw [nodeKinds] at expects
        rw [nodeEvents]
        exact scalar_yields indentless expects
      · intro machine current state stack kind rest expects _
        rw [valueKinds] at expects
        rw [nodeEvents]
        exact scalar_yields true expects
  | list filled proper each =>
      have yields := fun item isIn => (each item isIn).1
      constructor
      · intro machine current state stack rest expects indentless
        rw [nodeKinds, List.cons_append, List.cons_append, List.append_assoc] at expects
        rw [nodeEvents, List.cons_append]
        exact opened_yields rfl expects fun entered => step_blockSequenceFirst yields
      · intro machine current state stack kind rest expects ends
        obtain ⟨item, items, rfl⟩ := List.exists_cons_of_ne_nil filled
        have isKinds : entryKinds (item :: items) ++ kind :: rest
            = .blockEntry :: (nodeKinds item ++ entryKinds items ++ kind :: rest) := by
          rw [entryKinds]
          rfl
        rw [valueKinds, isKinds] at expects
        rw [nodeEvents, List.cons_append]
        refine opened_yields rfl expects fun entered expects' => ?_
        rw [step, expects'.state]
        rw [← isKinds] at expects'
        exact indentless_yields yields expects' ends
  | record filled named proper each =>
      have yields := fun field isIn => (each field isIn).2
      constructor
      · intro machine current state stack rest expects indentless
        rw [nodeKinds, List.cons_append, List.cons_append, List.append_assoc] at expects
        rw [nodeEvents, List.cons_append]
        exact opened_yields rfl expects fun entered => step_blockMappingFirst proper yields
      · intro machine current state stack kind rest expects _
        rw [valueKinds, List.cons_append, List.cons_append, List.append_assoc] at expects
        rw [nodeEvents, List.cons_append]
        exact opened_yields rfl expects fun entered => step_blockMappingFirst proper yields

/-! ## Documents -/

theorem step_streamStart (expects : machine.Expects .streamStart stack (.streamStart :: rest)) :
    ∃ event next, step machine = .ok (event, next) ∧ event.kind = .streamStart
      ∧ next.Expects .implicitDocumentStart stack rest := by
  obtain ⟨⟨_, start, stop⟩, isPeek, rfl⟩ := expects.peek
  refine ⟨⟨.streamStart, start⟩, machine.skip.goto .implicitDocumentStart, ?_, rfl,
    expects.skip.goto _⟩
  rw [step, expects.state]
  dsimp only
  rw [isPeek]
  rfl

/-- A document may start without a marker. -/
theorem step_implicitDocumentStart
    (expects : machine.Expects .implicitDocumentStart stack (.blockMappingStart :: rest)) :
    ∃ event next, step machine = .ok (event, next) ∧ event.kind = .documentStart
      ∧ next.Expects .blockNode (.documentEnd :: stack) (.blockMappingStart :: rest) := by
  obtain ⟨⟨_, start, stop⟩, isPeek, rfl⟩ := expects.peek
  have expects' : (withDefaultHandles machine).Expects .implicitDocumentStart stack
      (.blockMappingStart :: rest) :=
    ⟨expects.state, expects.stack, expects.kinds, expects.whole⟩
  refine ⟨⟨.documentStart, start⟩, _, ?_, rfl, (expects'.call .documentEnd).goto .blockNode⟩
  rw [step, expects.state]
  dsimp only
  rw [parseDocumentStart]
  dsimp only
  simp [isPeek, bind, Except.bind, pure, Except.pure, isDirective, Machine.emit]

private theorem step_documentEnd (expects : machine.Expects .documentEnd stack (.streamEnd :: rest)) :
    ∃ event next, step machine = .ok (event, next) ∧ event.kind = .documentEnd
      ∧ next.Expects .documentStart stack (.streamEnd :: rest) := by
  obtain ⟨⟨_, start, stop⟩, isPeek, rfl⟩ := expects.peek
  refine ⟨⟨.documentEnd, start⟩, { machine with handles := [], state := .documentStart }, ?_, rfl,
    ⟨rfl, expects.stack, expects.kinds, expects.whole⟩⟩
  rw [step, expects.state]
  dsimp only
  rw [parseDocumentEnd, isPeek]
  rfl

private theorem step_streamEnd (expects : machine.Expects .documentStart stack (.streamEnd :: rest)) :
    ∃ event next, step machine = .ok (event, next) ∧ event.kind = .streamEnd := by
  obtain ⟨⟨_, start, stop⟩, isPeek, rfl⟩ := expects.peek
  refine ⟨⟨.streamEnd, start⟩, machine.skip.goto .finished, ?_, rfl⟩
  rw [step, expects.state]
  dsimp only
  rw [parseDocumentStart]
  simp [skipDocumentEnds, isPeek, bind, Except.bind, pure, Except.pure, Machine.emit]

end Grammar

/-! ## Fuel -/

theorem length_itemEvents_le {items : List Tree}
    (each : ∀ item ∈ items, (nodeEvents item).length ≤ 3 * (nodeKinds item).length) :
    (itemEvents items).length + 3 * items.length ≤ 3 * (entryKinds items).length := by
  induction items with
  | nil => simp [itemEvents]
  | cons item more inductionHypothesis =>
      obtain ⟨first, others⟩ := List.forall_mem_cons.mp each
      have behind := inductionHypothesis others
      rw [itemEvents, entryKinds]
      simp only [List.length_append, List.length_cons]
      omega

private theorem length_fieldEvents_le {names : List String} {values : List Tree}
    (each : ∀ field ∈ names.zip values,
      (nodeEvents field.2).length ≤ 3 * (valueKinds field.2).length) :
    (fieldEvents names values).length ≤ 3 * (fieldKinds names values).length := by
  induction names generalizing values with
  | nil =>
      rw [fieldEvents_none rfl]
      exact Nat.zero_le _
  | cons name names inductionHypothesis =>
      cases values with
      | nil =>
          rw [fieldEvents_none rfl]
          exact Nat.zero_le _
      | cons value values =>
          rw [List.zip_cons_cons] at each
          obtain ⟨first, others⟩ := List.forall_mem_cons.mp each
          have behind := inductionHypothesis others
          dsimp only at first
          rw [fieldEvents, fieldKinds]
          simp only [List.length_append, List.length_cons]
          omega

/-- A tree has at most three events for each of its tokens. -/
theorem length_nodeEvents_le {tree : Tree} (proper : Proper tree) :
    (nodeEvents tree).length ≤ 3 * (nodeKinds tree).length
      ∧ (nodeEvents tree).length ≤ 3 * (valueKinds tree).length := by
  induction proper with
  | text => simp [nodeEvents, nodeKinds, valueKinds]
  | boolean => simp [nodeEvents, nodeKinds, valueKinds]
  | list filled _ each =>
      have inner := length_itemEvents_le fun item isIn => (each item isIn).1
      have some := List.length_pos_iff.mpr filled
      rw [nodeEvents, nodeKinds, valueKinds]
      simp only [List.length_append, List.length_cons, List.length_nil]
      omega
  | record _ _ _ each =>
      have inner := length_fieldEvents_le fun field isIn => (each field isIn).2
      rw [nodeEvents, nodeKinds, valueKinds]
      simp only [List.length_append, List.length_cons, List.length_nil]
      omega

/-! ## Whole documents -/

/-- All events ahead of the end of the stream. -/
theorem Grammar.document_emits {names : List String} {values : List Tree} {machine : Machine}
    (proper : Proper (.record names values))
    (expects : machine.Expects .streamStart []
      (.streamStart :: nodeKinds (.record names values) ++ [.streamEnd])) :
    ∃ later,
      Emits machine (.streamStart :: .documentStart :: nodeEvents (.record names values)
        ++ [.documentEnd]) later
      ∧ later.Expects .documentStart [] [.streamEnd] := by
  have goesOn : ∀ {kind other : EventKind}, kind = other → other ≠ .streamEnd → kind ≠ .streamEnd :=
    fun isKind notEnd => by rwa [isKind]
  have isKinds : nodeKinds (.record names values) ++ [.streamEnd]
      = .blockMappingStart :: (fieldKinds names values ++ [.blockEnd, .streamEnd]) := by
    rw [nodeKinds]
    simp
  rw [List.cons_append, isKinds] at expects
  obtain ⟨event, started, isStep, isEvent, expects'⟩ := step_streamStart expects
  obtain ⟨event', opened, isStep', isEvent', expects''⟩ := step_implicitDocumentStart expects'
  rw [← isKinds] at expects''
  have node := (yields_of_proper proper).1 expects'' false
  have isNode : step opened = parseNode opened true false := by rw [step, expects''.state]
  rw [← isNode] at node
  obtain ⟨closed, emits, atEnd⟩ := node.emits
  obtain ⟨event'', later, isStep'', isEvent'', reached⟩ := step_documentEnd atEnd
  refine ⟨later, ?_, reached⟩
  rw [← isEvent, ← isEvent', ← isEvent'']
  refine .step isStep (goesOn isEvent EventKind.noConfusion)
    (.step isStep' (goesOn isEvent' EventKind.noConfusion) (emits.trans ?_))
  exact .step isStep'' (goesOn isEvent'' EventKind.noConfusion) (.refl later)

/-- The events of a record that was written as a document. -/
theorem events_document {names : List String} {values : List Tree}
    (proper : Proper (.record names values)) :
    ∃ list, events (Write.document (.record names values)) = (list, none)
      ∧ list.map Event.kind
          = .streamStart :: .documentStart :: nodeEvents (.record names values)
              ++ [.documentEnd, .streamEnd] := by
  obtain ⟨tokens, isTokens, isKinds⟩ := tokenize_document proper
  obtain ⟨later, emits, atEnd⟩ :=
    @Grammar.document_emits names values { stream := ⟨tokens, none⟩ } proper ⟨rfl, rfl, isKinds, rfl⟩
  obtain ⟨event, next, isStep, isEnd⟩ := Grammar.step_streamEnd atEnd
  have bounded := (length_nodeEvents_le proper).1
  have length : tokens.length = (nodeKinds (.record names values)).length + 2 := by
    rw [← List.length_map (f := Token.kind), isKinds]
    simp
  obtain ⟨fuel, isFuel⟩ : ∃ fuel, 3 * tokens.length + 3
      = (EventKind.streamStart :: .documentStart :: nodeEvents (.record names values)
          ++ [EventKind.documentEnd]).length + (fuel + 1) := by
    refine ⟨3 * tokens.length + 3 - ((nodeEvents (.record names values)).length + 4), ?_⟩
    simp only [List.length_append, List.length_cons, List.length_nil]
    omega
  obtain ⟨list, isList, isRun⟩ := Grammar.run_emits emits (fuel + 1)
  have last : Grammar.run (fuel + 1) later = ([event], none) := by
    rw [Grammar.run, isStep]
    dsimp only
    rw [if_pos (by rw [isEnd]; rfl)]
  rw [last] at isRun
  refine ⟨list ++ [event], ?_, ?_⟩
  · rw [events, isTokens]
    dsimp only
    rw [isFuel]
    exact isRun
  · rw [List.map_append, isList, List.map_singleton, isEnd]
    simp

end Tangle.Yaml
