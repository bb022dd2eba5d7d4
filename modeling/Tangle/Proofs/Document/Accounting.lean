import Tangle.Proofs.Document.Partition

/-!
Contract: every directive and every fence of a source is accounted for.

Owns: `fate`, which tells from a directive and the item behind it what becomes of it, and
that a built document and its diagnostics hold exactly that.

Does **not** own: where nodes are (`Tangle.Proofs.Document.Partition`).

## Where a run can be cut

Assembling looks one item ahead, and only from a directive to a fence. Everywhere else a
run is the run of its second half after that of its first. In particular it can be cut
ahead of every directive, so the fate of one directive is a question about one step.
-/

set_option autoImplicit false

namespace Tangle.Document

open Tangle.Source

/-! ## Fates -/

/-- What becomes of a directive. -/
inductive Fate where
  | config (config : Directive.Config)
  | annotates (settings : Directive.Settings)
  | dangling
  | malformed (reason : Malformation)
  deriving DecidableEq, Repr

def fate (source : String) (item : DirectiveItem) (next : Option Item) : Fate :=
  match item.kind with
  | .config =>
      match decodeBody Directive.decodeConfig item.body with
      | .error reason => .malformed reason
      | .ok config => .config config
  | .block =>
      match decodeBody Directive.decodeSettings item.body with
      | .error reason => .malformed reason
      | .ok settings =>
          match next with
          | some (.fence fence) =>
              if adjoins source item.span fence.span then .annotates settings else .dangling
          | _ => .dangling

/-- What a fence gets from the item ahead of it. -/
def annotationOf (source : String) (previous : Option Item) (fence : FenceItem) :
    Option (Span × Directive.Settings) :=
  match previous with
  | some (.directive item) =>
      match fate source item (some (.fence fence)) with
      | .annotates settings => some (item.span, settings)
      | _ => none
  | _ => none

def Item.fence? : Item → Option FenceItem
  | fence item => some item
  | directive _ => none

def Item.directive? : Item → Option DirectiveItem
  | directive item => some item
  | fence _ => none

def fences (items : List Item) : List FenceItem :=
  items.filterMap Item.fence?

def directives (items : List Item) : List DirectiveItem :=
  items.filterMap Item.directive?

variable {source : String} {items : List Item}

private theorem settingsFor?_eq_some_iff {item : DirectiveItem} {fence : FenceItem}
    {settings : Directive.Settings} :
    settingsFor? source item fence = some settings
      ↔ fate source item (some (.fence fence)) = .annotates settings := by
  unfold settingsFor? fate
  cases item.kind with
  | config => cases decodeBody Directive.decodeConfig item.body <;> simp
  | block =>
      cases decodeBody Directive.decodeSettings item.body with
      | error reason => simp [Except.toOption]
      | ok own => by_cases adjoined : adjoins source item.span fence.span = true <;>
          simp [adjoined, Except.toOption]

private theorem annotationOf_directive (item : DirectiveItem) (fence : FenceItem) :
    annotationOf source (some (.directive item)) fence
      = (settingsFor? source item fence).map fun settings => (item.span, settings) := by
  cases found : settingsFor? source item fence with
  | some settings => simp only [annotationOf, settingsFor?_eq_some_iff.mp found, Option.map_some]
  | none =>
      simp only [annotationOf, Option.map_none]
      split
      · next settings isFate => rw [settingsFor?_eq_some_iff.mpr isFate] at found; cases found
      · rfl

/-- Only a fence behind it lets a directive annotate. -/
theorem exists_fence_of_annotates {item : DirectiveItem} {next : Option Item}
    {settings : Directive.Settings} (isFate : fate source item next = .annotates settings) :
    ∃ fence, next = some (.fence fence) := by
  unfold fate at isFate
  split at isFate
  · split at isFate <;> cases isFate
  · split at isFate
    · cases isFate
    · split at isFate
      · exact ⟨_, rfl⟩
      · cases isFate

/-! ## One directive -/

section Steps

variable (assembly : Assembly) {item : DirectiveItem} {after : List Item}

private theorem assemble_annotates {fence : FenceItem} {settings : Directive.Settings}
    (rest : List Item) (isFate : fate source item (some (.fence fence)) = .annotates settings) :
    assemble source (.directive item :: .fence fence :: rest) assembly
      = assemble source rest
          (assembly.push source (.code (codeBlock source fence (some (item.span, settings))))) := by
  rw [assemble, settingsFor?_eq_some_iff.mpr isFate]

private theorem assemble_alone
    (notAnnotating : ∀ settings, fate source item after.head? ≠ .annotates settings) :
    assemble source (.directive item :: after) assembly
      = assemble source after (assembleAlone source assembly item) := by
  cases after with
  | nil => rfl
  | cons next rest =>
      cases next with
      | directive other => rfl
      | fence fence =>
          have missing : settingsFor? source item fence = none := by
            rw [Option.eq_none_iff_forall_ne_some]
            intro settings found
            exact notAnnotating settings (settingsFor?_eq_some_iff.mp found)
          conv_lhs => rw [assemble, missing]

private theorem assembleAlone_config {config : Directive.Config} {next : Option Item}
    (isFate : fate source item next = .config config) :
    assembleAlone source assembly item
      = (if assembly.hasConfig then assembly.report source .duplicateConfig item.span
          else assembly).push source (.config ⟨config, item.span, rangeOf source item.span⟩) := by
  unfold fate at isFate
  unfold assembleAlone assembleConfig
  cases isKind : item.kind with
  | config =>
      rw [isKind] at isFate
      cases decoded : decodeBody Directive.decodeConfig item.body with
      | error reason => simp [decoded] at isFate
      | ok own =>
          rw [decoded] at isFate
          obtain rfl : own = config := Fate.config.inj isFate
          rfl
  | block =>
      rw [isKind] at isFate
      dsimp only at isFate
      split at isFate
      · cases isFate
      · split at isFate
        · split at isFate <;> cases isFate
        · cases isFate

private theorem assembleAlone_dangling {next : Option Item} (isFate : fate source item next = .dangling) :
    assembleAlone source assembly item
      = assembly.report source .danglingDirective item.span := by
  unfold fate at isFate
  unfold assembleAlone
  cases isKind : item.kind with
  | config =>
      rw [isKind] at isFate
      dsimp only at isFate
      split at isFate <;> cases isFate
  | block =>
      rw [isKind] at isFate
      cases decoded : decodeBody Directive.decodeSettings item.body with
      | error reason => simp [decoded] at isFate
      | ok settings => rfl

private theorem assembleAlone_malformed {reason : Malformation} {next : Option Item}
    (isFate : fate source item next = .malformed reason) :
    assembleAlone source assembly item
      = assembly.report source (.malformedDirective item.kind reason) item.span := by
  unfold fate at isFate
  unfold assembleAlone assembleConfig
  cases isKind : item.kind with
  | config =>
      rw [isKind] at isFate
      cases decoded : decodeBody Directive.decodeConfig item.body with
      | error own =>
          rw [decoded] at isFate
          obtain rfl : own = reason := Fate.malformed.inj isFate
          rfl
      | ok config => simp [decoded] at isFate
  | block =>
      rw [isKind] at isFate
      cases decoded : decodeBody Directive.decodeSettings item.body with
      | error own =>
          rw [decoded] at isFate
          obtain rfl : own = reason := Fate.malformed.inj isFate
          rfl
      | ok settings =>
          rw [decoded] at isFate
          dsimp only at isFate
          split at isFate
          · split at isFate <;> cases isFate
          · cases isFate

end Steps

/-! ## Cutting a run -/

/-- No look-ahead crosses the place between two lists of items. -/
def Uncrossed (before after : List Item) : Prop :=
  ∀ item fence, before.getLast? = some (.directive item) → after.head? ≠ some (.fence fence)

private theorem uncrossed_directive (before after : List Item) (item : DirectiveItem) :
    Uncrossed before (.directive item :: after) := by
  intro other fence _ isFence
  cases isFence

theorem Uncrossed.tail {first : Item} {before after : List Item}
    (uncrossed : Uncrossed (first :: before) after) : Uncrossed before after := by
  intro item fence isLast
  refine uncrossed item fence ?_
  rw [List.getLast?_cons, isLast]
  rfl

private theorem assemble_append {before after : List Item} (uncrossed : Uncrossed before after)
    (assembly : Assembly) :
    assemble source (before ++ after) assembly
      = assemble source after (assemble source before assembly) := by
  fun_induction assemble source before assembly with
  | case1 assembly => rfl
  | case2 fence rest assembly inductionHypothesis =>
      rw [List.cons_append, assemble, inductionHypothesis uncrossed.tail]
  | case3 item fence rest assembly settings found inductionHypothesis =>
      rw [List.cons_append, List.cons_append, assemble, found]
      exact inductionHypothesis uncrossed.tail.tail
  | case4 item fence rest assembly missing inductionHypothesis =>
      rw [← inductionHypothesis uncrossed.tail, List.cons_append]
      refine assemble_alone assembly ?_
      intro settings isFate
      rw [settingsFor?_eq_some_iff.mpr isFate] at missing
      cases missing
  | case5 item rest assembly noFence inductionHypothesis =>
      rw [← inductionHypothesis uncrossed.tail, List.cons_append]
      refine assemble_alone assembly ?_
      intro settings isFate
      obtain ⟨fence, isFence⟩ := exists_fence_of_annotates isFate
      cases rest with
      | nil => exact uncrossed item fence rfl isFence
      | cons next later =>
          obtain rfl : next = .fence fence := Option.some.inj isFence
          exact noFence fence later rfl

private theorem nodesOf_append {before after : List Item} (uncrossed : Uncrossed before after) :
    nodesOf source (before ++ after) = nodesOf source before ++ nodesOf source after := by
  have whole := (extends_assemble source (before ++ after) {}).outlined
  rw [assemble_append uncrossed, (extends_assemble source after _).outlined,
    (extends_assemble source before {}).outlined] at whole
  exact whole.symm

/-! ## Fences -/

theorem aloneNode?_code (item : DirectiveItem) :
    (aloneNode? source item).toList.filterMap Node.code? = [] := by
  unfold aloneNode?
  split
  · rfl
  · split <;> rfl

/-- What a block has from its fence alone can be read off the fences. -/
theorem nodesOf_map_fences {α : Type} (fromBlock : CodeBlock → α) (fromFence : FenceItem → α)
    (agree : ∀ fence directive, fromBlock (codeBlock source fence directive) = fromFence fence)
    (items : List Item) :
    ((nodesOf source items).filterMap Node.code?).map fromBlock
      = (fences items).map fromFence := by
  fun_induction nodesOf source items with
  | case1 => rfl
  | case2 fence rest inductionHypothesis =>
      exact congrArg₂ List.cons (agree fence none) inductionHypothesis
  | case3 item fence rest settings found inductionHypothesis =>
      exact congrArg₂ List.cons (agree fence (some (item.span, settings))) inductionHypothesis
  | case4 item fence rest missing inductionHypothesis =>
      rw [List.filterMap_append, aloneNode?_code, List.nil_append, inductionHypothesis]
      rfl
  | case5 item rest noFence inductionHypothesis =>
      rw [List.filterMap_append, aloneNode?_code, List.nil_append, inductionHypothesis]
      rfl

private theorem nodesOf_fences (source : String) (items : List Item) :
    ((nodesOf source items).filterMap Node.code?).map
        (fun block => (block.language, block.code, block.indents))
      = (fences items).map fun fence => (fence.language, fence.code, fence.indents) :=
  nodesOf_map_fences _ _ (fun _ _ => rfl) items

/-- The blocks of the items ahead of a place come first. -/
theorem codeBlocks_behind {before after : List Item} (path : String)
    (uncrossed : Uncrossed before after) :
    (build source path (before ++ after)).document.codeBlocks[(fences before).length]?
      = ((nodesOf source after).filterMap Node.code?).head? := by
  have sameLength : ((nodesOf source before).filterMap Node.code?).length = (fences before).length := by
    have lengths := congrArg List.length (nodesOf_fences source before)
    rwa [List.length_map, List.length_map] at lengths
  rw [build_codeBlocks, nodesOf_append uncrossed, List.filterMap_append, ← sameLength,
    List.getElem?_append_right (Nat.le_refl _), Nat.sub_self, List.head?_eq_getElem?]

/-- **Each fence is a block,** annotated by what is ahead of it. -/
theorem codeBlock_of_fence (path : String) (before after : List Item) (fence : FenceItem) :
    (build source path (before ++ .fence fence :: after)).document.codeBlocks[(fences before).length]?
      = some (codeBlock source fence (annotationOf source before.getLast? fence)) := by
  rcases List.eq_nil_or_concat' before with rfl | ⟨ahead, last, rfl⟩
  · rw [codeBlocks_behind path fun _ _ isLast => by cases isLast]
    rfl
  · rw [List.getLast?_concat]
    cases last with
    | fence other =>
        have uncrossed : Uncrossed (ahead ++ [.fence other]) (.fence fence :: after) := by
          intro item _ isLast
          rw [List.getLast?_concat] at isLast
          cases isLast
        rw [codeBlocks_behind path uncrossed]
        rfl
    | directive item =>
        have sameFences : fences (ahead ++ [.directive item]) = fences ahead := by
          rw [fences, List.filterMap_append]
          exact List.append_nil _
        rw [sameFences, List.append_assoc, List.singleton_append,
          codeBlocks_behind path (uncrossed_directive ahead _ item), annotationOf_directive, nodesOf]
        cases settingsFor? source item fence with
        | some settings => rfl
        | none =>
            dsimp only
            rw [List.filterMap_append, aloneNode?_code]
            rfl

/-! ## Diagnostics -/

theorem Assembly.push_diagnostics (assembly : Assembly) (node : Node) :
    (assembly.push source node).diagnostics = assembly.diagnostics := by
  show (assembly.fill source node.span.start).diagnostics = _
  unfold fill
  split <;> rfl

/-- A step on a directive reports at most once, and about that directive. -/
theorem assembleAlone_reports (source : String) (assembly : Assembly) (item : DirectiveItem) :
    ∃ reports, (assembleAlone source assembly item).diagnostics = assembly.diagnostics ++ reports
      ∧ (reports.map Diagnostic.span).Sublist [item.span] := by
  cases isFate : fate source item none with
  | config config =>
      rw [assembleAlone_config assembly isFate, Assembly.push_diagnostics]
      split
      · exact ⟨_, rfl, List.Sublist.refl _⟩
      · exact ⟨[], (List.append_nil _).symm, List.nil_sublist _⟩
  | annotates settings =>
      obtain ⟨fence, noItem⟩ := exists_fence_of_annotates isFate
      cases noItem
  | dangling =>
      rw [assembleAlone_dangling assembly isFate]
      exact ⟨_, rfl, List.Sublist.refl _⟩
  | malformed reason =>
      rw [assembleAlone_malformed assembly isFate]
      exact ⟨_, rfl, List.Sublist.refl _⟩

/-- A run reports about directives, in their order. -/
theorem assemble_reports (source : String) (items : List Item) (assembly : Assembly) :
    ∃ reports, (assemble source items assembly).diagnostics = assembly.diagnostics ++ reports
      ∧ (reports.map Diagnostic.span).Sublist ((directives items).map DirectiveItem.span) := by
  have alone : ∀ (assembly after : Assembly) (item : DirectiveItem) (rest : List Item),
      (∃ reports, after.diagnostics = (assembleAlone source assembly item).diagnostics ++ reports
        ∧ (reports.map Diagnostic.span).Sublist ((directives rest).map DirectiveItem.span)) →
      ∃ reports, after.diagnostics = assembly.diagnostics ++ reports
        ∧ (reports.map Diagnostic.span).Sublist
            ((directives (.directive item :: rest)).map DirectiveItem.span) := by
    rintro assembly after item rest ⟨later, isLater, laterSpans⟩
    obtain ⟨own, isOwn, ownSpans⟩ := assembleAlone_reports source assembly item
    refine ⟨own ++ later, ?_, ?_⟩
    · rw [isLater, isOwn, List.append_assoc]
    · rw [List.map_append]
      exact ownSpans.append laterSpans
  fun_induction assemble source items assembly with
  | case1 assembly => exact ⟨[], (List.append_nil _).symm, List.nil_sublist _⟩
  | case2 fence rest assembly inductionHypothesis =>
      rwa [Assembly.push_diagnostics] at inductionHypothesis
  | case3 item fence rest assembly settings found inductionHypothesis =>
      rw [Assembly.push_diagnostics] at inductionHypothesis
      obtain ⟨reports, isReports, spans⟩ := inductionHypothesis
      exact ⟨reports, isReports, spans.cons _⟩
  | case4 item fence rest assembly missing inductionHypothesis =>
      exact alone assembly _ item _ inductionHypothesis
  | case5 item rest assembly noFence inductionHypothesis =>
      exact alone assembly _ item _ inductionHypothesis

private theorem directives_sublist (items : List Item) :
    ((directives items).map DirectiveItem.span).Sublist (items.map Item.span) := by
  induction items with
  | nil => exact List.Sublist.slnil
  | cons item rest inductionHypothesis =>
      cases item with
      | directive own => exact inductionHypothesis.cons_cons _
      | fence own => exact inductionHypothesis.cons _

private theorem mem_spans_of_directive {items : List Item} {span : Span}
    (member : span ∈ (directives items).map DirectiveItem.span) :
    ∃ item, .directive item ∈ items ∧ span = item.span := by
  obtain ⟨item, isDirective, rfl⟩ := List.mem_map.mp member
  obtain ⟨own, isItem, isOwn⟩ := List.mem_filterMap.mp isDirective
  cases own with
  | directive other =>
      obtain rfl : other = item := Option.some.inj isOwn
      exact ⟨other, isItem, rfl⟩
  | fence other => cases isOwn

private theorem assemble_sorted (separate : Separate source (items.map Item.span)) :
    (assemble source items {}).diagnostics.Pairwise fun first second =>
      first.span.start ≤ second.span.start := by
  obtain ⟨reports, isReports, spans⟩ := assemble_reports source items {}
  have separateReports : Separate source (reports.map Diagnostic.span) :=
    separate.sublist (spans.trans (directives_sublist items))
  rw [isReports]
  exact (List.pairwise_map (R := fun earlier later : Span => earlier.start ≤ later.start)).mp
    separateReports.starts

/-- Reports come in the order of their directives, so sorting leaves them as they are. -/
theorem build_diagnostics (path : String) (separate : Separate source (items.map Item.span)) :
    (build source path items).diagnostics = (assemble source items {}).diagnostics := by
  have filled : ((assemble source items {}).fill source source.utf8ByteSize).diagnostics
      = (assemble source items {}).diagnostics := by
    unfold Assembly.fill
    split <;> rfl
  show (((assemble source items {}).fill source source.utf8ByteSize).diagnostics).mergeSort _ = _
  rw [filled]
  apply List.mergeSort_of_pairwise
  simpa using assemble_sorted separate

/-! ## Places of directives -/

def reportsAt (parsed : Parsed) (item : DirectiveItem) : List Diagnostic :=
  parsed.diagnostics.filter fun report => report.span = item.span

def nodesAt (parsed : Parsed) (item : DirectiveItem) : List Node :=
  parsed.document.nodes.filter fun node => node.span.start = item.span.start

def configAhead (nodes : List Node) (offset : Nat) : Bool :=
  nodes.any fun node => node.config?.isSome && node.span.stop ≤ offset

def InText (nodes : List Node) (span : Span) : Prop :=
  ∃ text, .text text ∈ nodes ∧ text.span.start ≤ span.start ∧ span.stop ≤ text.span.stop

private theorem filter_eq_middle {α : Type} {holds : α → Bool} {first middle last : List α}
    (none : ∀ entry ∈ first, holds entry = false) (all : ∀ entry ∈ middle, holds entry = true)
    (noneLast : ∀ entry ∈ last, holds entry = false) :
    (first ++ middle ++ last).filter holds = middle := by
  rw [List.filter_append, List.filter_append, List.filter_eq_nil_iff.mpr, List.nil_append,
    List.filter_eq_self.mpr all, List.filter_eq_nil_iff.mpr, List.append_nil]
  · simpa using noneLast
  · simpa using none

section Directive

variable {before after : List Item} {item : DirectiveItem}

/-- **One step decides.** When the step on a directive has added `own` and what is left of
the items follows, `own` is all that is reported about it. -/
theorem reportsAt_eq (path : String)
    (separate : Separate source ((before ++ .directive item :: after).map Item.span))
    {taken : Assembly} {rest : List Item} {own : List Diagnostic} (left : rest <:+ after)
    (step : assemble source (.directive item :: after) (assemble source before {})
      = assemble source rest taken)
    (reported : taken.diagnostics = (assemble source before {}).diagnostics ++ own)
    (about : ∀ report ∈ own, report.span = item.span) :
    reportsAt (build source path (before ++ .directive item :: after)) item = own := by
  obtain ⟨earlier, isEarlier, earlierSpans⟩ := assemble_reports source before {}
  obtain ⟨later, isLater, laterSpans⟩ := assemble_reports source rest taken
  have separateSpans := separate
  rw [List.map_append, List.map_cons] at separateSpans
  have ordered : item.span.start < item.span.stop :=
    (separateSpans.1 item.span (List.mem_append_right _ List.mem_cons_self)).1
  rw [reportsAt, build_diagnostics path separate,
    assemble_append (uncrossed_directive before after item), step, isLater, reported, isEarlier]
  refine filter_eq_middle ?_ (by simpa using about) ?_
  · intro report member
    rw [List.nil_append] at member
    have inBefore : report.span ∈ before.map Item.span :=
      (directives_sublist before).subset (earlierSpans.subset (List.mem_map_of_mem member))
    have apart : report.span.stop ≤ item.span.start :=
      separateSpans.stop_le inBefore List.mem_cons_self
    rw [decide_eq_false_iff_not]
    intro same
    rw [same] at apart
    omega
  · intro report member
    have inRest : report.span ∈ rest.map Item.span :=
      (directives_sublist rest).subset (laterSpans.subset (List.mem_map_of_mem member))
    have inAfter : report.span ∈ after.map Item.span := (left.map Item.span).subset inRest
    have apart : item.span.stop ≤ report.span.start :=
      (separate_cons.mp (separateSpans.sublist (List.sublist_append_right _ _))).2.1 _ inAfter
    rw [decide_eq_false_iff_not]
    intro same
    rw [same] at apart
    omega

/-- Nodes start apart, so a node is the only one at its start. -/
theorem nodesAt_eq {path : String} (separate : Separate source (items.map Item.span)) {node : Node}
    (member : node ∈ (build source path items).document.nodes)
    (isStart : node.span.start = item.span.start) :
    nodesAt (build source path items) item = [node] := by
  have increasing := (build_tiles path separate).starts.2
  obtain ⟨first, last, isNodes⟩ := List.append_of_mem member
  rw [isNodes, List.pairwise_map, List.pairwise_append, List.pairwise_cons] at increasing
  obtain ⟨-, ⟨behind, -⟩, ahead⟩ := increasing
  rw [nodesAt, isNodes, ← List.singleton_append, ← List.append_assoc]
  refine filter_eq_middle ?_ ?_ ?_
  · intro other isOther
    have lower := ahead other isOther node List.mem_cons_self
    rw [decide_eq_false_iff_not, ← isStart]
    exact Nat.ne_of_lt lower
  · intro other isOther
    rw [List.mem_singleton.mp isOther, decide_eq_true_eq]
    exact isStart
  · intro other isOther
    have higher := behind other isOther
    rw [decide_eq_false_iff_not, ← isStart]
    exact Nat.ne_of_gt higher

private theorem mem_woven_of_mem {cursor : Nat} {nodes : List Node} {node : Node} (member : node ∈ nodes) :
    node ∈ woven source cursor nodes := by
  induction nodes generalizing cursor with
  | nil => cases member
  | cons first rest inductionHypothesis =>
      rw [woven, List.mem_append, List.mem_cons]
      rcases List.mem_cons.mp member with rfl | later
      · exact Or.inr (Or.inl rfl)
      · exact Or.inr (Or.inr (inductionHypothesis later))

private theorem any_woven {holds : Node → Bool} (noText : ∀ text, holds (.text text) = false) (cursor : Nat)
    (nodes : List Node) : (woven source cursor nodes).any holds = nodes.any holds := by
  have noGap : ∀ start stop, (gap source start stop).any holds = false := by
    intro start stop
    unfold gap
    split
    · rw [List.any_cons, noText]
      rfl
    · rfl
  induction nodes generalizing cursor with
  | nil => exact noGap cursor _
  | cons first rest inductionHypothesis =>
      rw [woven, List.any_append, noGap, Bool.false_or, List.any_cons, List.any_cons,
        inductionHypothesis]

/-- What no node overlaps lies in a text woven in. -/
theorem woven_inText {cursor : Nat} {nodes : List Node} {span : Span}
    (ordered : span.start < span.stop) (behind : cursor ≤ span.start)
    (within : span.stop ≤ source.utf8ByteSize)
    (apart : ∀ node ∈ nodes, span.stop ≤ node.span.start ∨ node.span.stop ≤ span.start) :
    InText (woven source cursor nodes) span := by
  have inGap : ∀ start stop, start ≤ span.start → span.stop ≤ stop →
      ∃ text, .text text ∈ gap source start stop
        ∧ text.span.start ≤ span.start ∧ span.stop ≤ text.span.stop := by
    intro start stop isAhead isBehind
    rw [gap, if_pos (by omega)]
    exact ⟨_, List.mem_singleton_self _, isAhead, isBehind⟩
  induction nodes generalizing cursor with
  | nil => exact inGap cursor _ behind within
  | cons node rest inductionHypothesis =>
      obtain ⟨apartNode, apartRest⟩ := List.forall_mem_cons.mp apart
      rw [woven]
      rcases apartNode with beforeNode | behindNode
      · obtain ⟨text, member, covers⟩ := inGap cursor _ behind beforeNode
        exact ⟨text, List.mem_append_left _ member, covers⟩
      · obtain ⟨text, member, covers⟩ := inductionHypothesis behindNode apartRest
        exact ⟨text, List.mem_append_right _ (List.mem_cons_of_mem _ member), covers⟩

/-- Nodes of the items ahead of a directive end ahead of it. -/
theorem nodesOf_stop_le (separate : Separate source ((before ++ .directive item :: after).map Item.span))
    {node : Node} (member : node ∈ nodesOf source before) : node.span.stop ≤ item.span.start := by
  obtain ⟨own, isOwn, sameStop⟩ := (made_of_mem_nodesOf member).stop
  rw [List.map_append, List.map_cons] at separate
  rw [← sameStop]
  exact separate.stop_le (List.mem_map_of_mem isOwn) List.mem_cons_self

/-- Nodes of the items behind a directive start behind it. -/
theorem nodesOf_start_ge (separate : Separate source ((before ++ .directive item :: after).map Item.span))
    {node : Node} (member : node ∈ nodesOf source after) : item.span.stop ≤ node.span.start := by
  rw [List.map_append, List.map_cons] at separate
  have behind := (separate_cons.mp (separate.sublist (List.sublist_append_right _ _))).2.1
  exact nodesOf_behind behind (List.mem_map_of_mem member)

/-- A directive without a node of its own stays in the text. -/
theorem inText_of_no_node (path : String)
    (separate : Separate source ((before ++ .directive item :: after).map Item.span))
    (noNode : nodesOf source (.directive item :: after) = nodesOf source after) :
    InText (build source path (before ++ .directive item :: after)).document.nodes item.span := by
  have proper : item.span.Proper source :=
    separate.1 item.span (List.mem_map_of_mem (List.mem_append_right before List.mem_cons_self))
  rw [build_nodes, nodesOf_append (uncrossed_directive before after item), noNode]
  refine woven_inText proper.1 (Nat.zero_le _) proper.2.2.le_end ?_
  intro node member
  rcases List.mem_append.mp member with ahead | behind
  · exact Or.inr (nodesOf_stop_le separate ahead)
  · exact Or.inl (nodesOf_start_ge separate behind)

/-- The nodes of a step come ahead of those of the items it leaves. -/
theorem nodesOf_of_step {taken : Assembly} {rest : List Item}
    (step : assemble source (.directive item :: after) {} = assemble source rest taken) :
    nodesOf source (.directive item :: after) = outline taken.nodes ++ nodesOf source rest := by
  have whole := (extends_assemble source (.directive item :: after) {}).outlined
  rw [step, (extends_assemble source rest taken).outlined] at whole
  exact whole.symm

private theorem hasConfig_outline (assembly : Assembly) :
    assembly.hasConfig = (outline assembly.nodes).any fun node => node.config?.isSome := by
  rw [Assembly.hasConfig, outline, List.any_filter]
  congr 1
  funext node
  cases node <;> rfl

/-- The configurations that end ahead of a directive are those that the run has met. -/
theorem configAhead_eq (path : String)
    (separate : Separate source ((before ++ .directive item :: after).map Item.span)) :
    configAhead (build source path (before ++ .directive item :: after)).document.nodes item.span.start
      = (assemble source before {}).hasConfig := by
  have spans := separate
  rw [List.map_append] at spans
  have fromItem : Separate source ((.directive item :: after).map Item.span) :=
    spans.sublist (List.sublist_append_right _ _)
  have noneBehind : (nodesOf source (.directive item :: after)).any
      (fun node => node.config?.isSome && node.span.stop ≤ item.span.start) = false := by
    rw [List.any_eq_false]
    intro node member
    have notAhead : item.span.start ≤ node.span.start := by
      refine nodesOf_behind ?_ (List.mem_map_of_mem member)
      obtain ⟨proper, behind, -⟩ := separate_cons.mp fromItem
      intro span isSpan
      rcases List.mem_cons.mp isSpan with rfl | later
      · exact Nat.le_refl _
      · exact Nat.le_trans (Nat.le_of_lt proper.1) (behind span later)
    have ordered := ((nodesOf_separate fromItem).1 _ (List.mem_map_of_mem member)).1
    have notEnded : ¬ node.span.stop ≤ item.span.start := by omega
    simp [notEnded]
  rw [configAhead, build_nodes, any_woven (fun _ => rfl),
    nodesOf_append (uncrossed_directive before after item), List.any_append, noneBehind,
    Bool.or_false, hasConfig_outline, (extends_assemble source before {}).outlined]
  rw [Bool.eq_iff_iff, List.any_eq_true, List.any_eq_true]
  refine exists_congr fun node => and_congr_right fun member => ?_
  simp [nodesOf_stop_le separate member]

end Directive

/-! ## The account -/

/-- What a document and its diagnostics hold of a directive, by its fate. -/
def Settled (source : String) (parsed : Parsed) (item : DirectiveItem) (next : Option Item) : Prop :=
  match fate source item next with
  | .config config =>
      nodesAt parsed item = [.config ⟨config, item.span, rangeOf source item.span⟩]
        ∧ reportsAt parsed item
          = if configAhead parsed.document.nodes item.span.start then
              [⟨.duplicateConfig, item.span, rangeOf source item.span⟩]
            else []
  | .annotates settings =>
      (∃ fence, next = some (.fence fence)
        ∧ nodesAt parsed item = [.code (codeBlock source fence (some (item.span, settings)))])
        ∧ reportsAt parsed item = []
  | .dangling =>
      reportsAt parsed item = [⟨.danglingDirective, item.span, rangeOf source item.span⟩]
        ∧ InText parsed.document.nodes item.span
  | .malformed reason =>
      reportsAt parsed item
          = [⟨.malformedDirective item.kind reason, item.span, rangeOf source item.span⟩]
        ∧ InText parsed.document.nodes item.span

section Settles

variable {before after : List Item} {item : DirectiveItem}
  (separate : Separate source ((before ++ .directive item :: after).map Item.span))
include separate

/-- A node that a step adds for a directive is the only one at its start. -/
theorem nodesAt_of_step (path : String) {node : Node} {taken : Assembly} {rest : List Item}
    (step : assemble source (.directive item :: after) {} = assemble source rest taken)
    (added : node ∈ outline taken.nodes) (isStart : node.span.start = item.span.start) :
    nodesAt (build source path (before ++ .directive item :: after)) item = [node] := by
  refine nodesAt_eq separate ?_ isStart
  rw [build_nodes]
  apply mem_woven_of_mem
  rw [nodesOf_append (uncrossed_directive before after item), nodesOf_of_step step]
  exact List.mem_append_right _ (List.mem_append_left _ added)

/-- A directive whose step is one report has that report and stays in the text. -/
theorem settled_of_report (path : String) {problem : Problem}
    (step : ∀ assembly, assemble source (.directive item :: after) assembly
      = assemble source after (assembly.report source problem item.span)) :
    reportsAt (build source path (before ++ .directive item :: after)) item
        = [⟨problem, item.span, rangeOf source item.span⟩]
      ∧ InText (build source path (before ++ .directive item :: after)).document.nodes item.span := by
  refine ⟨?_, inText_of_no_node path separate (nodesOf_of_step (step {}))⟩
  refine reportsAt_eq path separate (List.suffix_refl after) (step _) rfl ?_
  intro report member
  rw [List.mem_singleton.mp member]

/-- **A directive meets its fate.** -/
theorem settled_of_directive (path : String) :
    Settled source (build source path (before ++ .directive item :: after)) item after.head? := by
  unfold Settled
  cases isFate : fate source item after.head? with
  | config config =>
      have alone (assembly : Assembly) :
          assemble source (.directive item :: after) assembly = assemble source after _ :=
        (assemble_alone assembly fun settings => by rw [isFate]; exact Fate.noConfusion).trans
          (congrArg _ (assembleAlone_config assembly isFate))
      refine ⟨nodesAt_of_step separate path (alone {}) ?_ rfl, ?_⟩
      · rw [Assembly.outline_push _ _ rfl]
        exact List.mem_append_right _ (List.mem_singleton_self _)
      · rw [configAhead_eq path separate]
        refine reportsAt_eq path separate (List.suffix_refl after) (alone _) ?_ ?_
        · rw [Assembly.push_diagnostics]
          split
          · rfl
          · exact (List.append_nil _).symm
        · intro report member
          split at member
          · rw [List.mem_singleton.mp member]
          · cases member
  | annotates settings =>
      obtain ⟨fence, isNext⟩ := exists_fence_of_annotates isFate
      obtain ⟨rest, rfl⟩ : ∃ rest, after = .fence fence :: rest := by
        cases after with
        | nil => cases isNext
        | cons next rest => exact ⟨rest, by rw [Option.some.inj isNext]⟩
      have step (assembly : Assembly) := assemble_annotates assembly rest isFate
      refine ⟨⟨fence, rfl, nodesAt_of_step separate path (step {}) ?_ rfl⟩, ?_⟩
      · rw [Assembly.outline_push _ _ rfl]
        exact List.mem_append_right _ (List.mem_singleton_self _)
      · refine reportsAt_eq path separate (List.suffix_cons _ rest) (step _) ?_ ?_
        · rw [Assembly.push_diagnostics, List.append_nil]
        · intro report member
          cases member
  | dangling =>
      refine settled_of_report separate path fun assembly => ?_
      rw [← assembleAlone_dangling assembly isFate]
      exact assemble_alone assembly fun settings => by rw [isFate]; exact Fate.noConfusion
  | malformed reason =>
      refine settled_of_report separate path fun assembly => ?_
      rw [← assembleAlone_malformed assembly isFate]
      exact assemble_alone assembly fun settings => by rw [isFate]; exact Fate.noConfusion

end Settles

structure Accounted (source : String) (items : List Item) (parsed : Parsed) : Prop where
  /-- Each fence gives one code block, in order. -/
  blocks : parsed.document.codeBlocks.map (fun block => (block.language, block.code, block.indents))
    = (fences items).map fun fence => (fence.language, fence.code, fence.indents)
  /-- A block has the settings of the directive ahead of its fence, if that one annotates. -/
  annotations : ∀ before fence after, items = before ++ .fence fence :: after →
    parsed.document.codeBlocks[(fences before).length]?
      = some (codeBlock source fence (annotationOf source before.getLast? fence))
  directives : ∀ before item after, items = before ++ .directive item :: after →
    Settled source parsed item after.head?
  /-- There are no reports but those about directives. -/
  reports : ∀ report ∈ parsed.diagnostics, ∃ item, .directive item ∈ items ∧ report.span = item.span
  /-- Only a repeated configuration is no error. -/
  severities : ∀ report ∈ parsed.diagnostics,
    report.problem.severity = if report.problem = .duplicateConfig then .warning else .error
  sorted : parsed.diagnostics.Pairwise fun first second => first.span.start ≤ second.span.start

/-- **Every directive and every fence is accounted for.** Of items that are separate
stretches of a source, each fence becomes one block and each directive meets its one fate;
nothing else is reported, and reports come in source order. -/
theorem build_accounts_for_items (source path : String) (items : List Item)
    (separate : Separate source (items.map Item.span)) :
    Accounted source items (build source path items) := by
  refine ⟨?_, ?_, ?_, ?_, ?_, ?_⟩
  · rw [build_codeBlocks, nodesOf_fences]
  · rintro before fence after rfl
    exact codeBlock_of_fence path before after fence
  · rintro before item after rfl
    exact settled_of_directive separate path
  · intro report member
    rw [build_diagnostics path separate] at member
    obtain ⟨reports, isReports, spans⟩ := assemble_reports source items {}
    rw [isReports] at member
    exact mem_spans_of_directive (spans.subset (List.mem_map_of_mem member))
  · intro report _
    cases report.problem <;> rfl
  · rw [build_diagnostics path separate]
    exact assemble_sorted separate

/-- A repeated configuration, a directive with text behind it, one with a fence behind it,
and one that is never closed. -/
def mixedGuide : String :=
  "<!-- @codeblock-config -->\n<!-- @codeblock-config -->\n<!-- @codeblock a -->\nß\n"
    ++ "<!-- @codeblock b -->\n```\nx\n```\n<!-- @codeblock\n"

def mixedItems : List Item :=
  [.directive ⟨.config, some " ", ⟨0, 26⟩⟩, .directive ⟨.config, some " ", ⟨27, 53⟩⟩,
    .directive ⟨.block, some " a ", ⟨54, 75⟩⟩, .directive ⟨.block, some " b ", ⟨79, 100⟩⟩,
    .fence ⟨"", "x", [0], ⟨101, 110⟩⟩, .directive ⟨.block, none, ⟨111, 126⟩⟩]

theorem build_accounts_for_items_mixed :
    Separate mixedGuide (mixedItems.map Item.span)
      ∧ Accounted mixedGuide mixedItems (build mixedGuide "guide.md" mixedItems) := by
  have separate : Separate mixedGuide (mixedItems.map Item.span) := by decide +kernel
  exact ⟨separate, build_accounts_for_items mixedGuide "guide.md" mixedItems separate⟩

end Tangle.Document
