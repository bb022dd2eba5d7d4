import Mathlib.Data.List.Forall2
import Tangle.Directive.Decode
import Tangle.Proofs.Yaml.Numbers

/-!
Contract: the text that a replace rule takes from a scalar.

Owns: `takenText?`, the scalars that keep their spelling, the forms in which a rule is written with
scalars, and `rules_of_scalars`.

Does **not** own: how numbers are spelled (`Tangle.Proofs.Yaml.Numbers`), or the scanning of
scalars (`Tangle.Proofs.Yaml.Plain`).

## A value in between

A rule is read as a free value first, and the texts to find and to insert are printed from that
value. A quoted scalar is a text and passes through unchanged. A plain one that stands for a number
or a boolean has lost its spelling by then, and one too large for a value is refused.
-/

set_option autoImplicit false

namespace Tangle.Directive

open Tangle.Yaml

/-! ## Scalars -/

/-- What a scalar without a tag stands for. -/
def meaning (scalar : Scalar) : Resolved :=
  if scalar.isPlain then Resolve.plain scalar.value else .text

/-- The text that a rule takes from a scalar without a tag; none from a null or from an integer that
is too large. -/
def takenText? (scalar : Scalar) : Option String :=
  match meaning scalar with
  | .text => some scalar.value
  | .boolean value => some (if value then "true" else "false")
  | .integer value => some (Data.intText value)
  | .real value => some (realText value)
  | .null => none
  | .wideUnsigned _ => none
  | .wideSigned _ => none

/-- The spelling of a scalar is that of what it stands for. -/
def KeepsSpelling (scalar : Scalar) : Prop :=
  match meaning scalar with
  | .text => True
  | .boolean _ => scalar.value = "true" ∨ scalar.value = "false"
  | .integer _ => IsInteger scalar.value.toList
  | .real value => realText value = scalar.value
  | .null => False
  | .wideUnsigned _ => False
  | .wideSigned _ => False

def scalarValue? (scalar : Scalar) : Option Value :=
  match meaning scalar with
  | .text => some (.text scalar.value)
  | .boolean value => some (.boolean value)
  | .integer value => some (.integer value)
  | .real value => some (.real value)
  | .null => some .null
  | .wideUnsigned _ => none
  | .wideSigned _ => none

section Scalars

variable {scalar : Scalar}

/-- Only a plain scalar stands for anything but a text. -/
theorem plain_of_meaning {resolved : Resolved} (stands : meaning scalar = resolved)
    (typed : resolved ≠ .text) : Resolve.plain scalar.value = resolved := by
  unfold meaning at stands
  split at stands
  · exact stands
  · exact absurd stands.symm typed

/-- **A rule takes a scalar literally** exactly if its spelling is that of what it stands for. -/
theorem takenText?_eq_value_iff (scalar : Scalar) :
    takenText? scalar = some scalar.value ↔ KeepsSpelling scalar := by
  unfold takenText? KeepsSpelling
  cases stands : meaning scalar with
  | text => simp
  | boolean value =>
      rw [Option.some.injEq]
      exact boolean_eq_iff (plain_of_meaning stands (by simp))
  | integer value =>
      rw [Option.some.injEq]
      exact intText_eq_iff (plain_of_meaning stands (by simp))
  | real value => rw [Option.some.injEq]
  | null => simp
  | wideUnsigned value => simp
  | wideSigned value => simp

/-- Only a real that is spelled as one keeps its spelling. -/
theorem isReal_of_keeps {value : Decimal.Real} (stands : meaning scalar = .real value)
    (keeps : KeepsSpelling scalar) : IsReal scalar.value.toList := by
  rw [KeepsSpelling, stands] at keeps
  rw [← show realText value = scalar.value from keeps]
  exact isReal_realText value

private theorem resolve_eq_meaning (untagged : scalar.tag = none) : scalar.resolve = .ok (meaning scalar) := by
  rw [Scalar.resolve, untagged]
  rfl

/-- A scalar is read as its value, or is refused. -/
theorem readValue_scalar (untagged : scalar.tag = none) (source : Source) (depth : Nat)
    (path : List PathStep) :
    Context.readValue source depth path (.scalar scalar)
      = match scalarValue? scalar with
        | some value => pure value
        | none => throw (.refused (scalar.refusal "any value") path scalar.mark) := by
  have noLocal : isLocalTag scalar.tag = false := by
    rw [untagged]
    rfl
  have isScalar : Context.readValue source depth path (.scalar scalar)
      = Context.readScalarValue ⟨source, path, depth⟩ scalar := by
    rw [Context.readValue]
    show (if isLocalTag scalar.tag then _ else _ : Decoder Value) = _
    rw [noLocal]
    rfl
  rw [isScalar, Context.readScalarValue, resolve_eq_meaning untagged, scalarValue?]
  cases meaning scalar <;> rfl

/-- The text of the value of a scalar is the text taken from it. -/
theorem scalarText_value {value : Value} (isValue : scalarValue? scalar = some value) :
    (scalarText value).toOption = takenText? scalar := by
  unfold scalarValue? at isValue
  unfold takenText?
  cases stands : meaning scalar <;> rw [stands] at isValue <;> cases isValue
  all_goals rfl

private theorem taken_none_of_no_value (noValue : scalarValue? scalar = none) : takenText? scalar = none := by
  unfold scalarValue? at noValue
  unfold takenText?
  cases stands : meaning scalar <;> rw [stands] at noValue <;> cases noValue

/-- The value of a scalar has no members. -/
theorem value_leaf {value : Value} (isValue : scalarValue? scalar = some value) :
    value.hasDuplicate = false ∧ ruleShape value = (scalarText value).map .remove := by
  unfold scalarValue? at isValue
  cases stands : meaning scalar <;> rw [stands] at isValue <;> cases isValue
  all_goals exact ⟨by simp [Value.hasDuplicate], rfl⟩

/-- Scalars are read as their values one after another, up to the first that has none. -/
theorem readItems_scalars {scalars : List Scalar} (untagged : ∀ scalar ∈ scalars, scalar.tag = none)
    (context : Context) (source : Source) (depth index : Nat) :
    (∃ values, scalars.mapM scalarValue? = some values
        ∧ context.readItems true (fun place child => Context.readValue source depth place.path child)
            index (scalars.map .scalar) = pure values)
      ∨ (scalars.mapM scalarValue? = none
        ∧ ∃ error, context.readItems true
            (fun place child => Context.readValue source depth place.path child)
            index (scalars.map .scalar) = throw error) := by
  induction scalars generalizing index with
  | nil => exact Or.inl ⟨[], rfl, rfl⟩
  | cons scalar scalars inductionHypothesis =>
      obtain ⟨untaggedFirst, untaggedMore⟩ := List.forall_mem_cons.mp untagged
      rw [List.map_cons, Context.readItems, readValue_scalar untaggedFirst, List.mapM_cons]
      cases isFirst : scalarValue? scalar with
      | none => exact Or.inr ⟨rfl, _, rfl⟩
      | some value =>
          dsimp only
          rw [pure_bind]
          rcases inductionHypothesis untaggedMore (index + 1) with
            ⟨values, isValues, isRead⟩ | ⟨noValues, error, isRead⟩
          · rw [isRead, isValues, pure_bind]
            exact Or.inl ⟨_, rfl, rfl⟩
          · rw [isRead, noValues]
            exact Or.inr ⟨rfl, error, rfl⟩

end Scalars

/-! ## Rules -/

/-- A rule as it is written with scalars: the text to find by itself, as the only member of a list,
or together with the text to insert. -/
inductive RuleForm where
  | bare (find : Scalar)
  | single (mark : Mark) (find : Scalar)
  | double (mark : Mark) (find insert : Scalar)

namespace RuleForm

def scalars : RuleForm → List Scalar
  | bare find => [find]
  | single _ find => [find]
  | double _ find insert => [find, insert]

def node : RuleForm → Node
  | bare find => .scalar find
  | single mark find => .sequence mark none [.scalar find] true
  | double mark find insert => .sequence mark none [.scalar find, .scalar insert] true

def value? : RuleForm → Option Value
  | bare find => scalarValue? find
  | single _ find => ([find].mapM scalarValue?).map .list
  | double _ find insert => ([find, insert].mapM scalarValue?).map .list

def rule? : RuleForm → Option ReplaceRule
  | bare find => (takenText? find).map .remove
  | single _ find => (takenText? find).map .remove
  | double _ find insert =>
      (takenText? find).bind fun first => (takenText? insert).map (.pair first)

def literal : RuleForm → ReplaceRule
  | bare find => .remove find.value
  | single _ find => .remove find.value
  | double _ find insert => .pair find.value insert.value

end RuleForm

section Rules

variable {context : Context} {form : RuleForm} {rule : ReplaceRule} {depth : Nat}

/-- **A rule is the literal one** exactly if each of its scalars keeps its spelling. -/
theorem RuleForm.rule?_eq_literal_iff (form : RuleForm) :
    form.rule? = some form.literal ↔ ∀ scalar ∈ form.scalars, KeepsSpelling scalar := by
  cases form with
  | bare find => simp [rule?, literal, scalars, ← takenText?_eq_value_iff]
  | single mark find => simp [rule?, literal, scalars, ← takenText?_eq_value_iff]
  | double mark find insert =>
      cases takesFind : takenText? find <;> cases takesInsert : takenText? insert <;>
        simp [rule?, literal, scalars, ← takenText?_eq_value_iff, takesFind, takesInsert]

/-- A list of scalars is read as the list of their values, or is refused. -/
theorem readValue_scalars {scalars : List Scalar} (untagged : ∀ scalar ∈ scalars, scalar.tag = none)
    (source : Source) (path : List PathStep) (mark : Mark) :
    (∃ value, (scalars.mapM scalarValue?).map Value.list = some value
        ∧ Context.readValue source (depth + 1) path (.sequence mark none (scalars.map .scalar) true)
          = pure value)
      ∨ ((scalars.mapM scalarValue?).map Value.list = none ∧ ∃ error,
        Context.readValue source (depth + 1) path (.sequence mark none (scalars.map .scalar) true)
          = throw error) := by
  have isList : Context.readValue source (depth + 1) path (.sequence mark none (scalars.map .scalar) true)
      = (Context.readItems ⟨source, path, depth + 1⟩ true
          (fun place child => Context.readValue source depth place.path child) 0 (scalars.map .scalar)
            >>= fun values => pure (Value.list values)) := by
    rw [Context.readValue]
    rfl
  rw [isList]
  rcases readItems_scalars untagged ⟨source, path, depth + 1⟩ source depth 0 with
    ⟨values, isValues, isRead⟩ | ⟨noValues, error, isRead⟩
  · rw [isRead, isValues, pure_bind]
    exact Or.inl ⟨_, rfl, rfl⟩
  · rw [isRead, noValues]
    exact Or.inr ⟨rfl, error, rfl⟩

/-- A rule is read as the value of its form, or is refused. -/
theorem readValue_form (untagged : ∀ scalar ∈ form.scalars, scalar.tag = none) (source : Source)
    (path : List PathStep) :
    (∃ value, form.value? = some value
        ∧ Context.readValue source (depth + 1) path form.node = pure value)
      ∨ (form.value? = none
        ∧ ∃ error, Context.readValue source (depth + 1) path form.node = throw error) := by
  cases form with
  | bare find =>
      rw [RuleForm.value?, RuleForm.node, readValue_scalar (untagged find List.mem_cons_self)]
      cases isValue : scalarValue? find with
      | none => exact Or.inr ⟨rfl, _, rfl⟩
      | some value => exact Or.inl ⟨value, rfl, rfl⟩
  | single mark find => exact readValue_scalars untagged source path mark
  | double mark find insert => exact readValue_scalars untagged source path mark

private theorem toOption_map {α β ε : Type} (f : α → β) (result : Except ε α) :
    (result.map f).toOption = result.toOption.map f := by
  cases result <;> rfl

/-- The value of a form has the shape of its rule. -/
theorem ruleShape_value {value : Value} (isValue : form.value? = some value) :
    value.hasDuplicate = false ∧ (ruleShape value).toOption = form.rule? := by
  cases form with
  | bare find =>
      obtain ⟨apart, isShape⟩ := value_leaf isValue
      rw [isShape, toOption_map, scalarText_value isValue]
      exact ⟨apart, rfl⟩
  | single mark find =>
      cases isFind : scalarValue? find with
      | none => simp [RuleForm.value?, isFind] at isValue
      | some text =>
          obtain rfl : Value.list [text] = value := by simpa [RuleForm.value?, isFind] using isValue
          refine ⟨by simp [Value.hasDuplicate, Value.anyDuplicate, (value_leaf isFind).1], ?_⟩
          rw [RuleForm.rule?, ← scalarText_value isFind, ← toOption_map]
          rfl
  | double mark find insert =>
      cases isFind : scalarValue? find with
      | none => simp [RuleForm.value?, isFind] at isValue
      | some first =>
          cases isInsert : scalarValue? insert with
          | none => simp [RuleForm.value?, isFind, isInsert] at isValue
          | some second =>
              obtain rfl : Value.list [first, second] = value := by
                simpa [RuleForm.value?, isFind, isInsert] using isValue
              refine ⟨by simp [Value.hasDuplicate, Value.anyDuplicate, (value_leaf isFind).1,
                (value_leaf isInsert).1], ?_⟩
              rw [RuleForm.rule?, ← scalarText_value isFind, ← scalarText_value isInsert]
              cases isFirst : scalarText first <;> cases isSecond : scalarText second <;>
                simp [ruleShape, isFirst, isSecond] <;> rfl

private theorem rule?_none_of_no_value (noValue : form.value? = none) : form.rule? = none := by
  cases form with
  | bare find => rw [RuleForm.rule?, taken_none_of_no_value noValue, Option.map_none]
  | single mark find =>
      cases isFind : scalarValue? find with
      | none => rw [RuleForm.rule?, taken_none_of_no_value isFind, Option.map_none]
      | some value => simp [RuleForm.value?, isFind] at noValue
  | double mark find insert =>
      cases isFind : scalarValue? find with
      | none => rw [RuleForm.rule?, taken_none_of_no_value isFind, Option.bind_none]
      | some first =>
          cases isInsert : scalarValue? insert with
          | none => rw [RuleForm.rule?, taken_none_of_no_value isInsert]; simp
          | some second => simp [RuleForm.value?, isFind, isInsert] at noValue

/-- A rule with something to find is the rule of its form. -/
theorem readRule_form (untagged : ∀ scalar ∈ form.scalars, scalar.tag = none)
    (isDepth : context.depth = depth + 1) (isRule : form.rule? = some rule) (filled : rule.find ≠ "") :
    readRule context form.node = pure (.ok rule) := by
  rcases @readValue_form form depth untagged context.source context.path with
    ⟨value, isValue, isRead⟩ | ⟨noValue, _⟩
  · obtain ⟨apart, isShape⟩ := ruleShape_value isValue
    have shaped : ruleShape value = .ok rule := by
      rw [isRule] at isShape
      cases shape : ruleShape value with
      | error refusal => rw [shape] at isShape; cases isShape
      | ok found => rw [shape] at isShape; rw [Option.some.inj isShape]
    rw [readRule, isDepth, isRead, pure_bind, ruleOfValue, apart, shaped]
    simp [filled]
  · rw [rule?_none_of_no_value noValue] at isRule
    cases isRule

/-- A form is read or refused, and one without a rule gives none. -/
theorem readRule_answers (untagged : ∀ scalar ∈ form.scalars, scalar.tag = none)
    (isDepth : context.depth = depth + 1) :
    (∃ error, readRule context form.node = throw error)
      ∨ ∃ result, readRule context form.node = pure result
          ∧ (form.rule? = none → ∀ rule, result ≠ .ok rule) := by
  rw [readRule, isDepth]
  rcases @readValue_form form depth untagged context.source context.path with
    ⟨value, isValue, isRead⟩ | ⟨_, error, isRead⟩
  · obtain ⟨apart, isShape⟩ := ruleShape_value isValue
    rw [isRead, pure_bind]
    refine Or.inr ⟨_, rfl, fun noRule rule isRule => ?_⟩
    rw [ruleOfValue, apart] at isRule
    cases shape : ruleShape value with
    | error refusal => rw [shape] at isRule; cases isRule
    | ok found => rw [shape, noRule] at isShape; cases isShape
  · rw [isRead]
    exact Or.inl ⟨error, rfl⟩

/-! ## Lists of rules -/

def RulesOf (forms : List RuleForm) (rules : List ReplaceRule) : Prop :=
  List.Forall₂ (fun form rule => form.rule? = some rule ∧ rule.find ≠ "") forms rules

private theorem RulesOf.eq_literal_iff {forms : List RuleForm} {rules : List ReplaceRule}
    (isRules : RulesOf forms rules) :
    rules = forms.map RuleForm.literal
      ↔ ∀ form ∈ forms, ∀ scalar ∈ form.scalars, KeepsSpelling scalar := by
  induction isRules with
  | nil => simp
  | @cons form rule forms rules first _ inductionHypothesis =>
      rw [List.map_cons, List.cons.injEq, inductionHypothesis, List.forall_mem_cons,
        ← form.rule?_eq_literal_iff, first.1, Option.some.injEq]

private theorem readMembers_rules {forms : List RuleForm} {rules : List ReplaceRule}
    (untagged : ∀ form ∈ forms, ∀ scalar ∈ form.scalars, scalar.tag = none)
    (isDepth : context.depth = depth + 1) (mark : Mark) (isRules : RulesOf forms rules) (index : Nat) :
    context.readMembers mark true readRule index (forms.map RuleForm.node) = pure rules := by
  induction isRules generalizing index with
  | nil => rfl
  | @cons form rule forms rules first _ inductionHypothesis =>
      obtain ⟨untaggedFirst, untaggedMore⟩ := List.forall_mem_cons.mp untagged
      have isRead := @readRule_form (context.child (.index index)) form rule depth untaggedFirst isDepth
        first.1 first.2
      rw [List.map_cons, Context.readMembers, isRead, pure_bind]
      dsimp only
      rw [inductionHypothesis untaggedMore, pure_bind]

private theorem readMembers_refused {forms : List RuleForm}
    (untagged : ∀ form ∈ forms, ∀ scalar ∈ form.scalars, scalar.tag = none)
    (isDepth : context.depth = depth + 1) (mark : Mark) (isIn : form ∈ forms)
    (noRule : form.rule? = none) (index : Nat) :
    ∃ error, context.readMembers mark true readRule index (forms.map RuleForm.node) = throw error := by
  induction forms generalizing index with
  | nil => cases isIn
  | cons first forms inductionHypothesis =>
      obtain ⟨untaggedFirst, untaggedMore⟩ := List.forall_mem_cons.mp untagged
      rw [List.map_cons, Context.readMembers]
      rcases @readRule_answers (context.child (.index index)) first depth untaggedFirst isDepth with
        ⟨error, isRead⟩ | ⟨result, isRead, refused⟩
      · rw [isRead]
        exact ⟨error, rfl⟩
      · rw [isRead, pure_bind]
        cases result with
        | error refusal => exact ⟨_, rfl⟩
        | ok rule =>
            have isMore : form ∈ forms := by
              rcases List.mem_cons.mp isIn with rfl | isMore
              · exact absurd rfl (refused noRule rule)
              · exact isMore
            obtain ⟨error, isRead⟩ := inductionHypothesis untaggedMore isMore (index + 1)
            dsimp only
            rw [isRead]
            exact ⟨error, rfl⟩

/-- A list is read one level deeper than it stands. -/
theorem readReplace_list (isDepth : context.depth = depth + 1) (outer : Context × Mark) (mark : Mark)
    (children : List Node) (settings : Settings) :
    readSettingsField outer "replace" context (.sequence mark none children true) settings
      = (({ context with depth := depth } : Context).readMembers mark true readRule 0 children
          >>= fun rules => pure { settings with replace := rules }) := by
  have enters : context.enter mark = pure { context with depth := depth } := by
    rw [Context.enter, isDepth]
  show ((context.enter mark >>= fun inside => inside.readMembers mark true readRule 0 children)
    >>= fun rules => pure { settings with replace := rules }) = _
  rw [enters, pure_bind]

/-- **A rule takes what its scalars stand for.** The rules that are read are the literal ones exactly
if every scalar keeps its spelling: a boolean in small letters, an integer in decimal digits without
a plus sign and without zeros ahead, a real that is spelled as it is printed. A list with a null or
with an integer that is too large is refused. -/
theorem rules_of_scalars {forms : List RuleForm}
    (untagged : ∀ form ∈ forms, ∀ scalar ∈ form.scalars, scalar.tag = none)
    (isDepth : context.depth = depth + 2) (outer : Context × Mark) (mark : Mark) (settings : Settings) :
    let field := readSettingsField outer "replace" context
      (.sequence mark none (forms.map RuleForm.node) true) settings
    (∀ rules, RulesOf forms rules → field = pure { settings with replace := rules }
        ∧ (rules = forms.map RuleForm.literal
            ↔ ∀ form ∈ forms, ∀ scalar ∈ form.scalars, KeepsSpelling scalar))
      ∧ ((∃ form ∈ forms, form.rule? = none) → ∃ error, field = throw error)
      ∧ ∀ form ∈ forms, ∀ scalar ∈ form.scalars, ∀ value, meaning scalar = .real value →
          KeepsSpelling scalar → IsReal scalar.value.toList := by
  intro field
  have isField : field = _ := readReplace_list isDepth outer mark (forms.map RuleForm.node) settings
  refine ⟨fun rules isRules => ⟨?_, isRules.eq_literal_iff⟩, ?_, ?_⟩
  · rw [isField, readMembers_rules untagged rfl mark isRules 0, pure_bind]
  · rintro ⟨form, isIn, noRule⟩
    obtain ⟨error, isRead⟩ := @readMembers_refused { context with depth := depth + 1 } form depth forms
      untagged rfl mark isIn noRule 0
    rw [isField, isRead]
    exact ⟨error, rfl⟩
  · intro form _ scalar _ value stands keeps
    exact isReal_of_keeps stands keeps

theorem rules_of_scalars_respelled :
    let plain (value : String) : Scalar := ⟨default, none, value, .plain⟩
    let forms : List RuleForm :=
      [.bare (plain "1.50"), .single default (plain "-12"), .double default (plain "True") (plain "+3")]
    RulesOf forms [.remove "1.5", .remove "-12", .pair "true" "3"]
      ∧ (readSettingsField default "replace" default
          (.sequence default none (forms.map RuleForm.node) true) {}
        = pure { replace := [.remove "1.5", .remove "-12", .pair "true" "3"] })
      ∧ IsInteger "-12".toList ∧ ¬ IsInteger "+3".toList := by
  intro plain forms
  have untagged : ∀ form ∈ forms, ∀ scalar ∈ form.scalars, scalar.tag = none := by decide
  have isRules : RulesOf forms [.remove "1.5", .remove "-12", .pair "true" "3"] := by
    refine .cons ?_ (.cons ?_ (.cons ?_ .nil)) <;> decide +kernel
  have reads := @rules_of_scalars default 126 forms untagged rfl default default {}
  exact ⟨isRules, (reads.1 _ isRules).1, by decide +kernel, by decide +kernel⟩

/-- The rule of a hexadecimal number is not about its digits. -/
theorem hexadecimal_rule_respelled :
    decodeSettings "\nreplace:\n- 0x1F\n" = .ok { replace := [.remove "31"] }
      ∧ decodeSettings "\nreplace:\n- 0x1F\n" ≠ .ok { replace := [.remove "0x1F"] } := by
  decide +kernel

end Rules

end Tangle.Directive
