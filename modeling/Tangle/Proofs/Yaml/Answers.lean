import Tangle.Yaml.Decode

/-!
Contract: what can be said of every answer that a reader gives.

Owns: `Promises`, how it passes through lists and records, and `decodeText_promises`.

Does **not** own: which nodes a reader refuses (`Tangle.Proofs.Yaml.Readers` has the nodes that it
takes).

A document may be cut short, refer to itself or be refused anywhere. None of this matters here: a
reader that fails has no answer, so only the places at which one is returned have to be looked at.
-/

set_option autoImplicit false

namespace Tangle.Yaml

/-- Every answer of the reader has the property, whatever was counted before. -/
def Promises {α : Type} (holds : α → Prop) (reader : Decoder α) : Prop :=
  ∀ count answer later, reader.run count = .ok (answer, later) → holds answer

namespace Promises

variable {α β : Type} {holds : α → Prop} {serves : β → Prop}

protected theorem pure {answer : α} (isTrue : holds answer) : Promises holds (pure answer) := by
  intro count other later answered
  rw [StateT.run_pure] at answered
  obtain ⟨rfl, -⟩ := Prod.mk.inj (Except.ok.inj answered)
  exact isTrue

protected theorem throw (error : Error) : Promises holds (throw error) := by
  intro count answer later answered
  cases answered

protected theorem bind {reader : Decoder β} {next : β → Decoder α} (first : Promises serves reader)
    (rest : ∀ answer, serves answer → Promises holds (next answer)) :
    Promises holds (reader >>= next) := by
  intro count answer later answered
  rw [StateT.run_bind] at answered
  cases read : reader.run count with
  | error error =>
      rw [read] at answered
      cases answered
  | ok reply =>
      rw [read] at answered
      exact rest reply.1 (first count reply.1 reply.2 read) reply.2 answer later answered

/-- Nothing has to be known of the answers that are only passed on. -/
protected theorem after {reader : Decoder β} {next : β → Decoder α}
    (rest : ∀ answer, Promises holds (next answer)) : Promises holds (reader >>= next) :=
  have anything : Promises (fun _ : β => True) reader := fun _ _ _ _ => trivial
  anything.bind fun answer _ => rest answer

section Context

variable {context : Context}

protected theorem refuse (refusal : Refusal) (mark : Mark) :
    Promises holds (context.refuse refusal mark) :=
  Promises.throw _

protected theorem mismatch (node : Node) (expected : String) :
    Promises holds (context.mismatch node expected) := by
  cases node <;> exact Promises.throw _

/-! ## Lists -/

section Lists

variable {read : Context → Node → Decoder (Except Refusal α)}
  (each : ∀ place node,
    Promises (fun reply => ∀ value, reply = .ok value → holds value) (read place node))
include each

theorem readMembers {mark : Mark} {closed : Bool} (index : Nat) (nodes : List Node) :
    Promises (fun values => ∀ value ∈ values, holds value)
      (context.readMembers mark closed read index nodes) := by
  induction nodes generalizing index with
  | nil =>
      rw [Context.readMembers]
      split
      · exact Promises.pure fun _ isIn => absurd isIn List.not_mem_nil
      · exact Promises.throw _
  | cons node rest inductionHypothesis =>
      rw [Context.readMembers]
      refine Promises.bind (each _ node) fun reply isReply => ?_
      cases reply with
      | error refusal => exact Promises.refuse refusal mark
      | ok value =>
          exact Promises.bind (inductionHypothesis (index + 1)) fun values isValues =>
            Promises.pure (List.forall_mem_cons.mpr ⟨isReply value rfl, isValues⟩)

/-- A list holds what its members are read as. -/
theorem readList (node : Node) :
    Promises (fun values => ∀ value ∈ values, holds value) (context.readList read node) := by
  have none : Promises (fun values => ∀ value ∈ values, holds value) (pure []) :=
    Promises.pure fun _ isIn => absurd isIn List.not_mem_nil
  refine Promises.after fun target => ?_
  cases target with
  | sequence mark tag children closed =>
      exact Promises.after fun inside => readMembers each 0 children
  | nothing mark => exact none
  | scalar scalar =>
      dsimp only
      split
      · exact none
      · exact Promises.mismatch _ _
  | mapping mark tag children closed => exact Promises.mismatch _ _
  | reference mark anchor => exact Promises.mismatch _ _

end Lists

/-! ## Records -/

/-- **What every field keeps** holds of the whole record. -/
theorem readFields {mark : Mark} {closed : Bool} {names : List String}
    {read : String → Context → Node → α → Decoder α}
    (each : ∀ name place node record, holds record → Promises holds (read name place node record))
    (nodes : List Node) (seen : List String) (record : α) (started : holds record) :
    Promises holds (context.readFields mark closed names read nodes seen record) := by
  fun_induction Context.readFields context mark closed names read nodes seen record with
  | case1 seen record => exact Promises.pure started
  | case2 seen record => exact Promises.throw _
  | case3 key seen record =>
      refine Promises.after fun name => ?_
      split
      · exact Promises.after fun _ => Promises.throw _
      · exact Promises.throw _
  | case4 key value rest seen record inductionHypothesis =>
      refine Promises.after fun name => ?_
      have fields : Promises holds
          (read name (context.child (Context.keyStep key)) value record >>= fun record =>
            context.readFields mark closed names read rest (name :: seen) record) :=
        Promises.bind (each _ _ value record started) fun record isRecord =>
          inductionHypothesis name record isRecord
      split
      · exact Promises.after fun _ => fields
      · exact fields

theorem readRecord {kind : String} {names : List String}
    {read : Context × Mark → String → Context → Node → α → Decoder α} {empty : α}
    (each : ∀ outer name place node record, holds record →
      Promises holds (read outer name place node record))
    (started : holds empty) (node : Node) :
    Promises (fun reply => holds reply.1) (context.readRecord kind names read empty node) := by
  refine Promises.after fun target => ?_
  cases target with
  | mapping mark tag children closed =>
      refine Promises.after fun inside => ?_
      exact Promises.bind (readFields (each (inside, mark)) children [] empty started)
        fun record isRecord => Promises.pure isRecord
  | nothing mark => exact Promises.pure started
  | scalar scalar =>
      dsimp only
      split
      · exact Promises.pure started
      · exact Promises.mismatch _ _
  | sequence mark tag children closed => exact Promises.mismatch _ _
  | reference mark anchor => exact Promises.mismatch _ _

end Context

end Promises

/-! ## Documents -/

/-- A document is decoded to what its reader answers. -/
theorem decodeText_promises {α : Type} {holds : α → Prop} {read : Context → Node → Decoder α}
    (each : ∀ context node, Promises holds (read context node)) {text : List Char} {value : α}
    (decoded : decodeText read text = .ok value) : holds value := by
  rw [decodeText] at decoded
  split at decoded
  · cases decoded
  · next root isRoot =>
      split at decoded
      · cases decoded
      · next answer later answered =>
          split at decoded
          · cases decoded
          · split at decoded
            · cases decoded
            · rw [← Except.ok.inj decoded]
              exact each _ root 0 answer later answered

end Tangle.Yaml
