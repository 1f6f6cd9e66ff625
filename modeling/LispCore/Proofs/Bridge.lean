import LispCore.Proofs.Direct
import LispCore.Proofs.Forms

/-!
Bridges between direct evaluation and evaluation with pending answers.

A bridge relates computations of the two evaluators in a way that sequencing
respects. `Bridge.step` says that two evaluators which are related on the nodes
inside a node are related on the node itself, whatever the node and its position;
all special forms are gone through here, and only here.
-/

namespace LispCore

/-- Two relations between direct computations and others: `inner` for values needed on
the way, `outer` for the answer itself, which may be pending on the other side. -/
structure Bridge (inner : ∀ {α : Type}, Eval α → Eval α → Prop)
    (outer : Eval Object → Eval Answer → Prop) : Prop where
  refl : ∀ {α : Type} (run : Eval α), inner run run
  bind : ∀ {α β : Type} {first second : Eval α} {next other : α → Eval β},
    inner first second → (∀ value, inner (next value) (other value)) →
      inner (first >>= next) (second >>= other)
  answer : ∀ {first second : Eval Object}, inner first second → outer first (.value <$> second)
  continues : ∀ {α : Type} {first second : Eval α} {next : α → Eval Object}
    {other : α → Eval Answer}, inner first second →
      (∀ value, outer (next value) (other value)) → outer (first >>= next) (second >>= other)

/-- Evaluation of the nodes inside a node is related across a bridge. -/
structure Bridged (inner : ∀ {α : Type}, Eval α → Eval α → Prop)
    (outer : Eval Object → Eval Answer → Prop) (eval : Object → FrameId → Eval Object)
    (engine : Engine) (position : Position) : Prop where
  operand : ∀ node frame, inner (eval node frame) (engine.operand node frame)
  answer : ∀ node frame, outer (eval node frame) (engine.answer position node frame)
  body : ∀ node frame, outer (eval node frame) (engine.answerBody position node frame)

namespace Bridge

variable {inner : ∀ {α : Type}, Eval α → Eval α → Prop}
  {outer : Eval Object → Eval Answer → Prop} {eval : Object → FrameId → Eval Object}
  {engine : Engine} {position : Position}

theorem value (bridge : Bridge inner outer) (value : Object) :
    outer (pure value) (pure (.value value)) :=
  bridge.answer (bridge.refl (pure value))

theorem fault (bridge : Bridge inner outer) (fault : Fault) :
    outer (raise fault) (raise fault) :=
  bridge.answer (bridge.refl (raise fault))

theorem malformation (bridge : Bridge inner outer) (node : Object) (reason : Malformation) :
    outer (malformed node reason) (malformed node reason) :=
  bridge.fault _

theorem operands (bridge : Bridge inner outer) (nested : Bridged inner outer eval engine position)
    (frame : FrameId) (nodes : List Object) :
    inner (Direct.operands eval frame nodes) (engine.operands frame nodes) := by
  induction nodes with
  | nil => exact bridge.refl _
  | cons node nodes ih =>
      refine bridge.bind (nested.operand node frame) fun value => ?_
      exact bridge.bind ih fun values => bridge.refl _

theorem call (bridge : Bridge inner outer) (nested : Bridged inner outer eval engine position)
    (callee : Object) (operands : List Object) :
    outer (Direct.call eval callee operands) (engine.apply position callee operands) := by
  cases callee with
  | closure id =>
      refine bridge.continues (bridge.refl get) fun store => ?_
      refine bridge.continues (bridge.refl _) fun frame => ?_
      exact nested.body (store.closure id).body frame
  | primitive primitive => exact bridge.answer (bridge.refl _)
  | _ => exact bridge.fault _

theorem sequenceFrom (bridge : Bridge inner outer)
    (nested : Bridged inner outer eval engine position) (frame : FrameId) (value node : Object)
    (nodes : List Object) :
    outer (Direct.sequence eval frame value (node :: nodes))
      (engine.answerBegin position frame (node :: nodes)) := by
  induction nodes generalizing value node with
  | nil =>
      simp only [Direct.sequence, bind_pure, Engine.answerBegin]
      exact nested.answer node frame
  | cons next nodes ih =>
      exact bridge.continues (nested.operand node frame) fun value => ih value next

theorem sequence (bridge : Bridge inner outer) (nested : Bridged inner outer eval engine position)
    (frame : FrameId) (nodes : List Object) :
    outer (Direct.sequence eval frame .nil nodes) (engine.answerBegin position frame nodes) := by
  cases nodes with
  | nil => exact bridge.value .nil
  | cons node nodes => exact bridge.sequenceFrom nested frame .nil node nodes

theorem conjunctionFrom (bridge : Bridge inner outer)
    (nested : Bridged inner outer eval engine position) (frame : FrameId) (value node : Object)
    (nodes : List Object) :
    outer (Direct.conjunction eval frame value (node :: nodes))
      (engine.answerConjunction position frame (node :: nodes)) := by
  induction nodes generalizing value node with
  | nil =>
      simp only [Direct.conjunction, ite_self, bind_pure, Engine.answerConjunction]
      exact nested.answer node frame
  | cons next nodes ih =>
      refine bridge.continues (nested.operand node frame) fun value => ?_
      by_cases true : value.isTruthy
      · simpa only [if_pos true] using ih value next
      · simpa only [if_neg true] using bridge.value value

theorem conjunction (bridge : Bridge inner outer)
    (nested : Bridged inner outer eval engine position) (frame : FrameId) (nodes : List Object) :
    outer (Direct.conjunction eval frame (.boolean true) nodes)
      (engine.answerConjunction position frame nodes) := by
  cases nodes with
  | nil => exact bridge.value (.boolean true)
  | cons node nodes => exact bridge.conjunctionFrom nested frame _ node nodes

theorem disjunctionFrom (bridge : Bridge inner outer)
    (nested : Bridged inner outer eval engine position) (frame : FrameId) (value node : Object)
    (nodes : List Object) :
    outer (Direct.disjunction eval frame value (node :: nodes))
      (engine.answerDisjunction position frame (node :: nodes)) := by
  induction nodes generalizing value node with
  | nil =>
      simp only [Direct.disjunction, ite_self, bind_pure, Engine.answerDisjunction]
      exact nested.answer node frame
  | cons next nodes ih =>
      refine bridge.continues (nested.operand node frame) fun value => ?_
      by_cases true : value.isTruthy
      · simpa only [if_pos true] using bridge.value value
      · simpa only [if_neg true] using ih value next

theorem disjunction (bridge : Bridge inner outer)
    (nested : Bridged inner outer eval engine position) (frame : FrameId) (nodes : List Object) :
    outer (Direct.disjunction eval frame (.boolean false) nodes)
      (engine.answerDisjunction position frame nodes) := by
  cases nodes with
  | nil => exact bridge.value (.boolean false)
  | cons node nodes => exact bridge.disjunctionFrom nested frame _ node nodes

theorem quote (bridge : Bridge inner outer) (operands : List Object) :
    outer (Direct.quote operands) (Engine.answerQuote operands) := by
  match operands with
  | [node] => exact bridge.answer (bridge.refl _)
  | [] | _ :: _ :: _ => exact bridge.malformation _ _

theorem conditional (bridge : Bridge inner outer)
    (nested : Bridged inner outer eval engine position) (frame : FrameId)
    (operands : List Object) :
    outer (Direct.conditional eval frame operands)
      (engine.answerConditional position frame operands) := by
  match operands with
  | [condition, consequent] =>
      refine bridge.continues (nested.operand condition frame) fun value => ?_
      by_cases true : value.isTruthy
      · simpa only [if_pos true] using nested.answer consequent frame
      · simpa only [if_neg true] using bridge.value .nil
  | [condition, consequent, alternative] =>
      refine bridge.continues (nested.operand condition frame) fun value => ?_
      by_cases true : value.isTruthy
      · simpa only [if_pos true] using nested.answer consequent frame
      · simpa only [if_neg true] using nested.answer alternative frame
  | [] | [_] | _ :: _ :: _ :: _ :: _ => exact bridge.malformation _ _

theorem define (bridge : Bridge inner outer) (nested : Bridged inner outer eval engine position)
    (frame : FrameId) (operands : List Object) :
    outer (Direct.define eval frame operands) (engine.answerDefine frame operands) := by
  match operands with
  | [target, node] =>
      simp only [Direct.define, Engine.answerDefine]
      cases target.referenceName? with
      | none => exact bridge.malformation target .defineName
      | some name =>
          refine bridge.continues (nested.operand node frame) fun value => ?_
          exact bridge.continues (bridge.refl _) fun _ => bridge.value .nil
  | [] | [_] | _ :: _ :: _ :: _ => exact bridge.malformation _ _

theorem lambda (bridge : Bridge inner outer) (frame : FrameId) (operands : List Object) :
    outer (Direct.lambda frame operands) (Engine.answerLambda frame operands) := by
  cases operands with
  | nil => exact bridge.malformation _ _
  | cons formals body =>
      refine bridge.continues (bridge.refl _) fun names => ?_
      exact bridge.continues (bridge.refl _) fun id => bridge.value (.closure id)

theorem entries (bridge : Bridge inner outer) (nested : Bridged inner outer eval engine position)
    (frame : FrameId) (done : List (Symbol × Object)) (nodes : List Object) :
    inner (Direct.entries eval frame done nodes) (engine.bindings frame done nodes) := by
  induction nodes generalizing done with
  | nil => exact bridge.refl _
  | cons binding rest ih =>
      simp only [Direct.entries, Engine.bindings]
      cases bindingParts? binding with
      | none => exact bridge.refl _
      | some parts =>
          by_cases repeated : parts.1 ∈ done.map Prod.fst
          · simpa only [if_pos repeated] using bridge.refl _
          · simp only [if_neg repeated]
            exact bridge.bind (nested.operand parts.2 frame) fun value => ih _

theorem binding (bridge : Bridge inner outer) (nested : Bridged inner outer eval engine position)
    (frame : FrameId) (operands : List Object) :
    outer (Direct.binding eval frame operands) (engine.answerBinding position frame operands) := by
  cases operands with
  | nil => exact bridge.malformation _ _
  | cons first body =>
      simp only [Direct.binding, Engine.answerBinding]
      cases first.formElements? with
      | none => exact bridge.malformation _ _
      | some nodes =>
          refine bridge.continues (bridge.entries nested frame [] nodes) fun entries => ?_
          refine bridge.continues (bridge.refl _) fun scope => ?_
          exact bridge.continues (bridge.refl _) fun _ => bridge.sequence nested scope body

theorem apply (bridge : Bridge inner outer) (nested : Bridged inner outer eval engine position)
    (frame : FrameId) (operands : List Object) :
    outer (Direct.apply eval frame operands) (engine.answerApply position frame operands) := by
  match operands with
  | [function, list] =>
      refine bridge.continues (nested.operand function frame) fun callee => ?_
      refine bridge.continues (nested.operand list frame) fun value => ?_
      exact bridge.continues (bridge.refl _) fun items => bridge.call nested callee items
  | [] | [_] | _ :: _ :: _ :: _ => exact bridge.malformation _ _

theorem special (bridge : Bridge inner outer) (nested : Bridged inner outer eval engine position)
    (frame : FrameId) (form : SpecialForm) (operands : List Object) :
    outer (Direct.special eval frame form operands)
      (engine.answerSpecial position frame form operands) := by
  cases form with
  | quote => exact bridge.quote operands
  | conditional => exact bridge.conditional nested frame operands
  | define => exact bridge.define nested frame operands
  | lambda => exact bridge.lambda frame operands
  | begin => exact bridge.sequence nested frame operands
  | binding => exact bridge.binding nested frame operands
  | conjunction => exact bridge.conjunction nested frame operands
  | disjunction => exact bridge.disjunction nested frame operands
  | apply => exact bridge.apply nested frame operands

theorem form (bridge : Bridge inner outer) (nested : Bridged inner outer eval engine position)
    (frame : FrameId) (elements : List Object) :
    outer (Direct.form eval frame elements) (engine.answerForm position frame elements) := by
  cases elements with
  | nil => exact bridge.value .nil
  | cons head nodes =>
      simp only [Direct.form, Engine.answerForm]
      cases SpecialForm.ofHead? head with
      | some form => exact bridge.special nested frame form nodes
      | none =>
          refine bridge.continues (nested.operand head frame) fun callee => ?_
          refine bridge.continues (bridge.operands nested frame nodes) fun values => ?_
          exact bridge.call nested callee values

/-- Evaluators related on the nodes inside a node are related on the node. -/
theorem step (bridge : Bridge inner outer) (nested : Bridged inner outer eval engine position)
    (node : Object) (frame : FrameId) :
    outer (Direct.step eval node frame) (engine.step position node frame) := by
  cases node with
  | literal label value =>
      simp only [Direct.step, Engine.step]
      by_cases proper : value.isValue
      · simpa only [if_pos proper] using bridge.value value
      · simpa only [if_neg proper] using bridge.malformation _ _
  | reference label name =>
      simp only [Direct.step, Engine.step]
      by_cases proper : name.isSymbol
      · simpa only [if_pos proper] using bridge.answer (bridge.refl _)
      · simpa only [if_neg proper] using bridge.malformation _ _
  | form label shape elements =>
      rw [Engine.step_form]
      cases shape with
      | text => exact bridge.malformation _ _
      | tuple | list => exact bridge.form nested frame elements
  | _ => exact bridge.malformation _ _

end Bridge

end LispCore
