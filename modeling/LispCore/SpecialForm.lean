import LispCore.Application
import LispCore.Node

/-!
The special forms: forms with rules of evaluation of their own.

A form is special by the keyword in its head position, whatever the keyword may be
bound to. Sub-nodes whose value is the value of the form are evaluated in the
position of the form, all others in operand position.
-/

namespace LispCore

inductive SpecialForm
  | quote
  | conditional
  | define
  | lambda
  | begin
  | binding
  | conjunction
  | disjunction
  | apply
deriving DecidableEq

namespace SpecialForm

def keyword : SpecialForm → String
  | .quote => "quote"
  | .conditional => "if"
  | .define => "define"
  | .lambda => "lambda"
  | .begin => "begin"
  | .binding => "let"
  | .conjunction => "and"
  | .disjunction => "or"
  | .apply => "apply"

def all : List SpecialForm :=
  [.quote, .conditional, .define, .lambda, .begin, .binding, .conjunction, .disjunction,
    .apply]

def ofSymbol? (name : Symbol) : Option SpecialForm :=
  all.find? fun form => form.keyword == name.name

/-- The special form that a head node asks for. -/
def ofHead? (head : Object) : Option SpecialForm :=
  head.referenceName?.bind ofSymbol?

end SpecialForm

/-- The operands of a form as one object, for faults to show. -/
def operandList (operands : List Object) : Object :=
  .sequence none .list operands

def bindingParts? (binding : Object) : Option (Symbol × Object) :=
  match binding.sequenceElements? with
  | some [name, node] => name.referenceName?.map fun name => (name, node)
  | _ => none

namespace Engine

variable (engine : Engine) (position : Position) (frame : FrameId)

/-- The data that the one operand was written as. -/
def answerQuote : List Object → Eval Answer
  | [node] => .value <$> node.quoted
  | operands => malformed (operandList operands) .quoteOperands

/-- Evaluates the branch that the condition selects; a missing branch is nil. -/
def answerConditional : List Object → Eval Answer
  | [condition, consequent] => do
      let value ← engine.operand condition frame
      if value.isTruthy then engine.answer position consequent frame else pure (.value .nil)
  | [condition, consequent, alternative] => do
      let value ← engine.operand condition frame
      engine.answer position (if value.isTruthy then consequent else alternative) frame
  | operands => malformed (operandList operands) .conditionalOperands

/-- Binds a name in the present frame, after its value has been computed. -/
def answerDefine : List Object → Eval Answer
  | [target, node] =>
      match target.referenceName? with
      | none => malformed target .defineName
      | some name => do
          let value ← engine.operand node frame
          modify fun store => store.define frame name value
          pure (.value .nil)
  | operands => malformed (operandList operands) .defineOperands

def answerLambda (frame : FrameId) : List Object → Eval Answer
  | formals :: body => do
      let names ← Eval.ofExcept (parseFormals formals)
      let id ← Eval.create fun store => store.addClosure ⟨names, bodyNode body, frame⟩
      pure (.value (.closure id))
  | [] => malformed (operandList []) .lambdaOperands

/-- Evaluates nodes in order; the last one gives the answer, and none gives nil. -/
def answerBegin : List Object → Eval Answer
  | [] => pure (.value .nil)
  | [last] => engine.answer position last frame
  | node :: nodes => do
      let _ ← engine.operand node frame
      answerBegin nodes

/-- The names of bindings with the values of their nodes, after those already there. -/
def bindings (done : List (Symbol × Object)) : List Object → Eval (List (Symbol × Object))
  | [] => pure done
  | binding :: rest =>
      match bindingParts? binding with
      | none => malformed binding .letBinding
      | some (name, node) =>
          if name ∈ done.map Prod.fst then malformed binding (.duplicateBinding name)
          else do
            let value ← engine.operand node frame
            bindings (done ++ [(name, value)]) rest

/-- Evaluates a body in a new frame with all names bound together. -/
def answerBinding (operands : List Object) : Eval Answer :=
  match operands with
  | [] => malformed (operandList operands) .letOperands
  | first :: body =>
      match first.formElements? with
      | none => malformed (operandList operands) .letOperands
      | some nodes => do
          let entries ← engine.bindings frame [] nodes
          let inner ← Eval.create fun store => store.child frame
          modify fun store => store.defineAll inner entries
          engine.answerBegin position inner body

/-- Evaluates nodes up to the first that is not true. -/
def answerConjunction : List Object → Eval Answer
  | [] => pure (.value (.boolean true))
  | [last] => engine.answer position last frame
  | node :: nodes => do
      let value ← engine.operand node frame
      if value.isTruthy then answerConjunction nodes else pure (.value value)

/-- Evaluates nodes up to the first that is true. -/
def answerDisjunction : List Object → Eval Answer
  | [] => pure (.value (.boolean false))
  | [last] => engine.answer position last frame
  | node :: nodes => do
      let value ← engine.operand node frame
      if value.isTruthy then pure (.value value) else answerDisjunction nodes

def answerApply : List Object → Eval Answer
  | [function, list] => do
      let callee ← engine.operand function frame
      let value ← engine.operand list frame
      let items ← itemsOr (.wrongKind "proper list" value (some "apply")) value
      engine.apply position callee items
  | operands => malformed (operandList operands) .applyOperands

def answerSpecial (form : SpecialForm) (operands : List Object) : Eval Answer :=
  match form with
  | .quote => answerQuote operands
  | .conditional => engine.answerConditional position frame operands
  | .define => engine.answerDefine frame operands
  | .lambda => answerLambda frame operands
  | .begin => engine.answerBegin position frame operands
  | .binding => engine.answerBinding position frame operands
  | .conjunction => engine.answerConjunction position frame operands
  | .disjunction => engine.answerDisjunction position frame operands
  | .apply => engine.answerApply position frame operands

end Engine

end LispCore
