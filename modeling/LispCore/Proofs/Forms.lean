import LispCore.Evaluator
import LispCore.Proofs.Formals

namespace LispCore

namespace SpecialForm

/-- The nodes that are the special form over these operands. -/
inductive Over (special : SpecialForm) (operands : List Object) : Object → Prop
  | form {label keyword : Option Label} {shape : FormShape} (sequence : shape ≠ .text) :
      Over special operands
        (.form label shape (.reference keyword (.symbol ⟨special.keyword⟩) :: operands))

theorem exists_over (special : SpecialForm) (operands : List Object) :
    ∃ node, special.Over operands node :=
  ⟨.form none .tuple (.reference none _ :: operands), .form (by decide)⟩

theorem ofHead?_keyword (special : SpecialForm) (label : Option Label) :
    ofHead? (.reference label (.symbol ⟨special.keyword⟩)) = some special := by
  cases special <;> rfl

end SpecialForm

namespace Engine

/-- The answer of a call whose frame has been made: in tail position the body stays
pending. -/
def answerBody (engine : Engine) (position : Position) (body : Object) (frame : FrameId) :
    Eval Answer :=
  match position with
  | .tail => pure (.pending body frame)
  | .operand => .value <$> engine.complete body frame

def answerForm (engine : Engine) (position : Position) (frame : FrameId) :
    List Object → Eval Answer
  | [] => pure (.value .nil)
  | head :: nodes =>
      match SpecialForm.ofHead? head with
      | some form => engine.answerSpecial position frame form nodes
      | none => do
          let callee ← engine.operand head frame
          let values ← engine.operands frame nodes
          engine.apply position callee values

theorem step_form (engine : Engine) (position : Position) (label : Option Label)
    (shape : FormShape) (elements : List Object) (frame : FrameId) :
    engine.step position (.form label shape elements) frame =
      if shape = .text then malformed (.form label shape elements) .unrecognised
      else engine.answerForm position frame elements := by
  cases shape <;> cases elements <;> rfl

theorem step_over {special : SpecialForm} {operands : List Object} {node : Object}
    (formed : special.Over operands node) (engine : Engine) (position : Position)
    (frame : FrameId) :
    engine.step position node frame =
      engine.answerSpecial position frame special operands := by
  obtain ⟨sequence⟩ := formed
  rw [step_form, if_neg sequence, answerForm]
  simp only [special.ofHead?_keyword]

theorem create_enter (closure : Closure) (operands : List Object) :
    (Eval.create fun store => store.enter closure operands) = (do
      let inner ← Eval.create fun store => store.child closure.frame
      modify fun store => store.defineAll inner (closure.formals.zip operands)
      pure inner) := rfl

theorem settleWithin_value (engine : Engine) (turns : Nat) (value : Object) :
    engine.settleWithin turns (.value value) = pure value := by
  cases turns <;> rfl

end Engine

namespace Budget

variable {α : Type} {budget : Budget} {run run' : Eval α} {before before' after : Store}

theorem guard_congr (same : run before = run' before') :
    budget.guard run before = budget.guard run' before' := by
  unfold guard
  rw [same]

theorem guard_ok {value : α} (ends : run before = .ok value after) :
    budget.guard run before = .ok value after := by
  unfold guard
  rw [ends]

end Budget

end LispCore
