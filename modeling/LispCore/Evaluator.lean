import LispCore.SpecialForm

/-!
The evaluator.

`Engine.step` evaluates one node with an engine for the nodes inside it. Stacking
steps gives engines that evaluate to any depth, and the number of steps stacked is
the only bound on nesting: a pending call is evaluated by the engine that is at
hand, so calls in tail position do not nest.
-/

namespace LispCore

namespace Engine

/-- Evaluates one node: literals, references, the empty form, special forms, and
applications with their operands taken from left to right. -/
def step (engine : Engine) (position : Position) (node : Object) (frame : FrameId) :
    Eval Answer :=
  match node with
  | .literal _ value =>
      if value.isValue then pure (.value value) else malformed node .literalNotValue
  | .reference _ name =>
      if name.isSymbol then .value <$> Environment.lookup frame name
      else malformed node .referenceNotSymbol
  | _ =>
      match node.sequenceElements? with
      | none => malformed node .unrecognised
      | some [] => pure (.value .nil)
      | some (head :: nodes) =>
          match SpecialForm.ofHead? head with
          | some form => engine.answerSpecial position frame form nodes
          | none => do
              let callee ← engine.operand head frame
              let values ← engine.operands frame nodes
              engine.apply position callee values

end Engine

/-- Evaluates a node with at most the given number of evaluations inside each other. -/
def answerWithin (patience : Nat) : Nat → Position → Object → FrameId → Eval Answer
  | 0, _, _, _ => throw .depth
  | depth + 1, position, node, frame =>
      Engine.step ⟨patience, answerWithin patience depth⟩ position node frame

namespace Engine

def ofDepth (patience depth : Nat) : Engine :=
  ⟨patience, answerWithin patience depth⟩

end Engine

/-- What an evaluation may use: as many evaluations inside each other as the limit
says, and as many pending calls in a row as there is patience for. -/
structure Budget where
  limit : Nat
  patience : Nat

namespace Budget

/-- A patience that no run of a machine uses up. -/
def ofLimit (limit : Nat) : Budget :=
  ⟨limit, Nat.pow 2 62⟩

def engine (budget : Budget) : Engine :=
  .ofDepth budget.patience budget.limit

/-- Turns the exhaustion of the depth into a fault that names the limit. -/
def guard {α : Type} (budget : Budget) (run : Eval α) : Eval α := fun store =>
  match run store with
  | .error .depth store => .error (.fault (.tooDeep budget.limit)) store
  | outcome => outcome

end Budget

def evaluate (budget : Budget) (node : Object) (frame : FrameId) : Eval Object :=
  budget.guard (budget.engine.complete node frame)

/-- The value of an application to operands that are values already. -/
def applyTo (budget : Budget) (callee : Object) (operands : List Object) : Eval Object :=
  budget.guard do
    let answer ← budget.engine.apply .operand callee operands
    budget.engine.settle answer

end LispCore
