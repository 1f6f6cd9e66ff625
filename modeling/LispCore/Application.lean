import LispCore.Environment
import LispCore.Operation.Run

/-!
Application: calling closures and primitives.

A node is evaluated in one of two positions. In tail position the value of the node
is the value of the whole evaluation around it, so a call of a closure need not be
made on the spot: its answer is the *pending* evaluation of the body. Whoever asked
for the answer settles it, in a loop that does not nest.
-/

namespace LispCore

namespace Primitive

def checkArity (primitive : Primitive) (count : Int) : Except Fault Unit :=
  if primitive.admits count then .ok ()
  else .error (.arity primitive.name primitive.minimum primitive.maximum count)

def call (primitive : Primitive) (operands : List Object) : Eval Object := do
  Eval.ofExcept (primitive.checkArity operands.length)
  primitive.operation.run operands

end Primitive

/-- Where a node stands in the evaluation around it. -/
inductive Position
  | tail
  | operand
deriving DecidableEq

/-- What the evaluation of a node comes to: a value, or a body still to be
evaluated in a frame. -/
inductive Answer
  | value (value : Object)
  | pending (body : Object) (frame : FrameId)

/-- A way to evaluate nodes one level further down, and the number of pending
answers in a row that are waited for. -/
structure Engine where
  patience : Nat
  answer : Position → Object → FrameId → Eval Answer

namespace Store

/-- A new frame inside the frame of a closure that binds its parameters. -/
def enter (store : Store) (closure : Closure) (operands : List Object) : FrameId × Store :=
  let (frame, store) := store.child closure.frame
  (frame, store.defineAll frame (closure.formals.zip operands))

end Store

namespace Closure

/-- A new frame for a call, if there is one operand for each parameter. -/
def extend (closure : Closure) (operands : List Object) : Eval FrameId :=
  let arity := closure.formals.length
  if operands.length = arity then Eval.create fun store => store.enter closure operands
  else raise (.arity closure.text arity (some arity) operands.length)

end Closure

namespace Engine

/-- Evaluates pending bodies until there is a value. -/
def settleWithin (engine : Engine) : Nat → Answer → Eval Object
  | _, .value value => pure value
  | 0, .pending .. => throw .patience
  | patience + 1, .pending body frame => do
      let next ← engine.answer .tail body frame
      engine.settleWithin patience next

def settle (engine : Engine) (answer : Answer) : Eval Object :=
  engine.settleWithin engine.patience answer

def complete (engine : Engine) (node : Object) (frame : FrameId) : Eval Object := do
  let answer ← engine.answer .tail node frame
  engine.settle answer

def operand (engine : Engine) (node : Object) (frame : FrameId) : Eval Object := do
  let answer ← engine.answer .operand node frame
  engine.settle answer

def operands (engine : Engine) (frame : FrameId) : List Object → Eval (List Object)
  | [] => pure []
  | node :: nodes => do
      let value ← engine.operand node frame
      let values ← engine.operands frame nodes
      pure (value :: values)

/-- Calls a closure: in tail position the body stays pending. -/
def applyClosure (engine : Engine) (position : Position) (id : ClosureId)
    (operands : List Object) : Eval Answer := do
  let store ← get
  let closure := store.closure id
  let frame ← closure.extend operands
  match position with
  | .tail => pure (.pending closure.body frame)
  | .operand => .value <$> engine.complete closure.body frame

def apply (engine : Engine) (position : Position) (callee : Object)
    (operands : List Object) : Eval Answer :=
  match callee with
  | .closure id => engine.applyClosure position id operands
  | .primitive primitive => .value <$> primitive.call operands
  | other => raise (.notCallable other)

end Engine

end LispCore
