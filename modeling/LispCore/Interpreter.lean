import LispCore.Evaluator
import LispCore.Setting

namespace LispCore

namespace Interpreter

/-- The limit on nesting before any interpreter has asked for more. -/
def initialLimit : Nat := 1000

/-- An interpreter only ever raises the limit. -/
def raisedLimit (current : Nat) (requested : Int) : Nat :=
  max current requested.toNat

/-- A new root frame with a table of primitives. -/
def start (table : List (Symbol × Primitive)) : Eval FrameId := do
  let root ← Eval.create Store.rootFrame
  Environment.register root table
  pure root

/-- Evaluates source in a root frame: a node as it is, other data as the node it
stands for. -/
def evaluateSource (budget : Budget) (root : FrameId) (source : Object) : Eval Object := do
  let store ← get
  let node ← Eval.ofExcept (source.toNode store)
  evaluate budget node root

/-- Evaluates pieces of source in order, for the value of the last; none gives the
value at hand. -/
def evaluateFrom (budget : Budget) (root : FrameId) (value : Object) :
    List Object → Eval Object
  | [] => pure value
  | source :: rest => do
      let value ← evaluateSource budget root source
      evaluateFrom budget root value rest

/-- Evaluates pieces of source in order, for the value of the last; none gives nil. -/
def evaluateAll (budget : Budget) (root : FrameId) (sources : List Object) : Eval Object :=
  evaluateFrom budget root .nil sources

end Interpreter

end LispCore
