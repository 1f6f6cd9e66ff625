import LispCore.Chain
import LispCore.Equality
import LispCore.Printer

/-!
Running operations: operand checks first, then the operation itself.

The kinds of all operands are checked, from left to right, before anything is
computed, so a wrong kind wins over every fault of the computation. How many
operands there may be is the business of primitives; an operation that is given
fewer or more than it can do with fails as the host does.
-/

namespace LispCore

namespace Operation

/-- The operands as numbers; the first that is none is at fault. -/
def numbers (operation : Operation) : List Object → Except Fault (List Number)
  | [] => .ok []
  | object :: objects =>
      match Number.ofObject? object with
      | none => .error (.wrongKind "number" object (some operation.name))
      | some number => do
          let numbers ← operation.numbers objects
          .ok (number :: numbers)

/-- The operands as integers; the first that is none is at fault. -/
def integers (operation : Operation) : List Object → Except Fault (List Int)
  | [] => .ok []
  | object :: objects =>
      match object.integer? with
      | none => .error (.wrongKind "integer" object (some operation.name))
      | some integer => do
          let integers ← operation.integers objects
          .ok (integer :: integers)

def pairOperand (operation : Operation) : Object → Except Fault CellId
  | .pair id => .ok id
  | object => .error (.wrongKind "pair" object (some operation.name))

def onNumbers (operation : Operation) (compute : List Number → Except Fault Number)
    (operands : List Object) : Except Fault Object := do
  let numbers ← operation.numbers operands
  (compute numbers).map Number.toObject

/-- A number from at least one number; with none the host fails. -/
def onFirst (operation : Operation) (ifNone : HostFault)
    (compute : Number → List Number → Except Fault Number) (operands : List Object) :
    Except Fault Object :=
  let compute : List Number → Except Fault Number := fun
    | [] => .error (.host ifNone)
    | first :: rest => compute first rest
  operation.onNumbers compute operands

def onNumber (operation : Operation) (compute : Number → Except Fault Number)
    (operands : List Object) : Except Fault Object :=
  let compute : List Number → Except Fault Number := fun
    | [number] => compute number
    | numbers => .error (.host (.operandCount 1 numbers.length))
  operation.onNumbers compute operands

def onIntegers (operation : Operation) (compute : Int → Int → Except Fault Number)
    (operands : List Object) : Except Fault Object := do
  match ← operation.integers operands with
  | [a, b] => (compute a b).map Number.toObject
  | integers => .error (.host (.operandCount 2 integers.length))

/-- The number that comes first in the given order, among at least one. -/
def select (operation : Operation) (before : Ordering) (operands : List Object) :
    Except Fault Object :=
  operation.onFirst (.nothingToSelect operation.name)
    (fun first rest => .ok (Number.extreme before first rest)) operands

/-- The operations on numbers alone, which neither see nor change the store. -/
def arithmetic? (operation : Operation) (operands : List Object) :
    Option (Except Fault Object) :=
  match operation with
  | .add => some (operation.onNumbers Number.sum operands)
  | .subtract => some (operation.onFirst .missingOperand Number.difference operands)
  | .multiply => some (operation.onNumbers Number.product operands)
  | .divide => some (operation.onFirst .missingOperand Number.ratio operands)
  | .quotient => some (operation.onIntegers Number.quotient operands)
  | .remainder => some (operation.onIntegers Number.remainder operands)
  | .modulo => some (operation.onIntegers Number.modulo operands)
  | .absolute =>
      some (operation.onNumber (fun number => Number.checked .absolute number.magnitude) operands)
  | .minimum => some (operation.select .lt operands)
  | .maximum => some (operation.select .gt operands)
  | .compare relation =>
      some ((operation.numbers operands).map fun numbers => .boolean (relation.chain numbers))
  | _ => none

end Operation

namespace Question

def answer (store : Store) (object : Object) : Question → Bool
  | .isFalsy => !object.isTruthy
  | .isNil => object.isNil
  | .isPair => object.isPair
  | .isList => store.isProperList object
  | .isNumber => object.isNumber
  | .isInteger => object.isInteger
  | .isFloat => object.isFloat
  | .isBoolean => object.isBoolean
  | .isSymbol => object.isSymbol
  | .isString => object.isString
  | .isProcedure => object.isProcedure

end Question

namespace Operation

/-- Runs an operation that needs the store. Operands beyond those it takes are left
alone. -/
def runOnStore (operation : Operation) (operands : List Object) : Eval Object := do
  let store ← get
  match operation, operands with
  | .same, a :: b :: _ => pure (.boolean (store.same a b))
  | .equal, a :: b :: _ => pure (.boolean (store.equal a b))
  | .cons, a :: b :: _ => .pair <$> Eval.create fun store => store.cons a b
  | .head, pair :: _ => do
      let id ← Eval.ofExcept (operation.pairOperand pair)
      pure (store.cell id).head
  | .tail, pair :: _ => do
      let id ← Eval.ofExcept (operation.pairOperand pair)
      pure (store.cell id).tail
  | .list, items => newList items
  | .length, object :: _ => do
      let items ← itemsOr (.wrongKind "proper list" object (some operation.name)) object
      pure (.integer items.length)
  | .setHead, pair :: value :: _ => do
      let id ← Eval.ofExcept (operation.pairOperand pair)
      modify fun store => store.setHead id value
      pure .nil
  | .setTail, pair :: value :: _ => do
      let id ← Eval.ofExcept (operation.pairOperand pair)
      modify fun store => store.setTail id value
      pure .nil
  | .ask question, object :: _ => pure (.boolean (question.answer store object))
  | .record, object :: _ => do
      modify fun store => store.note (store.written object true)
      pure object
  | _, _ => raise (.host .missingOperand)

def run (operation : Operation) (operands : List Object) : Eval Object :=
  match operation.arithmetic? operands with
  | some outcome => Eval.ofExcept outcome
  | none => operation.runOnStore operands

end Operation

end LispCore
