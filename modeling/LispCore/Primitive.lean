import LispCore.Operation
import LispCore.Symbol

namespace LispCore

/-- A named operation with the operand counts it admits. No `maximum` means that
any larger count is admitted. The bounds are whatever whole numbers a host chose:
they may admit no count at all, or counts that the operation cannot do with.
Primitives made by a host carry a `serial` of their own, so that two of them stay
two objects even if all else about them agrees. -/
structure Primitive where
  name : String
  operation : Operation
  minimum : Int
  maximum : Option Int
  serial : Nat
deriving DecidableEq

namespace Primitive

def admits (primitive : Primitive) (count : Int) : Bool :=
  primitive.minimum ≤ count && primitive.maximum.all (count ≤ ·)

def ofOperation (operation : Operation) (minimum : Int) (maximum : Option Int) : Primitive :=
  ⟨operation.name, operation, minimum, maximum, 0⟩

/-- The standard primitives, in the order in which they are registered. -/
def standard : List Primitive :=
  [ofOperation .add 0 none,
   ofOperation .subtract 1 none,
   ofOperation .multiply 0 none,
   ofOperation .divide 1 none,
   ofOperation .quotient 2 (some 2),
   ofOperation .remainder 2 (some 2),
   ofOperation .modulo 2 (some 2),
   ofOperation .absolute 1 (some 1),
   ofOperation .minimum 1 none,
   ofOperation .maximum 1 none,
   ofOperation (.compare .equal) 1 none,
   ofOperation (.compare .less) 1 none,
   ofOperation (.compare .lessOrEqual) 1 none,
   ofOperation (.compare .greater) 1 none,
   ofOperation (.compare .greaterOrEqual) 1 none,
   ofOperation .same 2 (some 2),
   ofOperation .equal 2 (some 2),
   ofOperation (.ask .isFalsy) 1 (some 1),
   ofOperation .cons 2 (some 2),
   ofOperation .head 1 (some 1),
   ofOperation .tail 1 (some 1),
   ofOperation .list 0 none,
   ofOperation .length 1 (some 1),
   ofOperation .setHead 2 (some 2),
   ofOperation .setTail 2 (some 2),
   ofOperation (.ask .isNil) 1 (some 1),
   ofOperation (.ask .isPair) 1 (some 1),
   ofOperation (.ask .isList) 1 (some 1),
   ofOperation (.ask .isNumber) 1 (some 1),
   ofOperation (.ask .isInteger) 1 (some 1),
   ofOperation (.ask .isFloat) 1 (some 1),
   ofOperation (.ask .isBoolean) 1 (some 1),
   ofOperation (.ask .isSymbol) 1 (some 1),
   ofOperation (.ask .isString) 1 (some 1),
   ofOperation (.ask .isProcedure) 1 (some 1)]

def named? (name : String) : Option Primitive :=
  standard.find? (·.name == name)

def standardTable : List (Symbol × Primitive) :=
  standard.map fun primitive => (⟨primitive.name⟩, primitive)

end Primitive

end LispCore
