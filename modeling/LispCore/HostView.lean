import LispCore.Chain
import LispCore.Content

namespace LispCore

namespace Object

/-- The host takes for false also zero, and what is empty or absent. -/
def isTrueToHost : Object → Bool
  | .integer value => value != 0
  | .float value => !(Number.float value).isZero
  | .string text => !text.isEmpty
  | .alien thing => thing == .bytes
  | .sequence _ _ items => !items.isEmpty
  | .form _ _ elements => !elements.isEmpty
  | object => object.isTruthy

/-- Does a relation hold of two objects? The host finds an order in numbers, with
the booleans among them. -/
def holdsToHost (relation : Comparison) (a b : Object) : Except Fault Bool :=
  match a.hostNumber?, b.hostNumber? with
  | some a, some b => .ok (relation.holds a b)
  | _, _ => .error (.host (.unordered relation a b))

/-- Is a number in the range of the integers that are values? -/
def isInIntegerRange (object : Object) : Except Fault Bool := do
  if ← holdsToHost .lessOrEqual (.integer leastInteger) object then
    holdsToHost .lessOrEqual object (.integer greatestInteger)
  else .ok false

end Object

namespace Store

/-- The items that the host finds in an object: those of a sequence or of a chain,
and the characters of a text. -/
def itemsToHost (store : Store) : Object → Except Fault (List Object)
  | .nil | .alien .emptyMap => .ok []
  | .pair id => .ok (store.chain (.pair id)).1
  | .string text => .ok (text.toList.map fun char => .string (String.singleton char))
  | .alien .bytes => .ok [.integer 97, .integer 98]
  | .sequence _ _ items => .ok items
  | object => .error (.host (.noItems object))

end Store

end LispCore
