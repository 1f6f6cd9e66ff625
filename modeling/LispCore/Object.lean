import LispCore.Primitive

/-!
Objects: everything that can be handed to the evaluator or come out of it.

The first nine shapes are the values of the language. The others belong to its
host: nodes of source (`literal`, `reference`, `form`), source data not yet made
into nodes (`sequence`), and things of no meaning to the language (`alien`). A
host may put any of them anywhere, so they are one type, and being a value
(`Object.isValue`) or a node (`Object.isNode`) is a property of an object.

Pairs and closures live in a store and are named here by their place in it.
-/

namespace LispCore

abbrev CellId := Nat
abbrev FrameId := Nat
abbrev ClosureId := Nat

/-- Names one container object of the host. -/
abbrev Label := Nat

/-- Objects of the host with no meaning in the language; there is one of each. -/
inductive Alien
  | absent
  | emptyMap
  | bytes
deriving DecidableEq

inductive SequenceKind
  | list
  | tuple
deriving DecidableEq

/-- How the elements of a form are held. Source is held in tuples; a host may
hand in a list, which is taken the same way, or a text, which is no sequence of
operands to the evaluator. -/
inductive FormShape
  | tuple
  | list
  | text
deriving DecidableEq

/-- An object. A `label` tells containers of the host apart: two with one label
are one object, and a container without a label is no other object. -/
inductive Object
  | nil
  | boolean (value : Bool)
  | integer (value : Int)
  | float (value : Float)
  | symbol (symbol : Symbol)
  | string (text : String)
  | pair (cell : CellId)
  | closure (closure : ClosureId)
  | primitive (primitive : Primitive)
  | alien (thing : Alien)
  | sequence (label : Option Label) (kind : SequenceKind) (items : List Object)
  | literal (label : Option Label) (value : Object)
  | reference (label : Option Label) (name : Object)
  | form (label : Option Label) (shape : FormShape) (elements : List Object)
deriving Inhabited

/-- The kinds of values. -/
inductive Kind
  | nil
  | boolean
  | integer
  | float
  | symbol
  | string
  | pair
  | closure
  | primitive
deriving DecidableEq

namespace Kind

def name : Kind → String
  | .nil => "nil"
  | .boolean => "boolean"
  | .integer => "integer"
  | .float => "float"
  | .symbol => "symbol"
  | .string => "string"
  | .pair => "pair"
  | .closure => "closure"
  | .primitive => "primitive"

end Kind

def leastInteger : Int := -9223372036854775808

def greatestInteger : Int := 9223372036854775807

/-- The integers that are values: those of 64 bits with sign. -/
def inIntegerRange (value : Int) : Bool :=
  leastInteger ≤ value && value ≤ greatestInteger

namespace Object

/-- The kind of an object that has the shape of a value, whatever its size. -/
def kind? : Object → Option Kind
  | .nil => some .nil
  | .boolean _ => some .boolean
  | .integer _ => some .integer
  | .float _ => some .float
  | .symbol _ => some .symbol
  | .string _ => some .string
  | .pair _ => some .pair
  | .closure _ => some .closure
  | .primitive _ => some .primitive
  | _ => none

/-- The name of an object's class in the host. -/
def hostName : Object → String
  | .nil => "NilType"
  | .boolean _ => "bool"
  | .integer _ => "int"
  | .float _ => "float"
  | .symbol _ => "Symbol"
  | .string _ => "str"
  | .pair _ => "Pair"
  | .closure _ => "Closure"
  | .primitive _ => "Primitive"
  | .alien .absent => "NoneType"
  | .alien .emptyMap => "dict"
  | .alien .bytes => "bytes"
  | .sequence _ .list _ => "list"
  | .sequence _ .tuple _ => "tuple"
  | .literal .. => "Literal"
  | .reference .. => "SymbolRef"
  | .form .. => "ListForm"

/-- The kind as errors show it; what is no value goes by its name in the host. -/
def kindName (object : Object) : String :=
  match object.kind? with
  | some kind => kind.name
  | none => object.hostName

/-- The values: the nine kinds, with integers in range. What a pair holds is not
looked at. -/
def isValue : Object → Bool
  | .integer value => inIntegerRange value
  | object => object.kind?.isSome

def isNode : Object → Bool
  | .literal .. | .reference .. | .form .. => true
  | _ => false

/-- All but nil and false count as true. -/
def isTruthy : Object → Bool
  | .nil | .boolean false => false
  | _ => true

def isNil : Object → Bool
  | .nil => true
  | _ => false

def isPair : Object → Bool
  | .pair _ => true
  | _ => false

def isInteger : Object → Bool
  | .integer _ => true
  | _ => false

def isFloat : Object → Bool
  | .float _ => true
  | _ => false

def isNumber (object : Object) : Bool :=
  object.isInteger || object.isFloat

def isBoolean : Object → Bool
  | .boolean _ => true
  | _ => false

def isSymbol : Object → Bool
  | .symbol _ => true
  | _ => false

def isString : Object → Bool
  | .string _ => true
  | _ => false

def isProcedure : Object → Bool
  | .closure _ | .primitive _ => true
  | _ => false

/-- The integer that an object is, if it is one. -/
def integer? : Object → Option Int
  | .integer value => some value
  | _ => none

theorem kind?_of_isValue {object : Object} (value : object.isValue) : object.kind?.isSome := by
  cases object with
  | integer => rfl
  | _ => exact value

theorem sizeOf_pos (object : Object) : 0 < sizeOf object := by
  cases object <;> simp +arith

/-- The label of the empty tuple, of which there is only one. -/
def emptyTupleLabel : Label := 0

end Object

end LispCore
