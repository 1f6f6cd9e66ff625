import LispCore.Object

namespace LispCore

inductive Malformation
  | unrecognised
  | literalNotValue
  | referenceNotSymbol
  | pairInSource
  | notLiteral
  | quoteOperands
  | conditionalOperands
  | defineOperands
  | defineName
  | lambdaOperands
  | formalsNotList
  | formalNotSymbol
  | duplicateFormal (name : Symbol)
  | letOperands
  | letBinding
  | duplicateBinding (name : Symbol)
  | applyOperands
deriving DecidableEq

namespace Malformation

def text : Malformation → String
  | .unrecognised => "unrecognised node"
  | .literalNotValue => "literal does not wrap a value"
  | .referenceNotSymbol => "symbol reference without a Symbol"
  | .pairInSource => "pairs cannot appear in source"
  | .notLiteral => "not a literal value"
  | .quoteOperands => "quote expects exactly 1 operand"
  | .conditionalOperands =>
      "if requires a condition, a then-expression and an optional else"
  | .defineOperands => "define requires exactly 2 operands"
  | .defineName => "define expects a symbol name"
  | .lambdaOperands => "lambda requires at least a parameter list"
  | .formalsNotList => "lambda parameters must be a list"
  | .formalNotSymbol => "lambda parameter must be a symbol"
  | .duplicateFormal name => "duplicate parameter " ++ name.name
  | .letOperands => "let requires a binding list"
  | .letBinding => "let binding must be (name expr)"
  | .duplicateBinding name => "duplicate binding " ++ name.name
  | .applyOperands => "apply expects a function and an argument list"

end Malformation

/-- Failures of the host, which was given objects that it has no use for. They are
no faults of the language: a program of values with standard primitives comes to
none, but where a sum of integers is too large for a double. -/
inductive HostFault
  /-- An operand that is not there was asked for. -/
  | missingOperand
  /-- Operands do not come in the number that they were to be taken apart into. -/
  | operandCount (expected got : Nat)
  /-- The least or the greatest of no numbers was asked for. -/
  | nothingToSelect (operation : String)
  | tooLarge
  /-- An integer has too many digits to be written. -/
  | tooLong
  | unordered (relation : Comparison) (left right : Object)
  /-- An object that can change was to be a key. -/
  | changeableKey (object : Object)
  | noItems (object : Object)
  | noPart (object : Object) (part : String)
  | noFunction (object : Object)
  /-- An object was to be the text of a setting. -/
  | noText (object : Object)
  /-- The text of a setting holds the character that ends texts. -/
  | endedText

inductive Fault
  | invalidName (name : Object)
  | unbound (name : Object)
  | notCallable (value : Object)
  | arity (callee : String) (minimum : Int) (maximum : Option Int) (got : Int)
  | wrongKind (expected : String) (value : Object) (operation : Option String)
  | divisionByZero (operation : String)
  | overflow (operation : String) (result : Int)
  | malformed (node : Object) (reason : Malformation)
  | tooDeep (limit : Nat)
  | improperList
  | notValue (object : Object)
  | host (fault : HostFault)

end LispCore
