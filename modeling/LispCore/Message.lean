import LispCore.Fault
import LispCore.Printer
import LispCore.Text.Digit

namespace LispCore

def admittedText (minimum : Int) : Option Int → String
  | none => "at least " ++ Text.integer minimum
  | some maximum =>
      if minimum = maximum then Text.integer minimum
      else Text.integer minimum ++ " to " ++ Text.integer maximum

namespace HostFault

def message : HostFault → String
  | .missingOperand => "list index out of range"
  | .operandCount expected got =>
      if got < expected then
        "not enough values to unpack (expected " ++ Nat.repr expected ++ ", got " ++
          Nat.repr got ++ ")"
      else "too many values to unpack (expected " ++ Nat.repr expected ++ ")"
  | .nothingToSelect operation => operation ++ "() arg is an empty sequence"
  | .tooLarge => "int too large to convert to float"
  | .tooLong =>
      "Exceeds the limit (" ++ Nat.repr mostDigits ++
        " digits) for integer string conversion; " ++
        "use sys.set_int_max_str_digits() to increase the limit"
  | .unordered relation left right =>
      "'" ++ relation.name ++ "' not supported between instances of '" ++ left.hostName ++
        "' and '" ++ right.hostName ++ "'"
  | .changeableKey object => "unhashable type: '" ++ object.hostName ++ "'"
  | .noItems object => "'" ++ object.hostName ++ "' object is not iterable"
  | .noPart object part =>
      "'" ++ object.hostName ++ "' object has no attribute '" ++ part ++ "'"
  | .noFunction object => "'" ++ object.hostName ++ "' object is not callable"
  | .noText object => "str expected, not " ++ object.hostName
  | .endedText => "embedded null byte"

end HostFault

namespace Fault

/-- The message of a fault, with the objects it is about as the store has them. -/
def message (store : Store) : Fault → String
  | .invalidName name => "Cannot define " ++ store.shown name ++ " as a symbol"
  | .unbound name => "Unbound name: " ++ store.plain name
  | .notCallable value => "Not callable: " ++ store.described value
  | .arity callee minimum maximum got =>
      callee ++ " expects " ++ admittedText minimum maximum ++ " argument(s), got " ++
        Text.integer got
  | .wrongKind expected value operation =>
      let place := operation.getD ""
      (if place.isEmpty then "" else place ++ ": ") ++ "expected " ++ expected ++ ", got " ++
        value.kindName ++ " " ++ store.described value
  | .divisionByZero operation => operation ++ ": division by zero"
  | .overflow operation result =>
      operation ++ ": integer overflow (" ++ Text.integer result ++ ")"
  | .malformed node reason =>
      "Malformed node (" ++ reason.text ++ "): " ++ store.described node
  | .tooDeep limit => "Recursion depth exceeded (host limit " ++ Nat.repr limit ++ ")"
  | .improperList => "not a proper list"
  | .notValue object => "Not a lishp value: " ++ store.shown object
  | .host fault => fault.message

/-- Faults of number operations, as opposed to faults in the use of them. -/
def isArithmetic : Fault → Bool
  | .divisionByZero _ | .overflow .. => true
  | _ => false

end Fault

end LispCore
