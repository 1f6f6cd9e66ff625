namespace LispCore

/-- The relations that a chained numeric comparison tests between neighbours. -/
inductive Comparison
  | equal
  | less
  | lessOrEqual
  | greater
  | greaterOrEqual
deriving DecidableEq

/-- The questions that a one-operand predicate answers. -/
inductive Question
  | isFalsy
  | isNil
  | isPair
  | isList
  | isNumber
  | isInteger
  | isFloat
  | isBoolean
  | isSymbol
  | isString
  | isProcedure
deriving DecidableEq

inductive Operation
  | add
  | subtract
  | multiply
  | divide
  | quotient
  | remainder
  | modulo
  | absolute
  | minimum
  | maximum
  | compare (relation : Comparison)
  | same
  | equal
  | cons
  | head
  | tail
  | list
  | length
  | setHead
  | setTail
  | ask (question : Question)
  /-- Writes its operand to the record of the store and hands it back. -/
  | record
deriving DecidableEq

namespace Comparison

def name : Comparison → String
  | .equal => "="
  | .less => "<"
  | .lessOrEqual => "<="
  | .greater => ">"
  | .greaterOrEqual => ">="

end Comparison

namespace Question

def name : Question → String
  | .isFalsy => "not"
  | .isNil => "null?"
  | .isPair => "pair?"
  | .isList => "list?"
  | .isNumber => "number?"
  | .isInteger => "integer?"
  | .isFloat => "float?"
  | .isBoolean => "boolean?"
  | .isSymbol => "symbol?"
  | .isString => "string?"
  | .isProcedure => "procedure?"

end Question

namespace Operation

/-- The name an operation gives itself in its errors. -/
def name : Operation → String
  | .add => "+"
  | .subtract => "-"
  | .multiply => "*"
  | .divide => "/"
  | .quotient => "quotient"
  | .remainder => "remainder"
  | .modulo => "modulo"
  | .absolute => "abs"
  | .minimum => "min"
  | .maximum => "max"
  | .compare relation => relation.name
  | .same => "eq?"
  | .equal => "equal?"
  | .cons => "cons"
  | .head => "car"
  | .tail => "cdr"
  | .list => "list"
  | .length => "length"
  | .setHead => "set-car!"
  | .setTail => "set-cdr!"
  | .ask question => question.name
  | .record => "record!"

end Operation

end LispCore
