import LispCore.Fault
import LispCore.Number.Exact
import LispCore.Number.Rounding

/-!
Numbers: integers and floats in one arithmetic.

Integer results are exact and are refused if they leave the range of values; as
soon as a float takes part, a step is a step of double arithmetic. Comparison
never rounds: it is by the exact values of `Number.exact`.
-/

namespace LispCore

/-- An operand of arithmetic. Integers are of any size here. -/
inductive Number
  | integer (value : Int)
  | float (value : Float)

namespace Number

def toObject : Number → Object
  | .integer value => .integer value
  | .float value => .float value

/-- The number that an object is. Booleans are no numbers. -/
def ofObject? : Object → Option Number
  | .integer value => some (.integer value)
  | .float value => some (.float value)
  | _ => none

/-- The place of a number on the extended number line. -/
def exact : Number → Exact
  | .integer value => .finite value
  | .float value => .ofFloat value

/-- The nearest double. Integers beyond all doubles have none. -/
def toFloat : Number → Except Fault Float
  | .integer value =>
      if value.natAbs < doubleBound then .ok (nearestFloat value)
      else .error (.host .tooLarge)
  | .float value => .ok value

/-- The order of two numbers by exact value; there is none with a NaN. -/
def compare? (a b : Number) : Option Ordering :=
  a.exact.compare? b.exact

def isZero (number : Number) : Bool :=
  number.compare? (.integer 0) = some .eq

/-- A step of double arithmetic. -/
def onFloats (compute : Float → Float → Float) (a b : Number) : Except Fault Number := do
  let a ← a.toFloat
  let b ← b.toFloat
  .ok (.float (compute a b))

def plus : Number → Number → Except Fault Number
  | .integer a, .integer b => .ok (.integer (a + b))
  | a, b => onFloats (· + ·) a b

def minus : Number → Number → Except Fault Number
  | .integer a, .integer b => .ok (.integer (a - b))
  | a, b => onFloats (· - ·) a b

def times : Number → Number → Except Fault Number
  | .integer a, .integer b => .ok (.integer (a * b))
  | a, b => onFloats (· * ·) a b

def negated : Number → Number
  | .integer a => .integer (-a)
  | .float a => .float (-a)

def magnitude : Number → Number
  | .integer a => .integer a.natAbs
  | .float a => .float a.abs

/-- Refuses an integer result out of range. -/
def checked (operation : Operation) : Number → Except Fault Number
  | .integer value =>
      if inIntegerRange value then .ok (.integer value)
      else .error (.overflow operation.name value)
  | .float value => .ok (.float value)

/-- Division cut off toward zero: that of the absolute values, with the sign that is due. -/
def truncatedDiv (a b : Int) : Int :=
  let quotient : Int := Int.ofNat (a.natAbs / b.natAbs)
  if 0 ≤ a ↔ 0 ≤ b then quotient else -quotient

theorem truncatedDiv_eq_tdiv (a b : Int) : truncatedDiv a b = a.tdiv b := by
  have positive (n : Nat) : 0 ≤ Int.ofNat n := Int.natCast_nonneg n
  have negative (n : Nat) : ¬ 0 ≤ Int.negSucc n := Int.not_le.mpr (Int.negSucc_lt_zero n)
  cases a <;> cases b <;> simp only [truncatedDiv, positive, negative, iff_self, if_true, iff_false,
    false_iff, not_true, if_false] <;> rfl

theorem sub_truncatedDiv_eq_tmod (a b : Int) : a - b * truncatedDiv a b = a.tmod b := by
  rw [truncatedDiv_eq_tdiv, Int.tmod_def]

/-- Integers divide exactly, cut off toward zero; with a float, as doubles. -/
def dividedBy (operation : Operation) (a b : Number) : Except Fault Number :=
  if b.isZero then .error (.divisionByZero operation.name)
  else match a, b with
    | .integer a, .integer b => checked operation (.integer (truncatedDiv a b))
    | a, b => onFloats (· / ·) a b

def quotient (a b : Int) : Except Fault Number :=
  dividedBy .quotient (.integer a) (.integer b)

/-- What remains of a division that is cut off toward zero: it has the sign of the
dividend. -/
def remainder (a b : Int) : Except Fault Number :=
  if b = 0 then .error (.divisionByZero Operation.remainder.name)
  else .ok (.integer (a - b * truncatedDiv a b))

/-- What remains of a division that is rounded down: it has the sign of the divisor. -/
def modulo (a b : Int) : Except Fault Number :=
  if b = 0 then .error (.divisionByZero Operation.modulo.name)
  else .ok (.integer (a.fmod b))

/-- The sum: exact and unbounded up to the first float, and only the end result
is held against the range. -/
def sum (numbers : List Number) : Except Fault Number := do
  let result ← numbers.foldlM plus (.integer 0)
  checked .add result

/-- The product, with every step held against the range. -/
def product (numbers : List Number) : Except Fault Number :=
  let step (result number : Number) : Except Fault Number := do
    let next ← result.times number
    checked .multiply next
  numbers.foldlM step (.integer 1)

/-- The first number less all others, with every step held against the range; a
single number is negated. -/
def difference (first : Number) : List Number → Except Fault Number
  | [] => checked .subtract first.negated
  | rest =>
      let step (result number : Number) : Except Fault Number := do
        let next ← result.minus number
        checked .subtract next
      rest.foldlM step first

/-- The first number divided by all others in turn; a single number divides one. -/
def ratio (first : Number) : List Number → Except Fault Number
  | [] => dividedBy .divide (.integer 1) first
  | rest => rest.foldlM (dividedBy .divide) first

/-- The best number, where only one that strictly precedes the best so far in the
given order takes its place. -/
def extreme (before : Ordering) (first : Number) (rest : List Number) : Number :=
  rest.foldl
    (fun best number => if number.compare? best = some before then number else best) first

end Number

namespace Comparison

/-- Which orders of two numbers a relation admits. -/
def admits : Comparison → Ordering → Bool
  | .equal, order => order == .eq
  | .less, order => order == .lt
  | .lessOrEqual, order => order != .gt
  | .greater, order => order == .gt
  | .greaterOrEqual, order => order != .lt

/-- Does the relation hold of two numbers? With a NaN it never does. -/
def holds (relation : Comparison) (a b : Number) : Bool :=
  (a.compare? b).any relation.admits

/-- Does the relation hold of all neighbours in a list? -/
def chain (relation : Comparison) : List Number → Bool
  | a :: b :: rest => relation.holds a b && relation.chain (b :: rest)
  | _ => true

end Comparison

end LispCore
