/-!
The exact value of a double, and the order of exact values.

A finite double is a whole number times a power of two. Taking it for the
rational number that it is makes comparison with integers exact, and makes the
order of numbers that of the extended number line, on which a NaN has no place.
-/

namespace LispCore

structure DoubleFields where
  negative : Bool
  exponent : Nat
  fraction : Nat
deriving DecidableEq

namespace DoubleFields

def ofFloat (value : Float) : DoubleFields :=
  let bits := value.toBits.toNat
  ⟨bits / Nat.pow 2 63 % 2 = 1, bits / Nat.pow 2 52 % 2048, bits % Nat.pow 2 52⟩

/-- Infinities and NaNs have the largest exponent field. -/
def isFinite (fields : DoubleFields) : Bool :=
  fields.exponent != 2047

def isNaN (fields : DoubleFields) : Bool :=
  fields.exponent == 2047 && fields.fraction != 0

/-- A finite double is its significand, with sign, times two to its power. -/
def significand (fields : DoubleFields) : Nat :=
  if fields.exponent = 0 then fields.fraction else fields.fraction + Nat.pow 2 52

def power (fields : DoubleFields) : Int :=
  if fields.exponent = 0 then -1074 else fields.exponent - 1075

def rational (fields : DoubleFields) : Rat :=
  let signed : Int := if fields.negative then -fields.significand else fields.significand
  match fields.power with
  | .ofNat power => (signed * Nat.pow 2 power : Int)
  | .negSucc power => mkRat signed (Nat.pow 2 (power + 1))

end DoubleFields

/-- A point of the extended number line, or no point of it. -/
inductive Exact
  | negativeInfinity
  | finite (value : Rat)
  | infinity
  | nan
deriving DecidableEq

namespace Exact

def ofFloat (value : Float) : Exact :=
  let fields := DoubleFields.ofFloat value
  if fields.isFinite then .finite fields.rational
  else if fields.isNaN then .nan
  else if fields.negative then .negativeInfinity
  else .infinity

/-- The order along the line. A NaN is in no order, not even with itself. -/
def compare? : Exact → Exact → Option Ordering
  | .nan, _ | _, .nan => none
  | .finite a, .finite b => some (if a < b then .lt else if a = b then .eq else .gt)
  | .negativeInfinity, .negativeInfinity | .infinity, .infinity => some .eq
  | .negativeInfinity, _ | _, .infinity => some .lt
  | .infinity, _ | _, .negativeInfinity => some .gt

end Exact

end LispCore
