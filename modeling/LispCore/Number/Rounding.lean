namespace LispCore

/-- Two to a power, or infinity if no double reaches it. -/
def powerOfTwo (power : Nat) : Float :=
  Float.ofBits ((min power 1024 + 1023) * Nat.pow 2 52).toUInt64

/-- The double nearest to a natural number, of two nearest ones the even one, and
infinity beyond the largest double. All but the leading 64 binary digits are
dropped first, with a one in place of the last digit kept if any dropped digit
was a one: a double keeps 53 digits, so this cannot change which one is nearest. -/
def nearestFloatOfNat (value : Nat) : Float :=
  let dropped := value.log2 - 63
  let kept := value / Nat.pow 2 dropped
  let marked := if kept * Nat.pow 2 dropped = value then kept else kept ||| 1
  marked.toUInt64.toFloat * powerOfTwo dropped

/-- The least natural number that is too large for a double: it lies half-way
between the largest double and the next power of two. -/
def doubleBound : Nat :=
  Nat.pow 2 1024 - Nat.pow 2 970

def nearestFloat : Int → Float
  | .ofNat value => nearestFloatOfNat value
  | .negSucc value => -nearestFloatOfNat (value + 1)

end LispCore
