import LispCore.Number.Exact

/-!
Decimal text of doubles: the fewest digits that read back.

`shortestDigits` finds, for a positive double, the shortest decimal among the reals
that round to that double, and of those the nearest to it. All arithmetic is on
natural numbers. `DecimalLayout` says how digits and exponent become text, and
`floatLayout` is the layout of the language.
-/

namespace LispCore

/-- A decimal: the digits as a whole number, times ten to a power. -/
structure Decimal where
  digits : Nat
  power : Int
deriving DecidableEq

namespace Decimal

/-- Moves zeros at the end of the digits into the power. -/
def trim : Nat → Decimal → Decimal
  | fuel + 1, ⟨digits, power⟩ =>
      if digits % 10 = 0 && digits != 0 then trim fuel ⟨digits / 10, power + 1⟩
      else ⟨digits, power⟩
  | 0, decimal => decimal

end Decimal

/-- The positive reals that round to a double, as multiples of two to `power`: the
double itself and both ends, which belong to it if `closed`. -/
structure RoundingRange where
  value : Nat
  low : Nat
  high : Nat
  closed : Bool
  power : Int
deriving DecidableEq

namespace RoundingRange

/-- The neighbour below a power of two is only half as far as the one above. -/
def ofFields (fields : DoubleFields) : RoundingRange :=
  let significand := fields.significand
  let narrow := fields.fraction = 0 && 1 < fields.exponent
  ⟨4 * significand, if narrow then 4 * significand - 1 else 4 * significand - 2,
    4 * significand + 2, significand % 2 = 0, fields.power - 2⟩

def scale (range : RoundingRange) : Nat × Nat :=
  match range.power with
  | .ofNat power => (Nat.pow 2 power, 1)
  | .negSucc power => (1, Nat.pow 2 (power + 1))

def tenTo : Int → Nat × Nat
  | .ofNat power => (Nat.pow 10 power, 1)
  | .negSucc power => (1, Nat.pow 10 (power + 1))

/-- The power of ten of the leading digit of the value, by way of its power of two. -/
def leadingPower (range : RoundingRange) : Int :=
  let binary : Int := range.value.log2 + range.power
  let guess := (binary * 30103) / 100000
  let (two, half) := range.scale
  let (ten, tenth) := tenTo (guess + 1)
  if ten * half ≤ range.value * two * tenth then guess + 1 else guess

/-- The nearest decimal of the range on the grid of multiples of ten to `power`, if
the range has one. A value half way between two takes the even one. -/
def onGrid? (range : RoundingRange) (power : Int) : Option Decimal :=
  let (two, half) := range.scale
  let (ten, tenth) := tenTo power
  -- all quantities below are multiples of one unit
  let unit := ten * half
  let value := range.value * two * tenth
  let low := range.low * two * tenth
  let high := range.high * two * tenth
  let inside (point : Nat) : Bool :=
    if range.closed then low ≤ point && point ≤ high else low < point && point < high
  let below := value / unit
  let above := below + 1
  let belowHits := inside (below * unit) && below != 0
  let aboveHits := inside (above * unit)
  let down := value - below * unit
  let up := above * unit - value
  if belowHits && aboveHits then
    if down < up || (down == up && below % 2 == 0) then some ⟨below, power⟩
    else some ⟨above, power⟩
  else if belowHits then some ⟨below, power⟩
  else if aboveHits then some ⟨above, power⟩
  else none

end RoundingRange

/-- The shortest decimal that reads back as the given positive double. Seventeen
digits are always enough. -/
def shortestDigits (fields : DoubleFields) : Decimal :=
  let range := RoundingRange.ofFields fields
  let leading := range.leadingPower
  let found := (List.range 17).findSome? fun (more : Nat) =>
    range.onGrid? (leading - (more : Int))
  Decimal.trim 20 (found.getD ⟨0, 0⟩)

structure DecimalLayout where
  /-- Powers of the leading digit that are written without an exponent. -/
  leastPositional : Int
  mostPositional : Int
  wholeEnding : String
  exponentMark : String
  plusSign : String
  exponentWidth : Nat
  infinity : String
  nan : String

/-- Up to sixteen places before the point and four after it are written out, whole
numbers end in a zero place, and exponents have a sign and at least two digits. -/
def floatLayout : DecimalLayout :=
  ⟨-4, 15, ".0", "e", "+", 2, "inf", "nan"⟩

namespace DecimalLayout

def zeros (count : Nat) : String :=
  String.ofList (List.replicate count '0')

/-- Digits with a point after the given number of places, and with zeros to reach it. -/
def positional (layout : DecimalLayout) (digits : String) (places : Int) : String :=
  let count := digits.length
  match places with
  | .ofNat places =>
      if count ≤ places then digits ++ zeros (places - count) ++ layout.wholeEnding
      else if places = 0 then "0." ++ digits
      else (digits.take places).toString ++ "." ++ (digits.drop places).toString
  | .negSucc missing => "0." ++ zeros (missing + 1) ++ digits

/-- One digit before the point, and the power of ten after the mark. -/
def scientific (layout : DecimalLayout) (digits : String) (power : Int) : String :=
  let fraction := if digits.length = 1 then "" else "." ++ (digits.drop 1).toString
  let sign := if power < 0 then "-" else layout.plusSign
  let exponent := Nat.repr power.natAbs
  (digits.take 1).toString ++ fraction ++ layout.exponentMark ++ sign ++
    zeros (layout.exponentWidth - exponent.length) ++ exponent

def decimal (layout : DecimalLayout) (decimal : Decimal) : String :=
  let digits := Nat.repr decimal.digits
  let leading := decimal.power + digits.length - 1
  if layout.leastPositional ≤ leading && leading ≤ layout.mostPositional then
    layout.positional digits (leading + 1)
  else layout.scientific digits leading

def float (layout : DecimalLayout) (value : Float) : String :=
  let fields := DoubleFields.ofFloat value
  let sign := if fields.negative then "-" else ""
  if fields.isNaN then layout.nan
  else if !fields.isFinite then sign ++ layout.infinity
  else if fields.significand = 0 then sign ++ "0" ++ layout.wholeEnding
  else sign ++ layout.decimal (shortestDigits fields)

end DecimalLayout

namespace Text

def float (value : Float) : String :=
  floatLayout.float value

def integer : Int → String
  | .ofNat value => Nat.repr value
  | .negSucc value => "-" ++ Nat.repr (value + 1)

end Text

end LispCore
