import LispCore.Fault
import LispCore.Text.Digit

namespace LispCore

namespace Setting

/-- The values of digits that may be parted by single underscores. -/
def digitsOf? : List Char → Option (List Nat)
  | [] => none
  | [char] => (digitValue? char).map ([·])
  | char :: '_' :: rest => do
      let digit ← digitValue? char
      let digits ← digitsOf? rest
      pure (digit :: digits)
  | char :: rest => do
      let digit ← digitValue? char
      let digits ← digitsOf? rest
      pure (digit :: digits)

def numberOf (digits : List Nat) : Nat :=
  digits.foldl (fun number digit => 10 * number + digit) 0

def natural? (text : List Char) : Option Nat := do
  let digits ← digitsOf? text
  if digits.length ≤ mostDigits then pure (numberOf digits) else none

def trimBlanks (text : List Char) : List Char :=
  ((text.dropWhile isBlank).reverse.dropWhile isBlank).reverse

def whole? (text : List Char) : Option Int :=
  match trimBlanks text with
  | '-' :: rest => (natural? rest).map fun number => -(number : Int)
  | '+' :: rest => (natural? rest).map Int.ofNat
  | rest => (natural? rest).map Int.ofNat

/-- The number that a setting gives: a positive one, in the text that is there. -/
def positive? (text : Option String) : Option Int := do
  let number ← whole? (← text).toList
  if 0 < number then pure number else none

/-- The limit on nesting that an interpreter asks for by default. -/
def defaultLimit : Int := 20000

def limit (text : Option String) : Int :=
  (positive? text).getD defaultLimit

/-- The text that a host sets, if it sets any: nil stands for none. -/
def ofObject : Object → Except Fault (Option String)
  | .nil => .ok none
  | .string text =>
      if text.contains '\x00' then .error (.host .endedText) else .ok (some text)
  | object => .error (.host (.noText object))

end Setting

end LispCore
