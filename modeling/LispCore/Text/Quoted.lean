import LispCore.Text.Unprintable

/-!
Texts in quotes.

`Readable` is the form a program would write: double quotes, and a backslash before
each character that needs one. `Shown` is the form of diagnostics: single quotes if
possible, and an escape for every character that cannot be seen.
-/

namespace LispCore

namespace Readable

/-- How a character is written inside double quotes. -/
def escape : Char → List Char
  | '"' => ['\\', '"']
  | '\\' => ['\\', '\\']
  | '\n' => ['\\', 'n']
  | '\t' => ['\\', 't']
  | '\r' => ['\\', 'r']
  | char => [char]

def encode (text : List Char) : List Char :=
  '"' :: text.flatMap escape ++ ['"']

end Readable

namespace Shown

def hexDigit (value : Nat) : Char :=
  if value < 10 then Char.ofNat (48 + value) else Char.ofNat (87 + value)

def hex : Nat → Nat → List Char
  | 0, _ => []
  | width + 1, value => hex width (value / 16) ++ [hexDigit (value % 16)]

/-- How a character is written inside the given quote. -/
def escape (quote : Char) (char : Char) : List Char :=
  if char = quote || char = '\\' then ['\\', char]
  else if char = '\n' then ['\\', 'n']
  else if char = '\r' then ['\\', 'r']
  else if char = '\t' then ['\\', 't']
  else if !isUnprintable char then [char]
  else if char.toNat < 0x100 then '\\' :: 'x' :: hex 2 char.toNat
  else if char.toNat < 0x10000 then '\\' :: 'u' :: hex 4 char.toNat
  else '\\' :: 'U' :: hex 8 char.toNat

/-- Double quotes are taken only if they save escaping single ones. -/
def quoteFor (text : List Char) : Char :=
  if text.contains '\'' && !text.contains '"' then '"' else '\''

def encode (text : List Char) : List Char :=
  let quote := quoteFor text
  quote :: text.flatMap (escape quote) ++ [quote]

end Shown

namespace Text

def readable (text : String) : String :=
  String.ofList (Readable.encode text.toList)

def shown (text : String) : String :=
  String.ofList (Shown.encode text.toList)

end Text

end LispCore
