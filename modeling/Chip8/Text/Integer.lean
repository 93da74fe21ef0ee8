/-
Integers in text.  A number is read with blanks around it, one sign in front of
it, decimal digits of any script, and single underscores between its digits.  A number
with more than 4300 digits is refused, whatever their values.
-/
import Chip8.Text.Blank
import Chip8.Text.DecimalDigit

namespace Chip8.Integer

open Text

/-- The digits after a first one, each perhaps behind an underscore. -/
def moreDigits (value : Nat) : List Char → Option Nat
  | [] => some value
  | '_' :: char :: rest =>
      match digitValue? char with
      | some digit => moreDigits (value * 10 + digit) rest
      | none => none
  | char :: rest =>
      match digitValue? char with
      | some digit => moreDigits (value * 10 + digit) rest
      | none => none

/-- A natural number: at least one digit. -/
def natural? : List Char → Option Nat
  | [] => none
  | char :: rest =>
      match digitValue? char with
      | some digit => moreDigits digit rest
      | none => none

/-- A natural number behind at most one sign. -/
def signed? : List Char → Option Int
  | '-' :: rest => (natural? rest).map fun value => -(value : Int)
  | '+' :: rest => (natural? rest).map Int.ofNat
  | chars => (natural? chars).map Int.ofNat

/-- The greatest number of digits that is read. -/
def digitLimit : Nat := 4300

/-- Read an integer from a whole text. -/
def ofChars? (chars : List Char) : Option Int :=
  if digitLimit < chars.countP isDigit then none else signed? (trimBlanks chars)

def ofString? (text : String) : Option Int :=
  ofChars? text.toList

example : ofString? " -1_000 " = some (-1000) := by decide
example : ofString? "1__0" = none := by decide
example : ofString? "+ 1" = none := by decide

end Chip8.Integer
