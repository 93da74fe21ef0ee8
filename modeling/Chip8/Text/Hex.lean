/-
Hexadecimal text.  A number is written with its sign first, then zeros up to the
wanted width, then its digits; a number that needs more room is written in full.
-/

namespace Chip8.Hex

/-- The capital digits of a natural number, most significant first. -/
def digits (number : Nat) : List Char :=
  (Nat.toDigits 16 number).map Char.toUpper

/-- The minus sign of a negative number. -/
def sign (number : Int) : List Char :=
  if number < 0 then ['-'] else []

/-- Fill with zeros between a head and a body, up to a total width. -/
def zeroFilled (width : Nat) (head body : List Char) : List Char :=
  head ++ List.replicate (width - (head.length + body.length)) '0' ++ body

/-- Capital digits after the sign, filled with zeros to `width` characters. -/
def padded (width : Nat) (number : Int) : String :=
  String.ofList (zeroFilled width (sign number) (digits number.natAbs))

/-- Small digits after the sign and the mark `0x`, filled with zeros to `width`
characters. -/
def marked (width : Nat) (number : Int) : String :=
  String.ofList
    (zeroFilled width (sign number ++ ['0', 'x']) (Nat.toDigits 16 number.natAbs))

/-- The two digits of a byte. -/
def byte (value : UInt8) : String :=
  padded 2 value.toNat

example : padded 3 (-2) = "-02" := by decide
example : padded 3 4096 = "1000" := by decide
example : marked 5 (-1) = "-0x01" := by decide
example : byte 10 = "0A" := by decide

end Chip8.Hex
