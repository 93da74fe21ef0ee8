/-
Sizes of blocks of memory, counted in bytes.  There is a size that no block can have, a
smaller one that no block is granted, and a text for each size: three digits and the
greatest unit of which there is at least one, with ties rounded to even.
-/

namespace Chip8.ByteSize

/-- The first size that no block can have. -/
def unaddressable : Nat := 0x8000000000000000

/-- The greatest size that is granted. -/
def granted : Nat := 0x100000000

/-- The integer nearest to a quotient, the even one of two that are equally near. -/
def nearest (number divisor : Nat) : Nat :=
  let whole := number / divisor
  let twice := 2 * (number % divisor)
  if twice < divisor ∨ twice = divisor ∧ whole % 2 = 0 then whole else whole + 1

/-- Each unit is 1024 times the one before it. -/
def units : Vector String 7 :=
  #v["bytes", "KiB", "MiB", "GiB", "TiB", "PiB", "EiB"]

/-- The place of the unit for a size.  A size that is rounded to 1024 of a unit takes
the next unit, as long as there is one. -/
def unit (bytes : Nat) : Fin 7 :=
  let place := max bytes.log2 1 / 10
  let chosen := if nearest bytes (Nat.pow 1024 place) = 1024 then place + 1 else place
  ⟨min chosen 6, by omega⟩

/-- A number of units with three digits, of which the last ones stand behind the point;
all digits before the point are written when there are more. -/
def amount (bytes unitBytes : Nat) : String :=
  let hundredths := nearest (bytes * 100) unitBytes
  let tenths := nearest (bytes * 10) unitBytes
  if hundredths < 1000 then
    (hundredths / 100).repr ++ "." ++ (hundredths / 10 % 10).repr ++ (hundredths % 10).repr
  else if tenths < 1000 then (tenths / 10).repr ++ "." ++ (tenths % 10).repr
  else (nearest bytes unitBytes).repr ++ "."

/-- A size as text; single bytes are counted without a point. -/
def text (bytes : Nat) : String :=
  let place := unit bytes
  let number := if place = 0 then bytes.repr else amount bytes (Nat.pow 1024 place.val)
  number ++ " " ++ units[place]

example : nearest 5 2 = 2 ∧ nearest 7 2 = 4 := by decide
example : text 1023 = "1023 bytes" := by decide +kernel
example : text 1048575 = "1.00 MiB" := by decide +kernel
example : text (2 ^ 63 - 8192) = "8.00 EiB" := by decide +kernel
example : text 352800000000000 = "321. TiB" := by decide +kernel

end Chip8.ByteSize
