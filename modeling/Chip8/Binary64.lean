/-
Whole parts of binary64 numbers, computed exactly from their bits, and what has no whole
part: infinities and values that are no number.  Integers can be too large for binary64.
-/

namespace Chip8.Binary64

/-- The eleven bits of the exponent. -/
def exponentBits (bits : Nat) : Nat :=
  bits / Nat.pow 2 52 % 2048

/-- The integer by which the power of two is multiplied. -/
def significand (bits : Nat) : Nat :=
  if exponentBits bits = 0 then bits % Nat.pow 2 52 else bits % Nat.pow 2 52 + Nat.pow 2 52

/-- The exponent of the power of two. -/
def exponent (bits : Nat) : Int :=
  (max (exponentBits bits) 1 : Nat) - 1075

/-- Whether a number is an infinity: the greatest exponent and no fraction. -/
def isInfinite (number : Float) : Bool :=
  let bits := number.toBits.toNat
  exponentBits bits == 2047 && bits % Nat.pow 2 52 == 0

/-- Whether a value is no number: the greatest exponent and some fraction. -/
def isUndefined (number : Float) : Bool :=
  let bits := number.toBits.toNat
  exponentBits bits == 2047 && bits % Nat.pow 2 52 != 0

/-- The greatest integer that is not above a number; zero for what is no finite
number. -/
def floor (number : Float) : Int :=
  let bits := number.toBits.toNat
  if exponentBits bits = 2047 then 0
  else
    let magnitude : Int := significand bits
    let signed := if bits / Nat.pow 2 63 = 0 then magnitude else -magnitude
    match exponent bits with
    | .ofNat power => signed * Nat.pow 2 power
    | .negSucc power => signed / Nat.pow 2 (power + 1)

/-- Whether an integer is nearer to the first power of two beyond the finite numbers
than to the greatest of them; the middle counts as beyond. -/
def overflows (number : Int) : Bool :=
  decide (Nat.pow 2 1024 - Nat.pow 2 970 ≤ number.natAbs)

example : floor 2.5 = 2 := by decide +kernel
example : floor (-2.5) = -3 := by decide +kernel
example : floor (-0.0) = 0 := by decide +kernel

end Chip8.Binary64
