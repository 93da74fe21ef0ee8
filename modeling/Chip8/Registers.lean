/-
The register file: `V0` to `VF` and the two timers.  A host names the registers
by number; the delay timer is number 16 and the sound timer number 17.
-/
import Chip8.Fault
import Chip8.Overwrite
import Chip8.Word

namespace Chip8

/-- The sixteen general registers and the two timers. -/
structure Registers where
  v : Vector UInt8 16 := Vector.replicate 16 0
  delay : UInt8 := 0
  sound : UInt8 := 0
deriving Repr, DecidableEq

/-- The register that receives carries, borrows and collisions. -/
def Register.flag : Register := 15

namespace Registers

/-- All eighteen bytes, in the order of their numbers. -/
def all (registers : Registers) : Vector UInt8 18 :=
  registers.v ++ #v[registers.delay, registers.sound]

theorem toNat_lt {number : Int} (inside : 0 ≤ number ∧ number < 16) :
    number.toNat < 16 := by
  omega

def setV (registers : Registers) (x : Register) (value : UInt8) : Registers :=
  { registers with v := registers.v.set x value }

/-- A general register gets a value, and after it the flag register a flag. -/
def setFlagged (registers : Registers) (x : Register) (value : UInt8) (flag : Bool) :
    Registers :=
  (registers.setV x value).setV Register.flag (if flag then 1 else 0)

/-- The registers `V0` up to `Vx`. -/
def firstV (registers : Registers) (x : Register) : List UInt8 :=
  registers.v.toList.take (x + 1)

/-- Put bytes into the registers from `V0` on. -/
def setFirstV (registers : Registers) (values : List UInt8) : Registers :=
  { registers with v := overwrite registers.v 0 values }

/-- The register of a number. -/
def read (registers : Registers) (number : Int) : Except Error UInt8 :=
  if inside : 0 ≤ number ∧ number < 18 then
    .ok registers.all[number.toNat]
  else .error (.noRegister number)

/-- Give the low eight bits of a value to the register of a number. -/
def write (registers : Registers) (number value : Int) : Reply Registers Unit :=
  if inside : 0 ≤ number ∧ number < 16 then
    ⟨registers.setV ⟨number.toNat, toNat_lt inside⟩ (UInt8.ofInt value), .ok ()⟩
  else if number = 16 then ⟨{ registers with delay := UInt8.ofInt value }, .ok ()⟩
  else if number = 17 then ⟨{ registers with sound := UInt8.ofInt value }, .ok ()⟩
  else ⟨registers, .error (.noRegister number)⟩

/-- Both timers count down by one, and stay at zero once they are there. -/
def tick (registers : Registers) : Registers :=
  { registers with
    delay := if registers.delay = 0 then 0 else registers.delay - 1
    sound := if registers.sound = 0 then 0 else registers.sound - 1 }

end Registers

end Chip8
