/-
The memory: 4096 bytes that start with the digit glyphs, programs from 0x200 on.
A request is a signed address with a signed length.  It is refused when it
starts below zero or ends beyond the memory; otherwise it is served by the run
of bytes between its two ends.
-/
import Chip8.Fault
import Chip8.Font
import Chip8.Overwrite
import Chip8.Word

namespace Chip8

/-- The 4096 bytes that programs, their data and the glyphs share. -/
abbrev Memory := Vector UInt8 4096

namespace Memory

/-- The address at which programs are loaded and started. -/
def programStart : Nat := 0x200

/-- The number of bytes from the program start to the end of the memory. -/
def capacity : Nat := 3584

/-- The memory of a fresh machine: the glyphs and zeros. -/
def initial : Memory :=
  overwrite (Vector.replicate 4096 0) 0 Font.glyphs

/-- A request that neither starts below zero nor ends beyond the memory. -/
def InRange (address length : Int) : Prop :=
  0 ≤ address ∧ address + length ≤ 4096

instance (address length : Int) : Decidable (InRange address length) :=
  inferInstanceAs (Decidable (_ ∧ _))

/-- Refuse a request that leaves the memory. -/
def check (address length : Int) : Except Cause Unit :=
  if InRange address length then .ok () else .error (.memory address length)

/-- The bytes between the two ends of a request. -/
def read (memory : Memory) (address length : Int) : Except Cause (List UInt8) :=
  if InRange address length then
    .ok (Position.between memory.toArray address (address + length)).toList
  else .error (.memory address length)

/-- The byte at one address. -/
def byte (memory : Memory) (address : Int) : Except Cause UInt8 :=
  if inside : 0 ≤ address ∧ address + 1 ≤ 4096 then
    .ok memory[address.toNat]
  else .error (.memory address 1)

/-- The instruction word at an address, high byte first. -/
def word (memory : Memory) (address : Int) : Except Cause Word :=
  if inside : 0 ≤ address ∧ address + 2 ≤ 4096 then
    .ok (Word.ofBytes memory[address.toNat] memory[address.toNat + 1])
  else .error (.memory address 2)

/-- Put bytes from an address on, all of them or none. -/
def write (memory : Memory) (address : Int) (bytes : List UInt8) : Reply Memory Unit :=
  match check address bytes.length with
  | .ok () => ⟨overwrite memory address.toNat bytes, .ok ()⟩
  | .error cause => ⟨memory, .error cause.error⟩

/-- A request of non-negative length is served by exactly the bytes it names. -/
theorem read_of_nonneg (memory : Memory) {address length : Int}
    (range : InRange address length) (lengthNonneg : 0 ≤ length) :
    memory.read address length =
      .ok ((memory.toList.drop address.toNat).take length.toNat) := by
  obtain ⟨lower, upper⟩ := range
  have first : Position.bound 4096 address = address.toNat :=
    Position.bound_of_le lower (by omega)
  have last : Position.bound 4096 (address + length) = (address + length).toNat :=
    Position.bound_of_le (by omega) (by omega)
  have extent : (address + length).toNat - address.toNat = length.toNat := by omega
  simp only [read, InRange, lower, upper, and_self, if_true, Position.between,
    Vector.size_toArray, first, last, Array.toList_extract, List.extract_eq_take_drop,
    extent]
  rfl

theorem read_eq_error_iff (memory : Memory) (address length : Int) (cause : Cause) :
    memory.read address length = .error cause ↔
      ¬ InRange address length ∧ cause = .memory address length := by
  by_cases range : InRange address length <;> simp [read, range, eq_comm]

end Memory

end Chip8
