/-
Requests to the memory and to the machine.  A request to the memory is either inside it,
and then served by exactly the bytes that it names, or it is refused with a cause that
repeats it.  A program is loaded whole, or nothing changes.
-/
import Chip8.Machine

namespace Chip8

namespace Memory

/-- The byte at an address, zero behind the end of the memory. -/
def peek (memory : Memory) (address : Nat) : UInt8 :=
  memory[address]?.getD 0

/-- The bytes from an address on, as many as asked for. -/
def block (memory : Memory) (address length : Nat) : List UInt8 :=
  (memory.toList.drop address).take length

theorem length_block (memory : Memory) {address length : Nat}
    (hinside : address + length ≤ 4096) : (memory.block address length).length = length := by
  simp only [block, List.length_take, List.length_drop, Vector.length_toList]
  omega

theorem getElem?_block (memory : Memory) (address : Nat) {length offset : Nat}
    (hoffset : offset < length) :
    (memory.block address length)[offset]?.getD 0 = memory.peek (address + offset) := by
  simp [block, hoffset, peek]

/-- The cause of a request that leaves the memory. -/
def refusal (address length : Int) : Option Cause :=
  if InRange address length then none else some (.memory address length)

theorem refusal_eq_none_iff (address length : Int) :
    refusal address length = none ↔ InRange address length := by
  simp [refusal]

theorem refusal_eq_some_iff (address length : Int) (cause : Cause) :
    refusal address length = some cause ↔
      ¬ InRange address length ∧ .memory address length = cause := by
  simp [refusal]

theorem read_of_refusal (memory : Memory) {address length : Int} {cause : Cause}
    (hrefused : refusal address length = some cause) :
    memory.read address length = .error cause := by
  obtain ⟨hrange, rfl⟩ := (refusal_eq_some_iff _ _ _).mp hrefused
  rw [read, if_neg hrange]

theorem read_of_served (memory : Memory) {address : Int} {length : Nat}
    (hserved : refusal address length = none) :
    memory.read address length = .ok (memory.block address.toNat length) :=
  memory.read_of_nonneg ((refusal_eq_none_iff _ _).mp hserved)
    (Int.natCast_nonneg length)

end Memory

namespace Machine

variable (machine : Machine) {address : Int} {bytes rom : List UInt8}

/-- The machine after a program was loaded. -/
def loaded (rom : List UInt8) : Machine :=
  { machine with
    memory := overwrite machine.memory Memory.programStart rom
    pc := Memory.programStart }

theorem load_of_fits (hfits : rom.length ≤ Memory.capacity) :
    machine.load rom = ⟨machine.loaded rom, .ok rom.length⟩ :=
  if_neg (Nat.not_lt.mpr hfits)

theorem load_of_large (hlarge : Memory.capacity < rom.length) :
    machine.load rom = ⟨machine, .error (.romTooLarge rom.length Memory.capacity)⟩ :=
  if_pos hlarge

theorem write_of_refusal {cause : Cause}
    (hrefused : Memory.refusal address bytes.length = some cause) :
    machine.write address bytes = ⟨machine, .error cause.error⟩ := by
  obtain ⟨hrange, rfl⟩ := (Memory.refusal_eq_some_iff _ _ _).mp hrefused
  rw [write, Memory.write, Memory.check, if_neg hrange]
  rfl

theorem write_of_served (hserved : Memory.refusal address bytes.length = none) :
    machine.write address bytes =
      ⟨{ machine with memory := overwrite machine.memory address.toNat bytes }, .ok ()⟩ := by
  have hrange := (Memory.refusal_eq_none_iff _ _).mp hserved
  rw [write, Memory.write, Memory.check, if_pos hrange]
  rfl

theorem draw_of_refusal (column row : Int) {height : Int} {cause : Cause}
    (hrefused : Memory.refusal machine.index height = some cause) :
    machine.draw column row height = ⟨machine, .error cause.error⟩ := by
  rw [draw, machine.memory.read_of_refusal hrefused]

/-- The machine after a sprite was drawn, and whether it hit a lit cell. -/
def drawn (column row : Int) (height : Nat) : Machine × Bool :=
  let result := machine.display.draw
    (Display.spriteCells column row (machine.memory.block machine.index.toNat height))
  ({ machine with
      display := result.1
      registers := machine.registers.setV Register.flag (if result.2 then 1 else 0) },
    result.2)

theorem draw_of_served (column row : Int) {height : Nat}
    (hserved : Memory.refusal machine.index height = none) :
    machine.draw column row height =
      ⟨(machine.drawn column row height).1, .ok (machine.drawn column row height).2⟩ := by
  rw [draw, machine.memory.read_of_served hserved]
  rfl

/-- The bytes at the program counter, high byte first. -/
def fetched : Word :=
  Word.ofBytes (machine.memory.peek machine.pc.toNat)
    (machine.memory.peek (machine.pc.toNat + 1))

theorem word_of_refusal {cause : Cause}
    (hrefused : Memory.refusal machine.pc 2 = some cause) :
    machine.memory.word machine.pc = .error cause := by
  obtain ⟨hrange, rfl⟩ := (Memory.refusal_eq_some_iff _ _ _).mp hrefused
  have houtside : ¬ (0 ≤ machine.pc ∧ machine.pc + 2 ≤ 4096) := hrange
  rw [Memory.word, dif_neg houtside]

theorem word_of_served (hserved : Memory.refusal machine.pc 2 = none) :
    machine.memory.word machine.pc = .ok machine.fetched := by
  have hrange := (Memory.refusal_eq_none_iff _ _).mp hserved
  obtain ⟨hlow, hhigh⟩ := hrange
  have hfirst : machine.pc.toNat < 4096 := by omega
  have hsecond : machine.pc.toNat + 1 < 4096 := by omega
  simp [Memory.word, hlow, hhigh, fetched, Memory.peek, hfirst, hsecond]

theorem fetched_of_word {word : Word} (hword : machine.memory.word machine.pc = .ok word) :
    Memory.refusal machine.pc 2 = none ∧ machine.fetched = word := by
  cases hfetch : Memory.refusal machine.pc 2 with
  | some cause =>
      rw [machine.word_of_refusal hfetch] at hword
      cases hword
  | none =>
      rw [machine.word_of_served hfetch] at hword
      exact ⟨rfl, Except.ok.inj hword⟩

end Machine

end Chip8
