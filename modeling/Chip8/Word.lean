/-
Instruction words: sixteen bits, read high byte first, and the fields that
instructions are made of.
-/

namespace Chip8

/-- The number of one of the registers `V0` to `VF`. -/
abbrev Register := Fin 16

/-- Small numbers name registers. -/
instance Register.neZero : @NeZero Nat Zero.ofOfNat0 16 := ⟨by decide⟩

/-- A twelve-bit address, as instructions carry it. -/
abbrev Address := Fin 4096

/-- A sixteen-bit instruction word. -/
abbrev Word := UInt16

namespace Word

/-- The low sixteen bits of a number. -/
def ofInt (number : Int) : Word :=
  UInt16.ofNat (number % 65536).toNat

/-- Two bytes as they lie in memory. -/
def ofBytes (high low : UInt8) : Word :=
  UInt16.ofNat (high.toNat * 256 + low.toNat)

/-- The top four bits, which tell the families of instructions apart. -/
def family (word : Word) : Fin 16 :=
  ⟨word.toNat / 4096, by have := word.toNat_lt; omega⟩

/-- Bits 8 to 11. -/
def x (word : Word) : Register :=
  ⟨word.toNat / 256 % 16, Nat.mod_lt _ (by decide)⟩

/-- Bits 4 to 7. -/
def y (word : Word) : Register :=
  ⟨word.toNat / 16 % 16, Nat.mod_lt _ (by decide)⟩

/-- The low four bits. -/
def n (word : Word) : Fin 16 :=
  ⟨word.toNat % 16, Nat.mod_lt _ (by decide)⟩

/-- The low eight bits. -/
def kk (word : Word) : UInt8 :=
  UInt8.ofNat (word.toNat % 256)

/-- The low twelve bits. -/
def nnn (word : Word) : Address :=
  ⟨word.toNat % 4096, Nat.mod_lt _ (by decide)⟩

theorem toNat_ofInt (number : Int) :
    ((ofInt number).toNat : Int) = number % 65536 := by
  simp only [ofInt, UInt16.toNat_ofNat']
  omega

theorem toNat_ofBytes (high low : UInt8) :
    (ofBytes high low).toNat = high.toNat * 256 + low.toNat := by
  have highBound := high.toNat_lt
  have lowBound := low.toNat_lt
  simp only [ofBytes, UInt16.toNat_ofNat']
  omega

theorem toNat_kk (word : Word) : word.kk.toNat = word.toNat % 256 := by
  simp [kk]

end Word

end Chip8
