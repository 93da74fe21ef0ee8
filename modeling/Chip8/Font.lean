/-
The sixteen hexadecimal digits as pictures: five rows of four pixels each, in
the high half of a byte.  They lie at the very start of the memory.
-/

namespace Chip8.Font

/-- The rows of the digits `0` to `F`, five bytes for each digit. -/
def glyphs : List UInt8 :=
  [0xF0, 0x90, 0x90, 0x90, 0xF0,
   0x20, 0x60, 0x20, 0x20, 0x70,
   0xF0, 0x10, 0xF0, 0x80, 0xF0,
   0xF0, 0x10, 0xF0, 0x10, 0xF0,
   0x90, 0x90, 0xF0, 0x10, 0x10,
   0xF0, 0x80, 0xF0, 0x10, 0xF0,
   0xF0, 0x80, 0xF0, 0x90, 0xF0,
   0xF0, 0x10, 0x20, 0x40, 0x40,
   0xF0, 0x90, 0xF0, 0x90, 0xF0,
   0xF0, 0x90, 0xF0, 0x10, 0xF0,
   0xF0, 0x90, 0xF0, 0x90, 0x90,
   0xE0, 0x90, 0xE0, 0x90, 0xE0,
   0xF0, 0x80, 0x80, 0x80, 0xF0,
   0xE0, 0x90, 0x90, 0x90, 0xE0,
   0xF0, 0x80, 0xF0, 0x80, 0xF0,
   0xF0, 0x80, 0xF0, 0x80, 0x80]

/-- The address of the glyph for the low four bits of a number. -/
def address (number : Int) : Int :=
  5 * (number % 16)

/-- Every glyph lies inside the table. -/
theorem address_bounds (number : Int) :
    0 ≤ address number ∧ address number + 5 ≤ glyphs.length := by
  simp only [address, glyphs, List.length_cons, List.length_nil]
  omega

end Chip8.Font
