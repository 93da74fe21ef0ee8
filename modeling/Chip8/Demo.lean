/-
The built-in program.  It fills the screen with random diagonal strokes, tile by
tile, and then stays on one jump for ever.
-/

namespace Chip8.Demo

/-- The maze: nineteen words and sprite rows, 38 bytes in all. -/
def maze : List UInt8 :=
  [0x60, 0x00,  -- V0 is the column
   0x61, 0x00,  -- V1 is the row
   0xA2, 0x22,  -- take the stroke that falls to the left
   0xC2, 0x01,  -- and toss a coin
   0x32, 0x01,
   0xA2, 0x1E,  -- for the other one
   0xD0, 0x14,  -- draw it
   0x70, 0x04,  -- next column
   0x30, 0x40,
   0x12, 0x04,
   0x60, 0x00,  -- next row
   0x71, 0x04,
   0x31, 0x20,
   0x12, 0x04,
   0x12, 0x1C,  -- stay here
   0x80, 0x40, 0x20, 0x10,
   0x20, 0x40, 0x80, 0x10]

example : maze.length = 38 := rfl

end Chip8.Demo
