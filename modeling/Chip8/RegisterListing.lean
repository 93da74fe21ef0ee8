/-
The register listing: four rows of four registers, a row for the timers, the
index register, the program counter and the stack depth, and a row for the
return addresses when the depth is not zero.
-/
import Chip8.Snapshot

namespace Chip8.RegisterListing

/-- The cell of one general register. -/
def cell (registers : Array UInt8) (number : Nat) : Except Error String := do
  let value ← Snapshot.byteAt registers number
  return "V" ++ Hex.padded 1 number ++ ": " ++ Hex.byte value

/-- The row of the four registers from number `4 * row` on. -/
def row (registers : Array UInt8) (row : Fin 4) : Except Error String := do
  let cells ← (List.finRange 4).mapM fun column => cell registers (row.val * 4 + column.val)
  return "  ".intercalate cells

/-- The row of the timers and of the registers that hold addresses. -/
def statusRow (snapshot : Snapshot) (delay sound : UInt8) : String :=
  "DT: " ++ Hex.byte delay ++ "  ST: " ++ Hex.byte sound ++
    "  I: " ++ Hex.padded 4 snapshot.index ++ "  PC: " ++ Hex.padded 3 snapshot.pc ++
    "  SP: " ++ Hex.padded 1 snapshot.depth

/-- The row of the return addresses, oldest first. -/
def stackRow (frames : List Int) : String :=
  "Stack: " ++ " ".intercalate (frames.map (Hex.padded 3))

/-- The rows of the listing. -/
def rows (snapshot : Snapshot) : Except Error (List String) := do
  let general ← (List.finRange 4).mapM (row snapshot.registers)
  let delay ← Snapshot.byteAt snapshot.registers 16
  let sound ← Snapshot.byteAt snapshot.registers 17
  let stack := if snapshot.depth = 0 then [] else [stackRow snapshot.frames]
  return general ++ statusRow snapshot delay sound :: stack

/-- The listing as text, one row on a line. -/
def text (snapshot : Snapshot) : Except Error String :=
  (rows snapshot).map "\n".intercalate

end Chip8.RegisterListing
