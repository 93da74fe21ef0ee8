/-
The hex dump of a memory: rows of 32 bytes, each behind the address of its first
byte.  The first row is the one that holds the start address; the last row ends
where the range ends.
-/
import Chip8.Position
import Chip8.Text.Hex

namespace Chip8.HexDump

/-- A row of the dump. -/
structure Row where
  address : Int
  bytes : List UInt8
deriving Repr, DecidableEq

/-- The address of the row that holds an address. -/
def rowStart (address : Int) : Int :=
  address - address % 32

/-- The bytes from a row start up to the next row or to the end of the range. -/
def rowAt (memory : Array UInt8) (stop address : Int) : Row where
  address := address
  bytes := (Position.between memory address (min (address + 32) stop)).toList

/-- The rows from the one that holds `start` up to the address `stop`. -/
def rows (memory : Array UInt8) (start stop : Int) : List Row :=
  let first := rowStart start
  let count := ((stop - first + 31) / 32).toNat
  (List.range count).map fun (number : Nat) => rowAt memory stop (first + 32 * number)

def Row.text (row : Row) : String :=
  Hex.padded 3 row.address ++ ": " ++ " ".intercalate (row.bytes.map Hex.byte)

/-- The dump of a range, which ends with the memory when no end is given. -/
def text (memory : Array UInt8) (start : Int) (stop : Option Int) : String :=
  "\n".intercalate ((rows memory start (stop.getD memory.size)).map Row.text)

example : text #[1, 255] 0 none = "000: 01 FF" := by decide

end Chip8.HexDump
