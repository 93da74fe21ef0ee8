/-
Views of the screen.  The text reads one cell after another and can be made of any bytes;
a picture needs exactly the cells of a screen.
-/
import Chip8.Snapshot

namespace Chip8.Screen

/-- The mark of the cell of a row and a column. -/
def cell (display : Array UInt8) (on off : String) (row : Fin 32) (column : Fin 64) :
    Except Error String := do
  let value ← Snapshot.byteAt display (row.val * 64 + column.val : Nat)
  return if value = 0 then off else on

/-- One line of text for a row of cells. -/
def row (display : Array UInt8) (on off : String) (row : Fin 32) : Except Error String := do
  let marks ← (List.finRange 64).mapM (cell display on off row)
  return String.join marks

/-- The screen as 32 lines of text. -/
def text (display : Array UInt8) (on off : String) : Except Error String := do
  let lines ← (List.finRange 32).mapM (row display on off)
  return "\n".intercalate lines

/-- Red, green and blue. -/
abbrev Colour := Vector UInt8 3

/-- The colours of the screen, column by column. -/
abbrev Picture := Vector (Vector Colour 32) 64

/-- The cells of the screen, cut into its rows. -/
def cells (display : Display) : Vector (Vector UInt8 64) 32 :=
  Vector.ofFn fun row =>
    (display.extract (row.val * 64) (row.val * 64 + 64)).cast (by omega)

/-- Rows and columns of a table exchanged. -/
def transpose {α : Type} {rows columns : Nat} (table : Vector (Vector α columns) rows) :
    Vector (Vector α rows) columns :=
  Vector.ofFn fun column => table.map fun row => row.get column

/-- A lit cell is white, any other one black. -/
def colour (value : UInt8) : Colour :=
  Vector.replicate 3 (if value = 0 then 0 else 255)

/-- The picture of a screen of exactly 2048 cells. -/
def picture (display : Display) : Picture :=
  (transpose (cells display)).map fun column => column.map colour

/-- The number of lit cells. -/
def litCells (display : Display) : Nat :=
  display.toList.countP (· != 0)

end Chip8.Screen
