/-
The display: 32 rows of 64 cells, row by row.  A sprite is a list of rows of
eight pixels.  Drawing turns over one cell for each set pixel, with columns and
rows wrapped around the screen, and tells whether a lit cell was turned off.
-/
import Chip8.Fault

namespace Chip8

/-- The cell and the byte of a number that is to be put somewhere.  The position has to
fit a signed 64-bit word, the number has to be a byte, and the cell has to exist; the
first of these that fails is the reason for a refusal. -/
def byteCell (size : Nat) (position value : Int) : Except Error (Fin size × UInt8) :=
  match Position.resolve size position with
  | .error .oversized => .error (.position .display .oversized)
  | .ok place =>
      if 0 ≤ value ∧ value < 256 then .ok (place, UInt8.ofInt value)
      else .error .notAByte
  | .error .outside =>
      if 0 ≤ value ∧ value < 256 then .error (.position .display .outside)
      else .error .notAByte

/-- Put a number into a cell that holds a byte. -/
def setByte {size : Nat} (cells : Vector UInt8 size) (position value : Int) :
    Except Error (Vector UInt8 size) :=
  (byteCell size position value).map fun (place, byte) => cells.set place byte

/-- The cells of the screen, row by row; a lit cell holds one. -/
abbrev Display := Vector UInt8 2048

namespace Display

def width : Nat := 64

def height : Nat := 32

def blank : Display :=
  Vector.replicate 2048 0

/-- The cell at a column and a row, both wrapped around the screen. -/
def cell (column row : Int) : Fin 2048 :=
  ⟨(row % 32).toNat * 64 + (column % 64).toNat, by omega⟩

/-- The columns of the set pixels of a sprite row, leftmost first. -/
def litColumns (pixels : UInt8) : List Nat :=
  (List.range 8).filter fun column => pixels.toNat.testBit (7 - column)

/-- The cells that a sprite turns over, one entry for each set pixel. -/
def spriteCells (column row : Int) (sprite : List UInt8) : List (Fin 2048) :=
  sprite.zipIdx.flatMap fun (pixels, down) =>
    (litColumns pixels).map fun (right : Nat) => cell (column + right) (row + down)

/-- Turn one cell over, and note when it was lit. -/
def turnOver : Display × Bool → Fin 2048 → Display × Bool
  | (display, collision), place =>
      let before := display[place]
      (display.set place (before ^^^ 1), collision || before == 1)

/-- Turn cells over one after the other; the flag tells whether one was lit. -/
def draw (display : Display) (cells : List (Fin 2048)) : Display × Bool :=
  cells.foldl turnOver (display, false)

theorem cell_congr {column column' row row' : Int}
    (columns : column % 64 = column' % 64) (rows : row % 32 = row' % 32) :
    cell column row = cell column' row' := by
  simp only [cell, columns, rows]

end Display

end Chip8
