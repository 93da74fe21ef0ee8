/-
A canvas is a row of blank cells into which bytes are put, and which is shown as a
picture of the screen in the end.  A canvas can have any size for which there is room,
but only one with the 2048 cells of the screen has a picture.
-/
import Chip8.ByteSize
import Chip8.Screen

namespace Chip8.Canvas

/-- Why there is no picture. -/
inductive Refusal
  /-- The size does not fit a signed 64-bit word. -/
  | oversized
  | negative
  /-- A block of memory of that size is not granted. -/
  | notGranted
  /-- A byte cannot be put into a cell. -/
  | cell (error : Error)
  /-- The canvas has another size than the screen. -/
  | shape (size : Nat)
deriving Repr, DecidableEq

def Refusal.message : Refusal → String
  | .oversized => "cannot fit 'int' into an index-sized integer"
  | .negative => "negative count"
  | .notGranted => ""
  | .cell error => error.message
  | .shape size => "cannot reshape array of size " ++ size.repr ++ " into shape (32,64)"

/-- The number of cells, one byte each. -/
def size? (wanted : Int) : Except Refusal Nat :=
  if wanted < -0x8000000000000000 ∨ 0x8000000000000000 ≤ wanted then .error .oversized
  else if wanted < 0 then .error .negative
  else if ByteSize.granted < wanted.toNat then .error .notGranted
  else .ok wanted.toNat

/-- The screen with bytes put into its cells, one after the other. -/
def fill (bytes : List (Int × Int)) : Except Error Display :=
  bytes.foldlM (fun display (position, value) => setByte display position value)
    Display.blank

/-- Test whether every byte has a cell on a canvas. -/
def check (size : Nat) (bytes : List (Int × Int)) : Except Error Unit :=
  bytes.forM fun (position, value) => discard (byteCell size position value)

/-- The picture of a canvas.  A byte without a cell is the reason for a refusal even when
there would be no picture anyway. -/
def picture? (wanted : Int) (bytes : List (Int × Int)) :
    Except Refusal Screen.Picture := do
  let size ← size? wanted
  if size = 2048 then return Screen.picture (← (fill bytes).mapError .cell)
  (check size bytes).mapError .cell
  throw (.shape size)

end Chip8.Canvas
