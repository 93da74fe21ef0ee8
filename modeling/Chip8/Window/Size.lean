/-
The size of a window.  Its sides are signed 32-bit words, into which greater numbers are
wrapped.  A window without any width and height takes the size of the desktop, and no
side has more than 16384 pixels.
-/
import Chip8.Defect
import Chip8.Machine
import Chip8.Screen

namespace Chip8.Window

/-- The pixels from left to right and from top to bottom. -/
structure Size where
  width : Nat
  height : Nat
deriving Repr, DecidableEq

namespace Size

def desktop : Size := { width := 1024, height := 768 }

/-- The greatest number of pixels of a side. -/
def sideLimit : Nat := 16384

/-- The word for a number of pixels. -/
def side (pixels : Int) : Int :=
  pixels.bmod 0x100000000

/-- The size of the window when a width and a height are asked for. -/
def ofSides (width height : Int) : Except Defect Size :=
  if 0x8000000000000000 ≤ width ∨ 0x8000000000000000 ≤ height then .error .noSides
  else if side width < 0 ∨ side height < 0 then .error .negativeSide
  else if side width = 0 ∧ side height = 0 then .ok desktop
  else if sideLimit < side width ∨ sideLimit < side height then .error .windowTooLarge
  else .ok { width := (side width).toNat, height := (side height).toNat }

/-- The number of white pixels while a machine is shown: each lit cell is a block of
pixels. -/
def whitePixels (size : Size) (machine : Machine) : Nat :=
  Screen.litCells machine.display *
    (size.width / Display.width * (size.height / Display.height))

/-- The number of black pixels while a machine is shown. -/
def blackPixels (size : Size) (machine : Machine) : Nat :=
  size.width * size.height - size.whitePixels machine

end Size

end Chip8.Window
