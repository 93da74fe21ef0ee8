/-
What can be wrong with settings.  A setting may have been left blank, a number may be out
of reach of the arithmetic that needs it, and there may be no room for the samples or for
the window that it asks for.  A setting is tested only where it is used, so a run that does
not need it goes through.
-/
import Chip8.ByteSize

namespace Chip8

inductive Setting
  | scale
  | clock
  | tone
  | steps
  | logLevel
deriving Repr, DecidableEq

/-- Why a setting or a number cannot be used.  Without a timer rate there is neither a number
of instructions in a frame nor a period; a duration may be infinite or no number at all; and
sides and samples have to fit machine words and memory. -/
inductive Defect
  | blank (setting : Setting)
  | noFrame
  | noPeriod
  | beyondBinary64
  | beyondWord
  | endless
  | undefined
  | tooManySamples
  | noSides
  | negativeSide
  | windowTooLarge
  | unaddressable
  | notGranted (samples : Nat)
deriving Repr, DecidableEq

/-- The text for a blank setting, where it is used. -/
def Setting.blankMessage : Setting → String
  | .scale =>
      "int() argument must be a string, a bytes-like object or a real number, not 'list'"
  | .clock => "unsupported operand type(s) for //: 'list' and 'int'"
  | .tone => "operands could not be broadcast together with shapes (4410,) (0,) "
  | .steps => "can only concatenate list (not \"int\") to list"
  | .logLevel => "Level not an integer or a valid string: []"

def Defect.message : Defect → String
  | .blank setting => setting.blankMessage
  | .noFrame => "integer division or modulo by zero"
  | .noPeriod => "float division by zero"
  | .beyondBinary64 => "int too large to convert to float"
  | .beyondWord => "Python int too large to convert to C long"
  | .endless => "cannot convert float infinity to integer"
  | .undefined => "cannot convert float NaN to integer"
  | .tooManySamples => "Maximum allowed size exceeded"
  | .noSides => "size must be two numbers"
  | .negativeSide => "Cannot set negative sized display mode"
  | .windowTooLarge => "Window is too large."
  | .unaddressable =>
      "array is too big; `arr.size * arr.dtype.itemsize` is larger than the maximum " ++
        "possible size."
  | .notGranted samples =>
      "Unable to allocate " ++ ByteSize.text (8 * samples) ++
        " for an array with shape (" ++ samples.repr ++ ",) and data type int64"

end Chip8
