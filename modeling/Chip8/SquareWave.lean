/-
The beep: a square wave.  The samples count half periods, in 64-bit words and with
a quotient that is rounded to binary64; a sample is high in every second one.
-/
import Chip8.Binary64
import Chip8.Defect

namespace Chip8.SquareWave

/-- The samples in a second of the beep. -/
def standardRate : Int := 44100

/-- The seconds that the beep lasts. -/
def standardDuration : Float := 0.1

/-- The whole part of a number of samples, zero when it is negative. -/
def wholeCount (exact : Float) : Except Defect Nat :=
  if Binary64.isInfinite exact then .error .endless
  else if Binary64.isUndefined exact then .error .undefined
  else if 0x8000000000000000 < (Binary64.floor exact).natAbs then .error .tooManySamples
  else .ok (Binary64.floor exact).toNat

/-- The number of samples in a duration. -/
def sampleCount (rate : Int) (duration : Float) : Except Defect Nat :=
  if Binary64.overflows rate then .error .beyondBinary64
  else wholeCount (Float.ofInt rate * duration)

/-- The number of half periods that are over at a sample. -/
def halfPeriods (tone rate : Int) (sample : Nat) : Int :=
  Binary64.floor
    (Float.ofInt ((sample * tone * 2 : Int).bmod 0x10000000000000000) / Float.ofInt rate)

def sampleAt (tone rate : Int) (sample : Nat) : Int :=
  if halfPeriods tone rate sample % 2 = 0 then -32767 else 32767

/-- Refuse a number of samples for which there is no room. -/
def requireRoom (count : Nat) : Except Defect Unit :=
  if ByteSize.unaddressable ≤ 8 * count then .error .unaddressable
  else if ByteSize.granted < 8 * count then .error (.notGranted count)
  else .ok ()

/-- All samples of a tone, which has to fit a signed 64-bit word.  A number of samples
that is the first one beyond such a word turns negative in it, which leaves no sample;
the tone is then a binary64 number. -/
def samples (tone rate : Int) (duration : Float) : Except Defect (List Int) := do
  let count ← sampleCount rate duration
  if count = 0x8000000000000000 then
    if Binary64.overflows tone then throw .beyondBinary64 else return []
  requireRoom count
  if tone < -0x8000000000000000 ∨ 0x8000000000000000 ≤ tone then throw .beyondWord
  return (List.range count).map (sampleAt tone rate)

/-- The samples of the beep. -/
def beep (tone : Int) : Except Defect (List Int) :=
  samples tone standardRate standardDuration

end Chip8.SquareWave
