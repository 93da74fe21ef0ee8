/-
The settings of a run, with the values they have when nothing is said.  A setting that
a command line can leave blank has no value then.
-/
import Chip8.Defect

namespace Chip8

/-- What a host can choose for a run.  The built-in program is run when no other is named, the
scale is the size of a pixel in the window, and the steps are those of a headless run. -/
structure Settings where
  romPath : Option String := none
  scale : Option Int := some 15
  clockHz : Option Int := some 700
  timerHz : Int := 60
  toneHz : Option Int := some 440
  /-- Whether block transfers leave the index register behind the block. -/
  legacyStore : Bool := false
  headless : Bool := false
  steps : Option Int := some 1000
  dumpMemory : Bool := false
  logLevel : Option String := some "WARNING"
deriving Repr, DecidableEq

/-- The value of a setting, which must not be blank. -/
def Setting.require {α : Type} (setting : Setting) : Option α → Except Defect α
  | some value => .ok value
  | none => .error (.blank setting)

namespace Settings

/-- The instructions between two timer ticks, at least one.  There is no such
number without a timer rate. -/
def cyclesPerFrame (settings : Settings) : Except Defect Nat :=
  match settings.clockHz with
  | none => .error (.blank .clock)
  | some clockHz =>
      if settings.timerHz = 0 then .error .noFrame
      else .ok (max 1 (clockHz.fdiv settings.timerHz)).toNat

example : ({} : Settings).cyclesPerFrame = .ok 11 := by rfl

end Settings

end Chip8
