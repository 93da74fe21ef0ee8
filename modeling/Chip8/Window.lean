/-
The windowed host.  It takes one batch of events for each frame, executes the
instructions of the frame, lets the timers tick when their period is over, beeps
while the sound timer runs, and shows the screen.  What it asks of the outside
world is a list of calls; what the outside world answers is given beforehand.
-/
import Chip8.Binary64
import Chip8.Headless
import Chip8.Keyboard
import Chip8.SquareWave
import Chip8.Window.Size

namespace Chip8.Window

/-- What the loop asks of the outside world. -/
inductive Call
  | caption (text : String)
  | audioFormat (rate format channels buffer : Int)
  | openAudio
  | sound (samples : List Int)
  | volume
  | play
  | picture (colours : Screen.Picture)
  /-- Wait for the end of a frame. -/
  | tick (rate : Int)
  | quit
deriving Repr, DecidableEq

/-- The outside world of a run: the batches of events, after which the window is closed, the
readings of the clock in seconds, why there is no sound if there is none, and the request for
a random number at which the host interrupts the run.  The codes of the keys, the size of the
window that is opened for two sides, and the samples of a beep depend on the host's libraries,
and either of the last two can be refused. -/
structure World where
  batches : List (List Keyboard.Event) := []
  clock : Nat → Float
  audioError : Option String := none
  interruptAt : Option Nat := none
  layout : Keyboard.Layout := Keyboard.standard
  opened (width height : Int) : Except Defect Size := Size.ofSides width height
  beep (tone : Int) : Except Defect (List Int) := SquareWave.beep tone

/-- The size of the window, whose pixels have at least the scale one. -/
def World.windowSize (world : World) (settings : Settings) : Except Defect Size := do
  let scale := max 1 (← Setting.scale.require settings.scale)
  world.opened (Display.width * scale) (Display.height * scale)

example (clock : Nat → Float) :
    ({ clock } : World).windowSize {} = .ok { width := 960, height := 480 } := by rfl

/-- A frame: the calls up to its end, its picture among them, the size of the window, and the
state that the picture shows. -/
structure Frame where
  calls : List Call
  size : Size
  vm : Vm

/-- How a run ends. -/
inductive Ending
  | closed (faulted : Bool)
  | defective (defect : Defect)
  /-- An instruction was refused without a fault. -/
  | refused (error : Error)
  | interrupted
deriving Repr, DecidableEq

/-- A run: its frames, the calls after the last one, where and how it ended, and
what was logged. -/
structure Run where
  frames : Array Frame := #[]
  calls : List Call := []
  vm : Vm
  records : Array Log.Record := #[]
  ending : Ending

/-- Why the instructions of a frame end early. -/
inductive Halt
  | refused (error : Error)
  | defective (defect : Defect)
  | interrupted
deriving Repr, DecidableEq

/-- The instructions of a frame: the state after them, the reports, and why they
ended early. -/
structure Burst where
  vm : Vm
  reports : Array Report := #[]
  halt : Option Halt := none

def burst (setup : Setup) (interruptAt : Option Nat) :
    (left : Nat) → Vm → Array Report → Burst
  | 0, vm, reports => { vm, reports }
  | left + 1, vm, reports =>
      let outcome := vm.step setup
      let reports := reports ++ outcome.reports
      if outcome.vm.interrupted interruptAt then
        { vm := vm.fetched, reports, halt := some .interrupted }
      else
        match outcome.error with
        | some error => { vm := outcome.vm, reports, halt := some (.refused error) }
        | none => burst setup interruptAt left outcome.vm reports

/-- A stopped interpreter executes no more instructions, and nobody asks how many there
are in a frame. -/
def burstUnlessHalted (setup : Setup) (interruptAt : Option Nat)
    (cycles : Except Defect Nat) (vm : Vm) : Burst :=
  if vm.halted then { vm }
  else
    match cycles with
    | .error defect => { vm, halt := some (.defective defect) }
    | .ok cycles => burst setup interruptAt cycles vm #[]

def Burst.records (burst : Burst) : Array Log.Record :=
  burst.reports.map Report.record ++
    match burst.halt with
    | some (.refused (.fault fault)) => #[(Error.fault fault).record]
    | _ => #[]

/-- What the loop needs of the settings: among others the instructions of a frame, the
seconds between two timer ticks, and whether there is a beep. -/
structure Pace where
  size : Size
  cycles : Except Defect Nat
  timerHz : Int
  period : Float
  sounding : Bool

def periodOf (timerHz : Int) : Except Defect Float :=
  if timerHz = 0 then .error .noPeriod
  else if Binary64.overflows timerHz then .error .beyondBinary64
  else .ok (1.0 / Float.ofInt timerHz)

def Pace.frameCalls (pace : Pace) (vm : Vm) : List Call :=
  (if pace.sounding && vm.machine.registers.sound != 0 then [.play] else []) ++
    [.picture (Screen.picture vm.machine.display), .tick pace.timerHz]

/-- The loop state: the machine, the reading at the last timer tick, the number of
readings taken, whether a fault was met, and the calls that no frame holds yet. -/
structure Loop where
  vm : Vm
  lastTick : Float
  readings : Nat := 1
  faulted : Bool := false
  pending : List Call
  frames : Array Frame := #[]
  records : Array Log.Record := #[]

def Loop.finish (loop : Loop) (ending : Ending) : Run where
  frames := loop.frames
  calls := loop.pending ++ [.quit]
  vm := loop.vm
  records := loop.records
  ending := ending

def Loop.tickIfDue (loop : Loop) (pace : Pace) (now : Float) : Loop :=
  if pace.period ≤ now - loop.lastTick then
    { loop with vm := loop.vm.withMachine loop.vm.machine.tick, lastTick := now }
  else loop

def Loop.show (loop : Loop) (pace : Pace) : Loop :=
  let frame : Frame :=
    { calls := loop.pending ++ pace.frameCalls loop.vm, size := pace.size, vm := loop.vm }
  { loop with pending := [], frames := loop.frames.push frame }

/-- The rest of a frame, once its instructions have been executed. -/
def Loop.afterBurst (loop : Loop) (pace : Pace) (clock : Nat → Float) : Loop :=
  let ticked := loop.tickIfDue pace (clock loop.readings)
  { ticked with readings := ticked.readings + 1 }.show pace

/-- Take batch after batch. -/
def loopFrom (setup : Setup) (pace : Pace) (world : World) :
    List (List Keyboard.Event) → Loop → Run
  | [], loop => loop.finish (.closed loop.faulted)
  | batch :: rest, loop =>
      let (keypad, goesOn) := world.layout.handle loop.vm.keypad batch
      let vm := { loop.vm with keypad }
      if goesOn then
        let burst := burstUnlessHalted setup world.interruptAt pace.cycles vm
        let loop := { loop with
          vm := burst.vm, records := loop.records ++ burst.records }
        match burst.halt with
        | none => loopFrom setup pace world rest (loop.afterBurst pace world.clock)
        | some (.refused (.fault _)) =>
            loopFrom setup pace world rest
              ({ loop with faulted := true }.afterBurst pace world.clock)
        | some (.refused error) => loop.finish (.refused error)
        | some (.defective defect) => loop.finish (.defective defect)
        | some .interrupted => loop.finish .interrupted
      else { loop with vm }.finish (.closed loop.faulted)

def soundCalls (world : World) (settings : Settings) : Except Defect (List Call) := do
  let tone ← Setting.tone.require settings.toneHz
  return [.sound (← world.beep tone), .volume]

/-- The calls that open the window and its sound, and why they break off if they do.
No beep is made without sound. -/
def openingCalls (world : World) (settings : Settings) : List Call × Option Defect :=
  let silent : List Call :=
    [.caption "chip8vm", .audioFormat 44100 (-16) 1 256, .openAudio]
  match world.audioError, soundCalls world settings with
  | some _, _ => (silent, none)
  | none, .ok sound => (silent ++ sound, none)
  | none, .error defect => (silent, some defect)

def openingRecords (audioError : Option String) : Array Log.Record :=
  match audioError with
  | some reason => #[{ level := .warning, text := "Audio disabled: " ++ reason }]
  | none => #[]

/-- Run with a window of some size, and close it in the end.  A window without its sound
or without a timer period stays as it was opened. -/
def runSized (size : Size) (settings : Settings) (setup : Setup) (world : World)
    (vm : Vm) : Run :=
  let (pending, broken) := openingCalls world settings
  let records := openingRecords world.audioError
  match broken, periodOf settings.timerHz with
  | some defect, _ | none, .error defect =>
      { calls := pending, vm, records, ending := .defective defect }
  | none, .ok period =>
      let pace : Pace :=
        { size
          cycles := settings.cyclesPerFrame
          timerHz := settings.timerHz
          period
          sounding := world.audioError.isNone }
      loopFrom setup pace world world.batches
        { vm, lastTick := world.clock 0, pending, records }

/-- Open the window and run.  Nothing is asked of a window that has no size. -/
def run (settings : Settings) (setup : Setup) (world : World) (vm : Vm) : Run :=
  match world.windowSize settings with
  | .error defect => { vm, ending := .defective defect }
  | .ok size => runSized size settings setup world vm

end Chip8.Window
