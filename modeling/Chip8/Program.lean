/-
The whole program.  A command line becomes settings and a loaded machine, or an
early end; then the headless run prints the state it has reached.  What is printed
and how the program ends is data; a host writes it out.
-/
import Chip8.CommandLine.Usage
import Chip8.Demo
import Chip8.Disassembly
import Chip8.Headless
import Chip8.HexDump
import Chip8.RegisterListing
import Chip8.Screen
import Chip8.Storage

namespace Chip8.Program

/-- What breaks a program off: a path that no file can have, a setting that is needed, an error
of the machine, or a host without windows. -/
inductive Crash
  | embeddedNul
  | unusable (defect : Defect)
  | machine (error : Error)
  | noWindow
deriving Repr, DecidableEq

/-- How a program ends.  A run that is over has a status, and the command line can end the
program before there is a run. -/
inductive Ending
  | status (code : Nat)
  | exit (code : Nat)
  | interrupted
  | ended
  | crashed (crash : Crash)
deriving Repr, DecidableEq

def Crash.message : Crash → String
  | .embeddedNul => ReadError.embeddedNul.message ""
  | .unusable defect => defect.message
  | .machine error => error.message
  | .noWindow => "no window"

/-- What a program has printed on both channels, and how it ended. -/
structure Transcript where
  ending : Ending
  out : String := ""
  err : String := ""
deriving Repr, DecidableEq

/-- A program that is ready to run: its settings, the least serious level that is
logged, the loaded machine, and what has been logged. -/
structure Ready where
  settings : Settings
  level : Log.Level
  vm : Vm
  err : String

def romOf (settings : Settings) (read : String → Except ReadError (List UInt8)) :
    Except Transcript (List UInt8) :=
  match settings.romPath with
  | none => .ok Demo.maze
  | some path =>
      match read path with
      | .ok rom => .ok rom
      | .error .embeddedNul =>
          .error { ending := .crashed .embeddedNul }
      | .error error =>
          .error { ending := .status 2
                   err := "Cannot read ROM: " ++ error.message path ++ "\n" }

/-- Load a program into a fresh virtual machine. -/
def boot (settings : Settings) (level : Log.Level) (rom : List UInt8) :
    Except Transcript Ready :=
  match Machine.fresh.load rom with
  | ⟨_, .error error⟩ => .error { ending := .status 2, err := error.message ++ "\n" }
  | ⟨machine, .ok size⟩ =>
      let loaded : Log.Record :=
        { level := .info, text := "ROM loaded (" ++ size.repr ++ " bytes)" }
      .ok { settings, level, vm := { machine }, err := Log.lines level [loaded] }

def levelOf (settings : Settings) : Except Transcript Log.Level :=
  match Setting.logLevel.require settings.logLevel with
  | .ok name => .ok (Log.Level.ofName name)
  | .error defect => .error { ending := .crashed (.unusable defect) }

/-- Read the command line and load the program it names. -/
def start (arguments : List String) (read : String → Except ReadError (List UInt8)) :
    Except Transcript Ready :=
  match CommandLine.read arguments with
  | .error .help => .error { ending := .exit 0, out := CommandLine.help }
  | .error (.refused refusal) => .error { ending := .exit 2, err := refusal.report }
  | .ok settings => do
      let level ← levelOf settings
      boot settings level (← romOf settings read)

def setupOf (settings : Settings) (random : Nat → Int) : Setup where
  random := random
  legacyStore := settings.legacyStore

/-- The views of a machine that a headless run prints, each on lines of its own. -/
def views (settings : Settings) (snapshot : Snapshot) : Except Error (List String) := do
  let screen ← Screen.text snapshot.display "#" "."
  let listing ← RegisterListing.text snapshot
  if settings.dumpMemory then
    let code ← Disassembly.text snapshot.memory snapshot.pc 8
    return [screen, listing, HexDump.text snapshot.memory 0 none, code]
  else return [screen, listing]

def report (ready : Ready) (run : Headless.Run) : Transcript :=
  let err := ready.err ++ Log.lines ready.level run.records
  let printed (code : Nat) : Transcript :=
    match views ready.settings run.vm.machine.snapshot with
    | .ok texts => { ending := .status code, out := String.join (texts.map (· ++ "\n")), err }
    | .error error => { ending := .crashed (.machine error), err }
  match run.ending with
  | .finished | .waiting _ => printed 0
  | .refused (.fault _) => printed 1
  | .refused error => { ending := .crashed (.machine error), err }
  | .defective defect => { ending := .crashed (.unusable defect), err }
  | .interrupted => { ending := .interrupted, err }

def headless (ready : Ready) (random : Nat → Int) (interruptAt : Option Nat) :
    Transcript :=
  match Setting.steps.require ready.settings.steps with
  | .error defect => { ending := .crashed (.unusable defect), err := ready.err }
  | .ok steps =>
      report ready
        (Headless.run (setupOf ready.settings random) ready.settings.cyclesPerFrame
          interruptAt steps ready.vm)

def noWindowText : String :=
  "This emulator requires pygame. Install with: pip install pygame\n"

/-- The program on a host without windows. -/
def run (arguments : List String) (read : String → Except ReadError (List UInt8))
    (random : Nat → Int) (interruptAt : Option Nat) : Transcript :=
  match start arguments read with
  | .error transcript => transcript
  | .ok ready =>
      if ready.settings.headless then headless ready random interruptAt
      else { ending := .crashed .noWindow, err := ready.err ++ noWindowText }

/-- The program as a process of its own: a status is its exit code, and an
interruption ends it in good order. -/
def Transcript.asProcess (transcript : Transcript) : Transcript :=
  match transcript.ending with
  | .status code => { transcript with ending := .exit code }
  | .interrupted =>
      { transcript with ending := .ended, out := transcript.out ++ "\nExiting.\n" }
  | _ => transcript

end Chip8.Program
