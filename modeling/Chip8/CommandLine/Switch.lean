/-
The switches of the command line.  Most have one spelling that starts with two
dashes; the one for help has a short spelling as well.
-/

namespace Chip8.CommandLine

/-- What an argument can switch on or set. -/
inductive Switch
  | help
  | scale
  | clock
  | legacyStore
  | tone
  | headless
  | steps
  | dumpMemory
  | logLevel
deriving Repr, DecidableEq

namespace Switch

/-- All switches, in the order of the usage text. -/
def all : List Switch :=
  [.help, .scale, .clock, .legacyStore, .tone, .headless, .steps, .dumpMemory, .logLevel]

/-- The spelling with two dashes. -/
def longName : Switch → String
  | .help => "--help"
  | .scale => "--scale"
  | .clock => "--clock"
  | .legacyStore => "--legacy-store"
  | .tone => "--tone"
  | .headless => "--headless"
  | .steps => "--steps"
  | .dumpMemory => "--dump-memory"
  | .logLevel => "--log-level"

/-- How messages name a switch: all its spellings. -/
def label : Switch → String
  | .help => "-h/--help"
  | switch => switch.longName

/-- Whether a value belongs to a switch. -/
def takesValue : Switch → Bool
  | .scale | .clock | .tone | .steps | .logLevel => true
  | .help | .legacyStore | .headless | .dumpMemory => false

/-- The switch of an exact spelling. -/
def ofName? (name : List Char) : Option Switch :=
  if name = ['-', 'h'] then some .help
  else all.find? fun switch => switch.longName.toList = name

/-- The switches whose long spelling starts with some characters. -/
def startingWith (start : List Char) : List Switch :=
  all.filter fun switch => start.isPrefixOf switch.longName.toList

end Switch

/-- The names of the levels that can be logged. -/
def levelNames : List String := ["DEBUG", "INFO", "WARNING", "ERROR"]

end Chip8.CommandLine
