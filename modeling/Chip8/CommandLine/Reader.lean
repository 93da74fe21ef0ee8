/-
Reading the command line.  Tokens act from left to right on the settings.  The
first plain argument is the program to run.  Whatever has no place is collected
and refused at the end.  A value of two dashes leaves its setting blank.
-/
import Chip8.CommandLine.Token
import Chip8.Settings
import Chip8.Text.Integer

namespace Chip8.CommandLine

/-- Why reading ends without settings. -/
inductive Stop
  /-- The help text was asked for. -/
  | help
  | refused (refusal : Refusal)
deriving Repr, DecidableEq

/-- What has been read: the settings so far, whether the program is known, and the
arguments without a place, last one first. -/
structure Reading where
  settings : Settings := {}
  programKnown : Bool := false
  surplus : List String := []
deriving Repr, DecidableEq

/-- The value that leaves a setting blank. -/
def blank : String := "--"

namespace Reading

/-- Set an integer of the settings. -/
def setInteger (reading : Reading) (switch : Switch) (value : String)
    (change : Settings → Option Int → Settings) : Except Stop Reading :=
  if value = blank then .ok { reading with settings := change reading.settings none }
  else
    match Integer.ofString? value with
    | some number =>
        .ok { reading with settings := change reading.settings (some number) }
    | none => .error (.refused (.notAnInteger switch value))

/-- Set the level that is logged. -/
def setLevel (reading : Reading) (value : String) : Except Stop Reading :=
  if value = blank then .ok { reading with settings.logLevel := none }
  else if levelNames.contains value then
    .ok { reading with settings.logLevel := some value }
  else .error (.refused (.notALevel value))

/-- A switch with its value. -/
def setValue (reading : Reading) (switch : Switch) (value : String) :
    Except Stop Reading :=
  match switch with
  | .scale => reading.setInteger switch value fun settings scale =>
      { settings with scale }
  | .clock => reading.setInteger switch value fun settings clockHz =>
      { settings with clockHz }
  | .tone => reading.setInteger switch value fun settings toneHz =>
      { settings with toneHz }
  | .steps => reading.setInteger switch value fun settings steps =>
      { settings with steps }
  | .logLevel => reading.setLevel value
  | .help | .legacyStore | .headless | .dumpMemory =>
      .error (.refused (.valueIgnored switch value))

/-- A switch by itself. -/
def setFlag (reading : Reading) (switch : Switch) : Except Stop Reading :=
  match switch with
  | .help => .error .help
  | .legacyStore => .ok { reading with settings.legacyStore := true }
  | .headless => .ok { reading with settings.headless := true }
  | .dumpMemory => .ok { reading with settings.dumpMemory := true }
  | .scale | .clock | .tone | .steps | .logLevel =>
      .error (.refused (.valueMissing switch))

def setProgram (reading : Reading) (path : String) : Reading :=
  { reading with settings.romPath := some path, programKnown := true }

/-- Put an argument aside. -/
def putAside (reading : Reading) (argument : String) : Reading :=
  { reading with surplus := argument :: reading.surplus }

/-- The letters behind the short spelling for help.  Each further `h` asks for help
again; the rest is taken for a value, and so is nothing at all. -/
def helpCluster (letters : List Char) : Stop :=
  match letters, letters.dropWhile (· = 'h') with
  | _ :: _, [] => .help
  | _, rest => .refused (.valueIgnored .help (String.ofList rest))

example : helpCluster ['h', 'h'] = .help := by rfl
example : helpCluster ['h', '=', '5'] = .refused (.valueIgnored .help "=5") := by rfl

/-- Let the tokens act in order.  The separator is dropped when the program is not
known yet, or when it is the argument right before. -/
def readTokens (reading : Reading) : List Token → Except Stop Reading
  | [] => .ok reading
  | .named switch (some value) :: rest => do
      (← reading.setValue switch value).readTokens rest
  | .named switch none :: rest =>
      if switch.takesValue then
        match rest with
        | .plain value :: rest => do
            (← reading.setValue switch value).readTokens rest
        | _ => .error (.refused (.valueMissing switch))
      else do
        (← reading.setFlag switch).readTokens rest
  | .cluster letters :: _ => .error (helpCluster letters)
  | .unknown text :: rest => (reading.putAside text).readTokens rest
  | .plain path :: .separator :: rest =>
      if reading.programKnown then
        ((reading.putAside path).putAside "--").readTokens rest
      else (reading.setProgram path).readTokens rest
  | .plain path :: rest =>
      if reading.programKnown then (reading.putAside path).readTokens rest
      else (reading.setProgram path).readTokens rest
  | .separator :: rest =>
      if reading.programKnown then (reading.putAside "--").readTokens rest
      else reading.readTokens rest

end Reading

/-- The settings of a command line. -/
def read (arguments : List String) : Except Stop Settings := do
  let tokens ← (Token.ofArguments arguments).mapError .refused
  let reading ← ({} : Reading).readTokens tokens
  if reading.surplus.isEmpty then return reading.settings
  else throw (.refused (.unrecognized reading.surplus.reverse))

example : (read ["--scale=--", "rom"]).toOption.map Settings.scale = some none := by
  decide +kernel

end Chip8.CommandLine
