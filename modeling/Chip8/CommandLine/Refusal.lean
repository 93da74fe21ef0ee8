/-
Why a command line is refused, and the text that says so.
-/
import Chip8.CommandLine.Switch
import Chip8.Text.Quoted

namespace Chip8.CommandLine

inductive Refusal
  | ambiguous (argument : String) (candidates : List Switch)
  | valueMissing (switch : Switch)
  | notAnInteger (switch : Switch) (value : String)
  | notALevel (value : String)
  /-- A switch that takes no value has got one. -/
  | valueIgnored (switch : Switch) (value : String)
  | unrecognized (arguments : List String)
deriving Repr, DecidableEq

/-- A message about one switch. -/
def Switch.complaint (switch : Switch) (text : String) : String :=
  "argument " ++ switch.label ++ ": " ++ text

def Refusal.message : Refusal → String
  | .ambiguous argument candidates =>
      "ambiguous option: " ++ argument ++ " could match " ++
        ", ".intercalate (candidates.map Switch.longName)
  | .valueMissing switch => switch.complaint "expected one argument"
  | .notAnInteger switch value =>
      switch.complaint ("invalid int value: " ++ Quoted.text value)
  | .notALevel value =>
      Switch.logLevel.complaint ("invalid choice: " ++ Quoted.text value ++
        " (choose from " ++ ", ".intercalate (levelNames.map Quoted.text) ++ ")")
  | .valueIgnored switch value =>
      switch.complaint ("ignored explicit argument " ++ Quoted.text value)
  | .unrecognized arguments =>
      "unrecognized arguments: " ++ " ".intercalate arguments

end Chip8.CommandLine
