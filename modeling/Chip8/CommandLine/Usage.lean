/-
The texts of the command line: the usage lines and the help below them.
-/
import Chip8.CommandLine.Reader

namespace Chip8.CommandLine

/-- The usage lines. -/
def usage : String :=
  "usage: chip8vm [-h] [--scale SCALE] [--clock CLOCK] [--legacy-store]\n" ++
  "               [--tone TONE] [--headless] [--steps STEPS] [--dump-memory]\n" ++
  "               [--log-level \x7bDEBUG,INFO,WARNING,ERROR\x7d]\n" ++
  "               [rom]\n"

/-- The help text. -/
def help : String :=
  usage ++
  "\nCHIP-8 virtual machine\n" ++
  "\npositional arguments:\n" ++
  "  rom                   Path to CHIP-8 ROM (default: built-in maze demo)\n" ++
  "\noptions:\n" ++
  "  -h, --help            show this help message and exit\n" ++
  "  --scale SCALE         Pixel scale factor (default 15)\n" ++
  "  --clock CLOCK         CPU clock in Hz (default 700)\n" ++
  "  --legacy-store        Use original FX55/FX65 quirk (I increments)\n" ++
  "  --tone TONE           Beep tone frequency in Hz\n" ++
  "  --headless            Run without a window and print the final state\n" ++
  "  --steps STEPS         Instructions to run in headless mode (default 1000)\n" ++
  "  --dump-memory         Headless: also print a memory hex dump and the code at\n" ++
  "                        PC\n" ++
  "  --log-level \x7bDEBUG,INFO,WARNING,ERROR\x7d\n" ++
  "                        Diagnostic verbosity (default WARNING)\n"

/-- The text for a refused command line. -/
def Refusal.report (refusal : Refusal) : String :=
  usage ++ "chip8vm: error: " ++ refusal.message ++ "\n"

end Chip8.CommandLine
