/-
The command line program.  It reads the file that is asked for, takes random bytes
from a seed, and writes out what the program prints.
-/
import Chip8.Program

namespace Chip8

/-- The system's words for a file that cannot be read. -/
def ReadError.ofSystem : IO.Error → ReadError
  | .noFileOrDirectory _ _ _ => .missing
  | .inappropriateType _ _ _ => .isFolder
  | .permissionDenied _ _ _ => .system 13 "Permission denied"
  | error => .system 5 error.toString

/-- Read the file that a command line asks for. -/
def readFile (path : String) : IO (Except ReadError (List UInt8)) := do
  match ← (IO.FS.readBinFile path).toBaseIO with
  | .ok content => return .ok content.toList
  | .error error => return .error (ReadError.ofSystem error)

/-- The bytes that a seed gives. -/
def seededBytes (seed : Nat) (number : Nat) : Int :=
  (mixHash (hash seed) (hash number)).toNat % 256

/-- The file that a command line names, read before the program runs. -/
def fileOf (arguments : List String) : IO (Except ReadError (List UInt8)) :=
  match CommandLine.read arguments with
  | .ok { romPath := some path, .. } => readFile path
  | _ => return .ok []

/-- Write out a transcript and give the exit code. -/
def Program.Transcript.write (transcript : Program.Transcript) : IO UInt32 := do
  IO.print transcript.out
  IO.eprint transcript.err
  match transcript.ending with
  | .status code | .exit code => return UInt32.ofNat code
  | .interrupted | .ended => return 0
  | .crashed .noWindow => return 1
  | .crashed crash =>
      IO.eprintln crash.message
      return 1

end Chip8

def main (arguments : List String) : IO UInt32 := do
  let file ← Chip8.fileOf arguments
  let seed ← IO.rand 0 0x100000000
  let transcript :=
    Chip8.Program.run arguments (fun _ => file) (Chip8.seededBytes seed) none
  transcript.asProcess.write
