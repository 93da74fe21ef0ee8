/-
Disassembly: the instruction words from an address on, one line for each, as
long as both bytes of a word lie in the memory.
-/
import Chip8.Instr.Assembly
import Chip8.Snapshot

namespace Chip8.Disassembly

/-- An instruction word and its address. -/
structure Line where
  address : Int
  word : Word
deriving Repr, DecidableEq

/-- The address, the word and its assembly text. -/
def Line.text (line : Line) : String :=
  Hex.padded 3 line.address ++ ": " ++ Hex.padded 4 line.word.toNat ++ "  " ++
    line.word.assembly

/-- The word of a signed position and the one after it. -/
def wordAt (memory : Array UInt8) (position : Int) : Except Error Word := do
  let high ← Snapshot.byteAt memory position
  let low ← Snapshot.byteAt memory (position + 1)
  return Word.ofBytes high low

/-- The lines of the next words. -/
def linesFrom (memory : Array UInt8) (address : Int) : Nat → Except Error (List Line)
  | 0 => .ok []
  | count + 1 => do
      let word ← wordAt memory address
      let rest ← linesFrom memory (address + 2) count
      return { address, word } :: rest

/-- At most `count` lines, and none that starts on the last byte or behind it. -/
def lineCount (size : Nat) (start count : Int) : Nat :=
  ((min (start + 2 * count) (size - 1) - start + 1) / 2).toNat

def lines (memory : Array UInt8) (start count : Int) : Except Error (List Line) :=
  linesFrom memory start (lineCount memory.size start count)

/-- The lines as text. -/
def text (memory : Array UInt8) (start count : Int) : Except Error String := do
  let shown ← lines memory start count
  return "\n".intercalate (shown.map Line.text)

end Chip8.Disassembly
