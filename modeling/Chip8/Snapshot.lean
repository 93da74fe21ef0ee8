/-
A snapshot is a copy of a machine for a host to look at.  It has no fixed sizes:
a host may build one from any bytes.
-/
import Chip8.Machine

namespace Chip8

/-- A copy of everything that a machine shows. -/
structure Snapshot where
  memory : Array UInt8 := #[]
  registers : Array UInt8 := #[]
  display : Array UInt8 := #[]
  stack : Array Int := #[]
  index : Int := 0
  pc : Int := 0
  depth : Int := 0
deriving Repr, DecidableEq

/-- The copy of a machine as it stands. -/
def Machine.snapshot (machine : Machine) : Snapshot where
  memory := machine.memory.toArray
  registers := machine.registers.all.toArray
  display := machine.display.toArray
  stack := machine.calls.slots.toArray
  index := machine.index
  pc := machine.pc
  depth := machine.calls.depth

namespace Snapshot

/-- The byte at a signed position of copied bytes. -/
def byteAt (bytes : Array UInt8) (position : Int) : Except Error UInt8 :=
  match Position.resolve bytes.size position with
  | .ok place => .ok bytes[place]
  | .error why => .error (.position .bytes why)

/-- The stack entries from number 1 up to the depth. -/
def frames (snapshot : Snapshot) : List Int :=
  (Position.between snapshot.stack 1 (snapshot.depth + 1)).toList

theorem frames_snapshot (machine : Machine) :
    machine.snapshot.frames = machine.calls.frames := rfl

end Snapshot

end Chip8
