/-
The machine: memory, register file, index register, program counter, call stack
and display.  The program counter and the index register are integers, because a
host may set them to any value; only a memory request tests them.
-/
import Chip8.CallStack
import Chip8.Display
import Chip8.Memory
import Chip8.Registers

namespace Chip8

/-- Everything that a running program can see and change. -/
structure Machine where
  memory : Memory := Memory.initial
  registers : Registers := {}
  index : Int := 0
  pc : Int := Memory.programStart
  calls : CallStack := {}
  display : Display := Display.blank
deriving DecidableEq

/-- A change that a host makes to a field directly. -/
inductive Assignment
  | pc (value : Int)
  | index (value : Int)
  | depth (value : Int)
  | register (number value : Int)
  | cell (position value : Int)
  | delay (value : Int)
  | sound (value : Int)
deriving Repr, DecidableEq

namespace Machine

/-- The machine as it is built. -/
def fresh : Machine := {}

/-- Put every part of the machine back to where it starts. -/
def reset (machine : Machine) : Machine :=
  { machine with
    memory := overwrite (Vector.replicate 4096 0) 0 Font.glyphs
    registers := { v := Vector.replicate 16 0, delay := 0, sound := 0 }
    index := 0
    pc := Memory.programStart
    calls := { slots := Vector.replicate 16 0, depth := 0 }
    display := Vector.replicate 2048 0 }

/-- A reset leaves nothing of what the machine was. -/
theorem reset_eq_fresh (machine : Machine) : machine.reset = fresh := rfl

/-- Put a program into the memory and the program counter on its start.  The answer is the
number of its bytes. -/
def load (machine : Machine) (rom : List UInt8) : Reply Machine Nat :=
  if Memory.capacity < rom.length then
    ⟨machine, .error (.romTooLarge rom.length Memory.capacity)⟩
  else
    let memory := overwrite machine.memory Memory.programStart rom
    ⟨{ machine with memory, pc := Memory.programStart }, .ok rom.length⟩

def tick (machine : Machine) : Machine :=
  { machine with registers := machine.registers.tick }

def push (machine : Machine) (address : Int) : Reply Machine Unit :=
  (machine.calls.push address).within fun calls => { machine with calls }

def pop (machine : Machine) : Reply Machine Int :=
  machine.calls.pop.within fun calls => { machine with calls }

def write (machine : Machine) (address : Int) (bytes : List UInt8) : Reply Machine Unit :=
  (machine.memory.write address bytes).within fun memory => { machine with memory }

/-- The display cell of a column and a row, which are not wrapped. -/
def pixel (machine : Machine) (column row : Int) : Except Error UInt8 :=
  match Position.resolve 2048 (row * 64 + column) with
  | .ok place => .ok (machine.display.get place)
  | .error why => .error (.position .display why)

def clear (machine : Machine) : Machine :=
  { machine with display := Display.blank }

/-- Turn over the cells of a sprite.  The answer and the flag register tell whether a lit cell
was turned off. -/
def withSprite (machine : Machine) (column row : Int) (sprite : List UInt8) :
    Reply Machine Bool :=
  let (display, collision) := machine.display.draw (Display.spriteCells column row sprite)
  let registers := machine.registers.setV Register.flag (if collision then 1 else 0)
  ⟨{ machine with display, registers }, .ok collision⟩

/-- Draw the sprite of `height` rows at the index register. -/
def draw (machine : Machine) (column row height : Int) : Reply Machine Bool :=
  match machine.memory.read machine.index height with
  | .ok sprite => machine.withSprite column row sprite
  | .error cause => ⟨machine, .error cause.error⟩

/-- Give a display cell a value. -/
def setCell (machine : Machine) (position value : Int) : Reply Machine Unit :=
  match setByte machine.display position value with
  | .ok display => ⟨{ machine with display }, .ok ()⟩
  | .error error => ⟨machine, .error error⟩

def setRegister (machine : Machine) (number value : Int) : Reply Machine Unit :=
  (machine.registers.write number value).within fun registers => { machine with registers }

def assign (machine : Machine) : Assignment → Reply Machine Unit
  | .pc value => ⟨{ machine with pc := value }, .ok ()⟩
  | .index value => ⟨{ machine with index := value }, .ok ()⟩
  | .depth value => ⟨{ machine with calls.depth := value }, .ok ()⟩
  | .register number value => machine.setRegister number value
  | .cell position value => machine.setCell position value
  | .delay value => ⟨{ machine with registers.delay := UInt8.ofInt value }, .ok ()⟩
  | .sound value => ⟨{ machine with registers.sound := UInt8.ofInt value }, .ok ()⟩

/-- Make changes in order, up to the first one that is refused. -/
def assignAll (machine : Machine) : List Assignment → Reply Machine Unit
  | [] => ⟨machine, .ok ()⟩
  | change :: rest =>
      match machine.assign change with
      | ⟨changed, .ok ()⟩ => changed.assignAll rest
      | ⟨kept, .error error⟩ => ⟨kept, .error error⟩

end Machine

end Chip8
