/-
The virtual machine: a machine with a keypad and the state of its interpreter,
which is the register that waits for a key, the fault that stopped it, and the
number of random bytes it has drawn so far.
-/
import Chip8.Keypad
import Chip8.Machine

namespace Chip8

/-- What the host fixes for a whole run: the random numbers in their order, how block transfers
end, and whether unknown words are reported. -/
structure Setup where
  random : Nat → Int
  legacyStore : Bool := false
  listening : Bool := true

/-- An unknown word that was passed over, and where it was met. -/
structure Report where
  address : Nat
  word : Word
deriving Repr, DecidableEq

/-- The one kind of report there is. -/
def Report.kind (_ : Report) : String := "unknown-opcode"

def Report.message (report : Report) : String :=
  "Unknown opcode: " ++ Hex.padded 4 report.word.toNat ++ " at PC " ++
    Hex.padded 3 report.address

/-- A machine, its keypad and the state of the interpreter. -/
structure Vm where
  machine : Machine := {}
  keypad : Keypad := Keypad.released
  wait : Option Register := none
  fault : Option Fault := none
  drawn : Nat := 0
deriving DecidableEq

/-- What an operation leads to: the state after it, why it was refused, and what
was reported on the way. -/
structure Outcome where
  vm : Vm
  error : Option Error := none
  reports : List Report := []
deriving DecidableEq

namespace Vm

/-- A virtual machine as it is built. -/
def fresh : Vm := {}

/-- Whether a fault has stopped the interpreter. -/
def halted (vm : Vm) : Bool :=
  vm.fault.isSome

def awaitingKey (vm : Vm) : Bool :=
  vm.wait.isSome

/-- Forget the key wait and the fault.  The machine is left alone. -/
def restart (vm : Vm) : Vm :=
  { vm with wait := none, fault := none }

/-- Give the smallest-numbered key that is down to a waiting register. -/
def poll (vm : Vm) (x : Register) : Vm :=
  match vm.keypad.firstPressed with
  | none => vm
  | some key =>
      { vm with
        machine.registers := vm.machine.registers.setV x (UInt8.ofNat key.val)
        wait := none }

end Vm

end Chip8
