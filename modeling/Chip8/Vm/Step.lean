/-
Stepping.  A step raises a latched fault again; failing that it serves a pending
key wait; failing that it fetches a word, moves the program counter past it and
executes it.  A fault on the way puts the program counter back on the
instruction and is latched with that address.
-/
import Chip8.Vm.Exec

namespace Chip8.Vm

/-- Stop at a fault that was met at an address. -/
def latch (vm : Vm) (address : Int) (fault : Fault) : Outcome :=
  let located := fault.located address
  .refused { vm with machine.pc := address, fault := some located } (.fault located)

/-- Fetch a word and execute it. -/
def cycle (setup : Setup) (vm : Vm) : Outcome :=
  let address := vm.machine.pc
  match vm.machine.memory.word address with
  | .error cause => vm.latch address { cause }
  | .ok word =>
      let past : Vm := { vm with machine.pc := address + 2 }
      let outcome := past.exec setup (Instr.ofWord word)
      match outcome.error with
      | some (.fault fault) => outcome.vm.latch address fault
      | _ => outcome

/-- Advance by one instruction. -/
def step (setup : Setup) (vm : Vm) : Outcome :=
  match vm.fault with
  | some fault => .refused vm (.fault fault)
  | none =>
      match vm.wait with
      | some x => .done (vm.poll x)
      | none => vm.cycle setup

/-- A stopped interpreter raises its fault again and changes nothing. -/
theorem step_of_fault (setup : Setup) {vm : Vm} {fault : Fault}
    (stopped : vm.fault = some fault) :
    vm.step setup = .refused vm (.fault fault) := by
  simp [step, stopped]

/-- A step that finds a key wait only looks at the keypad. -/
theorem step_of_wait (setup : Setup) {vm : Vm} {x : Register} (running : vm.fault = none)
    (waiting : vm.wait = some x) : vm.step setup = .done (vm.poll x) := by
  simp [step, running, waiting]

end Chip8.Vm
