/-
Histories.  An event is one thing that a host does with a virtual machine; a
history is a list of them, and every event is handled whatever became of the
events before it.
-/
import Chip8.Vm.Step

namespace Chip8

/-- One thing that a host does. -/
inductive Event
  | load (rom : List UInt8)
  | step
  | exec (word : Word)
  | press (key : Int)
  | release (key : Int)
  | tick
  /-- Rebuild the machine. -/
  | reset
  /-- Forget the key wait and the fault. -/
  | restart
  | assign (changes : List Assignment)
deriving Repr, DecidableEq

namespace Vm

/-- What one event leads to. -/
def handle (setup : Setup) (vm : Vm) : Event → Outcome
  | .load rom => vm.proceed (vm.machine.load rom) fun _ loaded => loaded
  | .step => vm.step setup
  | .exec word => vm.exec setup (Instr.ofWord word)
  | .press key => .done { vm with keypad := vm.keypad.press key }
  | .release key => .done { vm with keypad := vm.keypad.release key }
  | .tick => .done (vm.withMachine vm.machine.tick)
  | .reset => .done (vm.withMachine vm.machine.reset)
  | .restart => .done vm.restart
  | .assign changes => vm.proceed (vm.machine.assignAll changes) fun _ changed => changed

theorem handle_reset (setup : Setup) (vm : Vm) :
    vm.handle setup .reset = .done (vm.withMachine Machine.fresh) := by
  rw [handle, Machine.reset_eq_fresh]

/-- What each event of a history leads to. -/
def outcomes (setup : Setup) (vm : Vm) : List Event → List Outcome
  | [] => []
  | event :: rest =>
      let outcome := vm.handle setup event
      outcome :: outcome.vm.outcomes setup rest

/-- The state at the end of a history. -/
def run (setup : Setup) (vm : Vm) (history : List Event) : Vm :=
  history.foldl (fun reached event => (reached.handle setup event).vm) vm

theorem run_append (setup : Setup) (vm : Vm) (first second : List Event) :
    vm.run setup (first ++ second) = (vm.run setup first).run setup second :=
  List.foldl_append

end Vm

end Chip8
