/-
One step of the interpreter.  A step that neither raises a latched fault nor serves a
key wait is a cycle.  A cycle is refused for a cause that the machine shows beforehand,
and then only latches the fault; otherwise it executes the fetched word behind the
program counter.
-/
import Chip8.Proofs.Refusal
import Chip8.Vm.Step

namespace Chip8

/-- The cause for which fetching and executing the next word is refused. -/
def Machine.cycleRefusal (machine : Machine) : Option Cause :=
  match Memory.refusal machine.pc 2 with
  | some cause => some cause
  | none => machine.refusal (.ofWord machine.fetched)

theorem Machine.cycleRefusal_eq_none_iff (machine : Machine) :
    machine.cycleRefusal = none ↔
      Memory.refusal machine.pc 2 = none ∧
        machine.refusal (.ofWord machine.fetched) = none := by
  rw [cycleRefusal]
  split <;> simp_all

namespace Vm

/-- The state in which the fetched word is executed. -/
def past (vm : Vm) : Vm :=
  { vm with machine.pc := vm.machine.pc + 2 }

/-- The state that a fault at the program counter leaves. -/
def stopped (vm : Vm) (cause : Cause) : Vm :=
  { vm with fault := some { cause, address := some vm.machine.pc } }

variable {setup : Setup} {vm : Vm} {cause : Cause}

/-- A cycle whose fetch is served latches the fault of the execution, if there is one. -/
theorem cycle_of_fetched (hfetch : Memory.refusal vm.machine.pc 2 = none) :
    vm.cycle setup =
      match (vm.past.exec setup (.ofWord vm.machine.fetched)).error with
      | some (.fault fault) =>
          (vm.past.exec setup (.ofWord vm.machine.fetched)).vm.latch vm.machine.pc fault
      | _ => vm.past.exec setup (.ofWord vm.machine.fetched) := by
  rw [cycle, vm.machine.word_of_served hfetch]
  rfl

theorem refusal_past (instr : Instr) :
    vm.past.machine.refusal instr = vm.machine.refusal instr := by
  cases instr <;> rfl

/-- A refused cycle only latches the fault, at the program counter as it was. -/
theorem cycle_of_refusal (hrefused : vm.machine.cycleRefusal = some cause) :
    vm.cycle setup =
      .refused (vm.stopped cause) (.fault { cause, address := some vm.machine.pc }) := by
  rw [Machine.cycleRefusal] at hrefused
  cases hfetch : Memory.refusal vm.machine.pc 2 with
  | some missing =>
      rw [hfetch] at hrefused
      obtain rfl := Option.some.inj hrefused
      rw [cycle, vm.machine.word_of_refusal hfetch]
      rfl
  | none =>
      rw [hfetch, ← refusal_past] at hrefused
      rw [cycle_of_fetched hfetch, exec_of_refusal hrefused]
      rfl

/-- A served cycle executes the fetched word, and the execution goes through. -/
theorem cycle_of_served (setup : Setup) (hwithin : vm.machine.calls.Within)
    (hserved : vm.machine.cycleRefusal = none) :
    vm.cycle setup = vm.past.exec setup (.ofWord vm.machine.fetched) ∧
      (vm.past.exec setup (.ofWord vm.machine.fetched)).error = none := by
  obtain ⟨hfetch, hexec⟩ := vm.machine.cycleRefusal_eq_none_iff.mp hserved
  rw [← refusal_past] at hexec
  have hpast : vm.past.machine.calls.Within := hwithin
  have herror : (vm.past.exec setup (.ofWord vm.machine.fetched)).error = none :=
    error_exec_of_served hpast hexec
  rw [cycle_of_fetched hfetch, herror]
  exact ⟨rfl, rfl⟩

/-- An interpreter that is neither stopped nor waiting fetches and executes. -/
theorem step_of_idle (setup : Setup) (hrunning : vm.fault = none) (hidle : vm.wait = none) :
    vm.step setup = vm.cycle setup := by
  rw [step, hrunning, hidle]

/-- The four things that a step can do. -/
inductive StepCase (setup : Setup) (vm : Vm) : Prop
  | halted (fault : Fault) (hfault : vm.fault = some fault)
      (hstep : vm.step setup = .refused vm (.fault fault))
  | waiting (x : Register) (hrunning : vm.fault = none) (hwait : vm.wait = some x)
      (hstep : vm.step setup = .done (vm.poll x))
  | refused (cause : Cause) (hrunning : vm.fault = none) (hwait : vm.wait = none)
      (hrefusal : vm.machine.cycleRefusal = some cause)
      (hstep : vm.step setup = .refused (vm.stopped cause)
        (.fault { cause, address := some vm.machine.pc }))
  | served (hrunning : vm.fault = none) (hwait : vm.wait = none)
      (hserved : vm.machine.cycleRefusal = none)
      (hstep : vm.step setup = vm.past.exec setup (.ofWord vm.machine.fetched))
      (herror : (vm.step setup).error = none)

theorem step_cases (setup : Setup) (hwithin : vm.machine.calls.Within) :
    StepCase setup vm := by
  cases hfault : vm.fault with
  | some fault => exact .halted fault hfault (step_of_fault setup hfault)
  | none =>
      cases hwait : vm.wait with
      | some x => exact .waiting x hfault hwait (step_of_wait setup hfault hwait)
      | none =>
          have hstep := step_of_idle setup hfault hwait
          cases hrefusal : vm.machine.cycleRefusal with
          | some cause =>
              exact .refused cause hfault hwait hrefusal
                (hstep.trans (cycle_of_refusal hrefusal))
          | none =>
              obtain ⟨hcycle, herror⟩ := cycle_of_served setup hwithin hrefusal
              rw [← hcycle, ← hstep] at herror
              exact .served hfault hwait hrefusal (hstep.trans hcycle) herror

end Vm

end Chip8
