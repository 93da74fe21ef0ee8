/-
The state behind an instruction that is not refused.  `Vm.effect` writes it out as one
change of the state before it, so that whatever an instruction leaves alone can be read
off; `Vm.executed` is the word whose effect a step has.
-/
import Chip8.Proofs.Cycle

namespace Chip8.Vm

/-- The state in which the next instruction is passed over when a condition holds. -/
def skipping (vm : Vm) (condition : Bool) : Vm :=
  { vm with machine.pc := if condition then vm.machine.pc + 2 else vm.machine.pc }

/-- What an instruction does when it is not refused. -/
def effect (setup : Setup) (vm : Vm) : Instr → Vm
  | .ret => { vm with
      machine.pc := vm.machine.calls.entry vm.machine.calls.depth.toNat
      machine.calls := vm.machine.calls.popped }
  | .call address => { vm with
      machine.pc := address.val
      machine.calls := vm.machine.calls.pushed vm.machine.pc }
  | .skipIfByte x kk => vm.skipping (vm.machine.v x == kk)
  | .skipUnlessByte x kk => vm.skipping (vm.machine.v x != kk)
  | .skipIfSame x y => vm.skipping (vm.machine.v x == vm.machine.v y)
  | .skipUnlessSame x y => vm.skipping (vm.machine.v x != vm.machine.v y)
  | .skipIfKey x =>
      vm.skipping (vm.keypad.isPressed ((vm.machine.v x).toNat % 16))
  | .skipUnlessKey x =>
      vm.skipping (!vm.keypad.isPressed ((vm.machine.v x).toNat % 16))
  | .draw x y rows => vm.withMachine
      (vm.machine.drawn (vm.machine.v x).toNat (vm.machine.v y).toNat rows.val).1
  | .decimal x => { vm with
      machine.memory := overwrite vm.machine.memory vm.machine.index.toNat
        (Machine.decimalDigits (vm.machine.v x)) }
  | .store x => { vm with
      machine.memory := overwrite vm.machine.memory vm.machine.index.toNat
        (vm.machine.registers.firstV x)
      machine.index := vm.machine.indexAfterBlock setup.legacyStore x }
  | .fill x => { vm with
      machine.registers := vm.machine.registers.setFirstV
        (vm.machine.memory.block vm.machine.index.toNat (x.val + 1))
      machine.index := vm.machine.indexAfterBlock setup.legacyStore x }
  | instr => (vm.exec setup instr).vm

/-- The word that a step executes to its end, when the interpreter is neither stopped
nor waiting and nothing is refused. -/
def executed (setup : Setup) (vm : Vm) : Option Word :=
  if vm.fault = none ∧ vm.wait = none ∧ (vm.step setup).error = none then
    some vm.machine.fetched
  else none

variable {setup : Setup} {vm : Vm} {word : Word}

theorem withMachine_skipIf (condition : Bool) :
    vm.withMachine (vm.machine.skipIf condition) = vm.skipping condition := by
  cases condition <;> rfl

theorem exec_of_served (hwithin : vm.machine.calls.Within) {instr : Instr}
    (hserved : vm.machine.refusal instr = none) :
    (vm.exec setup instr).vm = vm.effect setup instr := by
  cases instr with
  | ret => rw [exec_ret hwithin hserved]; rfl
  | call address => rw [exec_call hwithin hserved]; rfl
  | draw x y rows => rw [exec_draw hserved]; rfl
  | decimal x => rw [exec_decimal hserved]; rfl
  | store x => rw [exec_store hserved]; rfl
  | fill x => rw [exec_fill hserved]; rfl
  | skipIfByte _ _ | skipUnlessByte _ _ | skipIfSame _ _ | skipUnlessSame _ _
  | skipIfKey _ | skipUnlessKey _ => exact withMachine_skipIf _
  | _ => rfl

/-- What a step is that executes a word. -/
structure Executes (setup : Setup) (vm : Vm) (word : Word) : Prop where
  running : vm.fault = none
  idle : vm.wait = none
  fetched : vm.machine.fetched = word
  served : vm.machine.cycleRefusal = none
  step : vm.step setup = vm.past.exec setup (.ofWord word)
  effect : (vm.step setup).vm = vm.past.effect setup (.ofWord word)

theorem executes_of_served (hwithin : vm.machine.calls.Within) (hrunning : vm.fault = none)
    (hidle : vm.wait = none) (hserved : vm.machine.cycleRefusal = none)
    (hstep : vm.step setup = vm.past.exec setup (.ofWord vm.machine.fetched)) :
    Executes setup vm vm.machine.fetched := by
  obtain ⟨-, hexec⟩ := vm.machine.cycleRefusal_eq_none_iff.mp hserved
  have hpast : vm.past.machine.calls.Within := hwithin
  rw [← refusal_past] at hexec
  refine ⟨hrunning, hidle, rfl, hserved, hstep, ?_⟩
  rw [hstep, exec_of_served hpast hexec]

theorem executes_of_executed (hwithin : vm.machine.calls.Within)
    (hexecuted : vm.executed setup = some word) : Executes setup vm word := by
  simp only [executed, Option.ite_none_right_eq_some, Option.some.injEq] at hexecuted
  obtain ⟨⟨hrunning, hidle, herror⟩, rfl⟩ := hexecuted
  cases vm.step_cases setup hwithin with
  | halted fault hfault hstep => simp [hfault] at hrunning
  | waiting x _ hwait hstep => simp [hwait] at hidle
  | refused cause _ _ hrefusal hstep =>
      rw [hstep] at herror
      cases herror
  | served _ _ hserved hstep _ =>
      exact executes_of_served hwithin hrunning hidle hserved hstep

end Chip8.Vm
