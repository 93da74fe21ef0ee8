/-
When an instruction is refused, and what it does otherwise.  `Machine.refusal` gives
the cause without executing anything; an instruction with a cause changes nothing,
and an instruction without one goes through whenever the depth of the call stack is
within its slots.
-/
import Chip8.Proofs.Decoding
import Chip8.Proofs.RegisterFile
import Chip8.Proofs.Requests
import Chip8.Vm.Exec

namespace Chip8

/-- The cause for which an instruction is refused, if it is. -/
def Machine.refusal (machine : Machine) : Instr → Option Cause
  | .ret => if machine.calls.depth = 0 then some .stackUnderflow else none
  | .call _ => if 15 ≤ machine.calls.depth then some .stackOverflow else none
  | instr => instr.request.bind fun length => Memory.refusal machine.index length

namespace CallStack

/-- The number of open calls is between none and fifteen. -/
def Within (stack : CallStack) : Prop :=
  0 ≤ stack.depth ∧ stack.depth ≤ 15

/-- The entry of a slot, zero where there is none. -/
def entry (stack : CallStack) (slot : Nat) : Int :=
  stack.slots[slot]?.getD 0

/-- The stack with one more open call. -/
def pushed (stack : CallStack) (address : Int) : CallStack where
  slots := stack.slots.setIfInBounds (stack.depth.toNat + 1) address
  depth := stack.depth + 1

/-- The stack without its newest call. -/
def popped (stack : CallStack) : CallStack :=
  { stack with depth := stack.depth - 1 }

theorem push_of_room {stack : CallStack} (hwithin : stack.Within)
    (hroom : ¬ 15 ≤ stack.depth) (address : Int) :
    stack.push address = ⟨stack.pushed address, .ok ()⟩ := by
  obtain ⟨slots, depth⟩ := stack
  obtain ⟨hlow, -⟩ := hwithin
  obtain ⟨count, rfl⟩ := Int.eq_ofNat_of_zero_le hlow
  have hcount : count < 15 := Int.ofNat_lt.mp (Int.not_le.mp hroom)
  have hslots : slots.set (count + 1) address = slots.setIfInBounds (count + 1) address :=
    Vector.ext fun slot hslot => by
      rw [Vector.getElem_set, Vector.getElem_setIfInBounds hslot]
  rw [push_of_lt slots hcount, hslots]
  rfl

theorem pop_of_live {stack : CallStack} (hwithin : stack.Within)
    (hlive : ¬ stack.depth = 0) :
    stack.pop = ⟨stack.popped, .ok (stack.entry stack.depth.toNat)⟩ := by
  obtain ⟨hlow, hhigh⟩ := hwithin
  have hslot : Position.resolve 16 stack.depth = .ok ⟨stack.depth.toNat, by omega⟩ :=
    Position.resolve_of_lt hlow (by omega)
  have hinside : stack.depth.toNat < 16 := by omega
  simp [pop, hlive, hslot, entry, hinside, popped]

end CallStack

namespace Vm

variable {setup : Setup} {vm : Vm} {cause : Cause}

/-! The instructions that can be refused, each with the request that it makes. -/

theorem exec_ret_eq : vm.exec setup .ret =
    vm.proceed vm.machine.pop fun address popped => { popped with pc := address } := rfl

theorem exec_call_eq (address : Address) : vm.exec setup (.call address) =
    vm.proceed (vm.machine.push vm.machine.pc)
      fun _ pushed => { pushed with pc := address.val } := rfl

theorem exec_draw_eq (x y : Register) (rows : Fin 16) :
    vm.exec setup (.draw x y rows) =
      vm.proceed (vm.machine.draw (vm.machine.v x).toNat (vm.machine.v y).toNat rows.val)
        fun _ drawn => drawn := rfl

theorem exec_decimal_eq (x : Register) : vm.exec setup (.decimal x) =
    vm.proceed (vm.machine.write vm.machine.index
      (Machine.decimalDigits (vm.machine.v x))) fun _ written => written := rfl

theorem exec_store_eq (x : Register) : vm.exec setup (.store x) =
    vm.proceed (vm.machine.write vm.machine.index (vm.machine.registers.firstV x))
      fun _ written => { written with
        index := vm.machine.indexAfterBlock setup.legacyStore x } := rfl

theorem exec_fill_eq (x : Register) : vm.exec setup (.fill x) =
    match vm.machine.memory.read vm.machine.index (x.val + 1) with
    | .ok values => .done (vm.withMachine { vm.machine with
        registers := vm.machine.registers.setFirstV values
        index := vm.machine.indexAfterBlock setup.legacyStore x })
    | .error cause => .refused vm cause.error := rfl

/-- An instruction with a cause is refused and changes nothing. -/
theorem exec_of_refusal {instr : Instr} (hrefused : vm.machine.refusal instr = some cause) :
    vm.exec setup instr = .refused vm cause.error := by
  cases instr with
  | ret =>
      simp only [Machine.refusal, Option.ite_none_right_eq_some] at hrefused
      obtain ⟨hempty, hcause⟩ := hrefused
      obtain rfl := Option.some.inj hcause
      rw [exec_ret_eq, Machine.pop, CallStack.pop, if_pos hempty]
      rfl
  | call address =>
      simp only [Machine.refusal, Option.ite_none_right_eq_some] at hrefused
      obtain ⟨hfull, hcause⟩ := hrefused
      obtain rfl := Option.some.inj hcause
      rw [exec_call_eq, Machine.push, CallStack.push, if_pos hfull]
      rfl
  | draw x y rows =>
      rw [exec_draw_eq, vm.machine.draw_of_refusal _ _ hrefused]
      rfl
  | decimal x =>
      have hwrite : vm.machine.write vm.machine.index
          (Machine.decimalDigits (vm.machine.v x)) = ⟨vm.machine, .error cause.error⟩ :=
        vm.machine.write_of_refusal hrefused
      rw [exec_decimal_eq, hwrite]
      rfl
  | store x =>
      have hwrite : vm.machine.write vm.machine.index
          (vm.machine.registers.firstV x) = ⟨vm.machine, .error cause.error⟩ := by
        apply vm.machine.write_of_refusal
        rw [Registers.length_firstV]
        exact hrefused
      rw [exec_store_eq, hwrite]
      rfl
  | fill x =>
      have hread : vm.machine.memory.read vm.machine.index (x.val + 1) = .error cause :=
        vm.machine.memory.read_of_refusal hrefused
      rw [exec_fill_eq, hread]
  | _ => cases hrefused

/-! What the instructions that can be refused do when they are served. -/

theorem exec_ret (hwithin : vm.machine.calls.Within)
    (hserved : vm.machine.refusal .ret = none) :
    vm.exec setup .ret = .done (vm.withMachine { vm.machine with
      pc := vm.machine.calls.entry vm.machine.calls.depth.toNat
      calls := vm.machine.calls.popped }) := by
  have hlive : ¬ vm.machine.calls.depth = 0 := by
    simpa [Machine.refusal] using hserved
  rw [exec_ret_eq, Machine.pop, CallStack.pop_of_live hwithin hlive]
  rfl

theorem exec_call (hwithin : vm.machine.calls.Within) {address : Address}
    (hserved : vm.machine.refusal (.call address) = none) :
    vm.exec setup (.call address) = .done (vm.withMachine { vm.machine with
      pc := address.val
      calls := vm.machine.calls.pushed vm.machine.pc }) := by
  have hroom : ¬ 15 ≤ vm.machine.calls.depth := by
    simpa [Machine.refusal] using hserved
  rw [exec_call_eq, Machine.push, CallStack.push_of_room hwithin hroom]
  rfl

theorem exec_draw {x y : Register} {rows : Fin 16}
    (hserved : vm.machine.refusal (.draw x y rows) = none) :
    vm.exec setup (.draw x y rows) = .done (vm.withMachine
      (vm.machine.drawn (vm.machine.v x).toNat (vm.machine.v y).toNat rows.val).1) := by
  rw [exec_draw_eq, vm.machine.draw_of_served _ _ hserved]
  rfl

theorem exec_decimal {x : Register} (hserved : vm.machine.refusal (.decimal x) = none) :
    vm.exec setup (.decimal x) = .done (vm.withMachine { vm.machine with
      memory := overwrite vm.machine.memory vm.machine.index.toNat
        (Machine.decimalDigits (vm.machine.v x)) }) := by
  have hlength : Memory.refusal vm.machine.index
      (Machine.decimalDigits (vm.machine.v x)).length = none := hserved
  rw [exec_decimal_eq, vm.machine.write_of_served hlength]
  rfl

theorem exec_store {x : Register} (hserved : vm.machine.refusal (.store x) = none) :
    vm.exec setup (.store x) = .done (vm.withMachine { vm.machine with
      memory := overwrite vm.machine.memory vm.machine.index.toNat
        (vm.machine.registers.firstV x)
      index := vm.machine.indexAfterBlock setup.legacyStore x }) := by
  have hlength : Memory.refusal vm.machine.index
      (vm.machine.registers.firstV x).length = none := by
    rw [Registers.length_firstV]
    exact hserved
  rw [exec_store_eq, vm.machine.write_of_served hlength]
  rfl

theorem exec_fill {x : Register} (hserved : vm.machine.refusal (.fill x) = none) :
    vm.exec setup (.fill x) = .done (vm.withMachine { vm.machine with
      registers := vm.machine.registers.setFirstV
        (vm.machine.memory.block vm.machine.index.toNat (x.val + 1))
      index := vm.machine.indexAfterBlock setup.legacyStore x }) := by
  have hread : vm.machine.memory.read vm.machine.index (x.val + 1) =
      .ok (vm.machine.memory.block vm.machine.index.toNat (x.val + 1)) :=
    vm.machine.memory.read_of_served hserved
  rw [exec_fill_eq, hread]

/-- An instruction without a cause goes through. -/
theorem error_exec_of_served (hwithin : vm.machine.calls.Within) {instr : Instr}
    (hserved : vm.machine.refusal instr = none) :
    (vm.exec setup instr).error = none := by
  cases instr with
  | ret => rw [exec_ret hwithin hserved]; rfl
  | call address => rw [exec_call hwithin hserved]; rfl
  | draw x y rows => rw [exec_draw hserved]; rfl
  | decimal x => rw [exec_decimal hserved]; rfl
  | store x => rw [exec_store hserved]; rfl
  | fill x => rw [exec_fill hserved]; rfl
  | _ => rfl

end Vm

end Chip8
