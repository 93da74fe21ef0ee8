/-
What a step keeps.  A sound machine has lit and dark cells only, return addresses that
lie behind an instruction, and a program counter at most one skip behind the memory.
These facts lean on one another: a return restores the bound of the program counter
from the bound of the stack, and a skip keeps it because the fetch was inside.
-/
import Chip8.Proofs.Cycle
import Chip8.Proofs.Drawing

namespace Chip8

/-- Slot zero stays unused, and the open calls return behind an instruction. -/
structure CallStack.Sound (stack : CallStack) : Prop where
  within : stack.Within
  unused : stack.slots.get 0 = 0
  entries : ∀ slot : Fin 16, 0 ≤ stack.slots.get slot ∧ stack.slots.get slot ≤ 0x1000
  live : ∀ slot : Fin 16, 1 ≤ slot.val → slot.val ≤ stack.depth →
    2 ≤ stack.slots.get slot ∧ stack.slots.get slot ≤ 0x1000

structure Machine.Sound (machine : Machine) : Prop where
  display : machine.display.Binary
  calls : machine.calls.Sound
  pc : 0 ≤ machine.pc ∧ machine.pc ≤ 0x1002
  index : 0 ≤ machine.index ∧ machine.index ≤ 0xFFFF

/-- What holds of every state that a host can reach. -/
structure Vm.Sound (vm : Vm) : Prop where
  machine : vm.machine.Sound
  /-- A stopped interpreter awaits no key. -/
  apart : vm.fault = none ∨ vm.wait = none

namespace CallStack

variable {stack : CallStack}

theorem sound_empty : Sound {} := by
  constructor
  · exact ⟨by decide, by decide⟩
  · decide
  · decide
  · intro slot hfirst hlive
    change (slot.val : Int) ≤ 0 at hlive
    omega

theorem get_pushed (address : Int) (slot : Fin 16) :
    (stack.pushed address).slots.get slot =
      if stack.depth.toNat + 1 = slot.val then address else stack.slots.get slot :=
  Vector.getElem_setIfInBounds slot.isLt

theorem Sound.pushed (hsound : stack.Sound) (hroom : ¬ 15 ≤ stack.depth) {address : Int}
    (haddress : 2 ≤ address ∧ address ≤ 0x1000) : (stack.pushed address).Sound := by
  obtain ⟨⟨hlow, hhigh⟩, hunused, hentries, hlive⟩ := hsound
  refine ⟨⟨?_, ?_⟩, ?_, ?_, ?_⟩
  · simp only [CallStack.pushed]
    omega
  · simp only [CallStack.pushed]
    omega
  · have hfilled : ¬ stack.depth.toNat + 1 = (0 : Fin 16).val := Nat.succ_ne_zero _
    rw [get_pushed, if_neg hfilled]
    exact hunused
  · intro slot
    rw [get_pushed]
    split
    · omega
    · exact hentries slot
  · intro slot hfirst hdepth
    simp only [CallStack.pushed] at hdepth
    rw [get_pushed]
    split
    · exact haddress
    · exact hlive slot hfirst (by omega)

theorem Sound.popped (hsound : stack.Sound) (hopen : ¬ stack.depth = 0) :
    stack.popped.Sound := by
  obtain ⟨⟨hlow, hhigh⟩, hunused, hentries, hlive⟩ := hsound
  refine ⟨⟨?_, ?_⟩, hunused, hentries, ?_⟩
  · simp only [CallStack.popped]
    omega
  · simp only [CallStack.popped]
    omega
  · intro slot hfirst hdepth
    simp only [CallStack.popped] at hdepth
    exact hlive slot hfirst (by omega)

/-- The newest open call returns behind an instruction. -/
theorem Sound.newest (hsound : stack.Sound) (hopen : ¬ stack.depth = 0) :
    2 ≤ stack.entry stack.depth.toNat ∧ stack.entry stack.depth.toNat ≤ 0x1000 := by
  obtain ⟨hlow, hhigh⟩ := hsound.within
  have hinside : stack.depth.toNat < 16 := by omega
  have hentry : stack.entry stack.depth.toNat = stack.slots[stack.depth.toNat] := by
    simp [entry, hinside]
  rw [hentry]
  exact hsound.live ⟨stack.depth.toNat, hinside⟩ (by simp only; omega)
    (by simp only; omega)

end CallStack

namespace Machine

variable {machine : Machine}

theorem sound_fresh : fresh.Sound :=
  ⟨Display.blank_binary, CallStack.sound_empty, by decide, by decide⟩

/-- Memory and registers may hold anything. -/
theorem Sound.with_data (hsound : machine.Sound) (memory : Memory)
    (registers : Registers) : { machine with memory, registers }.Sound :=
  ⟨hsound.display, hsound.calls, hsound.pc, hsound.index⟩

theorem Sound.with_pc (hsound : machine.Sound) {pc : Int}
    (hpc : 0 ≤ pc ∧ pc ≤ 0x1002) : { machine with pc }.Sound :=
  ⟨hsound.display, hsound.calls, hpc, hsound.index⟩

theorem Sound.with_index (hsound : machine.Sound) {index : Int}
    (hindex : 0 ≤ index ∧ index ≤ 0xFFFF) : { machine with index }.Sound :=
  ⟨hsound.display, hsound.calls, hsound.pc, hindex⟩

theorem Sound.with_display (hsound : machine.Sound) {display : Display}
    (hbinary : display.Binary) : { machine with display }.Sound :=
  ⟨hbinary, hsound.calls, hsound.pc, hsound.index⟩

theorem Sound.with_calls (hsound : machine.Sound) {calls : CallStack}
    (hcalls : calls.Sound) : { machine with calls }.Sound :=
  ⟨hsound.display, hcalls, hsound.pc, hsound.index⟩

theorem Sound.skipIf (hsound : machine.Sound) (hpast : machine.pc ≤ 0x1000)
    (condition : Bool) : (machine.skipIf condition).Sound := by
  obtain ⟨hlow, -⟩ := hsound.pc
  cases condition with
  | false => exact hsound
  | true => exact hsound.with_pc (by omega)

theorem Sound.drawn (hsound : machine.Sound) (column row : Int) (height : Nat) :
    (machine.drawn column row height).1.Sound :=
  (hsound.with_display (Display.draw_binary hsound.display _)).with_data _ _

theorem Sound.indexAfterBlock (hsound : machine.Sound) (legacyStore : Bool)
    (x : Register) :
    0 ≤ machine.indexAfterBlock legacyStore x ∧
      machine.indexAfterBlock legacyStore x ≤ 0xFFFF := by
  cases legacyStore with
  | false => exact hsound.index
  | true =>
      simp only [Machine.indexAfterBlock, if_true]
      omega

end Machine

namespace Vm

variable {setup : Setup} {vm : Vm} {instr : Instr}

/-- Executing leaves the latch and the keypad alone. -/
theorem frame_exec : (vm.exec setup instr).vm.fault = vm.fault ∧
    (vm.exec setup instr).vm.keypad = vm.keypad := by
  cases instr with
  | ret | call _ | draw _ _ _ | decimal _ | store _ =>
      exact ⟨vm.fault_proceed _ _, vm.keypad_proceed _ _⟩
  | fill x => rw [exec_fill_eq]; split <;> exact ⟨rfl, rfl⟩
  | _ => exact ⟨rfl, rfl⟩

/-- One case for each instruction that is served behind its word. -/
theorem sound_exec (hsound : vm.machine.Sound)
    (hpast : 2 ≤ vm.machine.pc ∧ vm.machine.pc ≤ 0x1000)
    (hserved : vm.machine.refusal instr = none) :
    (vm.exec setup instr).vm.machine.Sound := by
  have hwithin := hsound.calls.within
  cases instr with
  | clear => exact hsound.with_display Display.blank_binary
  | ret =>
      have hopen : ¬ vm.machine.calls.depth = 0 := by
        simpa [Machine.refusal] using hserved
      have hnewest := hsound.calls.newest hopen
      rw [exec_ret hwithin hserved]
      exact (hsound.with_calls (hsound.calls.popped hopen)).with_pc (by omega)
  | call address =>
      have hroom : ¬ 15 ≤ vm.machine.calls.depth := by
        simpa [Machine.refusal] using hserved
      rw [exec_call hwithin hserved]
      -- The pushed address is the one behind the call, which is why it is at least two.
      exact (hsound.with_calls (hsound.calls.pushed hroom hpast)).with_pc (by omega)
  | jump address => exact hsound.with_pc (by omega)
  | jumpBy address => exact hsound.with_pc (by omega)
  | skipIfByte _ _ | skipUnlessByte _ _ | skipIfSame _ _ | skipUnlessSame _ _
  | skipIfKey _ | skipUnlessKey _ => exact hsound.skipIf hpast.2 _
  | setByte _ _ | addByte _ _ | move _ _ | or _ _ | and _ _ | xor _ _ | add _ _
  | sub _ _ | shiftRight _ | subFrom _ _ | shiftLeft _ | random _ _ | readDelay _
  | setDelay _ | setSound _ => exact hsound.with_data _ _
  | setIndex address => exact hsound.with_index (by omega)
  | addIndex x => exact hsound.with_index (by omega)
  | glyph x =>
      have hglyph := Font.address_bounds (vm.machine.v x).toNat
      have hsize : Font.glyphs.length = 80 := rfl
      exact hsound.with_index (by omega)
  | draw x y rows =>
      rw [exec_draw hserved]
      exact hsound.drawn _ _ _
  | decimal x =>
      rw [exec_decimal hserved]
      exact hsound.with_data _ _
  | store x =>
      rw [exec_store hserved]
      exact (hsound.with_index (hsound.indexAfterBlock _ x)).with_data _ _
  | fill x =>
      rw [exec_fill hserved]
      exact (hsound.with_index (hsound.indexAfterBlock _ x)).with_data _ _
  | waitKey _ | unknown _ => exact hsound

/-- Polling changes at most a register, and ends the key wait when it does. -/
theorem Sound.poll (hsound : vm.Sound) (x : Register) : (vm.poll x).Sound := by
  rw [Vm.poll]
  split
  · exact hsound
  · exact ⟨hsound.machine.with_data _ _, Or.inr rfl⟩

theorem Sound.step (hsound : vm.Sound) : (vm.step setup).vm.Sound := by
  have hmachine := hsound.machine
  cases vm.step_cases setup hmachine.calls.within with
  | halted fault hfault hstep =>
      rw [hstep]
      exact hsound
  | waiting x hrunning hwait hstep =>
      rw [hstep]
      exact hsound.poll x
  | refused cause hrunning hwait hrefusal hstep =>
      rw [hstep]
      exact ⟨hmachine, Or.inr hwait⟩
  | served hrunning hwait hserved hstep herror =>
      obtain ⟨hfetch, hexec⟩ := vm.machine.cycleRefusal_eq_none_iff.mp hserved
      obtain ⟨hlow, hhigh⟩ := (Memory.refusal_eq_none_iff _ _).mp hfetch
      -- The fetch was inside the memory, so one more skip still is within the bound.
      have hpast : vm.past.machine.Sound := hmachine.with_pc (by omega)
      have hbehind : 2 ≤ vm.past.machine.pc ∧ vm.past.machine.pc ≤ 0x1000 := by
        simp only [past]
        omega
      rw [← refusal_past] at hexec
      rw [hstep]
      exact ⟨sound_exec hpast hbehind hexec, Or.inl (frame_exec.1.trans hrunning)⟩

end Vm

end Chip8
