/-
Where a program goes on.  What decides it is the word that is executed and the state before
it: jumps and calls name an address, a return takes the newest open call, a word whose
condition holds passes over the word behind it, and every other word goes on right behind
itself.  No address is wrapped but that of a jump by a register.
-/
import Chip8.Proofs.Frames

namespace Chip8

namespace Word

variable {word : Word}

/-- A return is a word of the first family. -/
theorem ne_ret_of_family (hfamily : word.family ≠ 0x0) : word ≠ 0x00EE := by
  rintro rfl
  exact hfamily rfl

end Word

namespace Vm

/-- The word has a condition on registers or keys, and the condition holds. -/
def Skips (vm : Vm) (word : Word) : Prop :=
  let left := vm.machine.v word.x
  let right := vm.machine.v word.y
  let down := vm.keypad.isPressed (left.toNat % 16)
  word.family = 0x3 ∧ left = word.kk ∨
    word.family = 0x4 ∧ left ≠ word.kk ∨
    word.family = 0x5 ∧ word.n = 0x0 ∧ left = right ∨
    word.family = 0x9 ∧ word.n = 0x0 ∧ left ≠ right ∨
    word.family = 0xE ∧ word.kk = 0x9E ∧ down = true ∨
    word.family = 0xE ∧ word.kk = 0xA1 ∧ down = false

instance (vm : Vm) (word : Word) : Decidable (vm.Skips word) :=
  inferInstanceAs (Decidable (_ ∨ _))

/-- The address at which a program goes on behind a word at the program counter. -/
def successor (vm : Vm) (word : Word) : Int :=
  if word.family = 0x1 ∨ word.family = 0x2 then word.nnn.val
  else if word.family = 0xB then ((vm.machine.v 0).toNat + word.nnn.val) % 4096
  else if word = 0x00EE then vm.machine.calls.entry vm.machine.calls.depth.toNat
  else if vm.Skips word then vm.machine.pc + 4
  else vm.machine.pc + 2

variable {setup : Setup} {vm : Vm} {word : Word} {instr : Instr}

/-- A word that names no address goes on behind itself, or one word further. -/
theorem successor_of_unnamed
    (hnames : ¬ (word.family = 0x1 ∨ word.family = 0x2 ∨ word.family = 0xB ∨ word = 0x00EE)) :
    vm.successor word = if vm.Skips word then vm.machine.pc + 4 else vm.machine.pc + 2 := by
  simp only [not_or] at hnames
  obtain ⟨hjump, hcall, hjumpBy, hret⟩ := hnames
  simp only [successor, hjump, hcall, hjumpBy, hret, or_self, if_false]

@[simp] theorem v_past (x : Register) : vm.past.machine.v x = vm.machine.v x := rfl

@[simp] theorem keypad_past : vm.past.keypad = vm.keypad := rfl

theorem pc_skipping (condition : Bool) :
    (vm.past.skipping condition).machine.pc =
      if condition then vm.machine.pc + 4 else vm.machine.pc + 2 := by
  cases condition with
  | true => exact Int.add_assoc _ 2 2
  | false => rfl

/-- The families without a jump and without a condition. -/
theorem successor_of_plain (hfamily : word.family ∈ [0x6, 0x7, 0x8, 0xA, 0xC, 0xD, 0xF]) :
    vm.successor word = vm.machine.pc + 2 := by
  have hret : word ≠ 0x00EE := Word.ne_ret_of_family (by rintro hzero; simp [hzero] at hfamily)
  simp only [List.mem_cons, List.not_mem_nil, or_false] at hfamily
  rcases hfamily with hfamily | hfamily | hfamily | hfamily | hfamily | hfamily | hfamily <;>
    simp [successor, Skips, hfamily, hret]

/-- The families with a condition. -/
theorem successor_of_condition (hfamily : word.family ∈ [0x3, 0x4, 0x5, 0x9, 0xE])
    {condition : Bool} (hcondition : vm.Skips word ↔ condition = true) :
    vm.successor word = (vm.past.skipping condition).machine.pc := by
  have hret : word ≠ 0x00EE := Word.ne_ret_of_family (by rintro hzero; simp [hzero] at hfamily)
  simp only [List.mem_cons, List.not_mem_nil, or_false] at hfamily
  rw [successor_of_unnamed (by grind), pc_skipping]
  simp only [hcondition]

theorem successor_of_unassigned (hword : word.Unassigned) :
    vm.successor word = vm.machine.pc + 2 := by
  rcases hword with ⟨hfamily, -, hret⟩ | ⟨hfamily | hfamily, hlow⟩ | ⟨hfamily, -⟩ |
    ⟨hfamily, hdown, hup⟩ | ⟨hfamily, -⟩
  · simp [successor, Skips, hfamily, hret]
  · have hret := Word.ne_ret_of_family (by rw [hfamily]; decide)
    simp [successor, Skips, hfamily, hret, hlow]
  · have hret := Word.ne_ret_of_family (by rw [hfamily]; decide)
    simp [successor, Skips, hfamily, hret, hlow]
  · exact successor_of_plain (by simp [hfamily])
  · have hret := Word.ne_ret_of_family (by rw [hfamily]; decide)
    simp [successor, Skips, hfamily, hret, hdown, hup]
  · exact successor_of_plain (by simp [hfamily])

/-- One case for each way of going on. -/
theorem pc_effect (hspells : word.Spells instr) :
    (vm.past.effect setup instr).machine.pc = vm.successor word := by
  cases instr with
  | jump address =>
      obtain ⟨hfamily, rfl⟩ := hspells
      exact (if_pos (Or.inl hfamily)).symm
  | call address =>
      obtain ⟨hfamily, rfl⟩ := hspells
      exact (if_pos (Or.inr hfamily)).symm
  | jumpBy address =>
      obtain ⟨hfamily, rfl⟩ := hspells
      rw [successor, if_neg (by simp [hfamily]), if_pos hfamily]
      rfl
  | ret =>
      obtain rfl := hspells
      rfl
  | skipIfByte _ _ | skipUnlessByte _ _ =>
      obtain ⟨hfamily, rfl, rfl⟩ := hspells
      exact (successor_of_condition (by simp [hfamily]) (by simp [Skips, hfamily])).symm
  | skipIfSame _ _ | skipUnlessSame _ _ =>
      obtain ⟨hfamily, hlow, rfl, rfl⟩ := hspells
      exact (successor_of_condition (by simp [hfamily]) (by simp [Skips, hfamily, hlow])).symm
  | skipIfKey _ | skipUnlessKey _ =>
      obtain ⟨hfamily, hlow, rfl⟩ := hspells
      exact (successor_of_condition (by simp [hfamily]) (by simp [Skips, hfamily, hlow])).symm
  | clear =>
      obtain rfl := hspells
      have hfamily : Word.family 0x00E0 = 0x0 := rfl
      rw [successor_of_unnamed (by decide), if_neg (by simp [Skips, hfamily])]
      rfl
  | unknown passed =>
      obtain ⟨rfl, hword⟩ := hspells
      exact (successor_of_unassigned hword).symm
  | _ =>
      obtain ⟨hfamily, -⟩ := hspells
      exact (successor_of_plain (by simp [hfamily])).symm

/-- A step of a running interpreter that goes through leaves the program counter where the
word at the old one sends it. -/
theorem pc_step (hreachable : Reachable setup vm) (hrunning : vm.fault = none)
    (hidle : vm.wait = none) (hreturns : (vm.step setup).error = none) :
    vm.machine.memory.word vm.machine.pc = .ok vm.machine.fetched ∧
      (vm.step setup).vm.machine.pc = vm.successor vm.machine.fetched := by
  have hexecuted : vm.executed setup = some vm.machine.fetched :=
    if_pos ⟨hrunning, hidle, hreturns⟩
  have hexecutes := executes_of_executed hreachable.sound.machine.calls.within hexecuted
  obtain ⟨hfetch, -⟩ := vm.machine.cycleRefusal_eq_none_iff.mp hexecutes.served
  rw [hexecutes.effect]
  exact ⟨vm.machine.word_of_served hfetch, pc_effect (Word.spells_ofWord _)⟩

/-- A word with a condition is stored into the last cells.  Its condition holds, and the
program goes on behind the end of the memory. -/
theorem pc_step_last :
    let setup : Setup := { random := fun _ => 0 }
    let vm := Vm.fresh.run setup [.load [0x60, 0x40, 0xAF, 0xFE, 0xF0, 0x55, 0x1F, 0xFE],
      .step, .step, .step, .step]
    Reachable setup vm ∧ vm.fault = none ∧ vm.wait = none ∧ (vm.step setup).error = none ∧
      vm.machine.memory.word 0xFFE = .ok 0x4000 ∧ vm.Skips 0x4000 ∧
      (vm.step setup).vm.machine.pc = 0x1002 := by
  intro setup vm
  have hreachable : Reachable setup vm := ⟨_, by decide, rfl⟩
  obtain ⟨hrunning, hidle, hreturns, hpc, hfetched, hskips⟩ :
      vm.fault = none ∧ vm.wait = none ∧ (vm.step setup).error = none ∧
        vm.machine.pc = 0xFFE ∧ vm.machine.fetched = 0x4000 ∧ vm.Skips 0x4000 := by
    decide +kernel
  obtain ⟨hword, hnext⟩ := pc_step hreachable hrunning hidle hreturns
  rw [hpc, hfetched] at hword
  rw [hfetched, successor_of_unnamed (by decide), if_pos hskips, hpc] at hnext
  exact ⟨hreachable, hrunning, hidle, hreturns, hword, hskips, hnext⟩

end Vm

end Chip8
