/-
What an instruction leaves alone.  A step that executes a word changes a part of the
machine only when the word has one of a few patterns, and memory, call stack and
registers only at the places that the pattern names.  There is one lemma for each part of
the machine, and each goes through the instructions by what a word spells.
-/
import Chip8.Proofs.Effects
import Chip8.Proofs.Reachable
import Chip8.Proofs.Spelling
import Mathlib.Tactic.ByContra

namespace Chip8

namespace Word

/-- The general registers that a word may write. -/
def MayWrite (word : Word) (r : Register) : Prop :=
  (word.family = 0x6 ∨ word.family = 0x7 ∨ word.family = 0xC ∨
      word.family = 0x8 ∧ word.n ≤ 0x3 ∨ word.family = 0xF ∧ word.kk = 0x07) ∧
      r = word.x ∨
    word.family = 0x8 ∧ (0x4 ≤ word.n ∧ word.n ≤ 0x7 ∨ word.n = 0xE) ∧
      (r = word.x ∨ r = Register.flag) ∨
    word.family = 0xD ∧ r = Register.flag ∨
    word.family = 0xF ∧ word.kk = 0x65 ∧ r ≤ word.x

/-- The memory cells that a word may write when the index register is at `index`. -/
def MayStore (word : Word) (index : Int) (place : Fin 4096) : Prop :=
  word.family = 0xF ∧
    (word.kk = 0x33 ∧ index ≤ place.val ∧ place.val < index + 3 ∨
      word.kk = 0x55 ∧ index ≤ place.val ∧ place.val < index + word.x.val + 1)

/-- The words that set the index register. -/
def MayMoveIndex (word : Word) (legacyStore : Bool) : Prop :=
  word.family = 0xA ∨
    word.family = 0xF ∧
      (word.kk = 0x1E ∨ word.kk = 0x29 ∨
        legacyStore = true ∧ (word.kk = 0x55 ∨ word.kk = 0x65))

end Word

theorem covered_of_get_overwrite_ne {α : Type} {size : Nat} {cells : Vector α size} {start : Nat}
    {items : List α} {place : Fin size}
    (hchanged : (overwrite cells start items).get place ≠ cells.get place) :
    start ≤ place.val ∧ place.val < start + items.length := by
  by_contra houtside
  apply hchanged
  change (overwrite cells start items)[place.val] = cells[place.val]
  rw [getElem_overwrite, dif_neg houtside]

namespace Registers

variable {registers : Registers} {x r : Register} {value : UInt8}

theorem eq_of_get_setFlagged_ne {flag : Bool}
    (hchanged : (registers.setFlagged x value flag).v.get r ≠ registers.v.get r) :
    r = x ∨ r = Register.flag := by
  by_contra hother
  obtain ⟨hx, hflag⟩ := not_or.mp hother
  apply hchanged
  calc (registers.setFlagged x value flag).v.get r
      = (registers.setV x value).v.get r := not_imp_comm.mp eq_of_get_setV_ne hflag
    _ = registers.v.get r := not_imp_comm.mp eq_of_get_setV_ne hx

theorem le_of_get_setFirstV_ne {values : List UInt8} (hlength : values.length ≤ x.val + 1)
    (hchanged : (registers.setFirstV values).v.get r ≠ registers.v.get r) : r ≤ x := by
  obtain ⟨-, hcovered⟩ := covered_of_get_overwrite_ne hchanged
  exact Fin.le_def.mpr (by omega)

end Registers

namespace Vm

variable {setup : Setup} {vm : Vm} {word : Word} {instr : Instr}

theorem display_effect (hspells : word.Spells instr)
    (hchanged : (vm.effect setup instr).machine.display ≠ vm.machine.display) :
    word = 0x00E0 ∨ word.family = 0xD := by
  cases instr with
  | clear => exact Or.inl hspells
  | draw x y rows => exact Or.inr hspells.1
  | _ => exact absurd rfl hchanged

theorem memory_effect (hindex : 0 ≤ vm.machine.index) (hspells : word.Spells instr)
    {place : Fin 4096}
    (hchanged : (vm.effect setup instr).machine.memory.get place ≠
      vm.machine.memory.get place) :
    word.MayStore vm.machine.index place := by
  cases instr with
  | decimal x =>
      obtain ⟨hstart, hend⟩ := covered_of_get_overwrite_ne hchanged
      simp only [Machine.decimalDigits, List.length_cons, List.length_nil] at hend
      exact ⟨hspells.1, Or.inl ⟨hspells.2.1, by omega⟩⟩
  | store x =>
      obtain ⟨hstart, hend⟩ := covered_of_get_overwrite_ne hchanged
      obtain ⟨hfamily, hlow, rfl⟩ := hspells
      rw [Registers.length_firstV] at hend
      exact ⟨hfamily, Or.inr ⟨hlow, by omega⟩⟩
  | _ => exact absurd rfl hchanged

theorem depth_effect (hspells : word.Spells instr)
    (hchanged : (vm.effect setup instr).machine.calls.depth ≠ vm.machine.calls.depth) :
    word.family = 0x2 ∨ word = 0x00EE := by
  cases instr with
  | call address => exact Or.inl hspells.1
  | ret => exact Or.inr hspells
  | _ => exact absurd rfl hchanged

theorem slots_effect (hdepth : 0 ≤ vm.machine.calls.depth) (hspells : word.Spells instr)
    {slot : Fin 16}
    (hchanged : (vm.effect setup instr).machine.calls.slots.get slot ≠
      vm.machine.calls.slots.get slot) :
    word.family = 0x2 ∧ slot.val = vm.machine.calls.depth + 1 := by
  cases instr with
  | call address =>
      refine ⟨hspells.1, ?_⟩
      by_contra hother
      apply hchanged
      exact (vm.machine.calls.get_pushed _ slot).trans (if_neg (by omega))
  | _ => exact absurd rfl hchanged

theorem index_effect (hspells : word.Spells instr)
    (hchanged : (vm.effect setup instr).machine.index ≠ vm.machine.index) :
    word.MayMoveIndex setup.legacyStore := by
  cases instr with
  | setIndex address => exact Or.inl hspells.1
  | addIndex x => exact Or.inr ⟨hspells.1, Or.inl hspells.2.1⟩
  | glyph x => exact Or.inr ⟨hspells.1, Or.inr (Or.inl hspells.2.1)⟩
  | store x =>
      cases hlegacy : setup.legacyStore with
      | true => exact Or.inr ⟨hspells.1, Or.inr (Or.inr ⟨rfl, Or.inl hspells.2.1⟩)⟩
      | false => simp [effect, Machine.indexAfterBlock, hlegacy] at hchanged
  | fill x =>
      cases hlegacy : setup.legacyStore with
      | true => exact Or.inr ⟨hspells.1, Or.inr (Or.inr ⟨rfl, Or.inr hspells.2.1⟩)⟩
      | false => simp [effect, Machine.indexAfterBlock, hlegacy] at hchanged
  | _ => exact absurd rfl hchanged

theorem delay_effect (hspells : word.Spells instr)
    (hchanged : (vm.effect setup instr).machine.registers.delay ≠
      vm.machine.registers.delay) :
    word.family = 0xF ∧ word.kk = 0x15 := by
  cases instr with
  | setDelay x => exact ⟨hspells.1, hspells.2.1⟩
  | _ => exact absurd rfl hchanged

theorem sound_effect (hspells : word.Spells instr)
    (hchanged : (vm.effect setup instr).machine.registers.sound ≠
      vm.machine.registers.sound) :
    word.family = 0xF ∧ word.kk = 0x18 := by
  cases instr with
  | setSound x => exact ⟨hspells.1, hspells.2.1⟩
  | _ => exact absurd rfl hchanged

theorem wait_effect (hspells : word.Spells instr)
    (hchanged : (vm.effect setup instr).wait ≠ vm.wait) :
    word.family = 0xF ∧ word.kk = 0x0A := by
  cases instr with
  | waitKey x => exact ⟨hspells.1, hspells.2.1⟩
  | _ => exact absurd rfl hchanged

theorem v_effect (hspells : word.Spells instr) {r : Register}
    (hchanged : (vm.effect setup instr).machine.v r ≠ vm.machine.v r) :
    word.MayWrite r := by
  cases instr with
  | setByte x _ | addByte x _ | random x _ =>
      obtain rfl := Registers.eq_of_get_setV_ne hchanged
      obtain ⟨hfamily, hx, -⟩ := hspells
      simp [Word.MayWrite, hfamily, hx]
  | move x _ | or x _ | and x _ | xor x _ =>
      obtain rfl := Registers.eq_of_get_setV_ne hchanged
      obtain ⟨hfamily, hlow, hx, -⟩ := hspells
      simp [Word.MayWrite, hfamily, hlow, hx]
  | readDelay x =>
      obtain rfl := Registers.eq_of_get_setV_ne hchanged
      obtain ⟨hfamily, hlow, hx⟩ := hspells
      simp [Word.MayWrite, hfamily, hlow, hx]
  | add x _ | sub x _ | subFrom x _ =>
      obtain ⟨hfamily, hlow, rfl, -⟩ := hspells
      have hwritten := Registers.eq_of_get_setFlagged_ne hchanged
      simp [Word.MayWrite, hfamily, hlow, hwritten]
  | shiftRight x | shiftLeft x =>
      obtain ⟨hfamily, hlow, rfl⟩ := hspells
      have hwritten := Registers.eq_of_get_setFlagged_ne hchanged
      simp [Word.MayWrite, hfamily, hlow, hwritten]
  | draw x y rows =>
      obtain rfl := Registers.eq_of_get_setV_ne hchanged
      simp [Word.MayWrite, hspells.1]
  | fill x =>
      obtain ⟨hfamily, hlow, rfl⟩ := hspells
      have hlength : (vm.machine.memory.block vm.machine.index.toNat (word.x.val + 1)).length ≤
          word.x.val + 1 := List.length_take_le _ _
      have hcovered := Registers.le_of_get_setFirstV_ne hlength hchanged
      simp [Word.MayWrite, hfamily, hlow, hcovered]
  | _ => exact absurd rfl hchanged

theorem drawn_effect_of_ne (hrandom : ∀ x kk, instr ≠ .random x kk) :
    (vm.effect setup instr).drawn = vm.drawn := by
  cases instr with
  | random x kk => exact absurd rfl (hrandom x kk)
  | _ => rfl

theorem drawn_effect :
    (vm.effect setup (.ofWord word)).drawn =
      vm.drawn + if word.family = 0xC then 1 else 0 := by
  by_cases hfamily : word.family = 0xC
  · rw [if_pos hfamily, Instr.ofWord_of_random word (congrArg Fin.val hfamily)]
    rfl
  · rw [if_neg hfamily]
    apply drawn_effect_of_ne
    intro x kk hinstr
    have hspells := word.spells_ofWord
    rw [hinstr] at hspells
    exact hfamily hspells.1

/-- What a step that executes a word may change: a part of the state only for the words
that are named, and only at the places that are named. -/
structure Frame (setup : Setup) (word : Word) (before after : Vm) : Prop where
  display : after.machine.display ≠ before.machine.display →
    word = 0x00E0 ∨ word.family = 0xD
  memory : ∀ place, after.machine.memory.get place ≠ before.machine.memory.get place →
    word.MayStore before.machine.index place
  depth : after.machine.calls.depth ≠ before.machine.calls.depth →
    word.family = 0x2 ∨ word = 0x00EE
  /-- A call fills the slot above the depth, and a return leaves the slots alone. -/
  slots : ∀ slot,
    after.machine.calls.slots.get slot ≠ before.machine.calls.slots.get slot →
      word.family = 0x2 ∧ slot.val = before.machine.calls.depth + 1
  index : after.machine.index ≠ before.machine.index →
    word.MayMoveIndex setup.legacyStore
  delay : after.machine.registers.delay ≠ before.machine.registers.delay →
    word.family = 0xF ∧ word.kk = 0x15
  sound : after.machine.registers.sound ≠ before.machine.registers.sound →
    word.family = 0xF ∧ word.kk = 0x18
  registers : ∀ r, after.machine.v r ≠ before.machine.v r → word.MayWrite r
  wait : after.wait ≠ before.wait → word.family = 0xF ∧ word.kk = 0x0A
  drawn : after.drawn = before.drawn + if word.family = 0xC then 1 else 0
  keypad : after.keypad = before.keypad
  fault : after.fault = before.fault
  /-- An unassigned word moves the program counter and nothing else. -/
  unassigned : word.Unassigned → after = before.past

/-- Every reachable state, and every word at its program counter. -/
theorem step_frame (hreachable : Reachable setup vm) (hrunning : vm.fault = none)
    (hidle : vm.wait = none) (hreturns : (vm.step setup).error = none) :
    Frame setup vm.machine.fetched vm (vm.step setup).vm := by
  have hsound := hreachable.sound.machine
  have hexecuted : vm.executed setup = some vm.machine.fetched :=
    if_pos ⟨hrunning, hidle, hreturns⟩
  have hexecutes := executes_of_executed hsound.calls.within hexecuted
  have hspells := vm.machine.fetched.spells_ofWord
  obtain ⟨hfault, hkeypad⟩ :
      (vm.past.exec setup (.ofWord vm.machine.fetched)).vm.fault = vm.past.fault ∧
        (vm.past.exec setup (.ofWord vm.machine.fetched)).vm.keypad = vm.past.keypad :=
    frame_exec
  have hindex : 0 ≤ vm.past.machine.index := hsound.index.1
  have hdepth : 0 ≤ vm.past.machine.calls.depth := hsound.calls.within.1
  rw [← hexecutes.step] at hfault hkeypad
  rw [hexecutes.effect] at hfault hkeypad ⊢
  exact {
    display := display_effect hspells
    memory := fun _ => memory_effect hindex hspells
    depth := depth_effect hspells
    slots := fun _ => slots_effect hdepth hspells
    index := index_effect hspells
    delay := delay_effect hspells
    sound := sound_effect hspells
    registers := fun _ => v_effect hspells
    wait := wait_effect hspells
    drawn := drawn_effect
    keypad := hkeypad
    fault := hfault
    unassigned := fun hword => by
      rw [Word.ofWord_of_unassigned hword]
      rfl }

/-- A block store that overwrites the start of its own program. -/
theorem step_frame_store :
    let setup : Setup := { random := fun _ => 0, legacyStore := true }
    let vm := Vm.fresh.run setup [.load [0x61, 0x2A, 0xA2, 0x00, 0xF1, 0x55], .step, .step]
    Reachable setup vm ∧ vm.fault = none ∧ vm.wait = none ∧
      (vm.step setup).error = none ∧ vm.machine.fetched = 0xF155 ∧
      Frame setup 0xF155 vm (vm.step setup).vm := by
  intro setup vm
  have hreachable : Reachable setup vm := ⟨_, by decide, rfl⟩
  obtain ⟨hrunning, hidle, hreturns, hword⟩ :
      vm.fault = none ∧ vm.wait = none ∧ (vm.step setup).error = none ∧
        vm.machine.fetched = 0xF155 := by
    decide +kernel
  have hframe := step_frame hreachable hrunning hidle hreturns
  rw [hword] at hframe
  exact ⟨hreachable, hrunning, hidle, hreturns, hword, hframe⟩

end Vm

end Chip8
