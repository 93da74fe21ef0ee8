/-
Block transfers.  A block of registers that is stored is read back as it was, a block that is
read and stored again leaves the memory as it was, and blocks that are stored back to back are
read back in their order.  The decimal digits of a byte are read back as its digits.
-/
import Chip8.Proofs.Frames
import Mathlib.Algebra.Ring.Nat
import Mathlib.Data.List.Forall2

namespace Chip8

/-- The word of family `F` with a register and a low byte. -/
def Word.misc (x : Register) (low : UInt8) : Word :=
  UInt16.ofNat (0xF000 + 256 * x.val + low.toNat)

theorem Word.ofWord_misc (x : Register) :
    .ofWord (misc x 0x55) = Instr.store x ∧ .ofWord (misc x 0x65) = Instr.fill x ∧
      .ofWord (misc x 0x33) = Instr.decimal x := by
  revert x
  decide

section Overwriting

variable {α : Type} {size start : Nat} (cells : Vector α size)

/-- What is put over a run of cells is found there. -/
theorem take_drop_overwrite {items : List α} (hinside : start + items.length ≤ size) :
    ((overwrite cells start items).toList.drop start).take items.length = items := by
  apply List.ext_getElem
  · simp only [List.length_take, List.length_drop, Vector.length_toList]
    omega
  · intro offset hleft hright
    simp only [List.getElem_take, List.getElem_drop, Vector.getElem_toList]
    rw [getElem_overwrite, dif_pos ⟨by omega, by omega⟩]
    simp only [Nat.add_sub_cancel_left]

/-- Putting a run of cells over itself changes nothing. -/
theorem overwrite_take_drop (length : Nat) :
    overwrite cells start ((cells.toList.drop start).take length) = cells := by
  apply Vector.ext
  intro place hplace
  rw [getElem_overwrite]
  split
  case isTrue hcovered =>
    simp only [List.getElem_take, List.getElem_drop, Vector.getElem_toList,
      Nat.add_sub_cancel' hcovered.1]
  case isFalse => rfl

/-- Two runs of cells that follow each other are one. -/
theorem overwrite_append (first second : List α) :
    overwrite (overwrite cells start first) (start + first.length) second =
      overwrite cells start (first ++ second) := by
  induction first generalizing cells start with
  | nil => rfl
  | cons item rest ih =>
      rw [List.cons_append, overwrite, overwrite, ← ih, List.length_cons]
      congr 1
      omega

end Overwriting

/-- The registers up to a last one, which are stored as one block. -/
structure Block where
  last : Register
  registers : Registers

namespace Block

def size (block : Block) : Nat :=
  block.last.val + 1

/-- The bytes of the block. -/
def values (block : Block) : List UInt8 :=
  block.registers.firstV block.last

/-- The event that reads the block back. -/
def fill (block : Block) : Event :=
  .exec (.misc block.last 0x65)

end Block

namespace Vm

/-- The state with another index register and other registers. -/
def placed (vm : Vm) (index : Int) (registers : Registers) : Vm :=
  { vm with machine.index := index, machine.registers := registers }

/-- Store blocks one after the other, each from registers of its own.  There is no state behind
a block that is refused. -/
def storeBlocks (setup : Setup) (vm : Vm) : List Block → Option Vm
  | [] => some vm
  | block :: rest =>
      let stored := { vm with machine.registers := block.registers }.exec setup
        (.ofWord (.misc block.last 0x55))
      if stored.error = none then stored.vm.storeBlocks setup rest else none

/-- What a transfer of the registers up to `Vx` leaves alone, in either direction, and where it
leaves the index register. -/
structure Transfers (setup : Setup) (x : Register) (before after : Vm) : Prop where
  memory : ∀ place : Fin 4096,
    place.val < before.machine.index ∨ before.machine.index + x.val < place.val →
      after.machine.memory.get place = before.machine.memory.get place
  registers : ∀ r, x < r → after.machine.v r = before.machine.v r
  delay : after.machine.registers.delay = before.machine.registers.delay
  sound : after.machine.registers.sound = before.machine.registers.sound
  index : after.machine.index =
    if setup.legacyStore then before.machine.index + x.val + 1 else before.machine.index

end Vm

namespace Memory

variable (memory : Memory) {address : Nat}

theorem block_overwrite {bytes : List UInt8} {length : Nat} (hlength : bytes.length = length)
    (hinside : address + length ≤ 4096) :
    Memory.block (overwrite memory address bytes) address length = bytes := by
  subst hlength
  exact take_drop_overwrite memory hinside

theorem overwrite_block (length : Nat) :
    overwrite memory address (memory.block address length) = memory :=
  overwrite_take_drop memory length

theorem block_add (first second : Nat) :
    memory.block address (first + second) =
      memory.block address first ++ memory.block (address + first) second := by
  rw [block, block, block, List.take_add, List.drop_drop]

end Memory

namespace Registers

variable {first second : Registers} {x : Register}

theorem getElem?_firstV (registers : Registers) {r : Register} (hr : r ≤ x) :
    (registers.firstV x)[r.val]? = some (registers.v.get r) := by
  have hplace : r.val < x.val + 1 := Nat.lt_succ_of_le (Fin.le_def.mp hr)
  have hcell : registers.v[r.val]? = some (registers.v.get r) :=
    Vector.getElem?_eq_getElem r.isLt
  simpa [firstV, hplace] using hcell

theorem get_eq_of_firstV_eq (hsame : first.firstV x = second.firstV x) {r : Register}
    (hr : r ≤ x) : first.v.get r = second.v.get r := by
  have hentry := congrArg (·[r.val]?) hsame
  simpa only [getElem?_firstV _ hr, Option.some.injEq] using hentry

theorem v_of_firstV_two {registers : Registers} {zero one two : UInt8}
    (hvalues : registers.firstV 2 = [zero, one, two]) :
    registers.v.get 0 = zero ∧ registers.v.get 1 = one ∧ registers.v.get 2 = two := by
  have hentry (r : Register) (hr : r ≤ 2) :
      some (registers.v.get r) = [zero, one, two][r.val]? := by
    rw [← hvalues, getElem?_firstV registers hr]
  exact ⟨Option.some.inj (hentry 0 (by decide)), Option.some.inj (hentry 1 (by decide)),
    Option.some.inj (hentry 2 (by decide))⟩

end Registers

theorem Block.length_values (blocks : List Block) :
    (blocks.flatMap Block.values).length = (blocks.map Block.size).sum := by
  simp only [List.length_flatMap, Block.values, Registers.length_firstV]
  rfl

namespace Vm

variable {setup : Setup} {vm : Vm} {x : Register}

theorem served_of_fits (hlow : 0 ≤ vm.machine.index)
    (hfits : vm.machine.index + x.val + 1 ≤ 4096) :
    vm.machine.refusal (.store x) = none ∧ vm.machine.refusal (.fill x) = none :=
  have hserved : Memory.refusal vm.machine.index (x.val + 1 : Nat) = none :=
    (Memory.refusal_eq_none_iff _ _).mpr ⟨hlow, by omega⟩
  ⟨hserved, hserved⟩

theorem exec_store_misc (hlow : 0 ≤ vm.machine.index)
    (hfits : vm.machine.index + x.val + 1 ≤ 4096) :
    vm.exec setup (.ofWord (.misc x 0x55)) = .done (vm.effect setup (.store x)) := by
  rw [(Word.ofWord_misc x).1, exec_store (served_of_fits hlow hfits).1]
  rfl

theorem exec_fill_misc (hlow : 0 ≤ vm.machine.index)
    (hfits : vm.machine.index + x.val + 1 ≤ 4096) :
    vm.exec setup (.ofWord (.misc x 0x65)) = .done (vm.effect setup (.fill x)) := by
  rw [(Word.ofWord_misc x).2.1, exec_fill (served_of_fits hlow hfits).2]
  rfl

theorem indexAfterBlock_of_fits (hlow : 0 ≤ vm.machine.index)
    (hfits : vm.machine.index + x.val + 1 ≤ 4096) :
    vm.machine.indexAfterBlock setup.legacyStore x =
      if setup.legacyStore then vm.machine.index + x.val + 1 else vm.machine.index := by
  rw [Machine.indexAfterBlock]
  split
  · omega
  · rfl

theorem transfers_store (hlow : 0 ≤ vm.machine.index)
    (hfits : vm.machine.index + x.val + 1 ≤ 4096) :
    Transfers setup x vm (vm.effect setup (.store x)) := by
  constructor
  case memory =>
    intro place houtside
    by_contra hchanged
    obtain ⟨hstart, hend⟩ := covered_of_get_overwrite_ne hchanged
    rw [Registers.length_firstV] at hend
    omega
  case registers => exact fun r _ => rfl
  case delay | sound => rfl
  case index => exact indexAfterBlock_of_fits hlow hfits

theorem transfers_fill (hlow : 0 ≤ vm.machine.index)
    (hfits : vm.machine.index + x.val + 1 ≤ 4096) :
    Transfers setup x vm (vm.effect setup (.fill x)) := by
  constructor
  case memory => exact fun place _ => rfl
  case registers =>
    intro r hr
    by_contra hchanged
    have hlength : (vm.machine.memory.block vm.machine.index.toNat (x.val + 1)).length ≤
        x.val + 1 := List.length_take_le _ _
    exact absurd (Registers.le_of_get_setFirstV_ne hlength hchanged) (Fin.not_le.mpr hr)
  case delay | sound => rfl
  case index => exact indexAfterBlock_of_fits hlow hfits

/-- A fill reads the bytes at the index register. -/
theorem firstV_effect_fill (vm : Vm) (hfits : vm.machine.index.toNat + x.val + 1 ≤ 4096) :
    (vm.effect setup (.fill x)).machine.registers.firstV x =
      vm.machine.memory.block vm.machine.index.toNat (x.val + 1) :=
  Registers.firstV_setFirstV _ (Memory.length_block _ hfits)

/-- A store leaves its registers at the index register. -/
theorem block_effect_store (hfits : vm.machine.index.toNat + x.val + 1 ≤ 4096) :
    (vm.effect setup (.store x)).machine.memory.block vm.machine.index.toNat (x.val + 1) =
      vm.machine.registers.firstV x :=
  Memory.block_overwrite _ (vm.machine.registers.length_firstV x) hfits

/-- Blocks that are stored one after the other lie back to back. -/
theorem exists_storeBlocks (vm : Vm) (hlegacy : setup.legacyStore = true) {blocks : List Block}
    (hlow : 0 ≤ vm.machine.index)
    (hfits : vm.machine.index + (blocks.map Block.size).sum ≤ 4096) :
    ∃ stored, vm.storeBlocks setup blocks = some stored ∧
      stored.machine.index = vm.machine.index + (blocks.map Block.size).sum ∧
      stored.machine.memory = overwrite vm.machine.memory vm.machine.index.toNat
        (blocks.flatMap Block.values) := by
  induction blocks generalizing vm with
  | nil => exact ⟨vm, rfl, (Int.add_zero _).symm, rfl⟩
  | cons block rest ih =>
      rw [List.map_cons, List.sum_cons, Block.size] at hfits
      let loaded : Vm := { vm with machine.registers := block.registers }
      let next : Vm := loaded.effect setup (.store block.last)
      have hhere : loaded.machine.index + block.last.val + 1 ≤ 4096 := by
        simp only [loaded]
        omega
      have hexec : loaded.exec setup (.ofWord (.misc block.last 0x55)) = .done next :=
        exec_store_misc hlow hhere
      have htransfers : Transfers setup block.last loaded next := transfers_store hlow hhere
      have hindex : next.machine.index = vm.machine.index + block.last.val + 1 := by
        rw [htransfers.index, hlegacy, if_pos rfl]
      have hbehind : next.machine.index.toNat =
          vm.machine.index.toNat + block.values.length := by
        rw [hindex, Block.values, Registers.length_firstV]
        omega
      obtain ⟨stored, hstored, hreached, hmemory⟩ := ih next (by omega) (by omega)
      refine ⟨stored, ?_, ?_, ?_⟩
      · simp only [storeBlocks, loaded, hexec] at hstored ⊢
        exact hstored
      · rw [hreached, hindex, List.map_cons, List.sum_cons, Block.size]
        omega
      · rw [hmemory, hbehind, List.flatMap_cons, ← overwrite_append]
        rfl

/-- Blocks that lie back to back at the index register are read back in their order. -/
theorem forall₂_fills (vm : Vm) (hlegacy : setup.legacyStore = true) {blocks : List Block}
    (hlow : 0 ≤ vm.machine.index)
    (hfits : vm.machine.index + (blocks.map Block.size).sum ≤ 4096)
    (hblocks : vm.machine.memory.block vm.machine.index.toNat (blocks.map Block.size).sum =
      blocks.flatMap Block.values) :
    List.Forall₂ (fun block outcome => outcome.error = none ∧
        outcome.vm.machine.registers.firstV block.last = block.values)
      blocks (vm.outcomes setup (blocks.map Block.fill)) := by
  induction blocks generalizing vm with
  | nil => exact .nil
  | cons block rest ih =>
      rw [List.map_cons, List.sum_cons, Block.size] at hfits hblocks
      let next : Vm := vm.effect setup (.fill block.last)
      have hhere : vm.machine.index + block.last.val + 1 ≤ 4096 := by omega
      have hexec : vm.handle setup block.fill = .done next := exec_fill_misc hlow hhere
      have htransfers : Transfers setup block.last vm next := transfers_fill hlow hhere
      have hindex : next.machine.index = vm.machine.index + block.last.val + 1 := by
        rw [htransfers.index, hlegacy, if_pos rfl]
      have hbehind : next.machine.index.toNat =
          vm.machine.index.toNat + (block.last.val + 1) := by omega
      have hlength : (vm.machine.memory.block vm.machine.index.toNat
          (block.last.val + 1)).length = block.values.length := by
        rw [Memory.length_block _ (by omega), Block.values, Registers.length_firstV]
      rw [Memory.block_add, List.flatMap_cons] at hblocks
      obtain ⟨hfirst, hrest⟩ := List.append_inj hblocks hlength
      rw [List.map_cons, outcomes, hexec]
      refine .cons ⟨rfl, (vm.firstV_effect_fill (by omega)).trans hfirst⟩
        (ih next (by omega) (by omega) ?_)
      rw [hbehind]
      exact hrest

/-- A block that is stored is read back, whatever the registers are given in between. -/
theorem firstV_fill_store (hfits : vm.machine.index.toNat + x.val + 1 ≤ 4096)
    (registers : Registers) :
    let placed := (vm.effect setup (.store x)).placed vm.machine.index registers
    (placed.effect setup (.fill x)).machine.registers.firstV x =
      vm.machine.registers.firstV x := by
  intro placed
  have hread : (placed.effect setup (.fill x)).machine.registers.firstV x =
      (vm.effect setup (.store x)).machine.memory.block vm.machine.index.toNat (x.val + 1) :=
    placed.firstV_effect_fill hfits
  exact hread.trans (block_effect_store hfits)

/-- A block that is read and stored again leaves the memory as it was. -/
theorem memory_store_fill (hfits : vm.machine.index.toNat + x.val + 1 ≤ 4096) :
    let filled := vm.effect setup (.fill x)
    ((filled.placed vm.machine.index filled.machine.registers).effect setup
      (.store x)).machine.memory = vm.machine.memory := by
  intro filled
  have hstored : ((filled.placed vm.machine.index filled.machine.registers).effect setup
      (.store x)).machine.memory = overwrite vm.machine.memory vm.machine.index.toNat
        (filled.machine.registers.firstV x) := rfl
  rw [hstored, vm.firstV_effect_fill hfits, Memory.overwrite_block]

theorem decimalDigits_eq (value : UInt8) :
    ∃ hundreds tens ones : UInt8, Machine.decimalDigits value = [hundreds, tens, ones] ∧
      hundreds.toNat ≤ 9 ∧ tens.toNat ≤ 9 ∧ ones.toNat ≤ 9 ∧
      100 * hundreds.toNat + 10 * tens.toNat + ones.toNat = value.toNat := by
  have hbound := value.toNat_lt
  refine ⟨_, _, _, rfl, ?_⟩
  simp only [UInt8.toNat_div, UInt8.toNat_mod, UInt8.reduceToNat]
  omega

/-- The digits that are written at the index register are read back as three registers. -/
theorem digits_fill_decimal (hlow : 0 ≤ vm.machine.index) (hfits : vm.machine.index + 3 ≤ 4096)
    (x : Register) :
    ∃ written back, vm.exec setup (.ofWord (.misc x 0x33)) = .done written ∧
      (written.placed vm.machine.index written.machine.registers).exec setup (.ofWord 0xF265) =
        .done back ∧
      (back.machine.v 0).toNat ≤ 9 ∧ (back.machine.v 1).toNat ≤ 9 ∧
      (back.machine.v 2).toNat ≤ 9 ∧
      100 * (back.machine.v 0).toNat + 10 * (back.machine.v 1).toNat +
        (back.machine.v 2).toNat = (vm.machine.v x).toNat := by
  have hserved : vm.machine.refusal (.decimal x) = none :=
    (Memory.refusal_eq_none_iff _ _).mpr ⟨hlow, hfits⟩
  let written : Vm := vm.effect setup (.decimal x)
  let placed : Vm := written.placed vm.machine.index written.machine.registers
  have hexec : vm.exec setup (.ofWord (.misc x 0x33)) = .done written := by
    rw [(Word.ofWord_misc x).2.2, exec_decimal hserved]
    rfl
  have hword : (0xF265 : Word) = .misc 2 0x65 := by decide
  have hplaced : placed.machine.index + (2 : Register).val + 1 ≤ 4096 := by
    have hindex : placed.machine.index = vm.machine.index := rfl
    have hlast : (2 : Register).val = 2 := rfl
    omega
  have hback : placed.exec setup (.ofWord 0xF265) = .done (placed.effect setup (.fill 2)) := by
    rw [hword]
    exact exec_fill_misc hlow hplaced
  obtain ⟨hundreds, tens, ones, hdigits, hbounds⟩ := decimalDigits_eq (vm.machine.v x)
  have hread : (placed.effect setup (.fill 2)).machine.registers.firstV 2 =
      [hundreds, tens, ones] := by
    rw [placed.firstV_effect_fill (by omega), ← hdigits]
    exact Memory.block_overwrite _ rfl (by omega)
  obtain ⟨rfl, rfl, rfl⟩ := Registers.v_of_firstV_two hread
  exact ⟨written, _, hexec, hback, hbounds⟩

/-- In every sound state, with a block that lies inside the memory: a stored block is read back
into the registers it came from, and a block that is read and stored again leaves the memory
as it was, while neither transfer changes anything outside the block and its registers.  When
transfers leave the index register behind the block, blocks that are stored one after the other
lie back to back, and are read back in their order.  The digits of a byte are read back as its
digits, also into the register that it came from. -/
theorem block_transfers_round_trip (setup : Setup) (hsound : vm.Sound) :
    let index := vm.machine.index
    (∀ x : Register, index + x.val + 1 ≤ 4096 →
      ∃ stored filled,
        vm.exec setup (.ofWord (.misc x 0x55)) = .done stored ∧
        vm.exec setup (.ofWord (.misc x 0x65)) = .done filled ∧
        Transfers setup x vm stored ∧ Transfers setup x vm filled ∧
        (∀ registers, ∃ back,
          (stored.placed index registers).exec setup (.ofWord (.misc x 0x65)) = .done back ∧
          ∀ r ≤ x, back.machine.v r = vm.machine.v r) ∧
        ∃ back,
          (filled.placed index filled.machine.registers).exec setup
            (.ofWord (.misc x 0x55)) = .done back ∧
          back.machine.memory = vm.machine.memory) ∧
    (setup.legacyStore = true → ∀ blocks : List Block,
      index + (blocks.map Block.size).sum ≤ 4096 →
      ∃ stored, vm.storeBlocks setup blocks = some stored ∧
        stored.machine.index = index + (blocks.map Block.size).sum ∧
        stored.machine.memory = overwrite vm.machine.memory index.toNat
          (blocks.flatMap Block.values) ∧
        List.Forall₂ (fun block outcome => outcome.error = none ∧
            outcome.vm.machine.registers.firstV block.last = block.values)
          blocks ((stored.placed index stored.machine.registers).outcomes setup
            (blocks.map Block.fill))) ∧
    (∀ x : Register, index + 3 ≤ 4096 →
      ∃ written back, vm.exec setup (.ofWord (.misc x 0x33)) = .done written ∧
        (written.placed index written.machine.registers).exec setup (.ofWord 0xF265) =
          .done back ∧
        (back.machine.v 0).toNat ≤ 9 ∧ (back.machine.v 1).toNat ≤ 9 ∧
        (back.machine.v 2).toNat ≤ 9 ∧
        100 * (back.machine.v 0).toNat + 10 * (back.machine.v 1).toNat +
          (back.machine.v 2).toNat = (vm.machine.v x).toNat) := by
  intro index
  obtain ⟨hlow, -⟩ := hsound.machine.index
  refine ⟨fun x hfits => ?_, fun hlegacy blocks hfits => ?_, fun x hfits => ?_⟩
  · let stored : Vm := vm.effect setup (.store x)
    let filled : Vm := vm.effect setup (.fill x)
    refine ⟨stored, filled, exec_store_misc hlow hfits, exec_fill_misc hlow hfits,
      transfers_store hlow hfits, transfers_fill hlow hfits, fun registers => ?_, ?_⟩
    · have hback : (stored.placed index registers).exec setup (.ofWord (.misc x 0x65)) =
          .done ((stored.placed index registers).effect setup (.fill x)) :=
        exec_fill_misc hlow hfits
      exact ⟨_, hback, fun r hr =>
        Registers.get_eq_of_firstV_eq (firstV_fill_store (by omega) registers) hr⟩
    · have hback : (filled.placed index filled.machine.registers).exec setup
            (.ofWord (.misc x 0x55)) =
          .done ((filled.placed index filled.machine.registers).effect setup (.store x)) :=
        exec_store_misc hlow hfits
      exact ⟨_, hback, memory_store_fill (by omega)⟩
  · obtain ⟨stored, hstored, hindex, hmemory⟩ := vm.exists_storeBlocks hlegacy hlow hfits
    refine ⟨stored, hstored, hindex, hmemory, ?_⟩
    let placed : Vm := stored.placed index stored.machine.registers
    have hblocks : placed.machine.memory.block placed.machine.index.toNat
        (blocks.map Block.size).sum = blocks.flatMap Block.values := by
      have hplaced : placed.machine.memory = stored.machine.memory := rfl
      rw [hplaced, hmemory]
      exact Memory.block_overwrite _ (Block.length_values blocks) (by omega)
    exact placed.forall₂_fills hlegacy hlow hfits hblocks
  · exact digits_fill_decimal hlow hfits x

/-- Blocks that end with the last byte of the memory, and the digits of a register that they are
read back into. -/
theorem block_transfers_round_trip_last :
    let setup : Setup := { random := fun _ => 0, legacyStore := true }
    let registers : Registers := { v := (Vector.replicate 16 0x2A).set 0 0xFE }
    let vm : Vm := { machine := { registers, index := 4090 } }
    let blocks : List Block := [⟨0, registers⟩, ⟨4, {}⟩]
    vm.Sound ∧
      (∃ stored back, vm.exec setup (.ofWord 0xF555) = .done stored ∧
        stored.machine.index = 4096 ∧
        (stored.placed 4090 {}).exec setup (.ofWord 0xF565) = .done back ∧
        ∀ r ≤ 5, back.machine.v r = vm.machine.v r) ∧
      (∃ stored, vm.storeBlocks setup blocks = some stored ∧ stored.machine.index = 4096 ∧
        List.Forall₂ (fun block outcome => outcome.error = none ∧
            outcome.vm.machine.registers.firstV block.last = block.values)
          blocks ((stored.placed 4090 stored.machine.registers).outcomes setup
            [.exec 0xF065, .exec 0xF465])) ∧
      ∃ written back, vm.exec setup (.ofWord 0xF033) = .done written ∧
        (written.placed 4090 written.machine.registers).exec setup (.ofWord 0xF265) =
          .done back ∧
        100 * (back.machine.v 0).toNat + 10 * (back.machine.v 1).toNat +
          (back.machine.v 2).toNat = 254 := by
  intro setup registers vm blocks
  have hsound : vm.Sound :=
    ⟨⟨Display.blank_binary, CallStack.sound_empty, by decide, by decide⟩, Or.inl rfl⟩
  have hwords : Word.misc 5 0x55 = 0xF555 ∧ Word.misc 5 0x65 = 0xF565 ∧
      Word.misc 0 0x33 = 0xF033 ∧ blocks.map Block.fill = [.exec 0xF065, .exec 0xF465] := by
    decide
  obtain ⟨hstore, hfill, hdecimal, hfills⟩ := hwords
  obtain ⟨hone, hmany, hdigits⟩ := block_transfers_round_trip setup hsound
  obtain ⟨stored, -, hstored, -, htransfers, -, hback, -⟩ := hone 5 (by decide)
  obtain ⟨back, hback, hsame⟩ := hback {}
  obtain ⟨row, hrow, hindex, -, hread⟩ := hmany rfl blocks (by decide)
  obtain ⟨written, digits, hwritten, hdigits, -, -, -, hvalue⟩ := hdigits 0 (by decide)
  rw [hstore] at hstored
  rw [hfill] at hback
  rw [hdecimal] at hwritten
  rw [hfills] at hread
  exact ⟨hsound, ⟨stored, back, hstored, htransfers.index, hback, hsame⟩,
    ⟨row, hrow, hindex, hread⟩, written, digits, hwritten, hdigits, hvalue⟩

end Vm

end Chip8
