/-
The program of the maze, instruction by instruction.  What it changes fits in a small
state: the pointers, three registers, the display and the number of random values drawn.
A step from such a state leads to another one, under whatever keypad.
-/
import Chip8.Demo
import Chip8.Proofs.Cycle
import Chip8.Proofs.KeyWait
import Chip8.Proofs.MazePicture

namespace Chip8.Maze

/-- The memory that holds the program. -/
def memory : Memory :=
  overwrite Memory.initial Memory.programStart Demo.maze

/-- The instructions of the program. -/
def code : List (Int × Instr) :=
  [(0x200, .setByte 0 0x00), (0x202, .setByte 1 0x00), (0x204, .setIndex ⟨0x222, by decide⟩),
    (0x206, .random 2 0x01), (0x208, .skipIfByte 2 0x01),
    (0x20A, .setIndex ⟨0x21E, by decide⟩), (0x20C, .draw 0 1 4), (0x20E, .addByte 0 0x04),
    (0x210, .skipIfByte 0 0x40), (0x212, .jump ⟨0x204, by decide⟩), (0x214, .setByte 0 0x00),
    (0x216, .addByte 1 0x04), (0x218, .skipIfByte 1 0x20), (0x21A, .jump ⟨0x204, by decide⟩),
    (0x21C, .jump ⟨0x21C, by decide⟩)]

theorem getElem_memory {offset : Nat} (hoffset : offset < Demo.maze.length)
    (hinside : Memory.programStart + offset < 4096) :
    memory[Memory.programStart + offset] = Demo.maze[offset] := by
  have hcovered : Memory.programStart ≤ Memory.programStart + offset ∧
      Memory.programStart + offset < Memory.programStart + Demo.maze.length := by
    omega
  have hplace : Memory.programStart + offset - Memory.programStart = offset := by omega
  simp only [memory, getElem_overwrite, dif_pos hcovered, hplace]

theorem block_memory {offset length : Nat} (hfits : offset + length ≤ Demo.maze.length) :
    memory.block (Memory.programStart + offset) length =
      (Demo.maze.drop offset).take length := by
  have hprogram : Memory.programStart + Demo.maze.length ≤ 4096 := by decide
  apply List.ext_getElem
  · rw [Memory.length_block _ (by omega), List.length_take, List.length_drop]
    omega
  · intro place hplace hplace'
    rw [Memory.length_block _ (by omega)] at hplace
    simp only [Memory.block, List.getElem_take, List.getElem_drop, Vector.getElem_toList]
    simp only [Nat.add_assoc]
    exact getElem_memory (by omega) (by omega)

/-- The word of two bytes of the program. -/
def wordAt (offset : Nat) : Word :=
  Word.ofBytes (Demo.maze.getD offset 0) (Demo.maze.getD (offset + 1) 0)

theorem word_memory {offset : Nat} (hfits : offset + 1 < Demo.maze.length) :
    memory.word (Memory.programStart + offset : Nat) = .ok (wordAt offset) := by
  have hprogram : Memory.programStart + Demo.maze.length ≤ 4096 := by decide
  have hinside : (0 : Int) ≤ (Memory.programStart + offset : Nat) ∧
      ((Memory.programStart + offset : Nat) : Int) + 2 ≤ 4096 := by
    omega
  have hnext : Memory.programStart + offset + 1 = Memory.programStart + (offset + 1) := rfl
  simp only [Memory.word, dif_pos hinside, Int.toNat_natCast, hnext, wordAt]
  rw [getElem_memory (by omega), getElem_memory hfits]
  simp [show offset < Demo.maze.length by omega, hfits]

theorem ofWord_wordAt : ∀ line ∈ code, 0x200 ≤ line.1 ∧ line.1 < 0x21E ∧
    Instr.ofWord (wordAt (line.1.toNat - Memory.programStart)) = line.2 := by
  decide

theorem fetch_code {address : Int} {instr : Instr} (hcode : (address, instr) ∈ code) :
    ∃ word, memory.word address = .ok word ∧ Instr.ofWord word = instr := by
  obtain ⟨hlow, hhigh, hinstr⟩ := ofWord_wordAt _ hcode
  obtain ⟨offset, rfl⟩ : ∃ offset : Nat, address = (Memory.programStart + offset : Nat) :=
    ⟨address.toNat - 0x200, by simp only [Memory.programStart]; omega⟩
  have hoffset : offset + 1 < Demo.maze.length := by
    change offset + 1 < 38
    simp only [Memory.programStart] at hhigh
    omega
  rw [Int.toNat_natCast, Nat.add_sub_cancel_left] at hinstr
  exact ⟨_, word_memory hoffset, hinstr⟩

/-- Where the sprite of a stroke lies. -/
def spriteAddress (number : Int) : Nat :=
  if number % 2 = 0 then 0x21E else 0x222

theorem block_spriteAddress (number : Int) :
    memory.block (spriteAddress number) 4 = sprite number := by
  unfold spriteAddress sprite
  split
  · exact @block_memory 0x1E 4 (by decide)
  · exact @block_memory 0x22 4 (by decide)

/-- What the program changes. -/
structure State where
  pc : Int
  index : Int
  column : UInt8
  row : UInt8
  coin : UInt8
  display : Display
  drawn : Nat

/-- The interpreter that runs the program, under any keypad. -/
def State.vm (state : State) (keypad : Keypad) : Vm where
  machine := {
    memory
    registers := {
      v := #v[state.column, state.row, state.coin, 0, 0, 0, 0, 0, 0, 0, 0, 0, 0, 0, 0, 0] }
    index := state.index
    pc := state.pc
    display := state.display }
  keypad
  drawn := state.drawn

variable {setup : Setup} {random : Nat → Int} {state : State} {keypad : Keypad}

theorem step_of_code (instr : Instr) {reached : Vm} (hcode : (state.pc, instr) ∈ code)
    (hexec : (state.vm keypad).past.exec setup instr = .done reached) :
    (state.vm keypad).step setup = .done reached := by
  obtain ⟨word, hword, rfl⟩ := fetch_code hcode
  obtain ⟨hfetch, hfetched⟩ := (state.vm keypad).machine.fetched_of_word hword
  rw [Vm.step_of_idle setup rfl rfl, Vm.cycle_of_fetched hfetch, hfetched, hexec]
  rfl

theorem step_of_skip (x : Register) (kk : UInt8) (hcode : (state.pc, .skipIfByte x kk) ∈ code)
    {condition : Bool} (hcondition : ((state.vm keypad).machine.v x == kk) = condition) :
    (state.vm keypad).step setup =
      .done ({ state with
        pc := if condition then state.pc + 2 + 2 else state.pc + 2 }.vm keypad) := by
  apply step_of_code _ hcode
  change Outcome.done (Vm.withMachine _ (Machine.skipIf _
    ((state.vm keypad).machine.v x == kk))) = _
  rw [hcondition]
  cases condition with
  | true => rfl
  | false => rfl

/-- The coin is the lowest bit of a random number. -/
def coinOf (number : Int) : UInt8 :=
  if number % 2 = 0 then 0 else 1

theorem ofInt_and_one (number : Int) : UInt8.ofInt number &&& 1 = coinOf number := by
  have hone : (1 : UInt8).toNat = 1 := rfl
  apply UInt8.toNat_inj.mp
  rw [UInt8.toNat_and, hone, Nat.and_one_is_mod, UInt8.ofInt, UInt8.toNat_ofNat', coinOf]
  split
  · change _ = 0
    omega
  · change _ = 1
    omega

theorem step_of_random (hcode : (state.pc, .random 2 1) ∈ code) :
    (state.vm keypad).step setup =
      .done ({ state with
        pc := state.pc + 2
        coin := coinOf (setup.random state.drawn)
        drawn := state.drawn + 1 }.vm keypad) := by
  apply step_of_code _ hcode
  rw [← ofInt_and_one]
  rfl

theorem toNat_ofNat_left (tile : Nat) : (UInt8.ofNat (left tile)).toNat = left tile := by
  apply UInt8.toNat_ofNat_of_lt'
  simp only [left, UInt8.size]
  omega

theorem toNat_ofNat_top {tile : Nat} (htile : tile < 128) :
    (UInt8.ofNat (top tile)).toNat = top tile := by
  apply UInt8.toNat_ofNat_of_lt'
  simp only [top, UInt8.size]
  omega

theorem step_of_draw (state : State) {tile : Nat} (htile : tile < 128)
    (hcode : (state.pc, .draw 0 1 4) ∈ code)
    (hindex : state.index = spriteAddress (random tile))
    (hcolumn : state.column = UInt8.ofNat (left tile))
    (hrow : state.row = UInt8.ofNat (top tile)) (hshows : Shows random tile state.display) :
    ∃ display, Shows random (tile + 1) display ∧
      (state.vm keypad).step setup =
        .done ({ state with pc := state.pc + 2, display }.vm keypad) := by
  have haddress : spriteAddress (random tile) ≤ 0x222 := by
    unfold spriteAddress
    split <;> decide
  have hserved : (state.vm keypad).past.machine.refusal (.draw 0 1 4) = none := by
    apply (Memory.refusal_eq_none_iff state.index 4).mpr
    rw [hindex]
    constructor
    · omega
    · omega
  have hcells : Display.spriteCells (left tile) (top tile) (sprite (random tile)) =
      Display.spriteCells state.column.toNat state.row.toNat
        (memory.block state.index.toNat 4) := by
    rw [hindex, Int.toNat_natCast, block_spriteAddress, hcolumn, hrow, toNat_ofNat_left,
      toNat_ofNat_top htile]
  obtain ⟨hdrawn, hflag⟩ := hshows.draw htile
  rw [hcells] at hdrawn hflag
  -- Nothing is hit, so the flag register gets the zero that it holds already.
  have hreached : ∀ picture : Display × Bool, picture.2 = false →
      (state.vm keypad).past.withMachine { (state.vm keypad).past.machine with
        display := picture.1
        registers := (state.vm keypad).past.machine.registers.setV Register.flag
          (if picture.2 then 1 else 0) } =
        { state with pc := state.pc + 2, display := picture.1 }.vm keypad := by
    rintro ⟨display, flag⟩ rfl
    rfl
  refine ⟨_, hdrawn, step_of_code _ hcode ?_⟩
  rw [Vm.exec_draw hserved]
  exact congrArg Outcome.done (hreached _ hflag)

end Chip8.Maze
