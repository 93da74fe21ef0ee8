/-
Sprites on the screen.  The number of set sprite pixels that land on a cell is
counted from the memory bytes alone; drawing a sprite changes each cell by the
parity of its number, and the flag tells whether a pixel landed on a lit cell.
-/
import Chip8.Proofs.Drawing
import Chip8.Proofs.Refusal
import Mathlib.Algebra.BigOperators.Fin
import Mathlib.Data.List.Indexes
import Mathlib.Data.Nat.Count

namespace Chip8

/-- How many pixels of the sprite at the index register are set and land on the cell
of column `c` and row `r`: bit `7 - right` of byte `down` is the pixel that lies
`right` columns and `down` rows from the start. -/
def Machine.hits (machine : Machine) (column row : Int) (height : Nat) (c : Fin 64)
    (r : Fin 32) : Nat :=
  ((Finset.range height ×ˢ Finset.range 8).filter fun pixel =>
    (machine.memory.peek (machine.index.toNat + pixel.1)).toNat.testBit (7 - pixel.2) ∧
      (column + pixel.2) % 64 = c.val ∧ (row + pixel.1) % 32 = r.val).card

namespace Display

theorem place_lt (c : Fin 64) (r : Fin 32) : r.val * 64 + c.val < 2048 := by
  omega

/-- The number of a cell that is not wrapped. -/
def place (c : Fin 64) (r : Fin 32) : Fin 2048 :=
  ⟨r.val * 64 + c.val, place_lt c r⟩

def pixel (display : Display) (c : Fin 64) (r : Fin 32) : UInt8 :=
  display.get (place c r)

theorem exists_place (number : Fin 2048) : ∃ c r, place c r = number :=
  ⟨⟨number.val % 64, by omega⟩, ⟨number.val / 64, by omega⟩,
    Fin.ext (by simp only [place]; omega)⟩

theorem cell_eq_place_iff (column row : Int) (c : Fin 64) (r : Fin 32) :
    cell column row = place c r ↔ column % 64 = c.val ∧ row % 32 = r.val := by
  rw [Fin.ext_iff]
  simp only [cell, place]
  omega

/-- The cells that one row of a sprite turns over. -/
def rowCells (column row : Int) (pixels : UInt8) (down : Nat) : List (Fin 2048) :=
  (litColumns pixels).map fun (right : Nat) => cell (column + right) (row + down)

/-- The set pixels of one row of a sprite that land on a cell. -/
def rowHits (column row : Int) (c : Fin 64) (r : Fin 32) (pixels : UInt8) (down : Nat) :
    Nat :=
  ((Finset.range 8).filter fun right =>
    pixels.toNat.testBit (7 - right) ∧ (column + right) % 64 = c.val ∧
      (row + down) % 32 = r.val).card

theorem count_rowCells (column row : Int) (c : Fin 64) (r : Fin 32) (pixels : UInt8)
    (down : Nat) :
    (rowCells column row pixels down).count (place c r) =
      rowHits column row c r pixels down := by
  rw [rowHits, ← Nat.count_eq_card_filter_range, Nat.count, rowCells, List.count,
    List.countP_map, litColumns, List.countP_filter]
  apply List.countP_congr
  intro right _
  simp [cell_eq_place_iff, and_comm, and_assoc]

theorem count_spriteCells (column row : Int) (c : Fin 64) (r : Fin 32)
    (sprite : List UInt8) :
    (spriteCells column row sprite).count (place c r) =
      ∑ down ∈ Finset.range sprite.length,
        rowHits column row c r (sprite[down]?.getD 0) down := by
  have hrows : spriteCells column row sprite =
      sprite.zipIdx.flatMap fun entry => rowCells column row entry.1 entry.2 := rfl
  have hcounts : sprite.zipIdx.map (List.count (place c r) ∘
        fun entry => rowCells column row entry.1 entry.2) =
      sprite.mapIdx fun down pixels => rowHits column row c r pixels down := by
    rw [List.mapIdx_eq_zipIdx_map]
    apply List.map_congr_left
    intro entry _
    exact count_rowCells column row c r entry.1 entry.2
  rw [hrows, List.count_flatMap, hcounts, List.mapIdx_eq_ofFn, List.sum_ofFn,
    Finset.sum_range]
  apply Finset.sum_congr rfl
  intro down _
  simp

end Display

namespace Machine

open Display (Binary Struck parity place rowHits spriteCells)

variable {machine : Machine} {height : Nat}

/-- The count of the drawn cells is the count over the memory. -/
theorem count_spriteCells_block (column row : Int)
    (hfits : machine.index.toNat + height ≤ 4096) (c : Fin 64) (r : Fin 32) :
    (spriteCells column row (machine.memory.block machine.index.toNat height)).count
      (place c r) = machine.hits column row height c r := by
  rw [Display.count_spriteCells, Memory.length_block _ hfits, hits, Finset.card_filter,
    Finset.sum_product]
  apply Finset.sum_congr rfl
  intro down hdown
  rw [Memory.getElem?_block _ _ (Finset.mem_range.mp hdown), rowHits,
    Finset.card_filter]

/-- No two pixels of a sprite that is no taller than the screen share a cell. -/
theorem hits_le_one (machine : Machine) (column row : Int) (hshort : height ≤ 32)
    (c : Fin 64) (r : Fin 32) : machine.hits column row height c r ≤ 1 := by
  rw [hits, Finset.card_le_one]
  rintro ⟨down, right⟩ hfirst ⟨down', right'⟩ hsecond
  simp only [Finset.mem_filter, Finset.mem_product, Finset.mem_range] at hfirst hsecond
  have hrows : down = down' := by omega
  have hcolumns : right = right' := by omega
  rw [hrows, hcolumns]

/-- A machine before and after a sprite was drawn on it. -/
structure SpriteDrawn (before after : Machine) (collision : Bool) (column row : Int)
    (height : Nat) : Prop where
  pixels : ∀ c r, after.display.pixel c r =
    before.display.pixel c r ^^^ parity (before.hits column row height c r)
  /-- A lit cell was hit, by the first pixel on it or by a second one. -/
  collided : collision = true ↔
    ∃ c r, before.display.pixel c r = 1 ∧ 1 ≤ before.hits column row height c r ∨
      2 ≤ before.hits column row height c r
  /-- Without overlaps a collision needs a cell that was lit before. -/
  collided_lit : height ≤ 32 →
    (collision = true ↔
      ∃ c r, before.display.pixel c r = 1 ∧ 1 ≤ before.hits column row height c r)
  flag : after.v Register.flag = if collision then 1 else 0
  /-- Nothing but the display and the flag register changes. -/
  frame : after = { before with
    display := after.display
    registers := before.registers.setV Register.flag (after.v Register.flag) }

/-- A collision, told from the memory bytes. -/
theorem drawn_collided_iff (hbinary : machine.display.Binary) (column row : Int)
    (hfits : machine.index.toNat + height ≤ 4096) :
    (machine.drawn column row height).2 = true ↔
      ∃ c r, machine.display.pixel c r = 1 ∧ 1 ≤ machine.hits column row height c r ∨
        2 ≤ machine.hits column row height c r := by
  have hcount := count_spriteCells_block column row hfits
  rw [drawn, Display.draw_flag_iff hbinary]
  constructor
  · rintro ⟨cell, hstruck⟩
    obtain ⟨c, r, rfl⟩ := Display.exists_place cell
    rw [Struck, hcount] at hstruck
    exact ⟨c, r, hstruck⟩
  · rintro ⟨c, r, hhit⟩
    rw [← hcount] at hhit
    exact ⟨place c r, hhit⟩

theorem spriteDrawn_drawn (hbinary : machine.display.Binary) (column row : Int)
    (hfits : machine.index.toNat + height ≤ 4096) :
    SpriteDrawn machine (machine.drawn column row height).1
      (machine.drawn column row height).2 column row height := by
  have hcollided := drawn_collided_iff hbinary column row hfits
  have hflag : (machine.drawn column row height).1.v Register.flag =
      if (machine.drawn column row height).2 then 1 else 0 :=
    machine.registers.get_setV_self Register.flag _
  constructor
  · intro c r
    rw [← count_spriteCells_block column row hfits]
    exact Display.get_draw _ _ (place c r)
  · exact hcollided
  · intro hshort
    rw [hcollided]
    apply exists_congr
    intro c
    apply exists_congr
    intro r
    have honce := hits_le_one machine column row hshort c r
    exact or_iff_left (by omega)
  · exact hflag
  · rw [hflag]
    rfl

end Machine

/-- Drawing a sprite that lies inside the memory always succeeds and composes it with
the screen, for any start and any height; the instruction does so with the register
values that it finds, whichever registers they are. -/
theorem Vm.sprite_composited (setup : Setup) (vm : Vm)
    (hbinary : vm.machine.display.Binary) (hlow : 0 ≤ vm.machine.index) :
    (∀ (column row : Int) (height : Nat), vm.machine.index + height ≤ 4096 →
      ∃ after collision, vm.machine.draw column row height = ⟨after, .ok collision⟩ ∧
        vm.machine.SpriteDrawn after collision column row height) ∧
    (∀ word : Word, word.toNat / 4096 = 13 → vm.machine.index + word.n.val ≤ 4096 →
      ∃ after collision, vm.exec setup (.ofWord word) = .done (vm.withMachine after) ∧
        vm.machine.SpriteDrawn after collision (vm.machine.v word.x).toNat
          (vm.machine.v word.y).toNat word.n.val) := by
  have hserved : ∀ height : Nat, vm.machine.index + height ≤ 4096 →
      Memory.refusal vm.machine.index height = none := by
    intro height hfits
    exact (Memory.refusal_eq_none_iff _ _).mpr ⟨hlow, hfits⟩
  have hsprite : ∀ (column row : Int) (height : Nat), vm.machine.index + height ≤ 4096 →
      vm.machine.SpriteDrawn (vm.machine.drawn column row height).1
        (vm.machine.drawn column row height).2 column row height := by
    intro column row height hfits
    exact Machine.spriteDrawn_drawn hbinary column row (by omega)
  constructor
  · intro column row height hfits
    exact ⟨_, _, vm.machine.draw_of_served column row (hserved height hfits),
      hsprite column row height hfits⟩
  · intro word hfamily hfits
    rw [Instr.ofWord_of_draw word hfamily]
    exact ⟨_, _, Vm.exec_draw (hserved word.n.val hfits), hsprite _ _ word.n.val hfits⟩

/-- A start left of the screen, a sprite that overlaps itself, and an instruction whose
coordinates are the flag register. -/
theorem Vm.sprite_composited_fresh :
    let setup : Setup := { random := fun _ => 0 }
    let machine := Vm.fresh.machine
    machine.display.Binary ∧ 0 ≤ machine.index ∧
      (∃ after collision, machine.draw (-3) 30 40 = ⟨after, .ok collision⟩ ∧
        machine.SpriteDrawn after collision (-3) 30 40) ∧
      ∃ after collision, Vm.fresh.exec setup (.ofWord 0xDFF5) =
          .done (Vm.fresh.withMachine after) ∧
        machine.SpriteDrawn after collision (machine.v 15).toNat (machine.v 15).toNat 5 := by
  intro setup machine
  have hbinary : machine.display.Binary := Display.blank_binary
  have hindex : 0 ≤ machine.index := by decide
  obtain ⟨hdraw, hinstr⟩ := Vm.sprite_composited setup Vm.fresh hbinary hindex
  exact ⟨hbinary, hindex, hdraw (-3) 30 40 (by decide), hinstr 0xDFF5 (by decide) (by decide)⟩

end Chip8
