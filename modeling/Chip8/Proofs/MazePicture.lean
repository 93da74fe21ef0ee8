/-
The picture of the maze.  The screen is cut into 128 tiles of four by four cells, sixteen
in a row, and every tile holds a stroke to one of two sides.  A tile that is still dark is
hit by nothing, so drawing its stroke makes the picture grow by that tile and leaves the
flag register at zero.
-/
import Chip8.Proofs.Compositing

namespace Chip8.Maze

/-- The columns and rows of the cells of a stroke, which falls to the right for an even
number and to the left for an odd one. -/
def stroke (number : Int) : List (Nat × Nat) :=
  if number % 2 = 0 then [(0, 0), (1, 1), (2, 2), (3, 3)]
  else [(2, 0), (1, 1), (0, 2), (3, 3)]

/-- The sprite of a stroke. -/
def sprite (number : Int) : List UInt8 :=
  if number % 2 = 0 then [0x80, 0x40, 0x20, 0x10] else [0x20, 0x40, 0x80, 0x10]

/-- The first column of a tile. -/
def left (tile : Nat) : Nat :=
  4 * (tile % 16)

/-- The first row of a tile. -/
def top (tile : Nat) : Nat :=
  4 * (tile / 16)

/-- The tile that a cell lies on. -/
def tileOf (c : Fin 64) (r : Fin 32) : Nat :=
  16 * (r.val / 4) + c.val / 4

/-- Where a cell lies on its tile. -/
def offsetOf (c : Fin 64) (r : Fin 32) : Nat × Nat :=
  (c.val % 4, r.val % 4)

/-- The first tiles hold their strokes, and all other cells are dark. -/
def Shows (random : Nat → Int) (tiles : Nat) (display : Display) : Prop :=
  ∀ c r, display.pixel c r =
    if tileOf c r < tiles ∧ offsetOf c r ∈ stroke (random (tileOf c r)) then 1 else 0

theorem stroke_nodup (number : Int) : (stroke number).Nodup := by
  unfold stroke
  split <;> decide

theorem lt_of_mem_stroke {number : Int} {offset : Nat × Nat}
    (hoffset : offset ∈ stroke number) : offset.1 < 4 ∧ offset.2 < 4 := by
  revert offset
  unfold stroke
  split <;> decide

theorem litColumns_sprite :
    Display.litColumns 0x80 = [0] ∧ Display.litColumns 0x40 = [1] ∧
      Display.litColumns 0x20 = [2] ∧ Display.litColumns 0x10 = [3] := by
  decide

theorem spriteCells_sprite (column row number : Int) :
    Display.spriteCells column row (sprite number) =
      (stroke number).map fun offset =>
        Display.cell (column + offset.1) (row + offset.2) := by
  unfold sprite stroke
  split <;> simp [Display.spriteCells, litColumns_sprite]

/-- The four by four cells of a tile are its own. -/
theorem cell_eq_place_iff_tile {tile : Nat} (htile : tile < 128) {offset : Nat × Nat}
    (hright : offset.1 < 4) (hdown : offset.2 < 4) (c : Fin 64) (r : Fin 32) :
    Display.cell (left tile + offset.1) (top tile + offset.2) = Display.place c r ↔
      tileOf c r = tile ∧ offset = offsetOf c r := by
  rw [Display.cell_eq_place_iff, Prod.ext_iff]
  simp only [left, top, tileOf, offsetOf]
  omega

theorem count_strokeCells {tile : Nat} (htile : tile < 128) (number : Int) (c : Fin 64)
    (r : Fin 32) :
    ((stroke number).map fun offset =>
        Display.cell (left tile + offset.1) (top tile + offset.2)).count
      (Display.place c r) =
      if tileOf c r = tile ∧ offsetOf c r ∈ stroke number then 1 else 0 := by
  have hcells : ∀ offset ∈ stroke number,
      (Display.cell (left tile + offset.1) (top tile + offset.2) = Display.place c r ↔
        tileOf c r = tile ∧ offset = offsetOf c r) := by
    intro offset hoffset
    obtain ⟨hright, hdown⟩ := lt_of_mem_stroke hoffset
    exact cell_eq_place_iff_tile htile hright hdown c r
  rw [List.count, List.countP_map]
  by_cases hsame : tileOf c r = tile
  · have hoccurs : (stroke number).countP
        ((· == Display.place c r) ∘ fun offset =>
          Display.cell (left tile + offset.1) (top tile + offset.2)) =
        (stroke number).count (offsetOf c r) := by
      apply List.countP_congr
      intro offset hoffset
      simp [hcells offset hoffset, hsame]
    rw [hoccurs, (stroke_nodup number).count]
    simp [hsame]
  · rw [if_neg (fun hboth => hsame hboth.1), List.countP_eq_zero]
    intro offset hoffset
    simp [hcells offset hoffset, hsame]

theorem Shows.binary {random : Nat → Int} {tiles : Nat} {display : Display}
    (hshows : Shows random tiles display) : display.Binary := by
  intro number
  obtain ⟨c, r, rfl⟩ := Display.exists_place number
  have hpixel := hshows c r
  rw [Display.pixel] at hpixel
  rw [hpixel]
  split
  · exact Or.inr rfl
  · exact Or.inl rfl

theorem shows_blank (random : Nat → Int) : Shows random 0 Display.blank := by
  intro c r
  rw [if_neg (by omega)]
  exact Vector.getElem_replicate _

/-- The display with one more stroke. -/
theorem Shows.draw {random : Nat → Int} {tile : Nat} {display : Display}
    (hshows : Shows random tile display) (htile : tile < 128) :
    let drawn := display.draw
      (Display.spriteCells (left tile) (top tile) (sprite (random tile)))
    Shows random (tile + 1) drawn.1 ∧ drawn.2 = false := by
  intro drawn
  have hcount := count_strokeCells htile (random tile)
  rw [← spriteCells_sprite] at hcount
  constructor
  · intro c r
    have hpixel : drawn.1.pixel c r = display.pixel c r ^^^ Display.parity _ :=
      Display.get_draw _ _ (Display.place c r)
    rw [hpixel, hcount, hshows c r]
    by_cases hsame : tileOf c r = tile
    · by_cases hoffset : offsetOf c r ∈ stroke (random tile)
      · simp [hsame, hoffset, Display.parity]
      · simp [hsame, hoffset, Display.parity]
    · have hbelow : tileOf c r < tile + 1 ↔ tileOf c r < tile := by omega
      simp [hsame, hbelow, Display.parity]
  · rw [← Bool.not_eq_true, Display.draw_flag_iff hshows.binary]
    rintro ⟨number, hstruck⟩
    obtain ⟨c, r, rfl⟩ := Display.exists_place number
    rw [Display.Struck, hcount] at hstruck
    rcases hstruck with ⟨hlit, hhit⟩ | htwice
    · -- Only cells of the tile itself are turned over, and they were dark.
      have hsame : tileOf c r = tile := by
        by_contra happart
        simp [happart] at hhit
      have hdark := hshows c r
      rw [Display.pixel, hlit, hsame, if_neg (by omega)] at hdark
      cases hdark
    · split at htwice
      · omega
      · omega

end Chip8.Maze
