/-
Sprites over one another.  A sprite turns cells over, and which ones depends on the memory
and on its start but not on the screen.  A list of sprites therefore leaves a picture that
does not depend on their order, and two sprites of the list that turn the same cells over
could as well not have been drawn.
-/
import Chip8.Proofs.Compositing

namespace Chip8

/-- A sprite that is to be drawn: the address of its rows and their number, and the column
and the row that it starts at. -/
structure Sprite where
  index : Int
  height : Nat
  column : Int
  row : Int
deriving Repr, DecidableEq

namespace Sprite

/-- The rows lie inside the memory. -/
def Fits (sprite : Sprite) : Prop :=
  Memory.InRange sprite.index sprite.height

instance (sprite : Sprite) : Decidable sprite.Fits :=
  inferInstanceAs (Decidable (Memory.InRange _ _))

/-- The pixels, one byte for each row. -/
def pixels (memory : Memory) (sprite : Sprite) : List UInt8 :=
  memory.block sprite.index.toNat sprite.height

/-- The cells that the sprite turns over, one entry for each set pixel. -/
def cells (memory : Memory) (sprite : Sprite) : List (Fin 2048) :=
  Display.spriteCells sprite.column sprite.row (sprite.pixels memory)

/-- Two sprites with the same pixels, whose starts wrap around to the same cell. -/
structure Alike (memory : Memory) (first second : Sprite) : Prop where
  pixels : first.pixels memory = second.pixels memory
  columns : first.column % 64 = second.column % 64
  rows : first.row % 32 = second.row % 32

end Sprite

/-- Draw sprites one after the other, each with the index register on its rows. -/
def Machine.drawAll (machine : Machine) : List Sprite → Except Error Machine
  | [] => .ok machine
  | sprite :: rest =>
      match { machine with index := sprite.index }.draw sprite.column sprite.row
        sprite.height with
      | ⟨drawn, .ok _⟩ => drawn.drawAll rest
      | ⟨_, .error error⟩ => .error error

namespace Display

theorem parity_add_double (number extra : Nat) :
    parity (number + 2 * extra) = parity number := by
  rw [parity, parity, Nat.add_mul_mod_self_left]

theorem parity_add (first second : Nat) :
    parity (first + second) = parity first ^^^ parity second := by
  rw [parity, parity, parity, Nat.add_mod]
  rcases Nat.mod_two_eq_zero_or_one first with hfirst | hfirst <;>
    rcases Nat.mod_two_eq_zero_or_one second with hsecond | hsecond <;>
    simp [hfirst, hsecond]

theorem spriteCells_congr {column column' row row' : Int} (pixels : List UInt8)
    (hcolumns : column % 64 = column' % 64) (hrows : row % 32 = row' % 32) :
    spriteCells column row pixels = spriteCells column' row' pixels := by
  have hcell (right down : Nat) :
      cell (column + right) (row + down) = cell (column' + right) (row' + down) :=
    cell_congr (Int.emod_add_cancel_right _ |>.mpr hcolumns)
      (Int.emod_add_cancel_right _ |>.mpr hrows)
  simp only [spriteCells, hcell]

end Display

open Display (parity parity_add)

namespace Sprite

variable {memory : Memory} {first second : Sprite}

theorem Alike.cells_eq (halike : first.Alike memory second) :
    first.cells memory = second.cells memory := by
  rw [cells, cells, halike.pixels]
  exact Display.spriteCells_congr _ halike.columns halike.rows

/-- The cells that a list of sprites turns over do not depend on its order. -/
theorem count_cells_of_perm {sprites permuted : List Sprite} (hperm : permuted.Perm sprites)
    (place : Fin 2048) :
    (permuted.flatMap (cells memory)).count place =
      (sprites.flatMap (cells memory)).count place :=
  (hperm.flatMap_right _).count_eq place

/-- Two sprites that are alike turn every cell over an even number of times. -/
theorem parity_cells_of_alike (halike : first.Alike memory second)
    (before between behind : List Sprite) (place : Fin 2048) :
    parity (((before ++ between ++ behind).flatMap (cells memory)).count place) =
      parity (((before ++ first :: between ++ second :: behind).flatMap
        (cells memory)).count place) := by
  have htwice : ((before ++ first :: between ++ second :: behind).flatMap
        (cells memory)).count place =
      ((before ++ between ++ behind).flatMap (cells memory)).count place +
        2 * (first.cells memory).count place := by
    simp only [List.flatMap_append, List.flatMap_cons, List.count_append, halike.cells_eq]
    omega
  rw [htwice, Display.parity_add_double]

end Sprite

namespace Machine

variable {sprites : List Sprite}

/-- Each sprite changes every cell by a parity that the screen has no part in, and leaves the
memory to the sprites behind it. -/
theorem exists_drawAll (machine : Machine) (hfits : ∀ sprite ∈ sprites, sprite.Fits) :
    ∃ after, machine.drawAll sprites = .ok after ∧
      ∀ place, after.display.get place = machine.display.get place ^^^
        parity ((sprites.flatMap (Sprite.cells machine.memory)).count place) := by
  induction sprites generalizing machine with
  | nil => exact ⟨machine, rfl, fun place => (UInt8.xor_zero).symm⟩
  | cons sprite rest ih =>
      obtain ⟨hfirst, hrest⟩ := List.forall_mem_cons.mp hfits
      have hserved : Memory.refusal sprite.index sprite.height = none :=
        (Memory.refusal_eq_none_iff _ _).mpr hfirst
      let placed : Machine := { machine with index := sprite.index }
      let drawn := (placed.drawn sprite.column sprite.row sprite.height).1
      obtain ⟨after, hafter, hcells⟩ := ih drawn hrest
      refine ⟨after, ?_, fun place => ?_⟩
      · rw [drawAll, placed.draw_of_served sprite.column sprite.row hserved]
        exact hafter
      · have hdrawn : drawn.display.get place = machine.display.get place ^^^
            parity ((sprite.cells machine.memory).count place) :=
          Display.get_draw machine.display _ place
        rw [hcells, hdrawn, List.flatMap_cons, List.count_append, parity_add, UInt8.xor_assoc]
        rfl

/-- Sprites that turn every cell over equally often, up to an even number, leave the same
picture. -/
theorem exists_drawAll_of_parity {machine after : Machine} (others : List Sprite)
    (hfits : ∀ sprite ∈ sprites, sprite.Fits) (hothers : ∀ sprite ∈ others, sprite.Fits)
    (hafter : machine.drawAll sprites = .ok after)
    (hparity : ∀ place,
      parity ((others.flatMap (Sprite.cells machine.memory)).count place) =
        parity ((sprites.flatMap (Sprite.cells machine.memory)).count place)) :
    ∃ other, machine.drawAll others = .ok other ∧ other.display = after.display := by
  obtain ⟨reached, hreached, hcells⟩ := machine.exists_drawAll hfits
  obtain rfl : reached = after := Except.ok.inj (hreached.symm.trans hafter)
  obtain ⟨other, hother, hsame⟩ := machine.exists_drawAll hothers
  refine ⟨other, hother, Vector.ext fun place hplace => ?_⟩
  exact (hsame ⟨place, hplace⟩).trans
    ((congrArg _ (hparity _)).trans (hcells ⟨place, hplace⟩).symm)

/-- Drawing a list of sprites always succeeds, whatever the cells hold.  Any other order of them
leaves the same picture, and so does the list without two of them that are alike; in particular
a sprite that is drawn twice leaves the picture as it was. -/
theorem sprites_commute_and_cancel (machine : Machine)
    (hfits : ∀ sprite ∈ sprites, sprite.Fits) :
    ∃ after, machine.drawAll sprites = .ok after ∧
      (∀ permuted : List Sprite, permuted.Perm sprites →
        ∃ other, machine.drawAll permuted = .ok other ∧ other.display = after.display) ∧
      (∀ before first between second behind,
        sprites = before ++ first :: between ++ second :: behind →
        first.Alike machine.memory second →
        ∃ other, machine.drawAll (before ++ between ++ behind) = .ok other ∧
          other.display = after.display) ∧
      (∀ sprite : Sprite, sprite.Fits →
        ∃ twice, machine.drawAll [sprite, sprite] = .ok twice ∧
          twice.display = machine.display) := by
  obtain ⟨after, hafter, -⟩ := machine.exists_drawAll hfits
  refine ⟨after, hafter, fun permuted hperm => ?_, ?_, fun sprite hsprite => ?_⟩
  · refine exists_drawAll_of_parity _ hfits (fun sprite hmem => hfits sprite ?_) hafter
      fun place => congrArg parity (Sprite.count_cells_of_perm hperm place)
    exact hperm.subset hmem
  · rintro before first between second behind rfl halike
    refine exists_drawAll_of_parity _ hfits (fun sprite hmem => hfits sprite ?_) hafter
      fun place => Sprite.parity_cells_of_alike halike before between behind place
    simp only [List.mem_append, List.mem_cons] at hmem ⊢
    tauto
  · have hboth : ∀ drawn ∈ [sprite, sprite], drawn.Fits := by simp [hsprite]
    obtain ⟨twice, htwice, -⟩ := machine.exists_drawAll hboth
    obtain ⟨bare, hbare, hsame⟩ := exists_drawAll_of_parity [] hboth (by simp) htwice
      (Sprite.parity_cells_of_alike ⟨rfl, rfl, rfl⟩ [] [] [])
    obtain rfl := Except.ok.inj hbare
    exact ⟨twice, htwice, hsame.symm⟩

/-- A glyph over the corner of the screen, twice, and between them a sprite that is taller than
the screen. -/
theorem sprites_commute_and_cancel_corner :
    let corner : Sprite := { index := 0, height := 5, column := 62, row := 30 }
    let tall : Sprite := { index := 0, height := 40, column := -3, row := 7 }
    let again : Sprite := { index := 0, height := 5, column := -2, row := -34 }
    (∀ sprite ∈ [corner, tall, again], sprite.Fits) ∧ corner.Alike fresh.memory again ∧
      ∃ after, fresh.drawAll [corner, tall, again] = .ok after ∧
        (∃ other, fresh.drawAll [again, tall, corner] = .ok other ∧
          other.display = after.display) ∧
        ∃ other, fresh.drawAll [tall] = .ok other ∧ other.display = after.display := by
  intro corner tall again
  have hfits : ∀ sprite ∈ [corner, tall, again], sprite.Fits := by decide
  have halike : corner.Alike fresh.memory again := ⟨rfl, by decide, by decide⟩
  obtain ⟨after, hafter, hperm, hcancel, -⟩ := sprites_commute_and_cancel fresh hfits
  have hreverse : [again, tall, corner].Perm [corner, tall, again] :=
    List.reverse_perm [corner, tall, again]
  exact ⟨hfits, halike, after, hafter, hperm _ hreverse,
    hcancel [] corner [tall] again [] rfl halike⟩

end Machine

end Chip8
