/-
Signed positions in a finite row of cells.  A position counts from the front
when it is not negative and from the back when it is.  `Position.resolve` finds
the one cell that a position names, `Position.between` the run of cells between
two positions, which is cut to the row instead of being refused.
-/

namespace Chip8

/-- Why a signed position names no cell of a row. -/
inductive BadPosition
  /-- The position lies beyond one of the two ends. -/
  | outside
  /-- The position does not even fit a signed 64-bit word. -/
  | oversized
deriving Repr, DecidableEq

namespace Position

/-- The cell named by a position in a row of `size` cells. -/
def resolve (size : Nat) (position : Int) : Except BadPosition (Fin size) :=
  let fromFront := if position < 0 then position + size else position
  if h : 0 ≤ fromFront ∧ fromFront < size then .ok ⟨fromFront.toNat, by omega⟩
  else if position < -0x8000000000000000 ∨ 0x8000000000000000 ≤ position then
    .error .oversized
  else .error .outside

/-- A bound of a run of cells, counted from the front and cut to the row. -/
def bound (size : Nat) (position : Int) : Nat :=
  min (if position < 0 then position + size else position).toNat size

/-- The cells from one bound up to another one, empty when they are crossed. -/
def between {α : Type} (cells : Array α) (first last : Int) : Array α :=
  cells.extract (bound cells.size first) (bound cells.size last)

theorem bound_of_le {size : Nat} {position : Int} (lower : 0 ≤ position)
    (upper : position ≤ size) : bound size position = position.toNat := by
  simp only [bound]
  omega

/-- A position inside the row names the cell of that number. -/
theorem resolve_of_lt {size : Nat} {position : Int} (lower : 0 ≤ position)
    (upper : position < size) :
    resolve size position = .ok ⟨position.toNat, by omega⟩ := by
  have front : ¬ position < 0 := by omega
  simp [resolve, front, lower, upper]

theorem resolve_of_le {size : Nat} {position : Int} (lower : size ≤ position)
    (upper : position < 0x8000000000000000) : resolve size position = .error .outside := by
  have front : ¬ position < 0 := by omega
  have behind : ¬ (0 ≤ position ∧ position < size) := by omega
  have fits : ¬ (position < -0x8000000000000000 ∨ 0x8000000000000000 ≤ position) := by omega
  simp only [resolve, if_neg front, dif_neg behind, if_neg fits]

end Position

end Chip8
