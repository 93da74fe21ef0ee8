/-
Overwriting a run of cells in a row of fixed size.
-/

namespace Chip8

/-- Put `items` over the cells from `start` on. -/
def overwrite {α : Type} {size : Nat} (cells : Vector α size) (start : Nat) :
    List α → Vector α size
  | [] => cells
  | item :: rest => overwrite (cells.setIfInBounds start item) (start + 1) rest

/-- The cells before `first`, then `items`, then the cells from `last` on.  The row grows or
shrinks when there are not as many items as cells between the two. -/
def spliced {α : Type} (cells : List α) (first last : Nat) (items : List α) : List α :=
  cells.take first ++ items ++ cells.drop last

/-- What is spliced into the front of a row leaves the cells behind the front alone. -/
theorem spliced_append {α : Type} {front : List α} {first last : Nat}
    (hfirst : first ≤ front.length) (hlast : last ≤ front.length) (behind items : List α) :
    spliced (front ++ behind) first last items = spliced front first last items ++ behind := by
  rw [spliced, spliced, List.take_append_of_le_length hfirst,
    List.drop_append_of_le_length hlast, List.append_assoc _ _ behind]

/-- Overwriting changes exactly the covered cells. -/
theorem getElem_overwrite {α : Type} {size : Nat} (cells : Vector α size)
    (start : Nat) (items : List α) (place : Nat) (inside : place < size) :
    (overwrite cells start items)[place] =
      if covered : start ≤ place ∧ place < start + items.length then
        items[place - start]
      else cells[place] := by
  induction items generalizing cells start with
  | nil =>
      rw [dif_neg (by simp only [List.length_nil]; omega)]
      rfl
  | cons item rest ih =>
      rw [overwrite, ih]
      by_cases here : start = place
      · subst here
        have ended : ¬ (start + 1 ≤ start ∧ start < start + 1 + rest.length) := by
          omega
        have covered : start ≤ start ∧ start < start + (item :: rest).length := by
          simp only [List.length_cons]
          omega
        rw [dif_neg ended, dif_pos covered, Vector.getElem_setIfInBounds_self]
        simp only [Nat.sub_self, List.getElem_cons_zero]
      · by_cases later : start + 1 ≤ place ∧ place < start + 1 + rest.length
        · have covered : start ≤ place ∧ place < start + (item :: rest).length := by
            simp only [List.length_cons]
            omega
          rw [dif_pos later, dif_pos covered]
          obtain ⟨offset, rfl⟩ : ∃ offset, place = start + (offset + 1) :=
            ⟨place - start - 1, by omega⟩
          have behind : start + (offset + 1) - (start + 1) = offset := by omega
          have front : start + (offset + 1) - start = offset + 1 := by omega
          simp only [behind, front, List.getElem_cons_succ]
        · have uncovered : ¬ (start ≤ place ∧ place < start + (item :: rest).length) := by
            simp only [List.length_cons]
            omega
          rw [dif_neg later, dif_neg uncovered,
            Vector.getElem_setIfInBounds_ne _ here]

/-- Items that fit are put in the place of as many cells. -/
theorem toList_overwrite {α : Type} {size start : Nat} (cells : Vector α size)
    {items : List α} (hinside : start + items.length ≤ size) :
    (overwrite cells start items).toList =
      spliced cells.toList start (start + items.length) items := by
  -- The first item is put down before the others, so the cells are general.
  induction items generalizing cells start with
  | nil => simp [overwrite, spliced]
  | cons item rest ih =>
      simp only [List.length_cons] at hinside
      have hplace : start < (cells.toList.set start item).length := by
        simp only [List.length_set, Vector.length_toList]
        omega
      have hset : (cells.setIfInBounds start item).toList = cells.toList.set start item :=
        Vector.toList_setIfInBounds
      have hfront : (cells.toList.set start item).take (start + 1) =
          cells.toList.take start ++ [item] := by
        rw [List.take_succ_eq_append_getElem hplace, List.take_set_of_le (Nat.le_refl start),
          List.getElem_set_self]
      have hback : (cells.toList.set start item).drop (start + 1 + rest.length) =
          cells.toList.drop (start + (rest.length + 1)) := by
        rw [List.drop_set, if_pos (by omega), Nat.add_assoc, Nat.add_comm 1]
      rw [overwrite, ih _ (by omega), spliced, hset, hfront, hback, spliced]
      simp only [List.append_assoc, List.cons_append, List.nil_append, List.length_cons]

end Chip8
