/-
What drawing does to the cells of a display.  A list of cells is turned over one
after the other on the display that the earlier cells have already changed; the
result depends only on how often each cell occurs in the list.
-/
import Chip8.Display

namespace Chip8.Display

/-- Every cell is dark or lit, never a third value. -/
def Binary (display : Display) : Prop :=
  ∀ place : Fin 2048, display.get place = 0 ∨ display.get place = 1

theorem blank_binary : blank.Binary := by
  intro place
  exact Or.inl (Vector.getElem_replicate place.isLt)

/-- A lit cell is hit, by the list itself or by its earlier entries. -/
def Struck (display : Display) (cells : List (Fin 2048)) (place : Fin 2048) : Prop :=
  display.get place = 1 ∧ 1 ≤ cells.count place ∨ 2 ≤ cells.count place

/-- One for an odd number and zero for an even one. -/
def parity (number : Nat) : UInt8 :=
  UInt8.ofNat (number % 2)

theorem parity_eq (number : Nat) :
    parity number = if number % 2 = 1 then 1 else 0 := by
  rcases Nat.mod_two_eq_zero_or_one number with heven | hodd
  · simp [parity, heven]
  · simp [parity, hodd]

theorem xor_parity_succ (before : UInt8) (number : Nat) :
    before ^^^ 1 ^^^ parity number = before ^^^ parity (number + 1) := by
  rw [UInt8.xor_assoc, parity_eq, parity_eq]
  rcases Nat.mod_two_eq_zero_or_one number with heven | hodd
  · have hsucc : (number + 1) % 2 = 1 := by omega
    simp [heven, hsucc]
  · have hsucc : (number + 1) % 2 = 0 := by omega
    simp [hodd, hsucc]

theorem get_turnOver (display : Display) (flag : Bool) (cell place : Fin 2048) :
    (turnOver (display, flag) cell).1.get place =
      if cell = place then display.get place ^^^ 1 else display.get place := by
  by_cases hsame : cell = place
  · subst hsame
    rw [if_pos rfl]
    exact Vector.getElem_set_self cell.isLt
  · have hapart : cell.val ≠ place.val := fun hequal => hsame (Fin.ext hequal)
    rw [if_neg hsame]
    exact Vector.getElem_set_ne cell.isLt place.isLt hapart

theorem turnOver_binary {display : Display} (hbinary : display.Binary) (flag : Bool)
    (cell : Fin 2048) : (turnOver (display, flag) cell).1.Binary := by
  intro place
  rw [get_turnOver]
  by_cases hsame : cell = place
  · rcases hbinary place with hdark | hlit
    · exact Or.inr (by simp [hsame, hdark])
    · exact Or.inl (by simp [hsame, hlit])
  · simpa [hsame] using hbinary place

/-- The cells of a partly drawn display: the entries that are already done count,
the others do not. -/
theorem get_foldl_turnOver (display : Display) (flag : Bool)
    (cells : List (Fin 2048)) (place : Fin 2048) :
    (cells.foldl turnOver (display, flag)).1.get place =
      display.get place ^^^ parity (cells.count place) := by
  -- Each entry hands a turned display to the rest, so the display is general.
  induction cells generalizing display flag with
  | nil => simp [parity]
  | cons cell rest ih =>
      rw [List.foldl_cons, ih, get_turnOver]
      by_cases hsame : cell = place
      · subst hsame
        rw [if_pos rfl, List.count_cons_self, xor_parity_succ]
      · rw [if_neg hsame, List.count_cons_of_ne hsame]

/-- What an entry of the list adds: it strikes its own cell when that is lit, and
leaves the strikes of the rest to the display after it. -/
theorem struck_cons_iff {display : Display} (hbinary : display.Binary) (flag : Bool)
    (cell place : Fin 2048) (rest : List (Fin 2048)) :
    Struck display (cell :: rest) place ↔
      (cell = place ∧ display.get cell = 1) ∨
        Struck (turnOver (display, flag) cell).1 rest place := by
  unfold Struck
  rw [get_turnOver]
  by_cases hsame : cell = place
  · subst hsame
    rw [if_pos rfl, List.count_cons_self]
    rcases hbinary cell with hdark | hlit
    · have hunlit : ¬ (0 : UInt8) = 1 := by decide
      have hturned : (0 ^^^ 1 : UInt8) = 1 := by decide
      simp only [hdark, hturned, hunlit, and_false, false_and, true_and, false_or]
      omega
    · simp [hlit]
  · simp [hsame, List.count_cons_of_ne hsame]

/-- The flag of a partly drawn display: a cell that is turned over a second time was
lit at one of the two times. -/
theorem foldl_turnOver_flag_iff {display : Display} (hbinary : display.Binary)
    (flag : Bool) (cells : List (Fin 2048)) :
    (cells.foldl turnOver (display, flag)).2 = true ↔
      flag = true ∨ ∃ place, Struck display cells place := by
  induction cells generalizing display flag with
  | nil => simp [Struck]
  | cons cell rest ih =>
      have hflag : (turnOver (display, flag) cell).2 = true ↔
          flag = true ∨ display.get cell = 1 := by
        rw [turnOver, Bool.or_eq_true, beq_iff_eq]
        rfl
      have hrest := ih (turnOver_binary hbinary flag cell)
        (turnOver (display, flag) cell).2
      rw [List.foldl_cons, hrest, hflag, or_assoc]
      apply or_congr_right
      simp only [struck_cons_iff hbinary flag cell, exists_or, exists_eq_left']

/-- Drawing changes each cell by the parity of its number of entries. -/
theorem get_draw (display : Display) (cells : List (Fin 2048)) (place : Fin 2048) :
    (display.draw cells).1.get place = display.get place ^^^ parity (cells.count place) :=
  get_foldl_turnOver display false cells place

theorem draw_flag_iff {display : Display} (hbinary : display.Binary)
    (cells : List (Fin 2048)) :
    (display.draw cells).2 = true ↔ ∃ place, Struck display cells place := by
  simpa [draw] using foldl_turnOver_flag_iff hbinary false cells

theorem draw_binary {display : Display} (hbinary : display.Binary)
    (cells : List (Fin 2048)) : (display.draw cells).1.Binary := by
  intro place
  rw [get_draw, parity_eq]
  rcases hbinary place with hdark | hlit
  · by_cases hodd : cells.count place % 2 = 1
    · exact Or.inr (by simp [hdark, hodd])
    · exact Or.inl (by simp [hdark, hodd])
  · by_cases hodd : cells.count place % 2 = 1
    · exact Or.inl (by simp [hlit, hodd])
    · exact Or.inr (by simp [hlit, hodd])

end Chip8.Display
