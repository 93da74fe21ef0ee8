/-
The number that hexadecimal digits write.  A number filled up with zeros is read back as
itself, so a text of one width tells numbers apart.
-/
import Chip8.Text.Hex
import Mathlib.Algebra.Group.Nat.Defs
import Mathlib.Data.List.Basic

namespace Chip8.Hex

/-- The sixteen capital digits, smallest first. -/
def capitals : List Char := "0123456789ABCDEF".toList

/-- The number that capital digits write. -/
def value (text : List Char) : Nat :=
  text.foldl (fun sofar digit => 16 * sofar + capitals.idxOf digit) 0

theorem idxOf_capital : ∀ digit < 16, capitals.idxOf (Nat.digitChar digit).toUpper = digit := by
  decide

theorem capital_mem : ∀ digit < 16, (Nat.digitChar digit).toUpper ∈ capitals := by
  decide

theorem value_append_singleton (text : List Char) (digit : Char) :
    value (text ++ [digit]) = 16 * value text + capitals.idxOf digit := by
  simp only [value, List.foldl_append, List.foldl_cons, List.foldl_nil]

theorem digits_eq (number : Nat) :
    digits number = if number < 16 then [(Nat.digitChar number).toUpper]
      else digits (number / 16) ++ [(Nat.digitChar (number % 16)).toUpper] := by
  rw [digits, Nat.toDigits_eq_if (by decide)]
  split <;> simp [digits]

theorem value_digits (number : Nat) : value (digits number) = number := by
  induction number using Nat.strongRecOn with
  | ind number ih =>
      rw [digits_eq]
      split
      case isTrue hsmall =>
        simp [value, idxOf_capital number hsmall]
      case isFalse hlarge =>
        rw [value_append_singleton, ih (number / 16) (by omega),
          idxOf_capital (number % 16) (by omega)]
        omega

theorem mem_capitals_of_mem_digits {number : Nat} {digit : Char}
    (hdigit : digit ∈ digits number) : digit ∈ capitals := by
  induction number using Nat.strongRecOn with
  | ind number ih =>
      rw [digits_eq] at hdigit
      split at hdigit
      case isTrue hsmall =>
        obtain rfl := List.mem_singleton.mp hdigit
        exact capital_mem number hsmall
      case isFalse hlarge =>
        rcases List.mem_append.mp hdigit with hfront | hlast
        · exact ih (number / 16) (by omega) hfront
        · obtain rfl := List.mem_singleton.mp hlast
          exact capital_mem (number % 16) (by omega)

theorem toList_padded (width number : Nat) :
    (padded width number).toList =
      List.replicate (width - (digits number).length) '0' ++ digits number := by
  have hsign : sign number = [] := if_neg (by omega)
  simp [padded, zeroFilled, hsign]

theorem padded_ne_empty (width number : Nat) : padded width number ≠ "" := by
  have hdigits : digits number ≠ [] := by
    rw [digits_eq]
    split <;> simp
  rw [← String.toList_inj.ne, toList_padded]
  simp [hdigits]

theorem value_zeros_append (count : Nat) (text : List Char) :
    value (List.replicate count '0' ++ text) = value text := by
  have hzero : capitals.idxOf '0' = 0 := by decide
  induction count with
  | zero => rfl
  | succ count ih =>
      rw [List.replicate_succ, List.cons_append, ← ih]
      simp [value, hzero]

theorem value_padded (width number : Nat) :
    value (padded width number).toList = number := by
  rw [toList_padded, value_zeros_append, value_digits]

theorem mem_capitals_of_mem_padded {width number : Nat} {digit : Char}
    (hdigit : digit ∈ (padded width number).toList) : digit ∈ capitals := by
  rw [toList_padded] at hdigit
  rcases List.mem_append.mp hdigit with hzero | hdigits
  · rw [List.eq_of_mem_replicate hzero]
    decide
  · exact mem_capitals_of_mem_digits hdigits

/-- A text writes a number in capital digits: at least `width` of them, and more only
when the number needs more. -/
structure Writes (width number : Nat) (text : String) : Prop where
  capital : ∀ digit ∈ text.toList, digit ∈ capitals
  value : value text.toList = number
  least : width ≤ text.length
  most : ∀ size, 0 < size → number < 16 ^ size → text.length ≤ max width size

theorem length_padded (width number : Nat) :
    (padded width number).length = max width (digits number).length := by
  rw [← String.length_toList, toList_padded, List.length_append, List.length_replicate]
  omega

theorem writes_padded (width number : Nat) : Writes width number (padded width number) := by
  constructor
  case capital => exact fun digit => mem_capitals_of_mem_padded
  case value => exact value_padded width number
  case least =>
    rw [length_padded]
    exact Nat.le_max_left _ _
  case most =>
    intro size hsize hnumber
    have hdigits : (digits number).length ≤ size := by
      rw [digits, List.length_map]
      exact (Nat.length_toDigits_le_iff (by decide) hsize).mpr hnumber
    rw [length_padded]
    omega

theorem not_mem_padded {mark : Char} (hmark : mark ∉ capitals) (width number : Nat) :
    mark ∉ (padded width number).toList :=
  fun hmem => hmark (mem_capitals_of_mem_padded hmem)

section Scanning

variable {mark : Char} (hmark : mark ∉ capitals) (width number : Nat) (rest : List Char)

include hmark

/-- The digits of a number end where the first other character stands. -/
theorem takeWhile_padded_append :
    ((padded width number).toList ++ mark :: rest).takeWhile (· ≠ mark) =
      (padded width number).toList := by
  rw [List.takeWhile_append_of_pos]
  · rw [List.takeWhile_cons_of_neg (by simp), List.append_nil]
  · intro digit hdigit
    have hother : digit ≠ mark := by
      rintro rfl
      exact not_mem_padded hmark _ _ hdigit
    exact decide_eq_true hother

theorem dropWhile_padded_append :
    ((padded width number).toList ++ mark :: rest).dropWhile (· ≠ mark) = mark :: rest := by
  have hparts := List.takeWhile_append_dropWhile
    (p := (· ≠ mark)) (l := (padded width number).toList ++ mark :: rest)
  rw [takeWhile_padded_append hmark] at hparts
  exact List.append_cancel_left hparts

end Scanning

/-- A number below the reach of `width` digits has exactly so many. -/
theorem length_padded_of_lt {width number : Nat} (hwidth : 0 < width)
    (hnumber : number < 16 ^ width) : (padded width number).length = width := by
  have hwrites := writes_padded width number
  have hmost := hwrites.most width hwidth hnumber
  have hleast := hwrites.least
  omega

end Chip8.Hex
