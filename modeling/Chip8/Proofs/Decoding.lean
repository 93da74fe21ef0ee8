/-
Which words are which instruction.  The instructions that can be refused are a
return, a call, and those that ask for bytes at the index register.
-/
import Chip8.Instr

namespace Chip8.Instr

/-- The number of bytes that an instruction asks for at the index register. -/
def request : Instr → Option Nat
  | .draw _ _ rows => some rows.val
  | .decimal _ => some 3
  | .store x | .fill x => some (x.val + 1)
  | _ => none

variable (word : Word)

theorem ofWord_of_draw (hfamily : word.toNat / 4096 = 13) :
    ofWord word = .draw word.x word.y word.n := by
  have hvalue : word.family.val = 13 := hfamily
  unfold ofWord
  rw [hvalue]
  rfl

theorem ofWord_of_random (hfamily : word.toNat / 4096 = 12) :
    ofWord word = .random word.x word.kk := by
  have hvalue : word.family.val = 12 := hfamily
  unfold ofWord
  rw [hvalue]
  rfl

theorem ofWord_of_addByte (hfamily : word.toNat / 4096 = 7) :
    ofWord word = .addByte word.x word.kk := by
  have hvalue : word.family.val = 7 := hfamily
  unfold ofWord
  rw [hvalue]
  rfl

theorem ofWord_of_arithmetic (hfamily : word.toNat / 4096 = 8) :
    ofWord word = ofArithmetic word := by
  have hvalue : word.family.val = 8 := hfamily
  unfold ofWord
  rw [hvalue]
  rfl

theorem ofWord_of_misc (hfamily : word.toNat / 4096 = 15) : ofWord word = ofMisc word := by
  have hvalue : word.family.val = 15 := hfamily
  unfold ofWord
  rw [hvalue]
  rfl

theorem ofWord_eq_ret_iff : ofWord word = .ret ↔ word = 0x00EE := by
  constructor
  · intro hret
    unfold ofWord ofSystem ofArithmetic ofKey ofMisc at hret
    grind
  · rintro rfl
    decide

theorem ofWord_eq_call_iff (address : Address) :
    ofWord word = .call address ↔ word.toNat / 4096 = 2 ∧ address = word.nnn := by
  have hfamily : word.family.val = word.toNat / 4096 := rfl
  unfold ofWord ofSystem ofArithmetic ofKey ofMisc
  grind

theorem request_ofMisc_eq_some_iff (length : Nat) :
    (ofMisc word).request = some length ↔
      word.toNat % 256 = 0x33 ∧ length = 3 ∨
      (word.toNat % 256 = 0x55 ∨ word.toNat % 256 = 0x65) ∧
        length = word.toNat / 256 % 16 + 1 := by
  have hx : word.x.val = word.toNat / 256 % 16 := rfl
  rw [← word.toNat_kk, ← hx]
  unfold ofMisc
  split <;> simp only [request, Option.some.injEq, reduceCtorEq, false_iff] <;> grind

/-- Only draws and the words that start with `F` ask for bytes. -/
theorem request_ofWord_of_plain (hdraw : word.toNat / 4096 ≠ 13)
    (hmisc : word.toNat / 4096 ≠ 15) : (ofWord word).request = none := by
  have hfamily : word.family.val = word.toNat / 4096 := rfl
  have hbound := word.family.isLt
  rw [← hfamily] at hdraw hmisc
  unfold ofWord
  split
  case h_1 =>
    unfold ofSystem
    split <;> (try split) <;> rfl
  case h_9 =>
    unfold ofArithmetic
    split <;> rfl
  case h_15 =>
    unfold ofKey
    split <;> rfl
  case h_6 | h_10 => split <;> rfl
  case h_14 => contradiction
  case h_16 => grind
  all_goals rfl

theorem request_ofWord_eq_some_iff (length : Nat) :
    (ofWord word).request = some length ↔
      word.toNat / 4096 = 13 ∧ length = word.toNat % 16 ∨
      word.toNat / 4096 = 15 ∧ word.toNat % 256 = 0x33 ∧ length = 3 ∨
      word.toNat / 4096 = 15 ∧ (word.toNat % 256 = 0x55 ∨ word.toNat % 256 = 0x65) ∧
        length = word.toNat / 256 % 16 + 1 := by
  by_cases hdraw : word.toNat / 4096 = 13
  · have hn : word.n.val = word.toNat % 16 := rfl
    simp [ofWord_of_draw word hdraw, request, hdraw, hn, eq_comm]
  · by_cases hmisc : word.toNat / 4096 = 15
    · simp [ofWord_of_misc word hmisc, request_ofMisc_eq_some_iff, hmisc]
    · simp [request_ofWord_of_plain word hdraw hmisc, hdraw, hmisc]

end Chip8.Instr
