/-
The arithmetic of the registers.  A sum, a difference and a shift are known exactly from the
byte that they leave and the flag beside it: one equation ties both to the two operands, and
has one solution.  The flag is written last, so that it is what remains when the result
should go to the flag register itself.
-/
import Chip8.Proofs.Compositing
import Chip8.Proofs.Frames

namespace Chip8

namespace Word

/-- The words that leave a flag: sums, differences and shifts of registers. -/
def LeavesFlag (word : Word) : Prop :=
  word.family = 0x8 ∧ (0x4 ≤ word.n ∧ word.n ≤ 0x7 ∨ word.n = 0xE)

/-- The words that combine a byte with a register and leave no flag. -/
def Combines (word : Word) : Prop :=
  word.family = 0x7 ∨ word.family = 0x8 ∧ 0x1 ≤ word.n ∧ word.n ≤ 0x3

/-- The number that such a word makes of its two operands. -/
def combined (word : Word) (left right : Nat) : Nat :=
  if word.family = 0x7 then (left + word.kk.toNat) % 256
  else if word.n = 0x1 then left ||| right
  else if word.n = 0x2 then left &&& right
  else left ^^^ right

/-- The equation that ties the result and the flag of a word to its two operands.  A
reversed difference of equal operands leaves no flag. -/
def Balances (word : Word) (left right result : UInt8) (flag : Bool) : Prop :=
  let a : Int := left.toNat
  let b : Int := right.toNat
  let r : Int := result.toNat
  let f : Int := flag.toNat
  word.n = 0x4 ∧ a + b = r + 256 * f ∨
    word.n = 0x5 ∧ a - b = r - 256 * (1 - f) ∨
    word.n = 0x6 ∧ a = 2 * r + f ∨
    word.n = 0x7 ∧ (a = b ∧ r = 0 ∧ f = 0 ∨ a ≠ b ∧ b - a = r - 256 * (1 - f)) ∨
    word.n = 0xE ∧ 2 * a = r + 256 * f

/-- What the general registers hold behind a word of arithmetic. -/
structure Computes (word : Word) (before after : Registers) : Prop where
  /-- The flag register holds the one flag that balances, and the register of the result
  holds the one result, unless it is the flag register. -/
  flagged : word.LeavesFlag → ∃ result flag,
    (∀ value mark, word.Balances (before.v.get word.x) (before.v.get word.y) value mark ↔
      value = result ∧ mark = flag) ∧
    after.v.get Register.flag = (if flag then 1 else 0) ∧
    (word.x ≠ Register.flag → after.v.get word.x = result)
  combined : word.Combines → (after.v.get word.x).toNat =
    word.combined (before.v.get word.x).toNat (before.v.get word.y).toNat
  others : ∀ r, r ≠ word.x → (word.LeavesFlag → r ≠ Register.flag) →
    after.v.get r = before.v.get r
  delay : after.delay = before.delay
  sound : after.sound = before.sound

variable {word : Word} {left right result : UInt8} {flag : Bool}

/-- The result and the flag are determined by the operands. -/
theorem Balances.unique {value : UInt8} {mark : Bool}
    (hbalances : word.Balances left right result flag)
    (hother : word.Balances left right value mark) : value = result ∧ mark = flag := by
  have hresult := result.toNat_lt
  have hvalue := value.toNat_lt
  have hflag := Bool.toNat_le flag
  have hmark := Bool.toNat_le mark
  simp only [Balances] at hbalances hother
  have hsame : value.toNat = result.toNat ∧ mark.toNat = flag.toNat := by omega
  refine ⟨UInt8.toNat_inj.mp hsame.1, ?_⟩
  cases flag <;> cases mark <;> simp_all

/-! Each result balances with the flag that is written beside it. -/

theorem balances_add (hlow : word.n = 0x4) :
    word.Balances left right (left + right) (decide (255 < left.toNat + right.toNat)) := by
  have hsum := UInt8.toNat_add left right
  have hleft := left.toNat_lt
  have hright := right.toNat_lt
  refine Or.inl ⟨hlow, ?_⟩
  by_cases hcarry : 255 < left.toNat + right.toNat
  · simp only [hcarry, decide_true, Bool.toNat_true]
    omega
  · simp only [hcarry, decide_false, Bool.toNat_false]
    omega

theorem balances_sub (hlow : word.n = 0x5) :
    word.Balances left right (left - right) (decide (right ≤ left)) := by
  have hdifference := UInt8.toNat_sub left right
  have hleft := left.toNat_lt
  have hright := right.toNat_lt
  refine Or.inr (Or.inl ⟨hlow, ?_⟩)
  by_cases hcovered : right.toNat ≤ left.toNat
  · simp only [UInt8.le_iff_toNat_le, hcovered, decide_true, Bool.toNat_true]
    omega
  · simp only [UInt8.le_iff_toNat_le, hcovered, decide_false, Bool.toNat_false]
    omega

theorem balances_shiftRight (hlow : word.n = 0x6) :
    word.Balances left right (left >>> 1) (left.toNat.testBit 0) := by
  have hhalf : (left >>> 1).toNat = left.toNat / 2 := UInt8.toNat_shiftRight left 1
  refine Or.inr (Or.inr (Or.inl ⟨hlow, ?_⟩))
  rw [hhalf, Nat.toNat_testBit]
  omega

theorem balances_subFrom (hlow : word.n = 0x7) :
    word.Balances left right (right - left) (decide (left < right)) := by
  have hdifference := UInt8.toNat_sub right left
  have hleft := left.toNat_lt
  have hright := right.toNat_lt
  refine Or.inr (Or.inr (Or.inr (Or.inl ⟨hlow, ?_⟩)))
  by_cases hgreater : left.toNat < right.toNat
  · simp only [UInt8.lt_iff_toNat_lt, hgreater, decide_true, Bool.toNat_true]
    omega
  · simp only [UInt8.lt_iff_toNat_lt, hgreater, decide_false, Bool.toNat_false]
    omega

theorem balances_shiftLeft (hlow : word.n = 0xE) :
    word.Balances left right (left <<< 1) (left.toNat.testBit 7) := by
  have hdouble : (left <<< 1).toNat = left.toNat * 2 % 256 := by
    rw [UInt8.toNat_shiftLeft, Nat.shiftLeft_eq]
    rfl
  have hleft := left.toNat_lt
  refine Or.inr (Or.inr (Or.inr (Or.inr ⟨hlow, ?_⟩)))
  rw [hdouble, Nat.toNat_testBit]
  omega

theorem not_leavesFlag_of_combines (hword : word.Combines) : ¬ word.LeavesFlag := by
  rintro ⟨hfamily, hlow⟩
  rcases hword with hbyte | ⟨-, -, hsmall⟩
  · simp [hfamily] at hbyte
  · rcases hlow with ⟨hlow, -⟩ | hlow
    · omega
    · simp [hlow] at hsmall

variable {registers : Registers}

theorem computes_setFlagged (hword : word.LeavesFlag)
    (hbalances : word.Balances (registers.v.get word.x) (registers.v.get word.y) result flag) :
    word.Computes registers (registers.setFlagged word.x result flag) := by
  constructor
  case flagged =>
    intro _
    refine ⟨result, flag, fun value mark => ⟨hbalances.unique, ?_⟩, ?_, fun hother => ?_⟩
    · rintro ⟨rfl, rfl⟩
      exact hbalances
    · exact Registers.get_setV_self _ _ _
    · -- The flag is written behind the result, into another register.
      exact (not_imp_comm.mp Registers.eq_of_get_setV_ne hother).trans
        (Registers.get_setV_self _ _ _)
  case combined => exact fun hcombines => absurd hword (not_leavesFlag_of_combines hcombines)
  case others =>
    intro r hr hflag
    by_contra hchanged
    rcases Registers.eq_of_get_setFlagged_ne hchanged with hx | hmark
    · exact hr hx
    · exact hflag hword hmark
  case delay | sound => rfl

theorem computes_setV (hword : word.Combines)
    (hresult : result.toNat =
      word.combined (registers.v.get word.x).toNat (registers.v.get word.y).toNat) :
    word.Computes registers (registers.setV word.x result) := by
  constructor
  case flagged => exact fun hflag => absurd hflag (not_leavesFlag_of_combines hword)
  case combined =>
    intro _
    rw [registers.get_setV_self, hresult]
  case others => exact fun r hr _ => not_imp_comm.mp Registers.eq_of_get_setV_ne hr
  case delay | sound => rfl

end Word

namespace Vm

variable {word : Word}

/-- A word of arithmetic goes through, and changes nothing but the general registers.  The
two operands are read before anything is written, also when one register is both of them or
one of them is the flag register. -/
theorem exec_arithmetic (setup : Setup) (vm : Vm) (hword : word.LeavesFlag ∨ word.Combines) :
    ∃ after, vm.exec setup (.ofWord word) = .done { vm with machine.registers := after } ∧
      word.Computes vm.machine.registers after := by
  rcases hword with hflag | hcombines
  · rw [Instr.ofWord_of_arithmetic word (congrArg Fin.val hflag.1), Instr.ofArithmetic]
    have hlow : word.n = 0x4 ∨ word.n = 0x5 ∨ word.n = 0x6 ∨ word.n = 0x7 ∨ word.n = 0xE := by
      obtain ⟨-, hlower⟩ := hflag
      omega
    rcases hlow with hlow | hlow | hlow | hlow | hlow <;> rw [hlow]
    · exact ⟨_, rfl, Word.computes_setFlagged hflag (Word.balances_add hlow)⟩
    · exact ⟨_, rfl, Word.computes_setFlagged hflag (Word.balances_sub hlow)⟩
    · exact ⟨_, rfl, Word.computes_setFlagged hflag (Word.balances_shiftRight hlow)⟩
    · exact ⟨_, rfl, Word.computes_setFlagged hflag (Word.balances_subFrom hlow)⟩
    · exact ⟨_, rfl, Word.computes_setFlagged hflag (Word.balances_shiftLeft hlow)⟩
  · by_cases hbyte : word.family = 0x7
    · rw [Instr.ofWord_of_addByte word (congrArg Fin.val hbyte)]
      refine ⟨_, rfl, Word.computes_setV hcombines ?_⟩
      rw [Word.combined, if_pos hbyte]
      exact UInt8.toNat_add _ _
    · obtain ⟨hfamily, hfirst, hlast⟩ := hcombines.resolve_left hbyte
      have hlow : word.n = 0x1 ∨ word.n = 0x2 ∨ word.n = 0x3 := by omega
      rw [Instr.ofWord_of_arithmetic word (congrArg Fin.val hfamily), Instr.ofArithmetic]
      rcases hlow with hlow | hlow | hlow <;> rw [hlow] <;>
        refine ⟨_, rfl, Word.computes_setV hcombines ?_⟩ <;>
        simp only [Word.combined, hfamily, hlow]
      · exact UInt8.toNat_or _ _
      · exact UInt8.toNat_and _ _
      · exact UInt8.toNat_xor _ _

/-- A sum with a carry that goes to the flag register itself: the carry remains. -/
theorem exec_arithmetic_flag :
    let setup : Setup := { random := fun _ => 0 }
    let registers : Registers := { v := (Vector.replicate 16 0x64).set 15 0xC8 }
    let vm : Vm := { machine := { registers } }
    let word : Word := 0x8FE4
    word.LeavesFlag ∧ ∃ after : Registers,
      vm.exec setup (.ofWord word) = .done { vm with machine.registers := after } ∧
        word.Computes registers after ∧ after.v.get Register.flag = 1 := by
  intro setup registers vm word
  have hword : word.LeavesFlag := ⟨by decide, by decide⟩
  obtain ⟨after, hexec, hcomputes⟩ := exec_arithmetic setup vm (Or.inl hword)
  obtain ⟨result, flag, hunique, hflag, -⟩ := hcomputes.flagged hword
  have hcarry : word.Balances (registers.v.get word.x) (registers.v.get word.y) 0x2C true :=
    Or.inl ⟨by decide, by decide⟩
  obtain ⟨-, rfl⟩ := (hunique 0x2C true).mp hcarry
  exact ⟨hword, after, hexec, hcomputes, hflag⟩

end Vm

end Chip8
