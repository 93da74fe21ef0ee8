/-
The words that instructions are written with.  A word spells an instruction when its
fixed bits are those of the instruction and its fields hold the operands; decoding gives
the instruction that a word spells, and a word that spells none is unassigned.
-/
import Chip8.Proofs.Decoding

namespace Chip8

namespace Word

/-- A word of a family with rules, but without a rule for its low bits. -/
def Unassigned (word : Word) : Prop :=
  word.family = 0x0 ∧ word ≠ 0x00E0 ∧ word ≠ 0x00EE ∨
    (word.family = 0x5 ∨ word.family = 0x9) ∧ word.n ≠ 0x0 ∨
    word.family = 0x8 ∧ 0x7 < word.n ∧ word.n ≠ 0xE ∨
    word.family = 0xE ∧ word.kk ≠ 0x9E ∧ word.kk ≠ 0xA1 ∨
    word.family = 0xF ∧
      word.kk ∉ [0x07, 0x0A, 0x15, 0x18, 0x1E, 0x29, 0x33, 0x55, 0x65]

/-- The fixed bits and the operands of an instruction. -/
def Spells (word : Word) : Instr → Prop
  | .clear => word = 0x00E0
  | .ret => word = 0x00EE
  | .jump address => word.family = 0x1 ∧ address = word.nnn
  | .call address => word.family = 0x2 ∧ address = word.nnn
  | .skipIfByte x kk => word.family = 0x3 ∧ x = word.x ∧ kk = word.kk
  | .skipUnlessByte x kk => word.family = 0x4 ∧ x = word.x ∧ kk = word.kk
  | .skipIfSame x y => word.family = 0x5 ∧ word.n = 0x0 ∧ x = word.x ∧ y = word.y
  | .setByte x kk => word.family = 0x6 ∧ x = word.x ∧ kk = word.kk
  | .addByte x kk => word.family = 0x7 ∧ x = word.x ∧ kk = word.kk
  | .move x y => word.family = 0x8 ∧ word.n = 0x0 ∧ x = word.x ∧ y = word.y
  | .or x y => word.family = 0x8 ∧ word.n = 0x1 ∧ x = word.x ∧ y = word.y
  | .and x y => word.family = 0x8 ∧ word.n = 0x2 ∧ x = word.x ∧ y = word.y
  | .xor x y => word.family = 0x8 ∧ word.n = 0x3 ∧ x = word.x ∧ y = word.y
  | .add x y => word.family = 0x8 ∧ word.n = 0x4 ∧ x = word.x ∧ y = word.y
  | .sub x y => word.family = 0x8 ∧ word.n = 0x5 ∧ x = word.x ∧ y = word.y
  | .shiftRight x => word.family = 0x8 ∧ word.n = 0x6 ∧ x = word.x
  | .subFrom x y => word.family = 0x8 ∧ word.n = 0x7 ∧ x = word.x ∧ y = word.y
  | .shiftLeft x => word.family = 0x8 ∧ word.n = 0xE ∧ x = word.x
  | .skipUnlessSame x y => word.family = 0x9 ∧ word.n = 0x0 ∧ x = word.x ∧ y = word.y
  | .setIndex address => word.family = 0xA ∧ address = word.nnn
  | .jumpBy address => word.family = 0xB ∧ address = word.nnn
  | .random x kk => word.family = 0xC ∧ x = word.x ∧ kk = word.kk
  | .draw x y rows => word.family = 0xD ∧ x = word.x ∧ y = word.y ∧ rows = word.n
  | .skipIfKey x => word.family = 0xE ∧ word.kk = 0x9E ∧ x = word.x
  | .skipUnlessKey x => word.family = 0xE ∧ word.kk = 0xA1 ∧ x = word.x
  | .readDelay x => word.family = 0xF ∧ word.kk = 0x07 ∧ x = word.x
  | .waitKey x => word.family = 0xF ∧ word.kk = 0x0A ∧ x = word.x
  | .setDelay x => word.family = 0xF ∧ word.kk = 0x15 ∧ x = word.x
  | .setSound x => word.family = 0xF ∧ word.kk = 0x18 ∧ x = word.x
  | .addIndex x => word.family = 0xF ∧ word.kk = 0x1E ∧ x = word.x
  | .glyph x => word.family = 0xF ∧ word.kk = 0x29 ∧ x = word.x
  | .decimal x => word.family = 0xF ∧ word.kk = 0x33 ∧ x = word.x
  | .store x => word.family = 0xF ∧ word.kk = 0x55 ∧ x = word.x
  | .fill x => word.family = 0xF ∧ word.kk = 0x65 ∧ x = word.x
  | .unknown passed => passed = word ∧ word.Unassigned

variable {word : Word}

theorem kk_eq_iff (low : UInt8) : word.kk = low ↔ word.kk.toNat = low.toNat :=
  UInt8.toNat_inj.symm

theorem spells_ofSystem (hfamily : word.family = 0x0) :
    word.Spells (Instr.ofSystem word) := by
  unfold Instr.ofSystem
  split
  case isTrue hclear => exact hclear
  case isFalse hclear =>
    split
    case isTrue hret => exact hret
    case isFalse hret => exact ⟨rfl, Or.inl ⟨hfamily, hclear, hret⟩⟩

theorem spells_ofArithmetic (hfamily : word.family = 0x8) :
    word.Spells (Instr.ofArithmetic word) := by
  unfold Instr.ofArithmetic
  split
  case h_10 =>
    have hlow : 0x7 < word.n ∧ word.n ≠ 0xE := by grind
    exact ⟨rfl, Or.inr (Or.inr (Or.inl ⟨hfamily, hlow⟩))⟩
  all_goals exact ⟨hfamily, Fin.ext ‹_›, by simp⟩

theorem spells_ofKey (hfamily : word.family = 0xE) : word.Spells (Instr.ofKey word) := by
  unfold Instr.ofKey
  split
  case h_3 hdown hup =>
    have hlow : word.kk ≠ 0x9E ∧ word.kk ≠ 0xA1 :=
      ⟨mt (kk_eq_iff _).mp hdown, mt (kk_eq_iff _).mp hup⟩
    exact ⟨rfl, Or.inr (Or.inr (Or.inr (Or.inl ⟨hfamily, hlow⟩)))⟩
  all_goals exact ⟨hfamily, (kk_eq_iff _).mpr ‹_›, rfl⟩

theorem spells_ofMisc (hfamily : word.family = 0xF) : word.Spells (Instr.ofMisc word) := by
  unfold Instr.ofMisc
  split
  case h_10 =>
    have hlow : word.kk ∉ [0x07, 0x0A, 0x15, 0x18, 0x1E, 0x29, 0x33, 0x55, 0x65] := by
      simp_all [kk_eq_iff]
    exact ⟨rfl, Or.inr (Or.inr (Or.inr (Or.inr ⟨hfamily, hlow⟩)))⟩
  all_goals exact ⟨hfamily, (kk_eq_iff _).mpr ‹_›, rfl⟩

/-- Decoding a word gives the instruction that it spells. -/
theorem spells_ofWord (word : Word) : word.Spells (.ofWord word) := by
  unfold Instr.ofWord
  split
  case h_1 hfamily => exact spells_ofSystem (Fin.ext hfamily)
  case h_9 hfamily => exact spells_ofArithmetic (Fin.ext hfamily)
  case h_15 hfamily => exact spells_ofKey (Fin.ext hfamily)
  case h_16 =>
    have hfamily : word.family = 0xF := by grind
    exact spells_ofMisc hfamily
  case h_6 hfamily =>
    split
    case isTrue hlow => exact ⟨Fin.ext hfamily, hlow, rfl, rfl⟩
    case isFalse hlow =>
      exact ⟨rfl, Or.inr (Or.inl ⟨Or.inl (Fin.ext hfamily), hlow⟩)⟩
  case h_10 hfamily =>
    split
    case isTrue hlow => exact ⟨Fin.ext hfamily, hlow, rfl, rfl⟩
    case isFalse hlow =>
      exact ⟨rfl, Or.inr (Or.inl ⟨Or.inr (Fin.ext hfamily), hlow⟩)⟩
  all_goals exact ⟨Fin.ext ‹_›, by simp⟩

theorem ofWord_of_waitKey (hfamily : word.family = 0xF) (hlow : word.kk = 0x0A) :
    .ofWord word = Instr.waitKey word.x := by
  rw [Instr.ofWord_of_misc word (congrArg Fin.val hfamily), Instr.ofMisc, hlow]
  rfl

theorem ofSystem_of_unassigned (hclear : word ≠ 0x00E0) (hret : word ≠ 0x00EE) :
    Instr.ofSystem word = .unknown word := by
  rw [Instr.ofSystem, if_neg hclear, if_neg hret]

theorem ofArithmetic_of_unassigned (hhigh : 0x7 < word.n) (hlast : word.n ≠ 0xE) :
    Instr.ofArithmetic word = .unknown word := by
  unfold Instr.ofArithmetic
  grind

theorem ofKey_of_unassigned (hdown : word.kk ≠ 0x9E) (hup : word.kk ≠ 0xA1) :
    Instr.ofKey word = .unknown word := by
  unfold Instr.ofKey
  split
  case h_1 hlow => exact absurd ((kk_eq_iff _).mpr hlow) hdown
  case h_2 hlow => exact absurd ((kk_eq_iff _).mpr hlow) hup
  case h_3 => rfl

theorem ofMisc_of_unassigned
    (hlow : word.kk ∉ [0x07, 0x0A, 0x15, 0x18, 0x1E, 0x29, 0x33, 0x55, 0x65]) :
    Instr.ofMisc word = .unknown word := by
  unfold Instr.ofMisc
  split
  case h_10 => rfl
  all_goals simp_all [kk_eq_iff]

/-- An unassigned word spells no instruction but itself. -/
theorem ofWord_of_unassigned (hword : word.Unassigned) :
    .ofWord word = Instr.unknown word := by
  have hvalue {family : Fin 16} (hfamily : word.family = family) :
      word.family.val = family.val := congrArg Fin.val hfamily
  unfold Instr.ofWord
  rcases hword with ⟨hfamily, hclear, hret⟩ | ⟨hfamily | hfamily, hlow⟩ |
    ⟨hfamily, hhigh, hlast⟩ | ⟨hfamily, hdown, hup⟩ | ⟨hfamily, hlow⟩
  · rw [hvalue hfamily]
    exact ofSystem_of_unassigned hclear hret
  · rw [hvalue hfamily]
    exact if_neg hlow
  · rw [hvalue hfamily]
    exact if_neg hlow
  · rw [hvalue hfamily]
    exact ofArithmetic_of_unassigned hhigh hlast
  · rw [hvalue hfamily]
    exact ofKey_of_unassigned hdown hup
  · rw [hvalue hfamily]
    exact ofMisc_of_unassigned hlow

end Word

end Chip8
