/-
What a disassembler reads off the bits of a word is what the interpreter executes.  The
two go by tables of their own; they meet in the instruction that the word spells, so a
word is written as data exactly when the interpreter has no rule for it.
-/
import Chip8.Instr.Assembly
import Chip8.Proofs.Spelling

namespace Chip8.Word

variable {word : Word}

theorem assembly_of_family {family : Fin 16} (hfamily : word.family = family)
    (hsome : family ≠ 0x0) : word.assembly = word.familyText family.val := by
  have hclear : word ≠ 0x00E0 := by
    rintro rfl
    exact hsome hfamily.symm
  have hret : word ≠ 0x00EE := by
    rintro rfl
    exact hsome hfamily.symm
  rw [assembly, if_neg hclear, if_neg hret, hfamily]

theorem arithmeticText_of_unassigned (x y : String) (hhigh : 0x7 < word.n)
    (hlast : word.n ≠ 0xE) : arithmeticText x y word.n.val = none := by
  unfold arithmeticText
  grind

theorem miscText_of_unassigned (x : String)
    (hlow : word.kk ∉ [0x07, 0x0A, 0x15, 0x18, 0x1E, 0x29, 0x33, 0x55, 0x65]) :
    miscText x word.kk.toNat = none := by
  unfold miscText
  split
  case h_10 => rfl
  all_goals simp_all [kk_eq_iff]

theorem assembly_of_unassigned (hword : word.Unassigned) : word.assembly = word.dataText := by
  -- One case for each family that leaves words over.
  rcases hword with ⟨hfamily, hclear, hret⟩ | ⟨hfamily | hfamily, hlow⟩ |
    ⟨hfamily, hhigh, hlast⟩ | ⟨hfamily, hdown, hup⟩ | ⟨hfamily, hlow⟩
  · rw [assembly, if_neg hclear, if_neg hret, hfamily]
    rfl
  · exact (assembly_of_family hfamily (by decide)).trans (if_neg hlow)
  · exact (assembly_of_family hfamily (by decide)).trans (if_neg hlow)
  · rw [assembly_of_family hfamily (by decide)]
    exact congrArg (Option.getD · _) (arithmeticText_of_unassigned _ _ hhigh hlast)
  · exact (assembly_of_family hfamily (by decide)).trans ((if_neg hdown).trans (if_neg hup))
  · rw [assembly_of_family hfamily (by decide)]
    exact congrArg (Option.getD · _) (miscText_of_unassigned _ hlow)

theorem assembly_of_spells {instr : Instr} (hspells : word.Spells instr) :
    word.assembly = instr.assembly := by
  -- The first digit tells some forms by itself; for the others a second field is rewritten
  -- in the table of the family.
  cases instr with
  | clear | ret =>
      obtain rfl := hspells
      rfl
  | jump _ | call _ | setIndex _ | jumpBy _ =>
      obtain ⟨hfamily, rfl⟩ := hspells
      exact assembly_of_family hfamily (by decide)
  | skipIfByte _ _ | skipUnlessByte _ _ | setByte _ _ | addByte _ _ | random _ _ =>
      obtain ⟨hfamily, rfl, rfl⟩ := hspells
      exact assembly_of_family hfamily (by decide)
  | draw _ _ _ =>
      obtain ⟨hfamily, rfl, rfl, rfl⟩ := hspells
      exact assembly_of_family hfamily (by decide)
  | skipIfSame _ _ | skipUnlessSame _ _ =>
      obtain ⟨hfamily, hlow, rfl, rfl⟩ := hspells
      exact (assembly_of_family hfamily (by decide)).trans (if_pos hlow)
  | move _ _ | or _ _ | and _ _ | xor _ _ | add _ _ | sub _ _ | subFrom _ _ =>
      obtain ⟨hfamily, hlow, rfl, rfl⟩ := hspells
      rw [assembly_of_family hfamily (by decide)]
      change (arithmeticText _ _ word.n.val).getD _ = _
      rw [hlow]
      rfl
  | shiftRight _ | shiftLeft _ =>
      obtain ⟨hfamily, hlow, rfl⟩ := hspells
      rw [assembly_of_family hfamily (by decide)]
      change (arithmeticText _ _ word.n.val).getD _ = _
      rw [hlow]
      rfl
  | skipIfKey _ | skipUnlessKey _ =>
      obtain ⟨hfamily, hlow, rfl⟩ := hspells
      rw [assembly_of_family hfamily (by decide)]
      change (if word.kk = 0x9E then _ else if word.kk = 0xA1 then _ else _) = _
      rw [hlow]
      rfl
  | unknown _ =>
      obtain ⟨rfl, hword⟩ := hspells
      exact assembly_of_unassigned hword
  | readDelay _ | waitKey _ | setDelay _ | setSound _ | addIndex _ | glyph _ | decimal _
  | store _ | fill _ =>
      obtain ⟨hfamily, hlow, rfl⟩ := hspells
      rw [assembly_of_family hfamily (by decide)]
      change (miscText _ word.kk.toNat).getD _ = _
      rw [hlow]
      rfl

/-- The disassembler names the instruction that the interpreter executes. -/
theorem assembly_eq_ofWord (word : Word) : word.assembly = (Instr.ofWord word).assembly :=
  assembly_of_spells word.spells_ofWord

end Chip8.Word
