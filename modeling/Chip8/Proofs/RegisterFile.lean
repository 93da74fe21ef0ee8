/-
The register file as one row of eighteen bytes.  The general registers and the timers are
kept apart, but a host numbers them in one row, in which a block transfer reads the first
registers and puts other bytes in their place, and a write changes the byte of its number.
-/
import Chip8.Registers
import Mathlib.Tactic.ByContra

namespace Chip8

namespace Registers

variable (registers : Registers)

theorem toList_all :
    registers.all.toList = registers.v.toList ++ [registers.delay, registers.sound] :=
  Vector.toList_append

/-- The timers stand behind the general registers. -/
theorem get_all (k : Fin 18) :
    registers.all.get k =
      if hgeneral : k.val < 16 then registers.v.get ⟨k.val, hgeneral⟩
      else if k.val = 16 then registers.delay else registers.sound := by
  change (registers.v ++ #v[registers.delay, registers.sound])[k.val] = _
  by_cases hgeneral : k.val < 16
  · rw [dif_pos hgeneral, Vector.getElem_append_left hgeneral]
    rfl
  · have htimers : 16 ≤ k.val := Nat.le_of_not_lt hgeneral
    rw [dif_neg hgeneral, Vector.getElem_append_right k.isLt htimers]
    obtain rfl | rfl : k = 16 ∨ k = 17 := by omega
    · rfl
    · rfl

section Blocks

variable {x : Register} {values : List UInt8}

theorem length_firstV (x : Register) : (registers.firstV x).length = x.val + 1 := by
  simp only [firstV, List.length_take, Vector.length_toList]
  omega

/-- The registers up to `Vx` are the front of the row. -/
theorem firstV_eq_take (x : Register) :
    registers.firstV x = registers.all.toList.take (x.val + 1) := by
  have hgeneral : x.val + 1 ≤ registers.v.toList.length := by
    rw [Vector.length_toList]
    exact x.isLt
  rw [toList_all, List.take_append_of_le_length hgeneral, firstV]

/-- What is put into the registers from `V0` on takes the place of the front of the row. -/
theorem toList_all_setFirstV (hfits : values.length ≤ 16) :
    (registers.setFirstV values).all.toList =
      spliced registers.all.toList 0 values.length values := by
  have hgeneral : values.length ≤ registers.v.toList.length := by
    rwa [Vector.length_toList]
  have hoverwrite : (registers.setFirstV values).v.toList =
      spliced registers.v.toList 0 values.length values := by
    rw [setFirstV, toList_overwrite _ (by omega), Nat.zero_add]
  rw [toList_all, toList_all, hoverwrite, spliced_append (Nat.zero_le _) hgeneral]
  rfl

/-- The registers hold what was put into them. -/
theorem firstV_setFirstV (hlength : values.length = x.val + 1) :
    (registers.setFirstV values).firstV x = values := by
  have hfits : values.length ≤ 16 := by
    rw [hlength]
    exact x.isLt
  rw [firstV_eq_take, toList_all_setFirstV _ hfits, spliced, List.take_zero, List.nil_append,
    List.take_left' hlength]

end Blocks

section Writes

theorem get_setV_self (x : Register) (value : UInt8) :
    (registers.setV x value).v.get x = value :=
  Vector.getElem_set_self x.isLt

theorem eq_of_get_setV_ne {registers : Registers} {x r : Register} {value : UInt8}
    (hchanged : (registers.setV x value).v.get r ≠ registers.v.get r) : r = x := by
  by_contra hother
  have hapart : x.val ≠ r.val := fun hsame => hother (Fin.ext hsame.symm)
  exact hchanged (Vector.getElem_set_ne x.isLt r.isLt hapart)

theorem get_setV (x r : Register) (value : UInt8) :
    (registers.setV x value).v.get r = if r = x then value else registers.v.get r := by
  by_cases hsame : r = x
  · rw [hsame, if_pos rfl, get_setV_self]
  · rw [if_neg hsame]
    exact not_imp_comm.mp eq_of_get_setV_ne hsame

theorem get_all_setV (x : Register) (value : UInt8) (k : Fin 18) :
    (registers.setV x value).all.get k =
      if k.val = x.val then value else registers.all.get k := by
  rw [get_all, get_all]
  by_cases hgeneral : k.val < 16
  · have hsame : (⟨k.val, hgeneral⟩ : Register) = x ↔ k.val = x.val := Fin.ext_iff
    simp only [dif_pos hgeneral, get_setV, hsame]
  · have happart : ¬ k.val = x.val := by omega
    rw [dif_neg hgeneral, dif_neg hgeneral, if_neg happart]
    rfl

theorem get_all_delay (value : UInt8) (k : Fin 18) :
    { registers with delay := value }.all.get k =
      if k.val = 16 then value else registers.all.get k := by
  rw [get_all, get_all]
  by_cases hdelay : k.val = 16
  · simp [hdelay]
  · simp only [if_neg hdelay]

theorem get_all_sound (value : UInt8) (k : Fin 18) :
    { registers with sound := value }.all.get k =
      if k.val = 17 then value else registers.all.get k := by
  rw [get_all, get_all]
  by_cases hsound : k.val = 17
  · simp [hsound]
  · have hbefore : ¬ k.val < 16 → k.val = 16 := by omega
    by_cases hgeneral : k.val < 16
    · simp only [dif_pos hgeneral, if_neg hsound]
    · simp only [dif_neg hgeneral, if_pos (hbefore hgeneral), if_neg hsound]

/-- There are eighteen numbers, and a write changes the register of its number. -/
theorem write_cases (number value : Int) :
    (number < 0 ∨ 17 < number) ∧
        registers.write number value = ⟨registers, .error (.noRegister number)⟩ ∨
      0 ≤ number ∧ number ≤ 17 ∧ ∃ written, registers.write number value = ⟨written, .ok ()⟩ ∧
        ∀ k : Fin 18, written.all.get k =
          if (k.val : Int) = number then UInt8.ofInt value else registers.all.get k := by
  unfold write
  split
  case isTrue hgeneral =>
    refine Or.inr ⟨hgeneral.1, by omega, _, rfl, fun k => ?_⟩
    have hsame : k.val = number.toNat ↔ (k.val : Int) = number := by omega
    simp only [get_all_setV, hsame]
  case isFalse hgeneral =>
    split
    case isTrue hdelay =>
      refine Or.inr ⟨by omega, by omega, _, rfl, fun k => ?_⟩
      have hsame : k.val = 16 ↔ (k.val : Int) = number := by omega
      simp only [get_all_delay, hsame]
    case isFalse hdelay =>
      split
      case isTrue hsound =>
        refine Or.inr ⟨by omega, by omega, _, rfl, fun k => ?_⟩
        have hsame : k.val = 17 ↔ (k.val : Int) = number := by omega
        simp only [get_all_sound, hsame]
      case isFalse hsound => exact Or.inl ⟨by omega, rfl⟩

end Writes

end Registers

end Chip8
