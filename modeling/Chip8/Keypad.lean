/-
The sixteen-key pad.  Pressing and releasing take the low four bits of a number;
a number that is no key is never pressed.
-/
import Chip8.Word

namespace Chip8

/-- One switch for each key, down when true. -/
abbrev Keypad := Vector Bool 16

namespace Keypad

def released : Keypad :=
  Vector.replicate 16 false

/-- The key of the low four bits of a number. -/
def key (number : Int) : Fin 16 :=
  ⟨(number % 16).toNat, by omega⟩

def press (keypad : Keypad) (number : Int) : Keypad :=
  keypad.set (key number) true

def release (keypad : Keypad) (number : Int) : Keypad :=
  keypad.set (key number) false

def isPressed (keypad : Keypad) (number : Int) : Bool :=
  if inside : 0 ≤ number ∧ number < 16 then keypad[number.toNat] else false

/-- The smallest-numbered key that is down. -/
def firstPressed (keypad : Keypad) : Option (Fin 16) :=
  (List.finRange 16).find? keypad.get

theorem isPressed_val (keypad : Keypad) (pad : Fin 16) :
    keypad.isPressed pad.val = keypad.get pad := by
  have inside : (0 : Int) ≤ pad.val ∧ (pad.val : Int) < 16 := by omega
  rw [isPressed, dif_pos inside]
  rfl

/-- Pressing puts down the named key and no other one. -/
theorem isPressed_press (keypad : Keypad) (number : Int) (pad : Fin 16) :
    (keypad.press number).isPressed pad.val =
      (decide (key number = pad) || keypad.isPressed pad.val) := by
  rw [isPressed_val, isPressed_val]
  by_cases same : key number = pad
  · subst same
    have named : (keypad.press number).get (key number) = true :=
      Vector.getElem_set_self (key number).isLt
    simp [named]
  · have apart : (key number).val ≠ pad.val := fun equal => same (Fin.ext equal)
    have kept : (keypad.press number).get pad = keypad.get pad :=
      Vector.getElem_set_ne (key number).isLt pad.isLt apart
    simp [same, kept]

/-- Releasing lifts the named key and no other one. -/
theorem isPressed_release (keypad : Keypad) (number : Int) (pad : Fin 16) :
    (keypad.release number).isPressed pad.val =
      (!decide (key number = pad) && keypad.isPressed pad.val) := by
  rw [isPressed_val, isPressed_val]
  by_cases same : key number = pad
  · subst same
    have named : (keypad.release number).get (key number) = false :=
      Vector.getElem_set_self (key number).isLt
    simp [named]
  · have apart : (key number).val ≠ pad.val := fun equal => same (Fin.ext equal)
    have kept : (keypad.release number).get pad = keypad.get pad :=
      Vector.getElem_set_ne (key number).isLt pad.isLt apart
    simp [same, kept]

end Keypad

end Chip8
