/-
What the keypad shows.  A poll finds the smallest key that is down.  Over a history the
keypad follows the key events; presses that the history ends again leave it as it was,
unless a key is released that was held before.
-/
import Chip8.Vm.History
import Mathlib.Data.List.FinRange

namespace Chip8

/-- Every press of a history is followed by a release of its key. -/
def Event.PressesEnd : List Event → Prop
  | [] => True
  | .press number :: rest =>
      (∃ again, .release again ∈ rest ∧ Keypad.key again = Keypad.key number) ∧
        PressesEnd rest
  | _ :: rest => PressesEnd rest

namespace Keypad

/-- The keypad after an event. -/
def handle (keypad : Keypad) : Event → Keypad
  | .press number => keypad.press number
  | .release number => keypad.release number
  | _ => keypad

/-- The keypad at the end of a history. -/
def after (keypad : Keypad) (history : List Event) : Keypad :=
  history.foldl handle keypad

def AllUp (keypad : Keypad) : Prop :=
  ∀ pad : Fin 16, keypad.isPressed pad.val = false

instance (keypad : Keypad) : Decidable keypad.AllUp :=
  inferInstanceAs (Decidable (∀ _ : Fin 16, _))

/-- A key that is down, while every smaller one is up. -/
def IsFirst (keypad : Keypad) (pad : Fin 16) : Prop :=
  keypad.isPressed pad.val = true ∧ ∀ other < pad, keypad.isPressed other.val = false

/-- Presses that a history ends again, and no release of a key that was held before. -/
structure Transient (keypad : Keypad) (history : List Event) : Prop where
  ends : Event.PressesEnd history
  held : ∀ number, .release number ∈ history → keypad.isPressed (key number).val = false

variable {keypad : Keypad} {history : List Event} {pad : Fin 16}

theorem firstPressed_eq_none_iff : keypad.firstPressed = none ↔ keypad.AllUp := by
  simp [firstPressed, AllUp, isPressed_val]

theorem isFirst_of_firstPressed (hfirst : keypad.firstPressed = some pad) :
    keypad.IsFirst pad := by
  obtain ⟨hdown, place, hplace, rfl, hbefore⟩ := List.find?_eq_some_iff_getElem.mp hfirst
  refine ⟨(keypad.isPressed_val _).trans hdown, ?_⟩
  intro other hother
  have hlower : other.val < place := by simpa [Fin.lt_def] using hother
  have hup := hbefore other.val hlower
  rw [isPressed_val]
  simpa using hup

theorem ext_isPressed {other : Keypad}
    (hsame : ∀ pad : Fin 16, keypad.isPressed pad.val = other.isPressed pad.val) :
    keypad = other := by
  apply Vector.ext
  intro place hplace
  have hpad := hsame ⟨place, hplace⟩
  rw [isPressed_val, isPressed_val] at hpad
  exact hpad

theorem after_ticks (hticks : ∀ event ∈ history, event = .tick) :
    keypad.after history = keypad := by
  induction history with
  | nil => rfl
  | cons event rest ih =>
      obtain ⟨rfl, hrest⟩ := List.forall_mem_cons.mp hticks
      exact ih hrest

/-- A key that is up or still to be released is up in the end, when all presses end. -/
theorem isPressed_after_of_up (hends : Event.PressesEnd history)
    (hup : keypad.isPressed pad.val = false ∨
      ∃ again, .release again ∈ history ∧ key again = pad) :
    (keypad.after history).isPressed pad.val = false := by
  induction history generalizing keypad with
  | nil => simpa [after] using hup
  | cons event rest ih =>
      cases event with
      | press number =>
          -- The key goes down, and the release that ends the press is still to come.
          obtain ⟨hagain, hrest⟩ := hends
          apply ih hrest
          by_cases hpad : key number = pad
          · exact Or.inr (hpad ▸ hagain)
          · simpa [handle, isPressed_press, hpad] using hup
      | release number =>
          apply ih hends
          by_cases hpad : key number = pad
          · simp [handle, isPressed_release, hpad]
          · simpa [handle, isPressed_release, hpad] using hup
      | _ => exact ih hends (by simpa [handle] using hup)

theorem isPressed_after_of_down (hdown : keypad.isPressed pad.val = true)
    (hheld : ∀ number, .release number ∈ history → key number ≠ pad) :
    (keypad.after history).isPressed pad.val = true := by
  induction history generalizing keypad with
  | nil => exact hdown
  | cons event rest ih =>
      have hrest : ∀ number, .release number ∈ rest → key number ≠ pad :=
        fun number hrelease => hheld number (List.mem_cons_of_mem event hrelease)
      cases event with
      | press number => exact ih (by simp [handle, isPressed_press, hdown]) hrest
      | release number =>
          have hpad := hheld number List.mem_cons_self
          exact ih (by simp [handle, isPressed_release, hpad, hdown]) hrest
      | _ => exact ih hdown hrest

theorem Transient.after_eq (htransient : keypad.Transient history) :
    keypad.after history = keypad := by
  apply ext_isPressed
  intro pad
  cases hpad : keypad.isPressed pad.val with
  | false => exact isPressed_after_of_up htransient.ends (Or.inl hpad)
  | true =>
      apply isPressed_after_of_down hpad
      rintro number hrelease rfl
      simp [htransient.held number hrelease] at hpad

end Keypad

end Chip8
