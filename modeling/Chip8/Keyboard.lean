/-
The keyboard of a host.  Sixteen of its keys stand for the sixteen keys of the
pad, one closes the window, and all other ones mean nothing.  The codes of the
keys are those of the host.
-/
import Chip8.Keypad

namespace Chip8.Keyboard

/-- What the host tells about its keyboard and its window. -/
inductive Event
  | down (code : Int)
  | up (code : Int)
  | quit
  | other
deriving Repr, DecidableEq

/-- The codes of the host keys for the keys of the pad, and of the one that closes the
window. -/
structure Layout where
  code : Fin 16 → Int
  escape : Int

namespace Layout

/-- The key of the pad that a host key stands for, the last one if there are several. -/
def key? (layout : Layout) (hostCode : Int) : Option (Fin 16) :=
  (List.finRange 16).reverse.find? fun key => layout.code key = hostCode

/-- Apply the events of a batch up to one that closes the window.  The flag tells
whether to go on. -/
def handle (layout : Layout) (keypad : Keypad) : List Event → Keypad × Bool
  | [] => (keypad, true)
  | .quit :: _ => (keypad, false)
  | .other :: rest => layout.handle keypad rest
  | .down hostCode :: rest =>
      if hostCode = layout.escape then (keypad, false)
      else
        match layout.key? hostCode with
        | some key => layout.handle (keypad.press key.val) rest
        | none => layout.handle keypad rest
  | .up hostCode :: rest =>
      if hostCode = layout.escape then (keypad, false)
      else
        match layout.key? hostCode with
        | some key => layout.handle (keypad.release key.val) rest
        | none => layout.handle keypad rest

variable {layout : Layout} {hostCode : Int}

theorem key?_eq_none_iff :
    layout.key? hostCode = none ↔ ∀ key, layout.code key ≠ hostCode := by
  simp [key?]

theorem code_of_key? {key : Fin 16} (hkey : layout.key? hostCode = some key) :
    layout.code key = hostCode := by
  rw [key?] at hkey
  have hfound := List.find?_some hkey
  exact of_decide_eq_true hfound

end Layout

/-- The characters on the host keys for the keys `0` to `F`. -/
def characters : Vector Char 16 :=
  #v['x', '1', '2', '3', 'q', 'w', 'e', 'a', 's', 'd', 'z', 'c', '4', 'r', 'f', 'v']

/-- A host key has the code of its character. -/
def standard : Layout where
  code key := (characters.get key).toNat
  escape := 27

theorem standard_injective : Function.Injective standard.code := by
  unfold Function.Injective
  decide

end Chip8.Keyboard
