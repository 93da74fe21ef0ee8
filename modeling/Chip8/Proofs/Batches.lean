/-
Batches of keyboard events.  A host applies the events for the pad that come before the one
that closes the window; a batch that is handled is a history of key events.
-/
import Chip8.Keyboard
import Chip8.Proofs.KeyWait

namespace Chip8

theorem Keypad.after_append (keypad : Keypad) (first second : List Event) :
    keypad.after (first ++ second) = (keypad.after first).after second :=
  List.foldl_append

namespace Keyboard

/-- Whether an event closes the window. -/
def Event.closes (layout : Layout) : Event → Bool
  | .quit => true
  | .down hostCode | .up hostCode => decide (hostCode = layout.escape)
  | .other => false

/-- What an event does to the pad, if it is for one of its keys. -/
def Event.stroke? (layout : Layout) : Event → Option Chip8.Event
  | .down hostCode => (layout.key? hostCode).map fun key => .press key.val
  | .up hostCode => (layout.key? hostCode).map fun key => .release key.val
  | .quit | .other => none

/-- An event that is neither for the pad nor for the window. -/
def Event.Idle (layout : Layout) : Event → Prop
  | .down hostCode | .up hostCode =>
      hostCode ≠ layout.escape ∧ ∀ key, layout.code key ≠ hostCode
  | .other => True
  | .quit => False

instance (layout : Layout) : DecidablePred (Event.Idle layout)
  | .down _ | .up _ => inferInstanceAs (Decidable (_ ∧ _))
  | .other => isTrue trivial
  | .quit => isFalse id

namespace Layout

/-- Whether some event of a batch closes the window. -/
def closes (layout : Layout) (batch : List Event) : Bool :=
  batch.any (Event.closes layout)

/-- The events for the pad that come before the window is closed. -/
def strokes (layout : Layout) (batch : List Event) : List Chip8.Event :=
  (batch.takeWhile fun event => !event.closes layout).filterMap (Event.stroke? layout)

variable {layout : Layout} {keypad : Keypad} {event : Event} {batch rest : List Event}

theorem isInput_of_stroke {stroke : Chip8.Event} (hstroke : event.stroke? layout = some stroke) :
    stroke.isInput ∧ stroke ≠ .tick := by
  cases event with
  | down hostCode | up hostCode =>
      obtain ⟨key, -, rfl⟩ := Option.map_eq_some_iff.mp hstroke
      exact ⟨rfl, nofun⟩
  | quit => cases hstroke
  | other => cases hstroke

theorem isInput_of_mem_strokes {stroke : Chip8.Event} (hstroke : stroke ∈ layout.strokes batch) :
    stroke.isInput ∧ stroke ≠ .tick := by
  obtain ⟨event, -, hevent⟩ := List.mem_filterMap.mp hstroke
  exact isInput_of_stroke hevent

theorem isInput_of_strokes (layout : Layout) (batch : List Event) :
    ∀ stroke ∈ layout.strokes batch, stroke.isInput :=
  fun _ hstroke => (isInput_of_mem_strokes hstroke).1

theorem strokes_of_closing (hcloses : event.closes layout = true) :
    layout.strokes (event :: rest) = [] := by
  rw [strokes, List.takeWhile_cons_of_neg (by simp [hcloses]), List.filterMap_nil]

theorem strokes_of_open (hopen : event.closes layout = false) :
    layout.strokes (event :: rest) = (event.stroke? layout).toList ++ layout.strokes rest := by
  rw [strokes, List.takeWhile_cons_of_pos (by simp [hopen]), List.filterMap_cons]
  cases event.stroke? layout <;> rfl

theorem closes_cons :
    layout.closes (event :: rest) = (event.closes layout || layout.closes rest) :=
  List.any_cons

theorem closes_iff : layout.closes batch = true ↔
    .quit ∈ batch ∨ .down layout.escape ∈ batch ∨ .up layout.escape ∈ batch := by
  rw [closes, List.any_eq_true]
  constructor
  · rintro ⟨event, hmem, hcloses⟩
    cases event with
    | quit => exact Or.inl hmem
    | down hostCode =>
        obtain rfl := of_decide_eq_true hcloses
        exact Or.inr (Or.inl hmem)
    | up hostCode =>
        obtain rfl := of_decide_eq_true hcloses
        exact Or.inr (Or.inr hmem)
    | other => cases hcloses
  · rintro (hmem | hmem | hmem)
    · exact ⟨_, hmem, rfl⟩
    · exact ⟨_, hmem, decide_eq_true (rfl : layout.escape = layout.escape)⟩
    · exact ⟨_, hmem, decide_eq_true (rfl : layout.escape = layout.escape)⟩

theorem handle_of_closing (hcloses : event.closes layout = true) :
    layout.handle keypad (event :: rest) = (keypad, false) := by
  cases event with
  | quit => rfl
  | down hostCode | up hostCode => exact if_pos (of_decide_eq_true hcloses)
  | other => cases hcloses

theorem handle_of_open (hopen : event.closes layout = false) :
    layout.handle keypad (event :: rest) =
      layout.handle (keypad.after (event.stroke? layout).toList) rest := by
  cases event with
  | quit => cases hopen
  | other => rfl
  | down hostCode | up hostCode =>
      rw [handle, if_neg (of_decide_eq_false hopen), Event.stroke?]
      cases layout.key? hostCode <;> rfl

/-- A batch is handled as the key events in it, up to the one that closes the window. -/
theorem handle_eq (layout : Layout) (keypad : Keypad) (batch : List Event) :
    layout.handle keypad batch =
      (keypad.after (layout.strokes batch), !layout.closes batch) := by
  induction batch generalizing keypad with
  | nil => rfl
  | cons event rest ih =>
      cases hevent : event.closes layout with
      | true =>
          rw [handle_of_closing hevent, strokes_of_closing hevent, closes_cons, hevent]
          rfl
      | false =>
          rw [handle_of_open hevent, strokes_of_open hevent, ih, Keypad.after_append,
            closes_cons, hevent, Bool.false_or]

/-- An event that is neither for the pad nor for the window can be left out. -/
theorem handle_of_idle (hidle : event.Idle layout) (rest : List Event) :
    layout.handle keypad (event :: rest) = layout.handle keypad rest := by
  cases event with
  | quit => exact hidle.elim
  | other => rfl
  | down hostCode | up hostCode =>
      obtain ⟨hescape, hcode⟩ := hidle
      rw [handle, if_neg hescape, key?_eq_none_iff.mpr hcode]

/-- Key events move nothing but the keys. -/
theorem run_strokes (setup : Setup) (layout : Layout) (vm : Vm) (batch : List Event) :
    vm.run setup (layout.strokes batch) =
      { vm with keypad := vm.keypad.after (layout.strokes batch) } := by
  have hticks : (layout.strokes batch).count .tick = 0 :=
    List.count_eq_zero.mpr fun htick => (isInput_of_mem_strokes htick).2 rfl
  rw [Vm.run_of_inputs (isInput_of_strokes layout batch), Vm.elapsed, hticks]
  rfl

end Layout

end Keyboard

end Chip8
