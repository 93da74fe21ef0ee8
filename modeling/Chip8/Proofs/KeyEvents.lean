/-
Key events in batches.  The pad shows of each of its keys what the last event for its host key
has made of it.  How the events are split into batches makes no difference up to the first one
that closes the window, and nothing behind that one is applied.
-/
import Chip8.Proofs.Batches
import Chip8.Proofs.LastWrite

namespace Chip8

/-- What an event of a history makes of a key of the pad: down or up, if it is for that key. -/
def Event.moves? (pad : Fin 16) : Event → Option Bool
  | .press number => if Keypad.key number = pad then some true else none
  | .release number => if Keypad.key number = pad then some false else none
  | _ => none

theorem Keypad.isPressed_handle (keypad : Keypad) (event : Event) (pad : Fin 16) :
    (keypad.handle event).isPressed pad.val =
      (event.moves? pad).getD (keypad.isPressed pad.val) := by
  cases event with
  | press number =>
      rw [handle, isPressed_press, Event.moves?]
      by_cases hpad : key number = pad <;> simp [hpad]
  | release number =>
      rw [handle, isPressed_release, Event.moves?]
      by_cases hpad : key number = pad <;> simp [hpad]
  | _ => rfl

namespace Keyboard

/-- What an event makes of a host key: down or up, if it is for that key. -/
def Event.moves? (hostCode : Int) : Event → Option Bool
  | .down code => if code = hostCode then some true else none
  | .up code => if code = hostCode then some false else none
  | .quit | .other => none

namespace Layout

/-- Handle batches one after the other, up to the first one that closes the window.  The flag
tells whether none of them has. -/
def handleAll (layout : Layout) (keypad : Keypad) : List (List Event) → Keypad × Bool
  | [] => (keypad, true)
  | batch :: rest =>
      match layout.handle keypad batch with
      | (after, true) => layout.handleAll after rest
      | (after, false) => (after, false)

/-- The events that come before the first one that closes the window. -/
def applied (layout : Layout) (batches : List (List Event)) : List Event :=
  batches.flatten.takeWhile fun event => !event.closes layout

variable {layout : Layout} {keypad : Keypad} {event : Event} {batch : List Event}

/-- An event moves a key of the pad as it moves the host key for it. -/
theorem moves?_bind_stroke? (hdistinct : Function.Injective layout.code) (event : Event)
    (key : Fin 16) :
    ((event.stroke? layout).bind fun stroke => stroke.moves? key) =
      event.moves? (layout.code key) := by
  have hpad (pad : Fin 16) : Keypad.key pad.val = pad :=
    Fin.ext (by simp only [Keypad.key]; omega)
  cases event with
  | quit | other => rfl
  | down hostCode | up hostCode =>
      simp only [Event.stroke?, Event.moves?]
      cases hkey : layout.key? hostCode with
      | some pad =>
          obtain rfl := code_of_key? hkey
          simp only [Option.map_some, Option.bind_some, Chip8.Event.moves?, hpad,
            hdistinct.eq_iff]
      | none =>
          rw [if_neg (Ne.symm (key?_eq_none_iff.mp hkey key))]
          rfl

theorem handle_append_of_closes (hcloses : layout.closes batch = true) (behind : List Event) :
    layout.handle keypad (batch ++ behind) = layout.handle keypad batch := by
  induction batch generalizing keypad with
  | nil => cases hcloses
  | cons event rest ih =>
      rw [List.cons_append]
      cases hevent : event.closes layout with
      | true => rw [handle_of_closing hevent, handle_of_closing hevent]
      | false =>
          rw [closes_cons, hevent, Bool.false_or] at hcloses
          rw [handle_of_open hevent, handle_of_open hevent, ih hcloses]

theorem handle_append_of_open (hopen : layout.closes batch = false) (behind : List Event) :
    layout.handle keypad (batch ++ behind) =
      layout.handle (layout.handle keypad batch).1 behind := by
  induction batch generalizing keypad with
  | nil => rfl
  | cons event rest ih =>
      rw [closes_cons, Bool.or_eq_false_iff] at hopen
      rw [List.cons_append, handle_of_open hopen.1, handle_of_open hopen.1, ih hopen.2]

/-- How the events are split into batches makes no difference. -/
theorem handleAll_eq (layout : Layout) (keypad : Keypad) (batches : List (List Event)) :
    layout.handleAll keypad batches = layout.handle keypad batches.flatten := by
  induction batches generalizing keypad with
  | nil => rfl
  | cons batch rest ih =>
      rw [List.flatten_cons, handleAll, handle_eq layout keypad batch]
      cases hbatch : layout.closes batch with
      | true => rw [handle_append_of_closes hbatch, handle_eq, hbatch]; rfl
      | false => rw [handle_append_of_open hbatch, handle_eq layout keypad batch]; exact ih _

theorem handle_append_of_idle (hidle : event.Idle layout) (before behind : List Event) :
    layout.handle keypad (before ++ event :: behind) =
      layout.handle keypad (before ++ behind) := by
  cases hbefore : layout.closes before with
  | true => rw [handle_append_of_closes hbefore, handle_append_of_closes hbefore]
  | false =>
      rw [handle_append_of_open hbefore, handle_append_of_open hbefore, handle_of_idle hidle]

/-- A key of the pad is where the last event for its host key has moved it. -/
theorem isPressed_handleAll (hdistinct : Function.Injective layout.code) (keypad : Keypad)
    (batches : List (List Event)) (key : Fin 16) :
    (layout.handleAll keypad batches).1.isPressed key.val =
      ((layout.applied batches).filterMap (Event.moves? (layout.code key))).getLast?.getD
        (keypad.isPressed key.val) := by
  have hstrokes : (layout.strokes batches.flatten).filterMap (Chip8.Event.moves? key) =
      (layout.applied batches).filterMap (Event.moves? (layout.code key)) := by
    rw [strokes, applied, List.filterMap_filterMap]
    exact congrArg (List.filterMap · _)
      (funext fun event => moves?_bind_stroke? hdistinct event key)
  rw [handleAll_eq, handle_eq, ← hstrokes]
  exact part_foldl_eq_last (fun pad : Keypad => pad.isPressed key.val)
    (Chip8.Event.moves? key) (fun pad event => pad.isPressed_handle event key) keypad _

end Layout

open Layout

/-- Whatever codes a host has for its keys, as long as no two keys of the pad have the same
code: a batch closes the window exactly when it tells so or has the escape key go down or up;
what comes before that is applied, and nothing behind it.  After any batches a key of the pad is
down when the last event applied for its host key was that it went down, or when there was none
and it was down before.  Other events make no difference, and a number that is no key is never
pressed. -/
theorem keypad_follows_keyboard (layout : Layout) (hdistinct : Function.Injective layout.code)
    (keypad : Keypad) (batches : List (List Event)) :
    (∀ (pad : Keypad) (batch : List Event), (layout.handle pad batch).2 = false ↔
      .quit ∈ batch ∨ .down layout.escape ∈ batch ∨ .up layout.escape ∈ batch) ∧
    (∀ (pad : Keypad) (before : List Event) (event : Event) (behind : List Event),
      layout.closes before = false → event.closes layout = true →
        layout.handle pad (before ++ event :: behind) =
          ((layout.handle pad before).1, false)) ∧
    (∀ key : Fin 16,
      let last := ((layout.applied batches).filterMap
        (Event.moves? (layout.code key))).getLast?
      (layout.handleAll keypad batches).1.isPressed key.val = true ↔
        last = some true ∨ last = none ∧ keypad.isPressed key.val = true) ∧
    (∀ (before : List (List Event)) (first : List Event) (event : Event) (second : List Event)
      (behind : List (List Event)), event.Idle layout →
        layout.handleAll keypad (before ++ (first ++ event :: second) :: behind) =
          layout.handleAll keypad (before ++ (first ++ second) :: behind)) ∧
    ∀ (pad : Keypad) (number : Int), ¬ (0 ≤ number ∧ number < 16) →
      pad.isPressed number = false := by
  refine ⟨fun pad batch => ?_, fun pad before event behind hopen hcloses => ?_,
    fun key => ?_, fun before first event second behind hidle => ?_,
    fun pad number houtside => dif_neg houtside⟩
  · rw [handle_eq, Bool.not_eq_false', closes_iff]
  · rw [handle_append_of_open hopen, handle_of_closing hcloses]
  · rw [isPressed_handleAll hdistinct]
    cases ((layout.applied batches).filterMap (Event.moves? (layout.code key))).getLast? with
    | none => simp
    | some moved => simp
  · rw [handleAll_eq, handleAll_eq]
    simp only [List.flatten_append, List.flatten_cons, List.append_assoc, List.cons_append]
    rw [← List.append_assoc, handle_append_of_idle hidle, List.append_assoc]

/-- On the standard layout, a key that is let go and one that is pressed before the escape key
goes up, and a key that is held from the start. -/
theorem keypad_follows_keyboard_escape :
    let held : Keypad := Keypad.released.press 15
    let first : List Event := [.down 113, .other, .down 999]
    let second : List Event := [.up 113, .down 49, .up 27, .down 120]
    let reached := (standard.handleAll held [first, second, [.up 118]]).1
    Function.Injective standard.code ∧
      standard.closes [.up 113, .down 49] = false ∧ (Event.up 27).closes standard = true ∧
      (Event.down 999).Idle standard ∧
      standard.handle held second = ((standard.handle held [.up 113, .down 49]).1, false) ∧
      standard.handleAll held [[.down 113, .other], second] =
        standard.handleAll held [first, second] ∧
      reached.isPressed 1 = true ∧ reached.isPressed 4 = false ∧
      reached.isPressed 0 = false ∧ reached.isPressed 15 = true ∧
      reached.isPressed 31 = false := by
  intro held first second reached
  have hopen : standard.closes [.up 113, .down 49] = false := by decide
  have hescape : (Event.up 27).closes standard = true := by decide
  have hidle : (Event.down 999).Idle standard := by decide
  obtain ⟨-, hcut, hpressed, hleft, hnone⟩ :=
    keypad_follows_keyboard standard standard_injective held [first, second, [.up 118]]
  refine ⟨standard_injective, hopen, hescape, hidle, hcut held _ _ _ hopen hescape,
    (hleft [] [.down 113, .other] _ [] [second] hidle).symm,
    (hpressed 1).mpr (by decide), ?_, ?_, (hpressed 15).mpr (by decide),
    hnone reached 31 (by decide)⟩
  · exact Bool.eq_false_iff.mpr fun hdown => absurd ((hpressed 4).mp hdown) (by decide)
  · exact Bool.eq_false_iff.mpr fun hdown => absurd ((hpressed 0).mp hdown) (by decide)

end Keyboard

end Chip8
