/-
The freeze after a fault.  A host steps, passes on key events and lets the timers tick.  As
long as everything goes through no fault is latched; from the first fault on nothing moves
but the keys and the timers, and the timers only go down.
-/
import Chip8.Proofs.KeyWait
import Chip8.Proofs.Latch
import Chip8.Proofs.Timers

namespace Chip8.Vm

/-- Nothing is refused in a history. -/
def Passes (setup : Setup) (vm : Vm) (history : List Event) : Prop :=
  ∀ outcome ∈ vm.outcomes setup history, outcome.error = none

/-- A later state in which nothing has moved but the keys and the timers, and no timer has
gone up. -/
structure Frozen (vm later : Vm) : Prop where
  still : later = { vm with
    keypad := later.keypad
    machine.registers.delay := later.machine.registers.delay
    machine.registers.sound := later.machine.registers.sound }
  timers : ∀ timer, later.machine.registers.timer timer ≤ vm.machine.registers.timer timer

variable {setup : Setup} {vm middle later : Vm} {fault : Fault} {history : List Event}

/-- A host that only steps, handles keys and lets the timers tick keeps a state sound. -/
theorem Sound.play (hsound : vm.Sound)
    (hplay : ∀ event ∈ history, event = .step ∨ event.isInput) :
    (vm.run setup history).Sound := by
  refine hsound.run fun event hevent => ?_
  rcases hplay event hevent with rfl | hinput
  · rfl
  · cases event with
    | press _ | release _ | tick => rfl
    | _ => cases hinput

theorem passes_nil (setup : Setup) (vm : Vm) : vm.Passes setup [] :=
  fun _ hnone => absurd hnone List.not_mem_nil

theorem Frozen.refl (vm : Vm) : Frozen vm vm :=
  ⟨rfl, fun _ => UInt8.le_refl _⟩

theorem Frozen.trans (hfirst : Frozen vm middle) (hsecond : Frozen middle later) :
    Frozen vm later where
  still := by
    have hstill := hsecond.still
    rw [hfirst.still] at hstill
    exact hstill
  timers timer := UInt8.le_trans (hsecond.timers timer) (hfirst.timers timer)

theorem Frozen.fault_eq (hfrozen : Frozen vm later) : later.fault = vm.fault := by
  rw [hfrozen.still]

/-- Every frozen state shows the same picture. -/
theorem Frozen.display_eq (hfrozen : Frozen vm later) :
    later.machine.display = vm.machine.display := by
  rw [hfrozen.still]

theorem frozen_handle (hlatched : vm.fault = some fault) {event : Event}
    (hplay : event = .step ∨ event.isInput) : Frozen vm (vm.handle setup event).vm := by
  rcases hplay with rfl | hinput
  · rw [handle, step_of_fault setup hlatched]
    exact .refl vm
  · cases event with
    | press number | release number => exact ⟨rfl, fun _ => UInt8.le_refl _⟩
    | tick =>
        refine ⟨rfl, fun timer => ?_⟩
        have htick := vm.machine.registers.toNat_timer_tick timer
        exact UInt8.le_iff_toNat_le.mpr (htick.trans_le (Nat.sub_le _ _))
    | _ => cases hinput

/-- Whatever is played behind a fault, nothing moves but the keys and the timers. -/
theorem frozen_run (hlatched : vm.fault = some fault)
    (hplay : ∀ event ∈ history, event = .step ∨ event.isInput) :
    Frozen vm (vm.run setup history) := by
  induction history generalizing vm with
  | nil => exact .refl vm
  | cons event rest ih =>
      obtain ⟨hevent, hrest⟩ := List.forall_mem_cons.mp hplay
      have hfirst : Frozen vm (vm.handle setup event).vm := frozen_handle hlatched hevent
      exact hfirst.trans (ih (hfirst.fault_eq.trans hlatched) hrest)

theorem fault_step_of_passed (hwithin : vm.machine.calls.Within)
    (hpassed : (vm.step setup).error = none) : (vm.step setup).vm.fault = none := by
  cases vm.step_cases setup hwithin with
  | halted latched hlatched hstep =>
      rw [hstep] at hpassed
      cases hpassed
  | waiting x hrunning hwait hstep =>
      rw [hstep, Outcome.done, poll]
      split <;> exact hrunning
  | refused cause hrunning hwait hrefusal hstep =>
      rw [hstep] at hpassed
      cases hpassed
  | served hrunning hwait hserved hstep hnone =>
      rw [hstep]
      exact frame_exec.1.trans hrunning

/-- As long as every step goes through no fault is latched. -/
theorem fault_run_of_passes (hsound : vm.Sound) (hrunning : vm.fault = none) {count : Nat}
    (hpasses : vm.Passes setup (List.replicate count .step)) :
    (vm.run setup (List.replicate count .step)).fault = none := by
  induction count generalizing vm with
  | zero => exact hrunning
  | succ count ih =>
      obtain ⟨hpassed, hrest⟩ := List.forall_mem_cons.mp hpasses
      exact ih hsound.step (fault_step_of_passed hsound.machine.calls.within hpassed) hrest

end Chip8.Vm
