/-
The states that a host can reach.  A routine history loads programs, steps, presses
and releases keys, lets the timers tick and resets; whatever it does and whatever is
refused on the way, every state that it passes through is sound.
-/
import Chip8.Proofs.Soundness
import Chip8.Snapshot
import Chip8.Vm.History

namespace Chip8

/-- The events of a host that neither writes into the machine nor executes words of
its own. -/
def Event.isRoutine : Event → Bool
  | .exec _ | .assign _ => false
  | _ => true

/-- A copy that shows a whole machine. -/
structure Snapshot.Complete (snapshot : Snapshot) : Prop where
  memory : snapshot.memory.size = 4096
  registers : snapshot.registers.size = 18
  display : snapshot.display.size = 2048
  stack : snapshot.stack.size = 16

theorem Machine.snapshot_complete (machine : Machine) : machine.snapshot.Complete where
  memory := machine.memory.size_toArray
  registers := machine.registers.all.size_toArray
  display := machine.display.size_toArray
  stack := machine.calls.slots.size_toArray

namespace Vm

variable {setup : Setup} {vm : Vm}

theorem Sound.withMachine (hsound : vm.Sound) {machine : Machine}
    (hmachine : machine.Sound) : (vm.withMachine machine).Sound :=
  ⟨hmachine, hsound.apart⟩

/-- A program that fits is loaded; any other one changes nothing. -/
theorem handle_load_cases (setup : Setup) (vm : Vm) (rom : List UInt8) :
    rom.length ≤ Memory.capacity ∧
        vm.handle setup (.load rom) = .done (vm.withMachine (vm.machine.loaded rom)) ∨
      Memory.capacity < rom.length ∧ vm.handle setup (.load rom) =
        .refused vm (.romTooLarge rom.length Memory.capacity) := by
  rcases Nat.lt_or_ge Memory.capacity rom.length with hlarge | hfits
  · refine Or.inr ⟨hlarge, ?_⟩
    rw [handle, vm.machine.load_of_large hlarge]
    rfl
  · refine Or.inl ⟨hfits, ?_⟩
    rw [handle, vm.machine.load_of_fits hfits]
    rfl

theorem Sound.load (hsound : vm.Sound) (rom : List UInt8) :
    (vm.handle setup (.load rom)).vm.Sound := by
  have hstart : (0 : Int) ≤ Memory.programStart ∧ (Memory.programStart : Int) ≤ 0x1002 := by
    decide
  rcases vm.handle_load_cases setup rom with ⟨-, hload⟩ | ⟨-, hload⟩
  · rw [hload]
    exact hsound.withMachine ((hsound.machine.with_pc hstart).with_data _ _)
  · rw [hload]
    exact hsound

theorem Sound.handle (hsound : vm.Sound) {event : Event} (hroutine : event.isRoutine) :
    (vm.handle setup event).vm.Sound := by
  cases event with
  | load rom => exact hsound.load rom
  | step => exact hsound.step
  | exec word => cases hroutine
  | press key => exact ⟨hsound.machine, hsound.apart⟩
  | release key => exact ⟨hsound.machine, hsound.apart⟩
  | tick => exact hsound.withMachine (hsound.machine.with_data _ _)
  | reset =>
      rw [handle_reset]
      exact hsound.withMachine Machine.sound_fresh
  | restart => exact ⟨hsound.machine, Or.inl rfl⟩
  | assign changes => cases hroutine

/-- A state at the end of a routine history. -/
def Reachable (setup : Setup) (vm : Vm) : Prop :=
  ∃ history : List Event, (∀ event ∈ history, event.isRoutine) ∧
    Vm.fresh.run setup history = vm

/-- What holds of a state and is kept by routine events holds at the end of every
routine history that starts there. -/
theorem run_induction {motive : Vm → Prop} (hstart : motive vm)
    (hhandle : ∀ vm event, event.isRoutine → motive vm →
      motive (handle setup vm event).vm)
    {history : List Event} (hroutine : ∀ event ∈ history, event.isRoutine) :
    motive (vm.run setup history) := by
  induction history generalizing vm with
  | nil => exact hstart
  | cons event rest ih =>
      obtain ⟨hevent, hrest⟩ := List.forall_mem_cons.mp hroutine
      exact ih (hhandle vm event hevent hstart) hrest

theorem Sound.run (hsound : vm.Sound) {history : List Event}
    (hroutine : ∀ event ∈ history, event.isRoutine) : (vm.run setup history).Sound :=
  run_induction hsound (fun _ _ hevent hbefore => hbefore.handle hevent) hroutine

theorem sound_fresh : Vm.fresh.Sound :=
  ⟨Machine.sound_fresh, Or.inl rfl⟩

theorem sound_run {history : List Event} (hroutine : ∀ event ∈ history, event.isRoutine) :
    (Vm.fresh.run setup history).Sound :=
  sound_fresh.run hroutine

theorem Reachable.sound (hreachable : Reachable setup vm) : vm.Sound := by
  obtain ⟨history, hroutine, rfl⟩ := hreachable
  exact sound_run hroutine

/-- At the end of every routine history the machine has its full size and is sound,
an awaited key goes to one of the sixteen registers, and no stopped interpreter
awaits one. -/
theorem routine_run_invariant (setup : Setup) {history : List Event}
    (hroutine : ∀ event ∈ history, event.isRoutine) :
    let reached := Vm.fresh.run setup history
    reached.machine.snapshot.Complete ∧ reached.Sound ∧
      (∀ x ∈ reached.wait, x.val ≤ 15) ∧ ¬ (reached.halted ∧ reached.awaitingKey) := by
  intro reached
  have hsound : reached.Sound := sound_run hroutine
  refine ⟨reached.machine.snapshot_complete, hsound, ?_, ?_⟩
  · intro x _
    omega
  · rintro ⟨hhalted, hawaiting⟩
    rcases hsound.apart with hfault | hwait
    · simp [halted, hfault] at hhalted
    · simp [awaitingKey, hwait] at hawaiting

/-- A call, a key that is awaited and comes, a return, and a second return that is
refused. -/
theorem routine_run_invariant_call :
    let setup : Setup := { random := fun _ => -7, legacyStore := true }
    let history : List Event := [.load [0x22, 0x02, 0xF0, 0x0A, 0x00, 0xEE], .step, .step,
      .press 5, .tick, .step, .step, .step, .step, .step]
    let reached := Vm.fresh.run setup history
    (∀ event ∈ history, event.isRoutine) ∧
      reached.machine.snapshot.Complete ∧ reached.Sound ∧
      (∀ x ∈ reached.wait, x.val ≤ 15) ∧ ¬ (reached.halted ∧ reached.awaitingKey) :=
  ⟨by decide, routine_run_invariant _ (by decide)⟩

end Vm

end Chip8
