/-
The fault latch.  After a fault a host may do anything but restart the interpreter: every
step raises the fault that was raised first, and changes nothing.  A restart goes on from
the machine as it is then, so that an untouched machine meets its fault again.
-/
import Chip8.Proofs.Reachable

namespace Chip8

/-- One thing that a host does, when it may also put any machine in place of the one
there is. -/
inductive HostMove
  | event (event : Event)
  | replace (machine : Machine)

namespace Vm

/-- The state after a move. -/
def act (setup : Setup) (vm : Vm) : HostMove → Vm
  | .event event => (vm.handle setup event).vm
  | .replace machine => vm.withMachine machine

def play (setup : Setup) (vm : Vm) (moves : List HostMove) : Vm :=
  moves.foldl (act setup) vm

variable {setup : Setup} {vm : Vm} {fault : Fault}

/-- Only a restart takes a latched fault away. -/
theorem fault_handle (hlatched : vm.fault = some fault) {event : Event}
    (hevent : event ≠ .restart) : (vm.handle setup event).vm.fault = some fault := by
  cases event with
  | load _ | assign _ => exact (vm.fault_proceed _ _).trans hlatched
  | step =>
      rw [handle, step_of_fault setup hlatched]
      exact hlatched
  | exec word => exact frame_exec.1.trans hlatched
  | press key | release key => exact hlatched
  | tick | reset => simpa only [handle, Outcome.done, withMachine] using hlatched
  | restart => exact absurd rfl hevent

theorem fault_act (hlatched : vm.fault = some fault) {move : HostMove}
    (hmove : move ≠ .event .restart) : (vm.act setup move).fault = some fault := by
  cases move with
  | event event => exact fault_handle hlatched fun hrestart => hmove (congrArg _ hrestart)
  | replace machine => exact hlatched

theorem fault_play (hlatched : vm.fault = some fault) {moves : List HostMove}
    (hmoves : ∀ move ∈ moves, move ≠ .event .restart) :
    (vm.play setup moves).fault = some fault := by
  -- The latch is the invariant; the rest of the state differs from move to move.
  induction moves generalizing vm with
  | nil => exact hlatched
  | cons move rest ih =>
      obtain ⟨hmove, hrest⟩ := List.forall_mem_cons.mp hmoves
      exact ih (fault_act hlatched hmove) hrest

/-- A step raises the fault that is latched, or latches the one that it meets. -/
theorem step_of_raised (hwithin : vm.machine.calls.Within)
    (hraised : (vm.step setup).error = some (.fault fault)) :
    vm.fault = some fault ∧ (vm.step setup).vm = vm ∨
      ∃ cause, vm.fault = none ∧ vm.machine.cycleRefusal = some cause ∧
        { cause, address := some vm.machine.pc } = fault ∧
        (vm.step setup).vm = vm.stopped cause := by
  cases vm.step_cases setup hwithin with
  | halted latched hlatched hstep =>
      rw [hstep] at hraised ⊢
      obtain rfl : latched = fault := by simpa [Outcome.refused] using hraised
      exact Or.inl ⟨hlatched, rfl⟩
  | waiting x _ _ hstep =>
      rw [hstep] at hraised
      cases hraised
  | refused cause hrunning _ hrefusal hstep =>
      rw [hstep] at hraised ⊢
      exact Or.inr ⟨cause, hrunning, hrefusal, by simpa [Outcome.refused] using hraised, rfl⟩
  | served _ _ _ _ hnone =>
      rw [hnone] at hraised
      cases hraised

theorem vm_step_of_raised (hwithin : vm.machine.calls.Within)
    (hraised : (vm.step setup).error = some (.fault fault)) :
    (vm.step setup).vm = { vm with fault := some fault } := by
  obtain ⟨hlatched, hstep⟩ | ⟨cause, -, -, rfl, hstep⟩ := step_of_raised hwithin hraised
  · rw [hstep, ← hlatched]
  · exact hstep

/-- A restarted interpreter fetches and executes. -/
theorem step_restart (setup : Setup) (vm : Vm) :
    vm.restart.step setup = vm.restart.cycle setup :=
  step_of_idle setup rfl rfl

/-- The machine alone decides the fault that a restarted interpreter meets. -/
theorem step_restart_of_raised (hwithin : vm.machine.calls.Within)
    (hrunning : vm.fault = none) (hraised : (vm.step setup).error = some (.fault fault))
    {reached : Vm} (huntouched : reached.machine = vm.machine) :
    reached.restart.step setup =
      .refused { reached.restart with fault := some fault } (.fault fault) := by
  obtain ⟨hlatched, -⟩ | ⟨cause, -, hrefusal, rfl, -⟩ := step_of_raised hwithin hraised
  · simp [hrunning] at hlatched
  · have hagain : reached.restart.machine.cycleRefusal = some cause :=
      (congrArg Machine.cycleRefusal huntouched).trans hrefusal
    rw [step_restart, cycle_of_refusal hagain, ← huntouched]
    rfl

/-- Whatever a host does after a fault, short of a restart, a step raises that fault and
changes nothing.  A restart goes on from the machine as it is, and meets the fault again
when that is the machine in which it was first raised. -/
theorem fault_latched_until_restart (hreachable : Reachable setup vm)
    (hraised : (vm.step setup).error = some (.fault fault)) {moves : List HostMove}
    (hmoves : ∀ move ∈ moves, move ≠ .event .restart) :
    let reached := (vm.step setup).vm.play setup moves
    reached.step setup = .refused reached (.fault fault) ∧
      reached.restart =
        { machine := reached.machine, keypad := reached.keypad, drawn := reached.drawn } ∧
      reached.restart.step setup = reached.restart.cycle setup ∧
      (vm.fault = none → reached.machine = vm.machine →
        reached.restart.step setup =
          .refused { reached.restart with fault := some fault } (.fault fault)) := by
  intro reached
  have hwithin := hreachable.sound.machine.calls.within
  have hraises : (vm.step setup).vm.fault = some fault :=
    congrArg Vm.fault (vm_step_of_raised hwithin hraised)
  have hlatched : reached.fault = some fault := fault_play hraises hmoves
  exact ⟨step_of_fault setup hlatched, rfl, step_restart setup reached,
    fun hrunning huntouched => step_restart_of_raised hwithin hrunning hraised huntouched⟩

/-- A block store behind the memory.  The host then loads another program, moves the
program counter and rebuilds the machine; or it only steps on and presses a key. -/
theorem fault_latched_until_restart_store :
    let setup : Setup := { random := fun _ => 0 }
    let vm := Vm.fresh.run setup [.load [0xAF, 0xFF, 0xF1, 0x55], .step]
    let fault : Fault := { cause := .memory 0xFFF 2, address := some 0x202 }
    let touching : List HostMove :=
      [.event (.load [0x12, 0x00]), .event .step, .event (.press 3), .event (.exec 0xF00A),
        .replace { vm.machine with pc := -2 }, .event .step, .event .reset]
    let untouching : List HostMove :=
      [.event .step, .event (.press 3), .event .step]
    let touched := (vm.step setup).vm.play setup touching
    let untouched := (vm.step setup).vm.play setup untouching
    Reachable setup vm ∧ (vm.step setup).error = some (.fault fault) ∧
      (∀ move ∈ touching, move ≠ .event .restart) ∧
      touched.step setup = .refused touched (.fault fault) ∧
      (∀ move ∈ untouching, move ≠ .event .restart) ∧
      vm.fault = none ∧ untouched.machine = vm.machine ∧
      untouched.restart.step setup =
        .refused { untouched.restart with fault := some fault } (.fault fault) := by
  intro setup vm fault touching untouching touched untouched
  have hreachable : Reachable setup vm := ⟨_, by decide, rfl⟩
  obtain ⟨hraised, hrunning⟩ :
      (vm.step setup).error = some (.fault fault) ∧ vm.fault = none := by
    decide +kernel
  have huntouched : untouched.machine = vm.machine := by
    simp only [untouched, vm_step_of_raised hreachable.sound.machine.calls.within hraised]
    rfl
  have htouching : ∀ move ∈ touching, move ≠ .event .restart := by
    simp [touching]
  have huntouching : ∀ move ∈ untouching, move ≠ .event .restart := by
    simp [untouching]
  obtain ⟨hlatched, -⟩ := fault_latched_until_restart hreachable hraised htouching
  obtain ⟨-, -, -, hagain⟩ := fault_latched_until_restart hreachable hraised huntouching
  exact ⟨hreachable, hraised, htouching, hlatched, huntouching, hrunning, huntouched,
    hagain hrunning huntouched⟩

end Vm

end Chip8
