/-
A second start.  A machine that is rebuilt and an interpreter that is restarted keep nothing
of their past but the keys that are down and the random numbers that are used up.  Whatever a
host does from then on, it sees what it would see with a new machine, the same keys, and a
random source that starts at the first number that is left.
-/
import Chip8.Proofs.Interference
import Chip8.Proofs.Latch

namespace Chip8

/-- The setup whose random source has already given away its first numbers. -/
def Setup.drop (setup : Setup) (count : Nat) : Setup :=
  { setup with random := fun number => setup.random (count + number) }

/-- The same state, with more numbers drawn before. -/
def Vm.addDrawn (count : Nat) (vm : Vm) : Vm :=
  { vm with drawn := count + vm.drawn }

/-- The same outcome, with more numbers drawn before. -/
def Outcome.addDrawn (count : Nat) (outcome : Outcome) : Outcome :=
  { outcome with vm := outcome.vm.addDrawn count }

namespace Vm

variable {setup : Setup} {vm : Vm} {count : Nat}

@[simp] theorem machine_addDrawn : (vm.addDrawn count).machine = vm.machine := rfl

@[simp] theorem keypad_addDrawn : (vm.addDrawn count).keypad = vm.keypad := rfl

@[simp] theorem wait_addDrawn : (vm.addDrawn count).wait = vm.wait := rfl

@[simp] theorem fault_addDrawn : (vm.addDrawn count).fault = vm.fault := rfl

theorem withMachine_addDrawn (machine : Machine) :
    (vm.addDrawn count).withMachine machine = (vm.withMachine machine).addDrawn count := rfl

theorem past_addDrawn : (vm.addDrawn count).past = vm.past.addDrawn count := rfl

theorem proceed_addDrawn {α : Type} (reply : Reply Machine α) (next : α → Machine → Machine) :
    (vm.addDrawn count).proceed reply next = (vm.proceed reply next).addDrawn count := by
  unfold proceed
  split <;> rfl

/-- A number is drawn from what is left of the source. -/
theorem exec_addDrawn (instr : Instr) :
    (vm.addDrawn count).exec setup instr =
      (vm.exec (setup.drop count) instr).addDrawn count := by
  cases instr with
  | ret => rw [exec_ret_eq, exec_ret_eq, machine_addDrawn, proceed_addDrawn]
  | call address => rw [exec_call_eq, exec_call_eq, machine_addDrawn, proceed_addDrawn]
  | draw x y rows => rw [exec_draw_eq, exec_draw_eq, machine_addDrawn, proceed_addDrawn]
  | decimal x => rw [exec_decimal_eq, exec_decimal_eq, machine_addDrawn, proceed_addDrawn]
  | store x =>
      rw [exec_store_eq, exec_store_eq, machine_addDrawn, proceed_addDrawn]
      rfl
  | fill x => rw [exec_fill_eq, exec_fill_eq, machine_addDrawn]; split <;> rfl
  | _ => rfl

theorem cycle_addDrawn :
    (vm.addDrawn count).cycle setup = (vm.cycle (setup.drop count)).addDrawn count := by
  rw [cycle, cycle, machine_addDrawn]
  cases vm.machine.memory.word vm.machine.pc with
  | error cause => rfl
  | ok word =>
      have hexec : (vm.addDrawn count).past.exec setup (.ofWord word) =
          (vm.past.exec (setup.drop count) (.ofWord word)).addDrawn count := by
        rw [past_addDrawn, exec_addDrawn]
      simp only [past, machine_addDrawn] at hexec
      simp only [hexec]
      -- Whether a fault is latched depends on the error alone.
      generalize exec (setup.drop count) _ (Instr.ofWord word) = outcome
      obtain ⟨reached, error, reports⟩ := outcome
      rcases error with _ | error
      · rfl
      · cases error <;> rfl

theorem poll_addDrawn (x : Register) :
    (vm.addDrawn count).poll x = (vm.poll x).addDrawn count := by
  rw [poll, poll, keypad_addDrawn]
  split <;> rfl

theorem step_addDrawn :
    (vm.addDrawn count).step setup = (vm.step (setup.drop count)).addDrawn count := by
  rw [step, step, fault_addDrawn, wait_addDrawn]
  split
  · rfl
  · split
    · exact congrArg Outcome.done (poll_addDrawn _)
    · exact cycle_addDrawn

theorem handle_addDrawn (event : Event) :
    (vm.addDrawn count).handle setup event =
      (vm.handle (setup.drop count) event).addDrawn count := by
  cases event with
  | step => exact step_addDrawn
  | exec word => exact exec_addDrawn _
  | load _ | assign _ => rw [handle, handle, machine_addDrawn, proceed_addDrawn]
  | reset =>
      rw [handle_reset, handle_reset]
      exact congrArg Outcome.done (withMachine_addDrawn Machine.fresh)
  | press _ | release _ | tick | restart => rfl

theorem outcomes_addDrawn (history : List Event) :
    (vm.addDrawn count).outcomes setup history =
      (vm.outcomes (setup.drop count) history).map (Outcome.addDrawn count) := by
  induction history generalizing vm with
  | nil => rfl
  | cons event rest ih =>
      rw [outcomes, outcomes, handle_addDrawn, List.map_cons, ← ih]
      rfl

/-- An event gives back the same whatever was drawn before. -/
theorem results_addDrawn (outcomes : List Outcome) (history : List Event) :
    List.zipWith Event.result (outcomes.map (Outcome.addDrawn count)) history =
      List.zipWith Event.result outcomes history := by
  rw [List.zipWith_map_left]
  rfl

/-- After any past, with every register, the stack and the display as they may have been set
by hand, a rebuilt machine with a restarted interpreter is a new one.  Whatever is done with
it gives the results, the refusals, the reports, the states and the snapshots that the same
gives with a new machine that has the same keys and the rest of the random source. -/
theorem reset_erases_history (setup : Setup) (start : Vm) (past : List HostMove)
    (later : List Event) :
    let used := start.play setup past
    let rebuilt := used.handle setup .reset
    let restarted := rebuilt.vm.handle setup .restart
    let new : Vm := { keypad := used.keypad }
    let renewed := restarted.vm.outcomes setup later
    let fresh := new.outcomes (setup.drop used.drawn) later
    rebuilt.error = none ∧ restarted.error = none ∧
      restarted.vm = new.addDrawn used.drawn ∧
      renewed = fresh.map (Outcome.addDrawn used.drawn) ∧
      List.zipWith Event.result renewed later = List.zipWith Event.result fresh later ∧
      renewed.map (fun outcome => outcome.vm.machine.snapshot) =
        fresh.map (fun outcome => outcome.vm.machine.snapshot) := by
  intro used rebuilt restarted new renewed fresh
  have hrestarted : restarted.vm = new.addDrawn used.drawn := by
    simp only [restarted, rebuilt, handle_reset]
    rfl
  have hrenewed : renewed = fresh.map (Outcome.addDrawn used.drawn) := by
    simp only [renewed, hrestarted]
    exact outcomes_addDrawn later
  refine ⟨rfl, rfl, hrestarted, hrenewed, ?_, ?_⟩
  · rw [hrenewed]
    exact results_addDrawn fresh later
  · rw [hrenewed, List.map_map]
    rfl

/-- On a machine that was filled by hand, a program draws a number, overwrites a glyph, waits
for a key and stops at a call.  The next program is shorter: it draws the next number, shows
a glyph, and runs on where the first one had waited for the key. -/
theorem reset_erases_history_shorter :
    let setup : Setup := { random := fun number => 7 * number + 3 }
    let full : Machine :=
      { memory := Vector.replicate 4096 0xFF, registers := { sound := 9 }, index := -1
        calls := { slots := Vector.replicate 16 0x300, depth := 40 }
        display := Vector.replicate 2048 1 }
    let past : List HostMove :=
      [.replace full, .event (.load [0xC0, 0xFF, 0xA0, 0x50, 0xF1, 0x55, 0xF2, 0x0A,
          0x23, 0x00]),
        .event .step, .event .step, .event .step, .event .step, .event (.press 4),
        .event .step, .event .step]
    let later : List Event :=
      [.load [0xC1, 0xFF, 0xF2, 0x29, 0xD0, 0x05], .step, .step, .step, .tick, .step, .step]
    let used := Vm.fresh.play setup past
    let restarted := ((used.handle setup .reset).vm.handle setup .restart).vm
    let new : Vm := { keypad := used.keypad }
    let renewed := restarted.outcomes setup later
    let fresh := new.outcomes (setup.drop used.drawn) later
    used.drawn = 1 ∧ used.fault.isSome ∧ used.keypad.isPressed 4 ∧
      renewed.map (·.vm.machine.v 1) = [0, 10, 10, 10, 10, 10, 10] ∧
      renewed = fresh.map (Outcome.addDrawn used.drawn) := by
  intro setup full past later used restarted new renewed fresh
  obtain ⟨hused, hread⟩ :
      (used.drawn = 1 ∧ used.fault.isSome ∧ used.keypad.isPressed 4) ∧
        renewed.map (·.vm.machine.v 1) = [0, 10, 10, 10, 10, 10, 10] := by
    decide +kernel
  obtain ⟨-, -, -, hrenewed, -⟩ := reset_erases_history setup Vm.fresh past later
  exact ⟨hused.1, hused.2.1, hused.2.2, hread, hrenewed⟩

end Vm

end Chip8
