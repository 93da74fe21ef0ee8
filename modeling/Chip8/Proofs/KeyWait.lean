/-
Waiting for a key.  Between steps a host presses and releases keys and lets the timers
tick.  A step that finds no key down changes nothing; the first one that finds a key down
stores the smallest such key and ends the wait, and the step after it goes on behind the
waiting instruction.
-/
import Chip8.Proofs.Effects
import Chip8.Proofs.Keys
import Chip8.Proofs.Reachable
import Chip8.Proofs.Spelling
import Mathlib.Logic.Function.Iterate

namespace Chip8

/-- What a host does between the steps of a running program. -/
def Event.isInput : Event → Bool
  | .press _ | .release _ | .tick => true
  | _ => false

/-- No step of a history finds a key down. -/
def Keypad.Unanswered (keypad : Keypad) : List Event → Prop
  | [] => True
  | event :: rest =>
      (event = .step → keypad.AllUp) ∧ (keypad.handle event).Unanswered rest

instance Keypad.decidableUnanswered :
    (keypad : Keypad) → (history : List Event) → Decidable (keypad.Unanswered history)
  | _, [] => inferInstanceAs (Decidable True)
  | keypad, event :: rest =>
      have := decidableUnanswered (keypad.handle event) rest
      inferInstanceAs (Decidable ((event = .step → keypad.AllUp) ∧ _))

theorem Machine.pc_iterate_tick (machine : Machine) (ticks : Nat) :
    (tick^[ticks] machine).pc = machine.pc := by
  induction ticks generalizing machine with
  | zero => rfl
  | succ ticks ih => exact ih machine.tick

namespace Vm

/-- The state in which nothing has passed but the ticks and the key events of a history. -/
def elapsed (vm : Vm) (history : List Event) : Vm :=
  { vm with
    machine := Machine.tick^[history.count .tick] vm.machine
    keypad := vm.keypad.after history }

/-- The state in which the waiting register has got a key. -/
def answered (vm : Vm) (x : Register) (pad : Fin 16) : Vm :=
  { vm with machine := vm.machine.setV x (UInt8.ofNat pad.val), wait := none }

variable {setup : Setup} {vm : Vm} {word : Word} {x : Register} {history : List Event}

theorem elapsed_handle (setup : Setup) (vm : Vm) {event : Event} (hinput : event.isInput)
    (rest : List Event) :
    (vm.handle setup event).vm.elapsed rest = vm.elapsed (event :: rest) := by
  cases event with
  | press number => rfl
  | release number => rfl
  | tick =>
      simp only [elapsed, List.count_cons_self, Function.iterate_succ_apply]
      rfl
  | _ => cases hinput

theorem run_of_inputs (hinputs : ∀ event ∈ history, event.isInput) :
    vm.run setup history = vm.elapsed history := by
  induction history generalizing vm with
  | nil => rfl
  | cons event rest ih =>
      obtain ⟨hinput, hrest⟩ := List.forall_mem_cons.mp hinputs
      rw [← elapsed_handle setup vm hinput]
      exact ih hrest

/-- Presses that end before the next step leave nothing behind but the ticks. -/
theorem run_of_transient (hinputs : ∀ event ∈ history, event.isInput)
    (htransient : vm.keypad.Transient history) :
    vm.run setup history = vm.run setup (history.filter (· = .tick)) := by
  have hticks : ∀ event ∈ history.filter (· = .tick), event = .tick := by
    intro event hevent
    simpa using (List.mem_filter.mp hevent).2
  have hfiltered : ∀ event ∈ history.filter (· = .tick), event.isInput := by
    intro event hevent
    rw [hticks event hevent]
    rfl
  rw [run_of_inputs hinputs, run_of_inputs hfiltered, elapsed, elapsed, htransient.after_eq,
    Keypad.after_ticks hticks, List.count_filter (by simp)]

theorem step_of_allUp (hrunning : vm.fault = none) (hwait : vm.wait = some x)
    (hup : vm.keypad.AllUp) : vm.step setup = .done vm := by
  rw [step_of_wait setup hrunning hwait, poll, Keypad.firstPressed_eq_none_iff.mpr hup]

theorem step_of_firstPressed (hrunning : vm.fault = none) (hwait : vm.wait = some x)
    {pad : Fin 16} (hfirst : vm.keypad.firstPressed = some pad) :
    vm.step setup = .done (vm.answered x pad) := by
  rw [step_of_wait setup hrunning hwait, poll, hfirst]
  rfl

/-- While a key is awaited, steps that find no key down pass as if they were not there. -/
theorem run_of_unanswered (hrunning : vm.fault = none) (hwait : vm.wait = some x)
    (hplay : ∀ event ∈ history, event = .step ∨ event.isInput)
    (hunanswered : vm.keypad.Unanswered history) :
    vm.run setup history = vm.elapsed history := by
  induction history generalizing vm with
  | nil => rfl
  | cons event rest ih =>
      obtain ⟨hup, hlater⟩ := hunanswered
      obtain ⟨hevent, hrest⟩ := List.forall_mem_cons.mp hplay
      change (vm.handle setup event).vm.run setup rest = vm.elapsed (event :: rest)
      -- An idle step is dropped from the history; any other event has passed by the end.
      rcases hevent with rfl | hinput
      · have hidle : (vm.handle setup .step).vm = vm :=
          congrArg Outcome.vm (step_of_allUp hrunning hwait (hup rfl))
        rw [hidle]
        exact ih hrunning hwait hrest hlater
      · rw [← elapsed_handle setup vm hinput]
        cases event with
        | press number | release number | tick => exact ih hrunning hwait hrest hlater
        | _ => cases hinput

/-- A step behind an answer, whatever the host did in between, fetches the next word. -/
theorem step_of_answered (hrunning : vm.fault = none) (pad : Fin 16)
    (hinputs : ∀ event ∈ history, event.isInput) :
    ((vm.answered x pad).run setup history).machine.pc = vm.machine.pc ∧
      ((vm.answered x pad).run setup history).step setup =
        ((vm.answered x pad).run setup history).cycle setup := by
  rw [run_of_inputs hinputs]
  exact ⟨Machine.pc_iterate_tick _ _, step_of_idle setup hrunning rfl⟩

theorem step_of_waitKey (hwithin : vm.machine.calls.Within)
    (hexecuted : vm.executed setup = some word)
    (hword : word.family = 0xF ∧ word.kk = 0x0A) :
    vm.step setup = .done { vm.past with wait := some word.x } := by
  have hexecutes := executes_of_executed hwithin hexecuted
  rw [hexecutes.step, Word.ofWord_of_waitKey hword.1 hword.2]
  rfl

/-- A waiting word starts the wait and does nothing else.  As long as no step finds a key
down, only ticks and key events pass; the first step that does stores the smallest key
and ends the wait, and the step behind it executes the word behind the waiting one. -/
theorem key_wait_protocol (hreachable : Reachable setup vm)
    (hexecuted : vm.executed setup = some word)
    (hword : word.family = 0xF ∧ word.kk = 0x0A) :
    let waiting : Vm := { vm with
      machine.pc := vm.machine.pc + 2
      wait := some word.x }
    vm.step setup = .done waiting ∧
      ∀ history : List Event, (∀ event ∈ history, event = .step ∨ event.isInput) →
        waiting.keypad.Unanswered history →
        let reached := waiting.run setup history
        reached = waiting.elapsed history ∧
          (reached.keypad.AllUp ∧ reached.step setup = .done reached ∨
            ∃ pad, reached.keypad.IsFirst pad ∧
              reached.step setup = .done (reached.answered word.x pad) ∧
              ∀ later : List Event, (∀ event ∈ later, event.isInput) →
                let next := (reached.answered word.x pad).run setup later
                next.machine.pc = vm.machine.pc + 2 ∧
                  next.step setup = next.cycle setup) ∧
          ∀ gap : List Event, (∀ event ∈ gap, event.isInput) →
            reached.keypad.Transient gap →
            reached.run setup gap = reached.run setup (gap.filter (· = .tick)) := by
  intro waiting
  have hwithin := hreachable.sound.machine.calls.within
  have hrunning : waiting.fault = none := (executes_of_executed hwithin hexecuted).running
  refine ⟨step_of_waitKey hwithin hexecuted hword, ?_⟩
  intro history hplay hunanswered reached
  have helapsed : reached = waiting.elapsed history :=
    run_of_unanswered hrunning rfl hplay hunanswered
  have hreached : reached.fault = none := by rw [helapsed]; exact hrunning
  have hwait : reached.wait = some word.x := by rw [helapsed]; rfl
  have hpc : reached.machine.pc = vm.machine.pc + 2 := by
    rw [helapsed]
    exact Machine.pc_iterate_tick _ _
  refine ⟨helapsed, ?_, fun gap => run_of_transient⟩
  cases hfirst : reached.keypad.firstPressed with
  | none =>
      have hup := Keypad.firstPressed_eq_none_iff.mp hfirst
      exact Or.inl ⟨hup, step_of_allUp hreached hwait hup⟩
  | some pad =>
      right
      refine ⟨pad, Keypad.isFirst_of_firstPressed hfirst,
        step_of_firstPressed hreached hwait hfirst, ?_⟩
      intro later hinputs
      rw [← hpc]
      exact step_of_answered hreached pad hinputs

/-- A key that is held when the wait starts is let go before the first poll, another one
comes and goes between two polls, and then two keys are down at once. -/
theorem key_wait_protocol_two_keys :
    let setup : Setup := { random := fun _ => 0 }
    let vm := Vm.fresh.run setup [.load [0xFF, 0x0A, 0x12, 0x00], .press 3]
    let waiting : Vm := { vm with machine.pc := vm.machine.pc + 2, wait := some 15 }
    let history : List Event :=
      [.release 3, .step, .tick, .press 12, .release 12, .step, .press 25, .press 4]
    let reached := waiting.run setup history
    let gap : List Event := [.press 5, .tick, .release 5]
    Reachable setup vm ∧ vm.executed setup = some 0xFF0A ∧ vm.step setup = .done waiting ∧
      (∀ event ∈ history, event = .step ∨ event.isInput) ∧
      waiting.keypad.Unanswered history ∧
      (∀ event ∈ gap, event.isInput) ∧ reached.keypad.Transient gap ∧
      reached.run setup gap = reached.run setup [.tick] ∧
      ∃ pad, reached.keypad.IsFirst pad ∧
        reached.step setup = .done (reached.answered 15 pad) ∧
        let next := (reached.answered 15 pad).run setup [.release 4, .tick]
        next.machine.pc = vm.machine.pc + 2 ∧ next.step setup = next.cycle setup := by
  intro setup vm waiting history reached gap
  have hreachable : Reachable setup vm := ⟨_, by decide, rfl⟩
  obtain ⟨hexecuted, hunanswered, hdown⟩ : vm.executed setup = some 0xFF0A ∧
      waiting.keypad.Unanswered history ∧ ¬ reached.keypad.AllUp := by
    decide +kernel
  have hplay : ∀ event ∈ history, event = .step ∨ event.isInput := by decide
  have hinputs : ∀ event ∈ gap, event.isInput := by decide
  have htransient : reached.keypad.Transient gap := by
    refine ⟨⟨⟨5, by decide, rfl⟩, trivial⟩, ?_⟩
    intro number hrelease
    obtain rfl : number = 5 := by simpa [gap] using hrelease
    decide +kernel
  obtain ⟨hstep, hwaits⟩ := key_wait_protocol hreachable hexecuted ⟨by decide, by decide⟩
  obtain ⟨-, hanswer, hgap⟩ := hwaits history hplay hunanswered
  obtain ⟨hup, -⟩ | ⟨pad, hfirst, hanswered, hnext⟩ := hanswer
  · exact absurd hup hdown
  · exact ⟨hreachable, hexecuted, hstep, hplay, hunanswered, hinputs, htransient,
      hgap gap hinputs htransient, pad, hfirst, hanswered, hnext _ (by decide)⟩

end Vm

end Chip8
