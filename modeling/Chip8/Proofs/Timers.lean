/-
The timers of a run.  A timer is set by one instruction, counts down with every tick and
stays at zero; nothing else touches it.  So at every point of a run it holds what is left,
after the ticks since then, of the value that it was last set to.
-/
import Chip8.Proofs.Frames

namespace Chip8

/-- The two timers. -/
inductive Timer
  | delay
  | sound
deriving Repr, DecidableEq

namespace Registers

/-- The value of a timer. -/
def timer (registers : Registers) : Timer → UInt8
  | .delay => registers.delay
  | .sound => registers.sound

/-- A tick takes one from a timer that is not at zero. -/
theorem toNat_timer_tick (registers : Registers) (timer : Timer) :
    (registers.tick.timer timer).toNat = (registers.timer timer).toNat - 1 := by
  have htick (value : UInt8) :
      (if value = 0 then 0 else value - 1).toNat = value.toNat - 1 := by
    by_cases hzero : value = 0
    · rw [if_pos hzero, hzero]
      rfl
    · have hone : (1 : UInt8) ≤ value := by
        have hpositive : value.toNat ≠ 0 := fun hnone => hzero (UInt8.toNat_inj.mp hnone)
        exact UInt8.le_iff_toNat_le.mpr (Nat.one_le_iff_ne_zero.mpr hpositive)
      rw [if_neg hzero, UInt8.toNat_sub_of_le _ _ hone]
      rfl
  cases timer with
  | delay => exact htick registers.delay
  | sound => exact htick registers.sound

end Registers

namespace Word

/-- The word sets a timer to a register: `Fx15` the delay timer, `Fx18` the sound timer. -/
def Sets (word : Word) : Timer → Prop
  | .delay => word.family = 0xF ∧ word.kk = 0x15
  | .sound => word.family = 0xF ∧ word.kk = 0x18

instance (word : Word) : (timer : Timer) → Decidable (word.Sets timer)
  | .delay => inferInstanceAs (Decidable (word.family = 0xF ∧ word.kk = 0x15))
  | .sound => inferInstanceAs (Decidable (word.family = 0xF ∧ word.kk = 0x18))

end Word

/-- The value that a timer was set to, and the number of ticks since then. -/
structure Countdown where
  value : Nat := 0
  ticks : Nat := 0
deriving Repr, DecidableEq

namespace Vm

def timer (vm : Vm) (timer : Timer) : UInt8 :=
  vm.machine.registers.timer timer

/-- The countdown of a timer behind an event.  An executed word that sets the timer starts
it anew, and a new machine starts it at zero. -/
def trackTimer (setup : Setup) (timer : Timer) (vm : Vm) (countdown : Countdown) :
    Event → Countdown
  | .reset => {}
  | .tick => { countdown with ticks := countdown.ticks + 1 }
  | .step =>
      match vm.executed setup with
      | some word =>
          if word.Sets timer then { value := (vm.machine.v word.x).toNat } else countdown
      | none => countdown
  | _ => countdown

/-- The countdown of a timer at the end of a history. -/
def countdown (setup : Setup) (timer : Timer) (vm : Vm) (sofar : Countdown) :
    List Event → Countdown
  | [] => sofar
  | event :: rest =>
      (vm.handle setup event).vm.countdown setup timer (vm.trackTimer setup timer sofar event)
        rest

variable {setup : Setup} {vm : Vm} {word : Word} {timer : Timer}

theorem timer_effect_of_sets (hsets : word.Sets timer) :
    (vm.effect setup (.ofWord word)).timer timer = vm.machine.v word.x := by
  cases timer with
  | delay =>
      obtain ⟨hfamily, hlow⟩ := hsets
      rw [Instr.ofWord_of_misc word (congrArg Fin.val hfamily), Instr.ofMisc, hlow]
      rfl
  | sound =>
      obtain ⟨hfamily, hlow⟩ := hsets
      rw [Instr.ofWord_of_misc word (congrArg Fin.val hfamily), Instr.ofMisc, hlow]
      rfl

theorem timer_effect_of_not_sets (hother : ¬ word.Sets timer) :
    (vm.effect setup (.ofWord word)).timer timer = vm.timer timer := by
  have hspells := word.spells_ofWord
  cases timer with
  | delay => exact by_contra fun hchanged => hother (delay_effect hspells hchanged)
  | sound => exact by_contra fun hchanged => hother (sound_effect hspells hchanged)

theorem timer_poll (x : Register) : (vm.poll x).timer timer = vm.timer timer := by
  unfold poll
  split
  · rfl
  · cases timer <;> rfl

/-- A step sets a timer when it executes the word that does; a refused step, a key poll and
every other word leave the timer alone. -/
theorem timer_step (hwithin : vm.machine.calls.Within) :
    (vm.step setup).vm.timer timer =
      match vm.executed setup with
      | some word => if word.Sets timer then vm.machine.v word.x else vm.timer timer
      | none => vm.timer timer := by
  cases vm.step_cases setup hwithin with
  | halted fault hfault hstep =>
      have hnothing : vm.executed setup = none := by simp [executed, hfault]
      rw [hstep, hnothing]
      rfl
  | waiting x hrunning hwait hstep =>
      have hnothing : vm.executed setup = none := by simp [executed, hwait]
      rw [hstep, hnothing]
      exact timer_poll x
  | refused cause hrunning hwait hrefusal hstep =>
      have hnothing : vm.executed setup = none := by simp [executed, hstep, Outcome.refused]
      rw [hstep, hnothing]
      rfl
  | served hrunning hwait hserved hstep herror =>
      have hexecutes := executes_of_served hwithin hrunning hwait hserved hstep
      have hword : vm.executed setup = some vm.machine.fetched :=
        if_pos ⟨hrunning, hwait, herror⟩
      rw [hexecutes.effect, hword]
      by_cases hsets : vm.machine.fetched.Sets timer
      · simp only [if_pos hsets]
        exact timer_effect_of_sets hsets
      · simp only [if_neg hsets]
        exact timer_effect_of_not_sets hsets

/-- A timer that agrees with its countdown goes on agreeing with it. -/
theorem timer_handle (setup : Setup) (hwithin : vm.machine.calls.Within) {event : Event}
    (hroutine : event.isRoutine) {sofar : Countdown}
    (hagrees : (vm.timer timer).toNat = sofar.value - sofar.ticks) :
    let next := vm.trackTimer setup timer sofar event
    ((vm.handle setup event).vm.timer timer).toNat = next.value - next.ticks := by
  cases event with
  | load rom =>
      rcases vm.handle_load_cases setup rom with ⟨-, hload⟩ | ⟨-, hload⟩ <;> rw [hload] <;>
        exact hagrees
  | step =>
      simp only [handle, trackTimer, timer_step hwithin]
      cases vm.executed setup with
      | none => exact hagrees
      | some word =>
          by_cases hsets : word.Sets timer
          · simp only [if_pos hsets]
            rfl
          · simp only [if_neg hsets]
            exact hagrees
  | tick =>
      calc ((vm.handle setup .tick).vm.timer timer).toNat
          = (vm.timer timer).toNat - 1 := vm.machine.registers.toNat_timer_tick timer
        _ = sofar.value - sofar.ticks - 1 := by rw [hagrees]
        _ = sofar.value - (sofar.ticks + 1) := Nat.sub_sub _ _ _
  | reset =>
      rw [handle_reset]
      cases timer <;> rfl
  | press _ | release _ | restart => exact hagrees
  | exec word => cases hroutine
  | assign changes => cases hroutine

theorem timer_run (hsound : vm.Sound) {history : List Event}
    (hroutine : ∀ event ∈ history, event.isRoutine) {sofar : Countdown}
    (hagrees : (vm.timer timer).toNat = sofar.value - sofar.ticks) :
    let reached := vm.countdown setup timer sofar history
    ((vm.run setup history).timer timer).toNat = reached.value - reached.ticks := by
  -- The countdown runs beside the state, so both are general.
  induction history generalizing vm sofar with
  | nil => exact hagrees
  | cons event rest ih =>
      obtain ⟨hevent, hrest⟩ := List.forall_mem_cons.mp hroutine
      have hnext := timer_handle setup hsound.machine.calls.within hevent hagrees
      exact ih (hsound.handle hevent) hrest hnext

/-- At every point of a run a timer holds what the ticks have left of the value that it was
last set to.  A step that does not set it leaves it alone, and a tick takes one from it
unless it is at zero. -/
theorem timers_count_down (setup : Setup) {history : List Event}
    (hroutine : ∀ event ∈ history, event.isRoutine) (timer : Timer) :
    let reached := Vm.fresh.run setup history
    let countdown := Vm.fresh.countdown setup timer {} history
    ((reached.timer timer).toNat : Int) =
        max 0 ((countdown.value : Int) - (countdown.ticks : Int)) ∧
      ((∀ word ∈ reached.executed setup, ¬ word.Sets timer) →
        (reached.step setup).vm.timer timer = reached.timer timer) ∧
      ((reached.handle setup .tick).vm.timer timer).toNat =
        (reached.timer timer).toNat - 1 := by
  intro reached countdown
  have hstart : (Vm.fresh.timer timer).toNat = 0 := by cases timer <;> rfl
  have hleft : (reached.timer timer).toNat = countdown.value - countdown.ticks :=
    timer_run sound_fresh hroutine hstart
  have hwithin : reached.machine.calls.Within := (sound_run hroutine).machine.calls.within
  refine ⟨by omega, fun hother => ?_, reached.machine.registers.toNat_timer_tick timer⟩
  rw [timer_step hwithin]
  cases hexecuted : reached.executed setup with
  | none => rfl
  | some word => exact if_neg (hother word hexecuted)

/-- The delay timer is set to five, registers are filled, and a return without a call faults,
with ticks in between. -/
theorem timers_count_down_fill :
    let setup : Setup := { random := fun _ => 0, legacyStore := true }
    let history : List Event := [.load [0x60, 0x05, 0xF0, 0x15, 0xF1, 0x65, 0x00, 0xEE],
      .step, .step, .tick, .step, .tick, .step]
    let reached := Vm.fresh.run setup history
    (∀ event ∈ history, event.isRoutine) ∧ reached.fault ≠ none ∧
      Vm.fresh.countdown setup .delay {} history = { value := 5, ticks := 2 } ∧
      (reached.timer .delay).toNat = 3 ∧
      reached.executed setup = none ∧
      (reached.step setup).vm.timer .delay = reached.timer .delay ∧
      ((reached.handle setup .tick).vm.timer .delay).toNat = 2 := by
  intro setup history reached
  have hroutine : ∀ event ∈ history, event.isRoutine := by decide
  obtain ⟨hfault, hcountdown, hnothing⟩ : reached.fault ≠ none ∧
      Vm.fresh.countdown setup .delay {} history = { value := 5, ticks := 2 } ∧
      reached.executed setup = none := by
    decide +kernel
  have hother : ∀ word ∈ reached.executed setup, ¬ word.Sets .delay := by
    simp [hnothing]
  obtain ⟨hleft, hkeeps, htick⟩ := timers_count_down setup hroutine .delay
  have hthree : (reached.timer .delay).toNat = 3 := by
    rw [hcountdown] at hleft
    exact Int.ofNat.inj hleft
  exact ⟨hroutine, hfault, hcountdown, hthree, hnothing, hkeeps hother,
    htick.trans (congrArg (· - 1) hthree)⟩

end Vm

end Chip8
