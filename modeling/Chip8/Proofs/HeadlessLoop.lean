/-
The headless loop.  A run is stepped along a schedule of instructions and ticks; the loop
stops at the first instruction that is refused, behind the first one that starts a key
wait, or when its budget is used up.
-/
import Chip8.Headless
import Chip8.Proofs.Faults
import Chip8.Proofs.Frames
import Chip8.Proofs.KeyWait

namespace Chip8

namespace Vm

variable {setup : Setup} {vm : Vm}

/-- The next step executes the instruction that starts a key wait. -/
def StartsWait (setup : Setup) (vm : Vm) : Prop :=
  ∃ word, vm.executed setup = some word ∧ word.family = 0xF ∧ word.kk = 0x0A

theorem wait_step_iff (hsound : vm.Sound) (hidle : vm.wait = none)
    (herror : (vm.step setup).error = none) :
    (vm.step setup).vm.wait ≠ none ↔ vm.StartsWait setup := by
  have hwithin := hsound.machine.calls.within
  have hrunning : vm.fault = none := by
    cases hfault : vm.fault with
    | none => rfl
    | some fault =>
        rw [step_of_fault setup hfault] at herror
        cases herror
  have hexecuted : vm.executed setup = some vm.machine.fetched :=
    if_pos ⟨hrunning, hidle, herror⟩
  constructor
  · intro hwait
    rw [(executes_of_executed hwithin hexecuted).effect] at hwait
    have hchanged : (vm.past.effect setup (.ofWord vm.machine.fetched)).wait ≠ vm.past.wait :=
      fun hsame => hwait (hsame.trans hidle)
    exact ⟨_, hexecuted, wait_effect (Word.spells_ofWord _) hchanged⟩
  · rintro ⟨word, hword, hstarts⟩
    rw [step_of_waitKey hwithin hword hstarts]
    rintro ⟨⟩

theorem fault_of_error_step (hsound : vm.Sound) {error : Error}
    (herror : (vm.step setup).error = some error) : ∃ fault, error = .fault fault := by
  cases vm.step_cases setup hsound.machine.calls.within with
  | halted fault _ hstep =>
      rw [hstep] at herror
      exact ⟨fault, (Option.some.inj herror).symm⟩
  | waiting x _ _ hstep =>
      rw [hstep] at herror
      cases herror
  | refused cause _ _ _ hstep =>
      rw [hstep] at herror
      exact ⟨_, (Option.some.inj herror).symm⟩
  | served _ _ _ _ hnone =>
      rw [hnone] at herror
      cases herror

end Vm

namespace Headless

/-- The events of a run: instructions, with a tick after each full frame of them. -/
def schedule (cycles : Nat) : Nat → List Event
  | 0 => []
  | count + 1 =>
      schedule cycles count ++
        .step :: if (count + 1) % cycles = 0 then [.tick] else []

/-- The state after a number of instructions, each of which is stepped whatever became of
the ones before it. -/
def pace (setup : Setup) (cycles : Nat) (start : Vm) (count : Nat) : Vm :=
  start.run setup (schedule cycles count)

/-- All of the first instructions go through, and none of them but perhaps the last one
leaves a key wait behind. -/
def Passes (setup : Setup) (cycles : Nat) (start : Vm) (count : Nat) : Prop :=
  ∀ earlier < count, (pace setup cycles start earlier).wait = none ∧
    ((pace setup cycles start earlier).step setup).error = none

/-- Where a run with a budget of instructions stops, and how. -/
inductive Stop (setup : Setup) (cycles budget : Nat) (start : Vm) :
    Nat → Vm → Ending → Prop
  | finished (hidle : (pace setup cycles start budget).wait = none) :
      Stop setup cycles budget start budget (pace setup cycles start budget) .finished
  | waiting {count x} (hcount : count < budget)
      (hwait : (pace setup cycles start (count + 1)).wait = some x) :
      Stop setup cycles budget start (count + 1) (pace setup cycles start (count + 1))
        (.waiting x)
  | refused {count error} (hcount : count < budget)
      (herror : ((pace setup cycles start count).step setup).error = some error) :
      Stop setup cycles budget start count ((pace setup cycles start count).step setup).vm
        (.refused error)

variable {setup : Setup} {cycles budget : Nat} {start : Vm}

theorem pace_succ (count : Nat) :
    pace setup cycles start (count + 1) =
      tickIfDue cycles (count + 1) ((pace setup cycles start count).step setup).vm := by
  rw [pace, schedule, Vm.run_append, tickIfDue]
  split
  · rfl
  · rfl

theorem runFrom_succ (left executed : Nat) (vm : Vm) (reports : Array Report) :
    runFrom setup (.ok cycles) none (left + 1) executed vm reports =
      match (vm.step setup).error with
      | some error =>
          { vm := (vm.step setup).vm, executed,
            reports := reports ++ (vm.step setup).reports, ending := .refused error }
      | none =>
          let ticked := tickIfDue cycles (executed + 1) (vm.step setup).vm
          match ticked.wait with
          | some x =>
              { vm := ticked, executed := executed + 1,
                reports := reports ++ (vm.step setup).reports, ending := .waiting x }
          | none =>
              runFrom setup (.ok cycles) none left (executed + 1) ticked
                (reports ++ (vm.step setup).reports) := by
  cases herror : (vm.step setup).error with
  | some error =>
      simp only [runFrom, Vm.interrupted, Option.any_none, Bool.false_eq_true, if_false,
        herror]
  | none =>
      cases hwait : (tickIfDue cycles (executed + 1) (vm.step setup).vm).wait with
      | some x =>
          simp only [runFrom, Vm.interrupted, Option.any_none, Bool.false_eq_true,
            if_false, herror, hwait]
      | none =>
          simp only [runFrom, Vm.interrupted, Option.any_none, Bool.false_eq_true,
            if_false, herror, hwait]

theorem Passes.succ {count : Nat} (hpasses : Passes setup cycles start count)
    (hidle : (pace setup cycles start count).wait = none)
    (herror : ((pace setup cycles start count).step setup).error = none) :
    Passes setup cycles start (count + 1) := by
  intro earlier hearlier
  rcases Nat.lt_succ_iff_lt_or_eq.mp hearlier with hbefore | rfl
  · exact hpasses earlier hbefore
  · exact ⟨hidle, herror⟩

/-- The loop stops where its schedule says, with the instructions counted that went
through. -/
theorem runFrom_stop {left executed : Nat} (reports : Array Report)
    (hpasses : Passes setup cycles start executed)
    (hidle : (pace setup cycles start executed).wait = none)
    (hbudget : executed + left = budget) :
    let run := runFrom setup (.ok cycles) none left executed
      (pace setup cycles start executed) reports
    Passes setup cycles start run.executed ∧
      Stop setup cycles budget start run.executed run.vm run.ending := by
  -- On what is left of the budget; all that was executed has passed and left no key wait.
  induction left generalizing executed reports with
  | zero =>
      obtain rfl : executed = budget := hbudget
      exact ⟨hpasses, .finished hidle⟩
  | succ left ih =>
      have hcount : executed < budget := by omega
      intro run
      have hrun : run = _ := runFrom_succ left executed _ reports
      rw [hrun]
      cases herror : ((pace setup cycles start executed).step setup).error with
      | some error => exact ⟨hpasses, .refused hcount herror⟩
      | none =>
          have hnext := hpasses.succ hidle herror
          simp only [← pace_succ]
          cases hwait : (pace setup cycles start (executed + 1)).wait with
          | some x => exact ⟨hnext, .waiting hcount hwait⟩
          | none => exact ih _ hnext hwait (by omega)

theorem run_stop (steps : Int) (hidle : start.wait = none) :
    let run := run setup (.ok cycles) none steps start
    Passes setup cycles start run.executed ∧
      Stop setup cycles steps.toNat start run.executed run.vm run.ending :=
  have hnone : Passes setup cycles start 0 :=
    fun _ hearlier => absurd hearlier (Nat.not_lt_zero _)
  runFrom_stop #[] hnone hidle (Nat.zero_add _)

/-- A run that ends early ends the same way with more instructions to go. -/
theorem runFrom_of_le {left more executed : Nat} {vm : Vm} {reports : Array Report}
    (hmore : left ≤ more)
    (hearly : (runFrom setup (.ok cycles) none left executed vm reports).ending ≠ .finished) :
    runFrom setup (.ok cycles) none more executed vm reports =
      runFrom setup (.ok cycles) none left executed vm reports := by
  -- The budget ends a run only when nothing else has.
  induction left generalizing more executed vm reports with
  | zero => exact absurd rfl hearly
  | succ left ih =>
      obtain ⟨more, rfl⟩ : ∃ fewer, more = fewer + 1 := ⟨more - 1, by omega⟩
      rw [runFrom_succ] at hearly
      rw [runFrom_succ, runFrom_succ]
      cases herror : (vm.step setup).error with
      | some error => rfl
      | none =>
          simp only [herror] at hearly ⊢
          cases hwait : (tickIfDue cycles (executed + 1) (vm.step setup).vm).wait with
          | some x => rfl
          | none =>
              simp only [hwait] at hearly ⊢
              exact ih (by omega) hearly

theorem routine_schedule (cycles count : Nat) :
    ∀ event ∈ schedule cycles count, event.isRoutine := by
  induction count with
  | zero => simp [schedule]
  | succ count ih =>
      rw [schedule, List.forall_mem_append]
      refine ⟨ih, ?_⟩
      split
      · decide
      · decide

theorem pace_sound (hsound : start.Sound) (count : Nat) :
    (pace setup cycles start count).Sound :=
  hsound.run (routine_schedule cycles count)

theorem wait_tickIfDue (executed : Nat) (vm : Vm) :
    (tickIfDue cycles executed vm).wait = vm.wait := by
  rw [tickIfDue]
  split
  · rfl
  · rfl

/-- A step of the schedule leaves a key wait behind when it executes the instruction that
starts one. -/
theorem wait_pace_succ_iff (hsound : start.Sound) {count : Nat}
    (hpasses : Passes setup cycles start (count + 1)) :
    (pace setup cycles start (count + 1)).wait ≠ none ↔
      (pace setup cycles start count).StartsWait setup := by
  obtain ⟨hidle, herror⟩ := hpasses count (Nat.lt_succ_self count)
  rw [pace_succ, wait_tickIfDue]
  exact Vm.wait_step_iff (pace_sound hsound count) hidle herror

/-- The first instructions go through, and none before the last of them starts a key
wait. -/
def Undisturbed (setup : Setup) (cycles : Nat) (start : Vm) (count : Nat) : Prop :=
  ∀ earlier < count, ((pace setup cycles start earlier).step setup).error = none ∧
    (earlier + 1 < count → ¬ (pace setup cycles start earlier).StartsWait setup)

/-- The number of instructions that a run executes, the state that it ends in and its
status. -/
inductive Result (setup : Setup) (cycles budget : Nat) (start : Vm) : Nat → Vm → Nat → Prop
  | complete : Result setup cycles budget start budget (pace setup cycles start budget) 0
  | waits {last} (hlast : last < budget)
      (hstarts : (pace setup cycles start last).StartsWait setup) :
      Result setup cycles budget start (last + 1) (pace setup cycles start (last + 1)) 0
  | faults {count fault} (hcount : count < budget)
      (hfault : ((pace setup cycles start count).step setup).error = some (.fault fault)) :
      Result setup cycles budget start count ((pace setup cycles start count).step setup).vm 1

/-- A run that a fault or a key wait has ended. -/
def Early (setup : Setup) (cycles : Nat) (start : Vm) (count status : Nat) : Prop :=
  status = 1 ∨ ∃ last, count = last + 1 ∧ (pace setup cycles start last).StartsWait setup

/-- The status of a run that a fault, a key wait or its budget has ended. -/
def Ending.status? : Ending → Option Nat
  | .finished | .waiting _ => some 0
  | .refused (.fault _) => some 1
  | .refused _ | .defective _ | .interrupted => none

theorem undisturbed_of_passes (hsound : start.Sound) {count : Nat}
    (hpasses : Passes setup cycles start count) : Undisturbed setup cycles start count := by
  intro earlier hearlier
  refine ⟨(hpasses earlier hearlier).2, ?_⟩
  intro hnext hstarts
  have hbefore : Passes setup cycles start (earlier + 1) :=
    fun number hnumber => hpasses number (by omega)
  exact (wait_pace_succ_iff hsound hbefore).mpr hstarts (hpasses (earlier + 1) hnext).1

theorem result_of_stop (hsound : start.Sound) {count : Nat} {final : Vm} {ending : Ending}
    (hpasses : Passes setup cycles start count)
    (hstop : Stop setup cycles budget start count final ending) :
    ∃ status, ending.status? = some status ∧
      Result setup cycles budget start count final status ∧ final.Sound := by
  cases hstop with
  | finished hidle => exact ⟨0, rfl, .complete, pace_sound hsound _⟩
  | waiting hcount hwait =>
      have hstarts := (wait_pace_succ_iff hsound hpasses).mp (by simp [hwait])
      exact ⟨0, rfl, .waits hcount hstarts, pace_sound hsound _⟩
  | refused hcount herror =>
      have hbefore : (pace setup cycles start count).Sound := pace_sound hsound count
      obtain ⟨fault, rfl⟩ := Vm.fault_of_error_step hbefore herror
      exact ⟨1, rfl, .faults hcount herror, hbefore.step⟩

/-- A run that a fault or a key wait ends has not just used up its budget. -/
theorem not_finished_of_early (hsound : start.Sound) {count status : Nat} {final : Vm}
    {ending : Ending} (hpasses : Passes setup cycles start count)
    (hstop : Stop setup cycles budget start count final ending)
    (hstatus : ending.status? = some status)
    (hearly : Early setup cycles start count status) : ending ≠ .finished := by
  rintro rfl
  cases hstop with
  | finished hidle =>
      rcases hearly with rfl | ⟨last, rfl, hstarts⟩
      · cases hstatus
      · exact (wait_pace_succ_iff hsound hpasses).mpr hstarts hidle

end Headless

end Chip8
