/-
The two hosts.  A windowed host that is handed no key and whose timer is due in every frame
executes frame after frame what a headless host executes in one flat loop: the instructions
of a frame, then a tick.  Both follow the schedule of the headless loop, so they end in the
same machine and are told the same.
-/
import Chip8.Proofs.Batches
import Chip8.Proofs.HeadlessRun
import Chip8.Proofs.Hexadecimal
import Chip8.Window

namespace Chip8

namespace Report

end Report

instance Vm.decidableStartsWait (setup : Setup) (vm : Vm) : Decidable (vm.StartsWait setup) :=
  decidable_of_iff
    ((vm.executed setup).any (fun word => word.family = 0xF ∧ word.kk = 0x0A) = true)
    (by simp [StartsWait, Option.any_eq_true])

namespace Headless

/-- The first instructions go through, and none of them starts a key wait. -/
def Calm (setup : Setup) (cycles : Nat) (start : Vm) (count : Nat) : Prop :=
  ∀ earlier < count, ((pace setup cycles start earlier).step setup).error = none ∧
    ¬ (pace setup cycles start earlier).StartsWait setup

instance (setup : Setup) (cycles : Nat) (start : Vm) (count : Nat) :
    Decidable (Calm setup cycles start count) :=
  inferInstanceAs (Decidable (∀ earlier < count, _))

/-- What is reported by a number of instructions of the schedule, from some number on. -/
def heard (setup : Setup) (cycles : Nat) (start : Vm) (executed count : Nat) : List Report :=
  (List.range' executed count).flatMap fun number =>
    ((pace setup cycles start number).step setup).reports

variable {setup : Setup} {cycles : Nat} {start : Vm} {executed count : Nat}

theorem heard_succ (executed left : Nat) :
    heard setup cycles start executed (left + 1) =
      ((pace setup cycles start executed).step setup).reports ++
        heard setup cycles start (executed + 1) left := by
  rw [heard, List.range'_succ, List.flatMap_cons, heard]

theorem heard_append (executed left more : Nat) :
    heard setup cycles start executed (left + more) =
      heard setup cycles start executed left ++
        heard setup cycles start (executed + left) more := by
  simp only [heard, ← List.flatMap_append, ← List.range'_append, Nat.one_mul]

theorem empty_append (reports : List Report) :
    (#[] : Array Report) ++ reports = reports.toArray :=
  Array.toList_inj.mp Array.toList_appendList

theorem push_heard (reports : Array Report) (executed left : Nat) :
    reports ++ ((pace setup cycles start executed).step setup).reports ++
        heard setup cycles start (executed + 1) left =
      reports ++ heard setup cycles start executed (left + 1) := by
  rw [heard_succ]
  apply Array.toList_inj.mp
  simp only [Array.toList_appendList, List.append_assoc]

theorem Calm.of_le (hcalm : Calm setup cycles start count) {fewer : Nat}
    (hfewer : fewer ≤ count) : Calm setup cycles start fewer :=
  fun earlier hearlier => hcalm earlier (Nat.lt_of_lt_of_le hearlier hfewer)

end Headless

namespace Keyboard.Layout

theorem handle_of_all_idle (layout : Layout) (keypad : Keypad) {batch : List Event}
    (hidle : ∀ event ∈ batch, event.Idle layout) :
    layout.handle keypad batch = (keypad, true) := by
  induction batch with
  | nil => rfl
  | cons event rest ih =>
      obtain ⟨hevent, hrest⟩ := List.forall_mem_cons.mp hidle
      rw [handle_of_idle hevent, ih hrest]

end Keyboard.Layout

namespace Window

open Headless (Calm heard)

/-- The status of a run whose window was closed. -/
def Ending.status? : Ending → Option Nat
  | .closed faulted => some (if faulted then 1 else 0)
  | .defective _ | .refused _ | .interrupted => none

variable {setup : Setup} {cycles : Nat} {start : Vm} {executed : Nat}

theorem burst_succ {vm : Vm} (left : Nat) (reports : Array Report)
    (herror : (vm.step setup).error = none) :
    burst setup none (left + 1) vm reports =
      burst setup none left (vm.step setup).vm (reports ++ (vm.step setup).reports) := by
  simp only [burst, Vm.interrupted, Option.any_none, Bool.false_eq_true, if_false, herror]

/-- The instructions of a frame follow the schedule, in which no tick is due before the
last of them. -/
theorem burst_of_calm {left : Nat} (reports : Array Report)
    (hcalm : Calm setup cycles start (executed + left + 1))
    (hblock : ∀ offset ≤ left, offset ≠ 0 → (executed + offset) % cycles ≠ 0) :
    burst setup none (left + 1) (Headless.pace setup cycles start executed) reports =
      { vm := ((Headless.pace setup cycles start (executed + left)).step setup).vm
        reports := reports ++ heard setup cycles start executed (left + 1) } := by
  -- The last instruction of a frame is the base, since its tick comes behind the burst.
  induction left generalizing executed reports with
  | zero =>
      obtain ⟨herror, -⟩ := hcalm executed (by omega)
      rw [burst_succ 0 reports herror, ← Headless.push_heard]
      rfl
  | succ left ih =>
      obtain ⟨herror, -⟩ := hcalm executed (by omega)
      have hplain : ((Headless.pace setup cycles start executed).step setup).vm =
          Headless.pace setup cycles start (executed + 1) := by
        rw [Headless.pace_succ, Headless.tickIfDue, if_neg (hblock 1 (by omega) (by omega))]
      have hcount : executed + (left + 1) = executed + 1 + left := by omega
      rw [hcount] at hcalm ⊢
      have hrest := ih (reports ++ ((Headless.pace setup cycles start executed).step setup).reports)
        hcalm fun offset hoffset _ => by
          rw [Nat.add_assoc]
          exact hblock (1 + offset) (by omega) (by omega)
      rw [burst_succ (left + 1) reports herror, hplain, hrest, Headless.push_heard]

/-- What the windowed loop has done after a number of frames in which nothing was refused. -/
structure Follows (setup : Setup) (cycles : Nat) (start : Vm) (clock : Nat → Float)
    (opened : Array Log.Record) (shown : Nat) (loop : Loop) : Prop where
  vm : loop.vm = Headless.pace setup cycles start (shown * cycles)
  lastTick : loop.lastTick = clock shown
  readings : loop.readings = shown + 1
  faulted : loop.faulted = false
  frames : loop.frames.toList.map Frame.vm =
    (List.range shown).map fun frame => Headless.pace setup cycles start ((frame + 1) * cycles)
  records : loop.records.toList =
    opened.toList ++ (heard setup cycles start 0 (shown * cycles)).map Report.record

theorem fault_of_calm (hcalm : Calm setup cycles start (executed + 1)) :
    (Headless.pace setup cycles start executed).fault = none := by
  obtain ⟨herror, -⟩ := hcalm executed (Nat.lt_succ_self executed)
  cases hfault : (Headless.pace setup cycles start executed).fault with
  | none => rfl
  | some fault =>
      rw [Vm.step_of_fault setup hfault] at herror
      cases herror

/-- The instructions of the next frame. -/
theorem burst_of_frame {shown : Nat} (hpositive : 0 < cycles)
    (hcalm : Calm setup cycles start ((shown + 1) * cycles)) :
    ∃ last : Vm,
      burstUnlessHalted setup none (.ok cycles)
          (Headless.pace setup cycles start (shown * cycles)) =
        { vm := last
          reports := (heard setup cycles start (shown * cycles) cycles).toArray } ∧
      last.withMachine last.machine.tick =
        Headless.pace setup cycles start ((shown + 1) * cycles) := by
  obtain ⟨left, rfl⟩ : ∃ left, cycles = left + 1 := ⟨cycles - 1, by omega⟩
  have hcount : (shown + 1) * (left + 1) = shown * (left + 1) + left + 1 := by
    rw [Nat.succ_mul]
    omega
  have hblock : ∀ offset ≤ left, offset ≠ 0 → (shown * (left + 1) + offset) % (left + 1) ≠ 0 := by
    intro offset hoffset hlater
    rw [Nat.mul_add_mod', Nat.mod_eq_of_lt (by omega)]
    exact hlater
  have hend : (shown * (left + 1) + left + 1) % (left + 1) = 0 := by
    rw [← hcount]
    exact Nat.mul_mod_left _ _
  rw [hcount] at hcalm ⊢
  have hrunning := fault_of_calm (hcalm.of_le (by omega : shown * (left + 1) + 1 ≤ _))
  refine ⟨((Headless.pace setup (left + 1) start (shown * (left + 1) + left)).step setup).vm,
    ?_, ?_⟩
  · have hburst := burst_of_calm #[] hcalm hblock
    rw [Headless.empty_append] at hburst
    rw [burstUnlessHalted, Vm.halted, hrunning]
    exact hburst
  · rw [Headless.pace_succ, Headless.tickIfDue, if_pos hend]

/-- One more frame: its instructions, its tick and its picture. -/
theorem Follows.frame {world : World} {pace : Pace} {opened : Array Log.Record} {shown : Nat}
    {loop : Loop} (hfollows : Follows setup cycles start world.clock opened shown loop)
    (hcycles : pace.cycles = .ok cycles) (hpositive : 0 < cycles)
    (huninterrupted : world.interruptAt = none)
    {batch : List Keyboard.Event} (hquiet : ∀ event ∈ batch, event.Idle world.layout)
    (hdue : pace.period ≤ world.clock (shown + 1) - world.clock shown)
    (hcalm : Calm setup cycles start ((shown + 1) * cycles))
    (rest : List (List Keyboard.Event)) :
    ∃ next, loopFrom setup pace world (batch :: rest) loop =
        loopFrom setup pace world rest next ∧
      Follows setup cycles start world.clock opened (shown + 1) next := by
  obtain ⟨last, hburst, hticked⟩ := burst_of_frame hpositive hcalm
  let reports := heard setup cycles start (shown * cycles) cycles
  let executed : Loop := { loop with
    vm := last, records := loop.records ++ (reports.toArray.map Report.record ++ #[]) }
  refine ⟨executed.afterBurst pace world.clock, ?_, ?_⟩
  · rw [loopFrom, world.layout.handle_of_all_idle loop.vm.keypad hquiet]
    simp only [if_true, huninterrupted, hcycles, hfollows.vm, hburst, Burst.records]
    rfl
  · have hticks : executed.tickIfDue pace (world.clock executed.readings) = { executed with
        vm := Headless.pace setup cycles start ((shown + 1) * cycles)
        lastTick := world.clock (shown + 1) } := by
      have hreadings : executed.readings = shown + 1 := hfollows.readings
      have hlast : executed.lastTick = world.clock shown := hfollows.lastTick
      rw [Loop.tickIfDue, hreadings, hlast, if_pos hdue, ← hticked]
    rw [Loop.afterBurst, hticks]
    constructor
    case vm => rfl
    case lastTick => rfl
    case readings => exact congrArg (· + 1) hfollows.readings
    case faulted => exact hfollows.faulted
    case frames =>
      simp only [Loop.show, Array.toList_push, List.map_append, List.range_succ, executed,
        hfollows.frames, List.map_cons, List.map_nil]
    case records =>
      have hnext : heard setup cycles start 0 ((shown + 1) * cycles) =
          heard setup cycles start 0 (shown * cycles) ++ reports := by
        rw [Nat.succ_mul, Headless.heard_append, Nat.zero_add]
      rw [hnext]
      simp only [Loop.show, executed, Array.toList_append, hfollows.records, List.map_append,
        List.map_toArray, List.append_nil, List.append_assoc]

/-- A window that opens starts the loop. -/
theorem run_of_opened {settings : Settings} {world : World} {vm : Vm} {size : Size}
    {period : Float} (hsize : world.windowSize settings = .ok size)
    (hopens : (openingCalls world settings).2 = none)
    (hperiod : periodOf settings.timerHz = .ok period) :
    run settings setup world vm =
      loopFrom setup
        { size, cycles := settings.cyclesPerFrame, timerHz := settings.timerHz, period
          sounding := world.audioError.isNone } world world.batches
        { vm, lastTick := world.clock 0
          pending := (openingCalls world settings).1
          records := openingRecords world.audioError } := by
  rw [run, hsize]
  simp only [runSized, hopens, hperiod]

end Window

end Chip8
