/-
One frame of the windowed loop.  It takes the key events of its batch, executes its steps
unless the interpreter is stopped, and lets the timers tick at most once; then it is shown.
-/
import Chip8.Proofs.Batches
import Chip8.Proofs.Freeze
import Chip8.Proofs.HostLoops

namespace Chip8

/-- The fault for which an event was refused. -/
def Outcome.fault? (outcome : Outcome) : Option Fault :=
  match outcome.error with
  | some (.fault fault) => some fault
  | _ => none

/-- What is logged of an event: what was reported, and the fault if there is one. -/
def Outcome.records (outcome : Outcome) : List Log.Record :=
  outcome.reports.map Report.record ++
    outcome.fault?.toList.map fun fault => (Error.fault fault).record

namespace Outcome

variable {outcome : Outcome} {fault : Fault}

theorem fault?_of_raised (hraised : outcome.error = some (.fault fault)) :
    outcome.fault? = some fault := by
  rw [fault?, hraised]

theorem fault?_of_passed (hpassed : outcome.error = none) : outcome.fault? = none := by
  rw [fault?, hpassed]

theorem records_of_raised (hraised : outcome.error = some (.fault fault)) :
    outcome.records =
      outcome.reports.map Report.record ++ [(Error.fault fault).record] := by
  rw [records, fault?_of_raised hraised]
  rfl

theorem records_of_passed (hpassed : outcome.error = none) :
    outcome.records = outcome.reports.map Report.record := by
  rw [records, fault?_of_passed hpassed]
  exact List.append_nil _

end Outcome

namespace Vm

/-- What is logged of a history. -/
def told (setup : Setup) (vm : Vm) (history : List Event) : List Log.Record :=
  (vm.outcomes setup history).flatMap Outcome.records

/-- Whether some event of a history raises a fault. -/
def faults (setup : Setup) (vm : Vm) (history : List Event) : Bool :=
  (vm.outcomes setup history).any fun outcome => outcome.fault?.isSome

variable {setup : Setup} {vm : Vm} {history : List Event}

theorem outcomes_append (first second : List Event) :
    vm.outcomes setup (first ++ second) =
      vm.outcomes setup first ++ (vm.run setup first).outcomes setup second := by
  induction first generalizing vm with
  | nil => rfl
  | cons event rest ih => exact congrArg (_ :: ·) ih

theorem told_append (first second : List Event) :
    vm.told setup (first ++ second) =
      vm.told setup first ++ (vm.run setup first).told setup second := by
  simp only [told, outcomes_append, List.flatMap_append]

theorem faults_append (first second : List Event) :
    vm.faults setup (first ++ second) =
      (vm.faults setup first || (vm.run setup first).faults setup second) := by
  simp only [faults, outcomes_append, List.any_append]

theorem told_cons (event : Event) (rest : List Event) :
    vm.told setup (event :: rest) =
      (vm.handle setup event).records ++ (vm.handle setup event).vm.told setup rest :=
  List.flatMap_cons

theorem faults_cons (event : Event) (rest : List Event) :
    vm.faults setup (event :: rest) =
      ((vm.handle setup event).fault?.isSome ||
        (vm.handle setup event).vm.faults setup rest) :=
  List.any_cons

theorem quiet_of_input {event : Event} (hinput : event.isInput) :
    (vm.handle setup event).records = [] ∧ (vm.handle setup event).fault? = none := by
  cases event with
  | press number | release number | tick => exact ⟨rfl, rfl⟩
  | _ => cases hinput

/-- Keys and ticks are never refused, and nothing is logged of them. -/
theorem quiet_of_inputs (hinputs : ∀ event ∈ history, event.isInput) :
    vm.told setup history = [] ∧ vm.faults setup history = false := by
  induction history generalizing vm with
  | nil => exact ⟨rfl, rfl⟩
  | cons event rest ih =>
      obtain ⟨hinput, hrest⟩ := List.forall_mem_cons.mp hinputs
      obtain ⟨hrecords, hfault⟩ := vm.quiet_of_input hinput
      obtain ⟨htold, hfaults⟩ := ih hrest
      rw [told_cons, faults_cons, hrecords, hfault, htold, hfaults]
      exact ⟨rfl, rfl⟩

theorem faults_of_passes (hpasses : vm.Passes setup history) :
    vm.faults setup history = false := by
  apply List.any_eq_false.mpr
  intro outcome houtcome
  rw [Outcome.fault?_of_passed (hpasses outcome houtcome)]
  exact Bool.false_ne_true

end Vm

namespace Window

open Keyboard.Layout (isInput_of_strokes)

/-- The steps of a frame. -/
def steps (count : Nat) : List Event :=
  List.replicate count .step

/-- The ways in which the steps of a frame end: all of them go through, or the last one that
is executed raises a fault. -/
inductive BurstCase (setup : Setup) (vm : Vm) (left : Nat) : (count : Nat) → Option Halt → Prop
  | full (hpasses : vm.Passes setup (steps left)) : BurstCase setup vm left left none
  | faulting {count : Nat} {fault : Fault} (hcount : count < left)
      (hpasses : vm.Passes setup (steps count))
      (hraised : ((vm.run setup (steps count)).step setup).error = some (.fault fault)) :
      BurstCase setup vm left (count + 1) (some (.refused (.fault fault)))

variable {setup : Setup} {vm : Vm} {cycles left count : Nat} {halt : Option Halt}

/-- One more step before the others. -/
theorem BurstCase.succ (hpassed : (vm.step setup).error = none)
    (hcase : BurstCase setup (vm.step setup).vm left count halt) :
    BurstCase setup vm (left + 1) (count + 1) halt := by
  cases hcase with
  | full hpasses => exact .full (List.forall_mem_cons.mpr ⟨hpassed, hpasses⟩)
  | faulting hcount hpasses hraised =>
      exact .faulting (Nat.succ_lt_succ hcount) (List.forall_mem_cons.mpr ⟨hpassed, hpasses⟩)
        hraised

theorem burst_cases (setup : Setup) (hsound : vm.Sound) (left : Nat) (reports : Array Report) :
    ∃ count, BurstCase setup vm left count (burst setup none left vm reports).halt ∧
      (burst setup none left vm reports).vm = vm.run setup (steps count) ∧
      (burst setup none left vm reports).records.toList =
        reports.toList.map Report.record ++ vm.told setup (steps count) := by
  -- What was reported so far stays in front, so the reports are general.
  induction left generalizing vm reports with
  | zero =>
      have hburst : burst setup none 0 vm reports = { vm, reports } := rfl
      have htold : vm.told setup (steps 0) = [] := rfl
      rw [hburst]
      refine ⟨0, .full (Vm.passes_nil setup vm), rfl, ?_⟩
      simp only [htold, Burst.records, Array.append_empty, Array.toList_map, List.append_nil]
  | succ left ih =>
      cases herror : (vm.step setup).error with
      | none =>
          obtain ⟨count, hcase, hvm, hrecords⟩ :=
            ih hsound.step (reports ++ (vm.step setup).reports)
          rw [burst_succ left reports herror]
          refine ⟨count + 1, hcase.succ herror, hvm, hrecords.trans ?_⟩
          have htold : vm.told setup (steps (count + 1)) = (vm.step setup).records ++
              (vm.step setup).vm.told setup (steps count) := Vm.told_cons _ _
          rw [htold, Outcome.records_of_passed herror, Array.toList_appendList,
            List.map_append, List.append_assoc]
      | some error =>
          obtain ⟨fault, rfl⟩ := Vm.fault_of_error_step hsound herror
          have hburst : burst setup none (left + 1) vm reports =
              { vm := (vm.step setup).vm, reports := reports ++ (vm.step setup).reports
                halt := some (.refused (.fault fault)) } := by
            simp only [burst, Vm.interrupted, Option.any_none, Bool.false_eq_true, if_false,
              herror]
          have htold : vm.told setup (steps 1) = (vm.step setup).records ++ [] :=
            Vm.told_cons _ _
          rw [hburst]
          refine ⟨1, .faulting (Nat.succ_pos left) (Vm.passes_nil setup vm) herror, rfl, ?_⟩
          simp only [Burst.records, htold, Outcome.records_of_raised herror,
            Array.toList_append, Array.toList_map, Array.toList_appendList, List.map_append,
            List.append_assoc, List.append_nil]

theorem BurstCase.faults_eq (hcase : BurstCase setup vm cycles count halt) :
    vm.faults setup (steps count) = halt.isSome := by
  cases hcase with
  | full hpasses => exact Vm.faults_of_passes hpasses
  | @faulting count fault hcount hpasses hraised =>
      have hlast : (vm.run setup (steps count)).faults setup [.step] = true := by
        rw [Vm.faults_cons, Vm.handle, Outcome.fault?_of_raised hraised]
        rfl
      rw [steps, List.replicate_succ', Vm.faults_append]
      exact (congrArg _ hlast).trans (Bool.or_true _)

theorem BurstCase.halt_eq (hcase : BurstCase setup vm cycles count halt) :
    halt = none ∨ ∃ fault, halt = some (.refused (.fault fault)) := by
  cases hcase with
  | full hpasses => exact Or.inl rfl
  | faulting hcount hpasses hraised => exact Or.inr ⟨_, rfl⟩

/-- A fault is latched exactly when it has ended the steps. -/
theorem BurstCase.isSome_fault (hcase : BurstCase setup vm cycles count halt)
    (hsound : vm.Sound) (hrunning : vm.fault = none) :
    (vm.run setup (steps count)).fault.isSome = halt.isSome := by
  cases hcase with
  | full hpasses => exact congrArg Option.isSome (Vm.fault_run_of_passes hsound hrunning hpasses)
  | @faulting count fault hcount hpasses hraised =>
      have hbefore : (vm.run setup (steps count)).Sound :=
        hsound.play fun event hevent => Or.inl (List.eq_of_mem_replicate hevent)
      have hlast : vm.run setup (steps (count + 1)) =
          ((vm.run setup (steps count)).step setup).vm := by
        rw [steps, List.replicate_succ', Vm.run_append]
        rfl
      rw [hlast, Vm.vm_step_of_raised hbefore.machine.calls.within hraised]
      rfl

/-- A burst took a number of steps: none of a stopped interpreter, and otherwise all of its
steps or those up to a fault. -/
structure Burst.Took (setup : Setup) (before : Vm) (cycles : Nat) (burst : Burst)
    (count : Nat) : Prop where
  vm : burst.vm = before.run setup (steps count)
  records : burst.records.toList = before.told setup (steps count)
  faults : before.faults setup (steps count) = burst.halt.isSome
  halt : burst.halt = none ∨ ∃ fault, burst.halt = some (.refused (.fault fault))
  stopped : before.fault ≠ none → count = 0
  running : before.fault = none → BurstCase setup before cycles count burst.halt

theorem burstUnlessHalted_took (setup : Setup) (hsound : vm.Sound) (cycles : Nat) :
    ∃ count, (burstUnlessHalted setup none (.ok cycles) vm).Took setup vm cycles count := by
  cases hlatched : vm.fault with
  | some fault =>
      have hhalted : vm.halted = true := by rw [Vm.halted, hlatched]; rfl
      have hburst : burstUnlessHalted setup none (.ok cycles) vm = { vm } := if_pos hhalted
      have hsilent : ({ vm } : Burst).records = #[] := by
        simp only [Burst.records, List.map_toArray, List.map_nil, Array.append_empty]
      rw [hburst]
      refine ⟨0, rfl, congrArg Array.toList hsilent, rfl, Or.inl rfl, fun _ => rfl, ?_⟩
      intro hrunning
      rw [hlatched] at hrunning
      cases hrunning
  | none =>
      have hhalted : ¬ vm.halted = true := by
        rw [Vm.halted, hlatched]
        exact Bool.false_ne_true
      have hburst : burstUnlessHalted setup none (.ok cycles) vm =
          burst setup none cycles vm #[] := if_neg hhalted
      obtain ⟨count, hcase, hvm, hrecords⟩ := burst_cases setup hsound cycles #[]
      rw [hburst]
      exact ⟨count, hvm, hrecords, hcase.faults_eq, hcase.halt_eq,
        fun hstopped => absurd hlatched hstopped, fun _ => hcase⟩

/-- What a host does in one frame before it is shown. -/
structure Turn where
  keys : List Event
  /-- The number of steps that are executed. -/
  steps : Nat
  /-- Whether the timers tick. -/
  ticks : Bool
deriving Repr, DecidableEq

/-- The keys come first, and the tick last. -/
def Turn.history (turn : Turn) : List Event :=
  turn.keys ++ (Window.steps turn.steps ++ if turn.ticks then [.tick] else [])

/-- How a frame changes the loop: one turn is taken, and the state behind it is shown. -/
structure Loop.Takes (setup : Setup) (pace : Pace) (loop : Loop) (turn : Turn)
    (next : Loop) : Prop where
  vm : next.vm = loop.vm.run setup turn.history
  pending : next.pending = []
  frames : next.frames.toList = loop.frames.toList ++
    [{ calls := loop.pending ++ pace.frameCalls next.vm, size := pace.size, vm := next.vm }]
  records : next.records.toList = loop.records.toList ++ loop.vm.told setup turn.history
  faulted : next.faulted = (loop.faulted || loop.vm.faults setup turn.history)

variable {pace : Pace} {world : World} {loop : Loop} {turn : Turn}
  {batch : List Keyboard.Event} {rest : List (List Keyboard.Event)}

theorem isInput_of_ticks (ticks : Bool) :
    ∀ event ∈ (if ticks then [Event.tick] else []), event.isInput := by
  cases ticks <;> simp [Event.isInput]

/-- Only the steps of a turn are heard of. -/
theorem told_turn (hkeys : ∀ event ∈ turn.keys, event.isInput) :
    vm.told setup turn.history =
        (vm.run setup turn.keys).told setup (steps turn.steps) ∧
      vm.faults setup turn.history =
        (vm.run setup turn.keys).faults setup (steps turn.steps) := by
  obtain ⟨hkeysTold, hkeysFaults⟩ := vm.quiet_of_inputs hkeys
  obtain ⟨hticksTold, hticksFaults⟩ := Vm.quiet_of_inputs (isInput_of_ticks turn.ticks)
  rw [Turn.history, Vm.told_append, Vm.faults_append, Vm.told_append, Vm.faults_append,
    hkeysTold, hkeysFaults, hticksTold, hticksFaults]
  exact ⟨List.append_nil _, Bool.or_false _⟩

theorem tickIfDue_eq (setup : Setup) (pace : Pace) (loop : Loop) (now : Float) :
    ∃ (ticks : Bool) (lastTick : Float), loop.tickIfDue pace now =
      { loop with vm := loop.vm.run setup (if ticks then [.tick] else []), lastTick } := by
  by_cases hdue : pace.period ≤ now - loop.lastTick
  · exact ⟨true, now, if_pos hdue⟩
  · exact ⟨false, loop.lastTick, if_neg hdue⟩

/-- The tick and the picture of a frame whose steps have been executed. -/
theorem takes_afterBurst (pace : Pace) (clock : Nat → Float) {keys : List Event}
    (hkeys : ∀ event ∈ keys, event.isInput) {reached : Vm} {records : Array Log.Record}
    {faulted : Bool} (hvm : reached = (loop.vm.run setup keys).run setup (steps count))
    (hrecords : records.toList =
      loop.records.toList ++ (loop.vm.run setup keys).told setup (steps count))
    (hfaulted : faulted =
      (loop.faulted || (loop.vm.run setup keys).faults setup (steps count))) :
    ∃ ticks, loop.Takes setup pace { keys, steps := count, ticks }
      ({ loop with vm := reached, records, faulted }.afterBurst pace clock) := by
  obtain ⟨ticks, lastTick, htick⟩ := tickIfDue_eq setup pace
    { loop with vm := reached, records, faulted } (clock loop.readings)
  let turn : Turn := { keys, steps := count, ticks }
  obtain ⟨htold, hfaults⟩ : loop.vm.told setup turn.history = _ ∧
      loop.vm.faults setup turn.history = _ := told_turn hkeys
  refine ⟨ticks, ?_⟩
  rw [Loop.afterBurst, htick]
  constructor
  case vm =>
    rw [Turn.history, Vm.run_append, Vm.run_append, ← hvm]
    rfl
  case pending => rfl
  case frames => exact Array.toList_push
  case records => exact hrecords.trans (congrArg _ htold.symm)
  case faulted => exact hfaulted.trans (congrArg _ hfaults.symm)

/-- A batch that leaves the window open starts a frame with its keys. -/
theorem loopFrom_of_open (hopen : world.layout.closes batch = false)
    (huninterrupted : world.interruptAt = none) :
    loopFrom setup pace world (batch :: rest) loop =
      let burst := burstUnlessHalted setup none pace.cycles
        (loop.vm.run setup (world.layout.strokes batch))
      let executed : Loop :=
        { loop with vm := burst.vm, records := loop.records ++ burst.records }
      match burst.halt with
      | none => loopFrom setup pace world rest (executed.afterBurst pace world.clock)
      | some (.refused (.fault _)) =>
          loopFrom setup pace world rest
            ({ executed with faulted := true }.afterBurst pace world.clock)
      | some (.refused error) => executed.finish (.refused error)
      | some (.defective defect) => executed.finish (.defective defect)
      | some .interrupted => executed.finish .interrupted := by
  rw [loopFrom, Keyboard.Layout.handle_eq, Keyboard.Layout.run_strokes, huninterrupted, hopen]
  rfl

/-- The keys of a batch are taken; then a stopped interpreter executes nothing, and another
one has all of its steps or those up to a fault. -/
theorem loopFrom_cons (setup : Setup) (hsound : loop.vm.Sound)
    (hcycles : pace.cycles = .ok cycles) (huninterrupted : world.interruptAt = none)
    (hopen : world.layout.closes batch = false) (rest : List (List Keyboard.Event)) :
    ∃ turn next, turn.keys = world.layout.strokes batch ∧ loop.Takes setup pace turn next ∧
      loopFrom setup pace world (batch :: rest) loop =
        loopFrom setup pace world rest next ∧
      (loop.vm.fault ≠ none → turn.steps = 0) ∧
      (loop.vm.fault = none → ∃ halt,
        BurstCase setup (loop.vm.run setup turn.keys) cycles turn.steps halt) := by
  have hkeys := isInput_of_strokes world.layout batch
  have hhandled : (loop.vm.run setup (world.layout.strokes batch)).Sound :=
    hsound.play fun event hevent => Or.inr (hkeys event hevent)
  have hfault : (loop.vm.run setup (world.layout.strokes batch)).fault = loop.vm.fault := by
    rw [Keyboard.Layout.run_strokes]
  obtain ⟨count, htook⟩ := burstUnlessHalted_took setup hhandled cycles
  rw [loopFrom_of_open hopen huninterrupted, hcycles]
  generalize burstUnlessHalted setup none _ _ = burst at htook ⊢
  have hrecords : (loop.records ++ burst.records).toList =
      loop.records.toList ++
        (loop.vm.run setup (world.layout.strokes batch)).told setup (steps count) := by
    rw [Array.toList_append, htook.records]
  have hstopped : loop.vm.fault ≠ none → count = 0 := hfault ▸ htook.stopped
  have hrunning : loop.vm.fault = none →
      ∃ halt, BurstCase setup (loop.vm.run setup (world.layout.strokes batch)) cycles count halt :=
    fun hidle => ⟨burst.halt, htook.running (hfault.trans hidle)⟩
  rcases htook.halt with hnone | ⟨fault, hraised⟩
  · have hfaulted : loop.faulted = (loop.faulted ||
        (loop.vm.run setup (world.layout.strokes batch)).faults setup (steps count)) := by
      rw [htook.faults, hnone, Option.isSome_none, Bool.or_false]
    obtain ⟨ticks, htakes⟩ :=
      takes_afterBurst pace world.clock hkeys htook.vm hrecords hfaulted
    simp only [hnone]
    exact ⟨_, _, rfl, htakes, rfl, hstopped, hrunning⟩
  · have hfaulted : true = (loop.faulted ||
        (loop.vm.run setup (world.layout.strokes batch)).faults setup (steps count)) := by
      rw [htook.faults, hraised, Option.isSome_some, Bool.or_true]
    obtain ⟨ticks, htakes⟩ :=
      takes_afterBurst pace world.clock hkeys htook.vm hrecords hfaulted
    simp only [hraised]
    exact ⟨_, _, rfl, htakes, rfl, hstopped, hrunning⟩

end Window

end Chip8
