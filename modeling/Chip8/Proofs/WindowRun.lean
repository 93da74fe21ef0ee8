/-
The windowed run.  It is a list of turns, one for each frame that is shown, and then the keys
of the frame that closes the window.  Up to the first fault every turn has all of its steps,
the fault ends the steps of its turn, and later turns have none.
-/
import Chip8.Proofs.WindowLoop

namespace Chip8.Window

open Keyboard.Layout (isInput_of_strokes)

variable {setup : Setup} {vm : Vm} {cycles : Nat} {pace : Pace} {world : World} {loop : Loop}
  {turn : Turn}

/-- The turns of a run from a state on, with the steps that each of them has. -/
inductive Course (setup : Setup) (cycles : Nat) : Vm → List Turn → Prop
  | closed {vm : Vm} : Course setup cycles vm []
  | full {vm : Vm} {turn : Turn} {rest : List Turn}
      (hburst : BurstCase setup (vm.run setup turn.keys) cycles turn.steps none)
      (hrest : Course setup cycles (vm.run setup turn.history) rest) :
      Course setup cycles vm (turn :: rest)
  | faulting {vm : Vm} {turn : Turn} {rest : List Turn} {fault : Fault}
      (hburst : BurstCase setup (vm.run setup turn.keys) cycles turn.steps
        (some (.refused (.fault fault))))
      (hrest : ∀ later ∈ rest, later.steps = 0) : Course setup cycles vm (turn :: rest)

/-- The frames that turns show, the first one behind the calls that are pending. -/
def shown (setup : Setup) (pace : Pace) (pending : List Call) (vm : Vm) : List Turn → List Frame
  | [] => []
  | turn :: rest =>
      let reached := vm.run setup turn.history
      { calls := pending ++ pace.frameCalls reached, size := pace.size, vm := reached } ::
        shown setup pace [] reached rest

/-- The keys that are taken together with the closing of the window. -/
def closingStrokes (layout : Keyboard.Layout) (batches : List (List Keyboard.Event)) :
    List Event :=
  ((batches.find? layout.closes).map layout.strokes).getD []

theorem isInput_of_closingStrokes (layout : Keyboard.Layout)
    (batches : List (List Keyboard.Event)) :
    ∀ event ∈ closingStrokes layout batches, event.isInput := by
  intro event hevent
  rw [closingStrokes] at hevent
  cases hbatch : batches.find? layout.closes with
  | none => simp [hbatch] at hevent
  | some batch =>
      rw [hbatch] at hevent
      exact isInput_of_strokes layout batch event hevent

/-- The batches of the frames that are shown. -/
def openBatches (layout : Keyboard.Layout) (batches : List (List Keyboard.Event)) :
    List (List Keyboard.Event) :=
  batches.takeWhile fun batch => !layout.closes batch

/-- How a loop ends that takes turns and, while the window is closed, some keys. -/
structure Run.Plays (setup : Setup) (pace : Pace) (loop : Loop) (turns : List Turn)
    (closing : List Event) (run : Run) : Prop where
  vm : run.vm = (loop.vm.run setup (turns.flatMap Turn.history)).run setup closing
  frames : run.frames.toList =
    loop.frames.toList ++ shown setup pace loop.pending loop.vm turns
  calls : run.calls = (if turns = [] then loop.pending else []) ++ [.quit]
  records : run.records.toList =
    loop.records.toList ++ loop.vm.told setup (turns.flatMap Turn.history)
  ending : run.ending =
    .closed (loop.faulted || loop.vm.faults setup (turns.flatMap Turn.history))

variable {turns : List Turn} {closing : List Event} {next : Loop} {run : Run}

/-- One more turn before the others. -/
theorem Run.Plays.cons (htakes : loop.Takes setup pace turn next)
    (hplays : run.Plays setup pace next turns closing) :
    run.Plays setup pace loop (turn :: turns) closing where
  vm := by rw [hplays.vm, htakes.vm, List.flatMap_cons, Vm.run_append]
  frames := by
    rw [hplays.frames, htakes.frames, htakes.pending, htakes.vm, List.append_assoc]
    rfl
  calls := by
    rw [hplays.calls, htakes.pending, if_neg (List.cons_ne_nil turn turns), ite_self]
  records := by
    rw [hplays.records, htakes.records, htakes.vm, List.flatMap_cons, Vm.told_append,
      List.append_assoc]
  ending := by
    rw [hplays.ending, htakes.faulted, htakes.vm, List.flatMap_cons, Vm.faults_append,
      Bool.or_assoc]

theorem finish_plays (setup : Setup) (pace : Pace) (loop : Loop) (closing : List Event) :
    ({ loop with vm := loop.vm.run setup closing }.finish
      (.closed loop.faulted)).Plays setup pace loop [] closing where
  vm := rfl
  frames := (List.append_nil _).symm
  calls := rfl
  records := (List.append_nil _).symm
  ending := congrArg Ending.closed (Bool.or_false _).symm

/-- The frame that closes the window takes its keys, and that is all. -/
theorem loopFrom_of_closing {batch : List Keyboard.Event}
    (hcloses : world.layout.closes batch = true)
    (rest : List (List Keyboard.Event)) (loop : Loop) :
    loopFrom setup pace world (batch :: rest) loop =
      { loop with vm := loop.vm.run setup (world.layout.strokes batch) }.finish
        (.closed loop.faulted) := by
  rw [loopFrom, Keyboard.Layout.handle_eq, Keyboard.Layout.run_strokes, hcloses]
  rfl

theorem fault_run_of_inputs {history : List Event}
    (hinputs : ∀ event ∈ history, event.isInput) : (vm.run setup history).fault = vm.fault := by
  rw [Vm.run_of_inputs hinputs]
  rfl

/-- The latch behind a turn is the one behind its steps. -/
theorem fault_run_history (vm : Vm) (turn : Turn) :
    (vm.run setup turn.history).fault =
      ((vm.run setup turn.keys).run setup (steps turn.steps)).fault := by
  rw [Turn.history, Vm.run_append, Vm.run_append,
    fault_run_of_inputs (isInput_of_ticks turn.ticks)]

theorem play_of_history (hkeys : ∀ event ∈ turn.keys, event.isInput) :
    ∀ event ∈ turn.history, event = .step ∨ event.isInput := by
  intro event hevent
  rcases List.mem_append.mp hevent with hkey | hlater
  · exact Or.inr (hkeys event hkey)
  · rcases List.mem_append.mp hlater with hstep | htick
    · exact Or.inl (List.eq_of_mem_replicate hstep)
    · exact Or.inr (isInput_of_ticks turn.ticks event htick)

theorem loopFrom_plays (setup : Setup) (hsound : loop.vm.Sound)
    (hcycles : pace.cycles = .ok cycles) (huninterrupted : world.interruptAt = none)
    (batches : List (List Keyboard.Event)) :
    ∃ turns, turns.map Turn.keys = (openBatches world.layout batches).map world.layout.strokes ∧
      (loopFrom setup pace world batches loop).Plays setup pace loop turns
        (closingStrokes world.layout batches) ∧
      (loop.vm.fault ≠ none → ∀ turn ∈ turns, turn.steps = 0) ∧
      (loop.vm.fault = none → Course setup cycles loop.vm turns) := by
  -- The loop that is left runs beside the batches that are left.
  induction batches generalizing loop with
  | nil => exact ⟨[], rfl, finish_plays setup pace loop [], nofun, fun _ => .closed⟩
  | cons batch rest ih =>
      cases hbatch : world.layout.closes batch with
      | true =>
          refine ⟨[], ?_, ?_, nofun, fun _ => .closed⟩
          · simp [openBatches, hbatch]
          · have hclosing : closingStrokes world.layout (batch :: rest) =
                world.layout.strokes batch := by
              simp [closingStrokes, hbatch]
            rw [hclosing, loopFrom_of_closing hbatch]
            exact finish_plays setup pace loop (world.layout.strokes batch)
      | false =>
          obtain ⟨turn, next, hkeys, htakes, hloop, hstopped, hrunning⟩ :=
            loopFrom_cons setup hsound hcycles huninterrupted hbatch rest
          have hinputs : ∀ event ∈ turn.keys, event.isInput :=
            hkeys ▸ isInput_of_strokes world.layout batch
          have hplay := play_of_history hinputs
          have hnext : next.vm.Sound := htakes.vm ▸ hsound.play hplay
          obtain ⟨turns, hmap, hplays, hzero, hcourse⟩ := ih hnext
          have hlatch : next.vm.fault =
              ((loop.vm.run setup turn.keys).run setup (steps turn.steps)).fault :=
            (congrArg Vm.fault htakes.vm).trans (fault_run_history loop.vm turn)
          refine ⟨turn :: turns, ?_, ?_, ?_, ?_⟩
          · simp [openBatches, hbatch, hkeys, hmap]
          · have hclosing : closingStrokes world.layout (batch :: rest) =
                closingStrokes world.layout rest := by
              simp [closingStrokes, hbatch]
            rw [hclosing, hloop]
            exact hplays.cons htakes
          · intro hlatched
            obtain ⟨fault, hfault⟩ := Option.ne_none_iff_exists'.mp hlatched
            have hstill : next.vm.fault = loop.vm.fault :=
              (congrArg Vm.fault htakes.vm).trans (Vm.frozen_run hfault hplay).fault_eq
            exact List.forall_mem_cons.mpr ⟨hstopped hlatched, hzero (hstill ▸ hlatched)⟩
          · intro hidle
            obtain ⟨halt, hcase⟩ := hrunning hidle
            have hended := hcase.isSome_fault (hsound.play fun event hevent =>
              Or.inr (hinputs event hevent)) ((fault_run_of_inputs hinputs).trans hidle)
            rw [← hlatch] at hended
            rcases hcase.halt_eq with rfl | ⟨fault, rfl⟩
            · have hagain : next.vm.fault = none :=
                Option.isNone_iff_eq_none.mp (Option.isSome_eq_false_iff.mp hended)
              exact .full hcase (htakes.vm ▸ hcourse hagain)
            · exact .faulting hcase (hzero (Option.isSome_iff_ne_none.mp hended))

theorem length_shown (pending : List Call) (vm : Vm) (turns : List Turn) :
    (shown setup pace pending vm turns).length = turns.length := by
  induction turns generalizing pending vm with
  | nil => rfl
  | cons turn rest ih => exact congrArg (· + 1) (ih [] _)

theorem getElem?_shown (setup : Setup) (pace : Pace) {index : Nat}
    (hindex : index < turns.length) (pending : List Call) (vm : Vm) :
    ∃ frame, (shown setup pace pending vm turns)[index]? = some frame ∧
      frame.size = pace.size ∧
      frame.vm = vm.run setup ((turns.take (index + 1)).flatMap Turn.history) ∧
      frame.calls = (if index = 0 then pending else []) ++ pace.frameCalls frame.vm := by
  induction turns generalizing index pending vm with
  | nil => cases hindex
  | cons turn rest ih =>
      cases index with
      | zero => exact ⟨_, rfl, rfl, by simp, rfl⟩
      | succ index =>
          obtain ⟨frame, hframe, hsize, hvm, hcalls⟩ :=
            ih (Nat.lt_of_succ_lt_succ hindex) [] (vm.run setup turn.history)
          refine ⟨frame, hframe, hsize, ?_, ?_⟩
          · rw [hvm, List.take_succ_cons, List.flatMap_cons, Vm.run_append]
          · simpa using hcalls

theorem mem_shown {frame : Frame} {pending : List Call}
    (hturns : ∀ turn ∈ turns, ∀ event ∈ turn.keys, event.isInput)
    (hframe : frame ∈ shown setup pace pending vm turns) :
    ∃ history : List Event, (∀ event ∈ history, event = .step ∨ event.isInput) ∧
      frame.vm = vm.run setup history := by
  induction turns generalizing pending vm with
  | nil => cases hframe
  | cons turn rest ih =>
      obtain ⟨hkeys, hrest⟩ := List.forall_mem_cons.mp hturns
      have hplay := play_of_history hkeys
      rcases List.mem_cons.mp hframe with rfl | hlater
      · exact ⟨turn.history, hplay, rfl⟩
      · obtain ⟨history, hhistory, hvm⟩ := ih hrest hlater
        refine ⟨turn.history ++ history, ?_, ?_⟩
        · exact List.forall_mem_append.mpr ⟨hplay, hhistory⟩
        · rw [hvm, Vm.run_append]

/-- Behind a fault every frame shows the same picture. -/
theorem shown_frozen (hturns : ∀ turn ∈ turns, ∀ event ∈ turn.keys, event.isInput)
    (pending : List Call) (vm : Vm) :
    (shown setup pace pending vm turns).Pairwise fun earlier later =>
      earlier.vm.halted → Vm.Frozen earlier.vm later.vm ∧
        later.vm.machine.display = earlier.vm.machine.display := by
  induction turns generalizing pending vm with
  | nil => exact .nil
  | cons turn rest ih =>
      obtain ⟨-, hrest⟩ := List.forall_mem_cons.mp hturns
      refine .cons (fun frame hframe hhalted => ?_) (ih hrest [] _)
      obtain ⟨history, hplay, hvm⟩ := mem_shown hrest hframe
      obtain ⟨fault, hfault⟩ := Option.isSome_iff_exists.mp hhalted
      have hfrozen : Vm.Frozen (vm.run setup turn.history) frame.vm := by
        rw [hvm]
        exact Vm.frozen_run hfault hplay
      exact ⟨hfrozen, hfrozen.display_eq⟩

theorem quit_not_mem_shown {frame : Frame} {pending : List Call} (hpending : .quit ∉ pending)
    (hframe : frame ∈ shown setup pace pending vm turns) : .quit ∉ frame.calls := by
  induction turns generalizing pending vm with
  | nil => cases hframe
  | cons turn rest ih =>
      rcases List.mem_cons.mp hframe with rfl | hlater
      · simp only [Pace.frameCalls]
        split <;> simp [hpending]
      · exact ih List.not_mem_nil hlater

theorem soundCalls_eq {settings : Settings} {calls : List Call}
    (hcalls : soundCalls world settings = .ok calls) :
    ∃ samples, calls = [.sound samples, .volume] := by
  simp only [soundCalls, bind, Except.bind, pure, Except.pure] at hcalls
  split at hcalls
  · cases hcalls
  · split at hcalls
    · cases hcalls
    · cases hcalls
      exact ⟨_, rfl⟩

theorem quit_not_mem_openingCalls (world : World) (settings : Settings) :
    .quit ∉ (openingCalls world settings).1 := by
  simp only [openingCalls]
  cases world.audioError with
  | some reason => simp
  | none =>
      cases hsound : soundCalls world settings with
      | ok calls =>
          obtain ⟨samples, rfl⟩ := soundCalls_eq hsound
          simp
      | error defect => simp

theorem frameCalls_eq (pace : Pace) (vm : Vm) :
    pace.frameCalls vm =
      (if pace.sounding ∧ 0 < vm.machine.registers.sound then [.play] else []) ++
        [.picture (Screen.picture vm.machine.display), .tick pace.timerHz] := by
  simp only [Pace.frameCalls, Bool.and_eq_true, bne_iff_ne, ← UInt8.pos_iff_ne_zero]

/-- What a fault freezes: whatever is played behind the step that raises it, nothing has
moved but the keys and the timers. -/
theorem frozen_of_raised (hsound : vm.Sound) {before after later : List Event} {fault : Fault}
    (hplay : ∀ event ∈ before ++ .step :: after, event = .step ∨ event.isInput)
    (hraised : ((vm.run setup before).step setup).error = some (.fault fault))
    (hlater : later <+: after) :
    Vm.Frozen { vm.run setup before with fault := some fault }
      (vm.run setup (before ++ .step :: later)) := by
  obtain ⟨hbefore, hafter⟩ := List.forall_mem_append.mp hplay
  have hreached : (vm.run setup before).Sound := hsound.play hbefore
  have hlast : vm.run setup (before ++ .step :: later) =
      ((vm.run setup before).step setup).vm.run setup later := Vm.run_append setup vm before _
  rw [hlast, Vm.vm_step_of_raised hreached.machine.calls.within hraised]
  exact Vm.frozen_run rfl fun event hevent =>
    hafter event (List.mem_cons_of_mem _ (hlater.subset hevent))

/-- A window that opens plays turns until it is closed.  The keys of a turn are those of its
batch.  Up to the first fault a turn has all of its steps, the fault ends the steps of its
turn, and there are no steps behind it.  Each turn ends in at most one tick; the state behind
it decides whether there is a beep, and then its picture is shown.  The frame that closes the window
takes its keys, and that is all.  From a fault on nothing moves but the keys and the timers,
and the status tells whether there was one. -/
theorem windowed_loop_discipline (setup : Setup) {settings : Settings} {world : World}
    (rom : List UInt8) {cycles : Nat} {size : Size} {period : Float}
    (hcycles : settings.cyclesPerFrame = .ok cycles)
    (hsize : world.windowSize settings = .ok size)
    (hopens : (openingCalls world settings).2 = none)
    (hperiod : periodOf settings.timerHz = .ok period)
    (huninterrupted : world.interruptAt = none) :
    let start := (Vm.fresh.handle setup (.load rom)).vm
    let windowed := Window.run settings setup world start
    let opening := (openingCalls world settings).1
    let closing := closingStrokes world.layout world.batches
    ∃ turns : List Turn,
      let history := turns.flatMap Turn.history
      turns.map Turn.keys = (openBatches world.layout world.batches).map world.layout.strokes ∧
      Course setup cycles start turns ∧
      windowed.vm = start.run setup (history ++ closing) ∧
      windowed.frames.size = turns.length ∧
      (∀ index < turns.length, ∃ frame, windowed.frames[index]? = some frame ∧
        frame.size = size ∧
        frame.vm = start.run setup ((turns.take (index + 1)).flatMap Turn.history) ∧
        frame.calls = (if index = 0 then opening else []) ++
          ((if world.audioError = none ∧ 0 < frame.vm.machine.registers.sound then [.play]
            else []) ++
          [.picture (Screen.picture frame.vm.machine.display), .tick settings.timerHz])) ∧
      windowed.calls = (if turns = [] then opening else []) ++ [.quit] ∧
      (windowed.frames.toList.flatMap Frame.calls ++ windowed.calls).count .quit = 1 ∧
      windowed.records.toList =
        (openingRecords world.audioError).toList ++ start.told setup history ∧
      windowed.ending.status? = some (if start.faults setup history then 1 else 0) ∧
      (∀ before after fault, history ++ closing = before ++ .step :: after →
        ((start.run setup before).step setup).error = some (.fault fault) →
        ∀ later, later <+: after →
          Vm.Frozen { start.run setup before with fault := some fault }
            (start.run setup (before ++ .step :: later))) ∧
      windowed.frames.toList.Pairwise fun earlier later =>
        earlier.vm.halted → Vm.Frozen earlier.vm later.vm ∧
          later.vm.machine.display = earlier.vm.machine.display := by
  intro start windowed opening closing
  have hsound : start.Sound := Vm.sound_fresh.load rom
  have hrunning : start.fault = none := Vm.fresh.fault_proceed _ _
  let pace : Pace :=
    { size, cycles := settings.cyclesPerFrame, timerHz := settings.timerHz, period
      sounding := world.audioError.isNone }
  let loop : Loop :=
    { vm := start, lastTick := world.clock 0, pending := opening
      records := openingRecords world.audioError }
  have hrun : windowed = loopFrom setup pace world world.batches loop :=
    run_of_opened hsize hopens hperiod
  have hpace : pace.cycles = .ok cycles := hcycles
  have hloop : loop.vm.Sound := hsound
  obtain ⟨turns, hmap, hplays, -, hcourse⟩ :=
    loopFrom_plays setup hloop hpace huninterrupted world.batches
  rw [← hrun] at hplays
  have hkeys : ∀ turn ∈ turns, ∀ event ∈ turn.keys, event.isInput := by
    intro turn hturn
    obtain ⟨batch, -, hbatch⟩ := List.mem_map.mp (hmap ▸ List.mem_map_of_mem hturn)
    exact hbatch ▸ isInput_of_strokes world.layout batch
  have hplay : ∀ event ∈ turns.flatMap Turn.history ++ closing,
      event = .step ∨ event.isInput := by
    refine List.forall_mem_append.mpr ⟨fun event hevent => ?_, fun event hevent => ?_⟩
    · obtain ⟨turn, hturn, hhistory⟩ := List.mem_flatMap.mp hevent
      exact play_of_history (hkeys turn hturn) event hhistory
    · exact Or.inr (isInput_of_closingStrokes world.layout world.batches event hevent)
  have hframes : windowed.frames.toList = shown setup pace opening start turns := hplays.frames
  have hquit : .quit ∉ opening := quit_not_mem_openingCalls world settings
  refine ⟨turns, hmap, hcourse hrunning, ?_, ?_, ?_, hplays.calls, ?_, hplays.records, ?_, ?_, ?_⟩
  · rw [Vm.run_append]
    exact hplays.vm
  · rw [← Array.length_toList, hframes, length_shown]
  · intro index hindex
    obtain ⟨frame, hframe, hsized, hvm, hcalls⟩ :=
      getElem?_shown setup pace hindex opening start
    rw [← hframes, Array.getElem?_toList] at hframe
    refine ⟨frame, hframe, hsized, hvm, ?_⟩
    rw [hcalls, frameCalls_eq]
    simp only [pace, Option.isNone_iff_eq_none]
  · have hshown : .quit ∉ windowed.frames.toList.flatMap Frame.calls := by
      intro hmem
      obtain ⟨frame, hframe, hcall⟩ := List.mem_flatMap.mp hmem
      rw [hframes] at hframe
      exact quit_not_mem_shown hquit hframe hcall
    rw [hplays.calls, List.count_append, List.count_append, List.count_eq_zero.mpr hshown]
    split <;> simp [loop, List.count_eq_zero.mpr hquit]
  · rw [hplays.ending]
    rfl
  · intro before after fault hhistory hraised later hlater
    exact frozen_of_raised hsound (hhistory ▸ hplay) hraised hlater
  · rw [hframes]
    exact shown_frozen hkeys opening start

/-- Frames of two steps.  The first one sets the sound timer, the second one returns from no
call while a key goes down, and the third one only lets the key go and takes another one.
The window is closed between two more keys. -/
theorem windowed_loop_discipline_return :
    let setup : Setup := { random := fun _ => 0 }
    let settings : Settings := { clockHz := some 120 }
    let batches : List (List Keyboard.Event) :=
      [[.other], [.down 113], [.up 113, .down 49], [.down 120, .quit, .up 49], [.down 113]]
    let world : World := { batches, clock := Float.ofNat }
    let start := (Vm.fresh.handle setup (.load [0x60, 0x05, 0xF0, 0x18, 0x00, 0xEE])).vm
    let windowed := Window.run settings setup world start
    settings.cyclesPerFrame = .ok 2 ∧ (openingCalls world settings).2 = none ∧
      openBatches world.layout batches = batches.take 3 ∧
      closingStrokes world.layout batches = [.press 0] ∧
      windowed.ending.status? = some 1 ∧
      ∃ turns : List Turn,
        turns.map Turn.keys = [[], [.press 4], [.release 4, .press 1]] ∧
        Course setup 2 start turns ∧ windowed.frames.size = turns.length ∧
        windowed.vm = start.run setup (turns.flatMap Turn.history ++ [.press 0]) ∧
        start.faults setup (turns.flatMap Turn.history) = true ∧
        windowed.frames.toList.Pairwise fun earlier later =>
          earlier.vm.halted → Vm.Frozen earlier.vm later.vm ∧
            later.vm.machine.display = earlier.vm.machine.display := by
  intro setup settings batches world start windowed
  have hopens : (openingCalls world settings).2 = none := by decide +kernel
  have hperiod : periodOf settings.timerHz = .ok (1.0 / Float.ofInt 60) := by
    rw [periodOf, if_neg (by decide), if_neg (by decide +kernel)]
  have hstatus : windowed.ending.status? = some 1 := by decide +kernel
  obtain ⟨turns, hkeys, hcourse, hvm, hframes, -, -, -, -, hfaults, -, hfrozen⟩ :=
    @windowed_loop_discipline setup settings world [0x60, 0x05, 0xF0, 0x18, 0x00, 0xEE] 2 _ _
      rfl rfl hopens hperiod rfl
  have hfaulted : start.faults setup (turns.flatMap Turn.history) = true := by
    by_contra hnone
    have hsame := hstatus.symm.trans hfaults
    rw [if_neg hnone] at hsame
    cases hsame
  -- With the names unfolded the parts match as they stand, and no run is evaluated.
  simp only [windowed, start] at hstatus hfaulted ⊢
  exact ⟨rfl, hopens, rfl, rfl, hstatus, turns, hkeys, hcourse, hframes, hvm, hfaulted, hfrozen⟩

end Chip8.Window
