/-
What a host is told.  A word that the disassembler writes as data is passed over and
reported with its address; no other step reports anything.  So the reports of a run are
the data words among the words that it executes, and a host that does not listen sees the
same states and the same refusals.
-/
import Chip8.Proofs.Assembler
import Chip8.Proofs.Effects
import Chip8.Proofs.Reachable

namespace Chip8

namespace Word

variable {word : Word}

theorem assembly_eq_dataText_iff :
    word.assembly = word.dataText ↔ Instr.ofWord word = .unknown word := by
  have hdata : word.dataText = (Instr.unknown word).assembly := rfl
  rw [assembly_eq_ofWord, hdata]
  exact Instr.assembly_injective.eq_iff

theorem eq_of_ofWord_unknown {passed : Word} (hunknown : Instr.ofWord word = .unknown passed) :
    passed = word := by
  have hspells := word.spells_ofWord
  rw [hunknown] at hspells
  exact hspells.1

end Word

/-- A setup without a host that listens. -/
def Setup.unheard (setup : Setup) : Setup :=
  { setup with listening := false }

def Outcome.unheard (outcome : Outcome) : Outcome :=
  { outcome with reports := [] }

/-- The address and the word of a report. -/
def Report.entry (report : Report) : Int × Word :=
  (report.address, report.word)

namespace Vm

variable {setup : Setup} {vm : Vm} {word : Word}

section Reports

theorem reports_exec {instr : Instr} (hknown : ∀ word, instr ≠ .unknown word) :
    (vm.exec setup instr).reports = [] := by
  cases instr with
  | unknown word => exact absurd rfl (hknown word)
  | ret | call _ | draw _ _ _ | decimal _ | store _ => exact vm.reports_proceed _ _
  | fill x => rw [exec_fill_eq]; split <;> rfl
  | _ => rfl

theorem reports_exec_of_text (htext : word.assembly ≠ word.dataText) :
    (vm.exec setup (.ofWord word)).reports = [] := by
  apply reports_exec
  intro passed hunknown
  obtain rfl := Word.eq_of_ofWord_unknown hunknown
  exact htext (Word.assembly_eq_dataText_iff.mpr hunknown)

/-- The report of an address is the one that the program counter was on. -/
theorem exec_past_of_data (hlow : 0 ≤ vm.machine.pc) (hhigh : vm.machine.pc ≤ 0xFFE)
    (hdata : word.assembly = word.dataText) :
    vm.past.exec setup (.ofWord word) =
      { vm := vm.past,
        reports :=
          if setup.listening then [{ address := vm.machine.pc.toNat, word }] else [] } := by
  have haddress : ((vm.machine.pc + 2 - 2) % 65536).toNat = vm.machine.pc.toNat := by omega
  rw [Word.assembly_eq_dataText_iff.mp hdata, exec, unknown, past, haddress]

/-- What is reported of a word at an address. -/
def remark (setup : Setup) (address : Int) (word : Word) : List Report :=
  if setup.listening ∧ word.assembly = word.dataText then
    [{ address := address.toNat, word }]
  else []

theorem reports_exec_past (hlow : 0 ≤ vm.machine.pc) (hhigh : vm.machine.pc ≤ 0xFFE) :
    (vm.past.exec setup (.ofWord word)).reports = remark setup vm.machine.pc word := by
  by_cases hdata : word.assembly = word.dataText
  · rw [exec_past_of_data hlow hhigh hdata]
    simp [remark, hdata]
  · rw [reports_exec_of_text hdata]
    simp [remark, hdata]

theorem reports_step (hsound : vm.Sound) :
    (vm.step setup).reports =
      (vm.executed setup).toList.flatMap (remark setup vm.machine.pc) := by
  cases vm.step_cases setup hsound.machine.calls.within with
  | halted fault hfault hstep => simp [executed, hfault, hstep, Outcome.refused]
  | waiting x _ hwait hstep => simp [executed, hwait, hstep, Outcome.done]
  | refused cause _ _ hrefusal hstep => simp [executed, hstep, Outcome.refused]
  | served hrunning hwait hserved hstep herror =>
      obtain ⟨hfetch, -⟩ := vm.machine.cycleRefusal_eq_none_iff.mp hserved
      obtain ⟨hlow, hhigh⟩ := (Memory.refusal_eq_none_iff _ _).mp hfetch
      have hexecuted : vm.executed setup = some vm.machine.fetched :=
        if_pos ⟨hrunning, hwait, herror⟩
      rw [hstep, hexecuted, reports_exec_past hlow (by omega), Option.toList_some,
        List.flatMap_singleton]

theorem step_of_data (hrunning : vm.fault = none) (hwait : vm.wait = none)
    (hword : vm.machine.memory.word vm.machine.pc = .ok word)
    (hdata : word.assembly = word.dataText) :
    vm.step setup =
      { vm := vm.past,
        reports :=
          if setup.listening then [{ address := vm.machine.pc.toNat, word }] else [] } := by
  obtain ⟨hfetch, rfl⟩ := vm.machine.fetched_of_word hword
  obtain ⟨hlow, hhigh⟩ := (Memory.refusal_eq_none_iff _ _).mp hfetch
  rw [step_of_idle setup hrunning hwait, cycle_of_fetched hfetch,
    exec_past_of_data hlow (by omega) hdata]

theorem reports_step_of_text (hsound : vm.Sound)
    (hword : vm.machine.memory.word vm.machine.pc = .ok word)
    (htext : word.assembly ≠ word.dataText) : (vm.step setup).reports = [] := by
  obtain ⟨-, rfl⟩ := vm.machine.fetched_of_word hword
  rw [reports_step hsound, executed]
  split
  · simp [remark, htext]
  · rfl

end Reports

section Trace

/-- The word that an event executes, with its address. -/
def execution (setup : Setup) (vm : Vm) : Event → List (Int × Word)
  | .step => (vm.executed setup).toList.map (vm.machine.pc, ·)
  | _ => []

/-- The words that the steps of a history execute, in order. -/
def executions (setup : Setup) (vm : Vm) : List Event → List (Int × Word)
  | [] => []
  | event :: rest =>
      vm.execution setup event ++ (vm.handle setup event).vm.executions setup rest

/-- A word that the disassembler writes as data. -/
def isData (executed : Int × Word) : Bool :=
  executed.2.assembly = executed.2.dataText

theorem reports_handle (hsound : vm.Sound) (hlistening : setup.listening) {event : Event}
    (hroutine : event.isRoutine) :
    (vm.handle setup event).reports.map Report.entry =
      (vm.execution setup event).filter isData := by
  cases event with
  | step =>
      have hlow := hsound.machine.pc.1
      rw [handle, reports_step hsound, execution]
      cases vm.executed setup with
      | none => rfl
      | some word =>
          by_cases hdata : word.assembly = word.dataText
          · simp [remark, isData, Report.entry, hlistening, hdata, Int.max_eq_left hlow]
          · simp [remark, isData, hdata]
  | exec word => cases hroutine
  | assign changes => cases hroutine
  | load rom => exact congrArg (List.map _) (vm.reports_proceed _ _)
  | press _ | release _ | tick | reset | restart => rfl

theorem reports_outcomes (hsound : vm.Sound) (hlistening : setup.listening)
    {history : List Event} (hroutine : ∀ event ∈ history, event.isRoutine) :
    ((vm.outcomes setup history).flatMap (·.reports)).map Report.entry =
      (vm.executions setup history).filter isData := by
  induction history generalizing vm with
  | nil => rfl
  | cons event rest ih =>
      obtain ⟨hevent, hrest⟩ := List.forall_mem_cons.mp hroutine
      rw [outcomes, executions, List.flatMap_cons, List.map_append, List.filter_append,
        reports_handle hsound hlistening hevent, ih (hsound.handle hevent) hrest]

end Trace

section Unheard

theorem unheard_of_silent {outcome : Outcome} (hsilent : outcome.reports = []) :
    outcome.unheard = outcome := by
  rw [Outcome.unheard, ← hsilent]

theorem exec_unheard (instr : Instr) :
    vm.exec setup.unheard instr = (vm.exec setup instr).unheard := by
  cases instr with
  | unknown word => rfl
  | _ =>
      refine (unheard_of_silent ?_).symm
      exact reports_exec nofun

theorem cycle_unheard : vm.cycle setup.unheard = (vm.cycle setup).unheard := by
  rw [cycle, cycle]
  cases vm.machine.memory.word vm.machine.pc with
  | error cause => rfl
  | ok word =>
      -- Whether a fault is latched depends on the error alone.
      simp only [exec_unheard]
      generalize exec setup _ (Instr.ofWord word) = outcome
      obtain ⟨reached, error, reports⟩ := outcome
      rcases error with _ | error
      · rfl
      · cases error <;> rfl

theorem step_unheard : vm.step setup.unheard = (vm.step setup).unheard := by
  rw [step, step]
  split
  · rfl
  · split
    · rfl
    · exact cycle_unheard

theorem handle_unheard (event : Event) :
    vm.handle setup.unheard event = (vm.handle setup event).unheard := by
  cases event with
  | step => exact step_unheard
  | exec word => exact exec_unheard _
  | load _ | assign _ =>
      refine (unheard_of_silent ?_).symm
      exact vm.reports_proceed _ _
  | press _ | release _ | tick | reset | restart => rfl

theorem outcomes_unheard (history : List Event) :
    vm.outcomes setup.unheard history = (vm.outcomes setup history).map Outcome.unheard := by
  induction history generalizing vm with
  | nil => rfl
  | cons event rest ih =>
      rw [outcomes, outcomes, handle_unheard, List.map_cons, ih]
      rfl

end Unheard

/-- A running interpreter passes over a word that disassembles to data, and reports it and
nothing else; a word with any other text is not reported.  The reports of a whole history
are the data words that it executes, and they make no difference to any state or refusal. -/
theorem reports_exactly_data (setup : Setup) {history : List Event}
    (hroutine : ∀ event ∈ history, event.isRoutine) :
    let vm := Vm.fresh.run setup history
    let heard : Setup := { setup with listening := true }
    (vm.fault = none → vm.wait = none →
      ∀ word, vm.machine.memory.word vm.machine.pc = .ok word →
        let report : Report := { address := vm.machine.pc.toNat, word }
        report.kind = "unknown-opcode" ∧
          (word.assembly = word.dataText → vm.step setup =
            { vm := { vm with machine.pc := vm.machine.pc + 2 },
              error := none,
              reports := if setup.listening then [report] else [] }) ∧
          (word.assembly ≠ word.dataText → (vm.step setup).reports = [])) ∧
      ((Vm.fresh.outcomes heard history).flatMap (·.reports)).map Report.entry =
        (Vm.fresh.executions heard history).filter isData ∧
      ∀ (start : Vm) (events : List Event),
        (start.outcomes heard events).map (fun outcome => (outcome.vm, outcome.error)) =
          (start.outcomes { setup with listening := false } events).map
            (fun outcome => (outcome.vm, outcome.error)) := by
  intro vm heard
  have hsound : vm.Sound := sound_run hroutine
  refine ⟨?_, ?_, ?_⟩
  · intro hrunning hwait word hword report
    exact ⟨rfl, step_of_data hrunning hwait hword, reports_step_of_text hsound hword⟩
  · exact reports_outcomes sound_fresh rfl hroutine
  · intro start events
    have hunheard : heard.unheard = { setup with listening := false } := rfl
    rw [← hunheard, outcomes_unheard, List.map_map]
    rfl

/-- Two data words with a load between them. -/
theorem reports_exactly_data_twice :
    let setup : Setup := { random := fun _ => 0 }
    let history : List Event :=
      [.load [0x00, 0x01, 0x60, 0x05, 0x81, 0x28], .step, .tick, .step]
    let vm := Vm.fresh.run setup history
    (∀ event ∈ history, event.isRoutine) ∧
      vm.step setup =
        { vm := { vm with machine.pc := 0x206 },
          reports := [{ address := 0x204, word := 0x8128 }] } ∧
      ((Vm.fresh.outcomes setup history).flatMap (·.reports)).map Report.entry =
        (Vm.fresh.executions setup history).filter isData := by
  intro setup history vm
  have hroutine : ∀ event ∈ history, event.isRoutine := by decide
  obtain ⟨hrunning, hwait, hpc, hword⟩ : vm.fault = none ∧ vm.wait = none ∧
      vm.machine.pc = 0x204 ∧ vm.machine.memory.word vm.machine.pc = .ok 0x8128 := by
    decide +kernel
  obtain ⟨hstep, hreports, -⟩ := reports_exactly_data setup hroutine
  obtain ⟨-, hdata, -⟩ := hstep hrunning hwait 0x8128 hword
  refine ⟨hroutine, ?_, hreports⟩
  have hpassed := hdata (by decide)
  rw [hpc] at hpassed
  exact hpassed

end Vm

end Chip8
