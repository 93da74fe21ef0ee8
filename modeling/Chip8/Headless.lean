/-
The headless run: a fixed number of instructions with a timer tick after each
full frame of them.  It ends early when a key is waited for, when an instruction
is refused, when there turns out to be no number of instructions in a frame, or when
the host interrupts it at one of its requests for a random number.
-/
import Chip8.Log
import Chip8.Settings
import Chip8.Vm.Step

namespace Chip8

/-- Whether an interruption at a given request for a random number has happened. -/
def Vm.interrupted (vm : Vm) (interruptAt : Option Nat) : Bool :=
  interruptAt.any fun request => decide (request < vm.drawn)

/-- An interrupted instruction has been fetched, and it has changed nothing else. -/
def Vm.fetched (vm : Vm) : Vm :=
  vm.withMachine { vm.machine with pc := vm.machine.pc + 2 }

/-- Every report is a warning. -/
def Report.record (report : Report) : Log.Record where
  level := .warning
  text := report.message

/-- The record of a fault. -/
def Error.record (error : Error) : Log.Record where
  level := .error
  text := "Interpreter fault: " ++ error.message

namespace Headless

/-- How a run ends. -/
inductive Ending
  | finished
  | waiting (x : Register)
  | refused (error : Error)
  /-- An instruction went through, and there is no length of a frame to count it by. -/
  | defective (defect : Defect)
  | interrupted
deriving Repr, DecidableEq

/-- A run: where it ended and how, the number of instructions that went through, and
the reports on the way. -/
structure Run where
  vm : Vm
  executed : Nat
  reports : Array Report
  ending : Ending

/-- The timer ticks once after each full frame of instructions. -/
def tickIfDue (cycles executed : Nat) (vm : Vm) : Vm :=
  if executed % cycles = 0 then vm.withMachine vm.machine.tick else vm

/-- Go on for at most `left` instructions. -/
def runFrom (setup : Setup) (cycles : Except Defect Nat) (interruptAt : Option Nat) :
    (left executed : Nat) → Vm → Array Report → Run
  | 0, executed, vm, reports => { vm, executed, reports, ending := .finished }
  | left + 1, executed, vm, reports =>
      let outcome := vm.step setup
      let reports := reports ++ outcome.reports
      if outcome.vm.interrupted interruptAt then
        { vm := vm.fetched, executed, reports, ending := .interrupted }
      else
        match outcome.error, cycles with
        | some error, _ =>
            { vm := outcome.vm, executed, reports, ending := .refused error }
        | none, .error defect =>
            { vm := outcome.vm, executed := executed + 1, reports
              ending := .defective defect }
        | none, .ok cycles =>
            let ticked := tickIfDue cycles (executed + 1) outcome.vm
            match ticked.wait with
            | some x =>
                { vm := ticked, executed := executed + 1, reports, ending := .waiting x }
            | none =>
                runFrom setup (.ok cycles) interruptAt left (executed + 1) ticked reports

/-- Run a number of instructions; none when the number is not positive. -/
def run (setup : Setup) (cycles : Except Defect Nat) (interruptAt : Option Nat)
    (steps : Int) (vm : Vm) : Run :=
  runFrom setup cycles interruptAt steps.toNat 0 vm #[]

/-- The record of how a run ended. -/
def Run.lastRecord (run : Run) : List Log.Record :=
  match run.ending with
  | .waiting x =>
      [{ level := .info
         text := "Stopped after " ++ run.executed.repr ++ " steps waiting for V" ++
           Hex.padded 1 x.val ++ " <- key" }]
  | .refused (.fault fault) => [(Error.fault fault).record]
  | .refused _ | .defective _ | .finished | .interrupted => []

/-- Everything that a run logs. -/
def Run.records (run : Run) : List Log.Record :=
  run.reports.toList.map Report.record ++ run.lastRecord

end Headless

end Chip8
