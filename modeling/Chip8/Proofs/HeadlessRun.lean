/-
The headless run from end to end: a program that is loaded is stepped along its schedule,
and the machine that the loop has reached is printed; a program that is not loaded is
refused before the first step.
-/
import Chip8.Proofs.HeadlessLoop
import Chip8.Proofs.Reading
import Chip8.Proofs.Views

namespace Chip8

/-- The bytes of the program that settings name. -/
def Settings.rom (settings : Settings)
    (read : String → Except ReadError (List UInt8)) : Except ReadError (List UInt8) :=
  match settings.romPath with
  | none => .ok Demo.maze
  | some path => read path

theorem Settings.cyclesPerFrame_of_clock {settings : Settings} {clock : Int}
    (hclock : settings.clockHz = some clock) (htimer : settings.timerHz = 60) :
    settings.cyclesPerFrame = .ok (max 1 (clock / 60)).toNat := by
  rw [cyclesPerFrame, hclock, htimer]
  simp only [Int.fdiv_eq_ediv_of_nonneg clock (by decide : (0 : Int) ≤ 60)]
  rfl

namespace Program

/-- A program that the system does not give, or one that does not fit. -/
def Unloadable (rom : Except ReadError (List UInt8)) : Prop :=
  (∃ number reason, rom = .error (.system number reason)) ∨
    ∃ bytes, rom = .ok bytes ∧ Memory.capacity < bytes.length

variable {settings : Settings} {arguments : List String} {name : String}
  {read : String → Except ReadError (List UInt8)}

theorem romOf_of_ok {rom : List UInt8} (hrom : settings.rom read = .ok rom) :
    romOf settings read = .ok rom := by
  unfold Settings.rom at hrom
  unfold romOf
  cases hpath : settings.romPath with
  | none =>
      rw [hpath] at hrom
      obtain rfl := Except.ok.inj hrom
      rfl
  | some path =>
      simp only [hpath] at hrom
      simp only [hrom]

theorem romOf_of_system {number : Nat} {reason : String}
    (hrom : settings.rom read = .error (.system number reason)) :
    ∃ err, romOf settings read = .error { ending := .status 2, err } := by
  unfold Settings.rom at hrom
  unfold romOf
  cases hpath : settings.romPath with
  | none =>
      rw [hpath] at hrom
      cases hrom
  | some path =>
      simp only [hpath] at hrom
      simp only [hrom]
      exact ⟨_, rfl⟩

theorem start_of_read (hread : CommandLine.read arguments = .ok settings)
    (hlevel : settings.logLevel = some name) :
    start arguments read =
      (romOf settings read).bind (boot settings (Log.Level.ofName name)) := by
  have hknown : levelOf settings = .ok (Log.Level.ofName name) := by
    simp only [levelOf, hlevel, Setting.require]
  rw [start, hread]
  simp only [hknown]
  rfl

theorem start_of_unloadable (hread : CommandLine.read arguments = .ok settings)
    (hlevel : settings.logLevel = some name) (hrom : Unloadable (settings.rom read)) :
    ∃ err, start arguments read = .error { ending := .status 2, err } := by
  rw [start_of_read hread hlevel]
  rcases hrom with ⟨number, reason, hrom⟩ | ⟨bytes, hrom, hlarge⟩
  · obtain ⟨err, hrefused⟩ := romOf_of_system hrom
    exact ⟨err, by rw [hrefused]; rfl⟩
  · rw [romOf_of_ok hrom]
    change ∃ err, boot settings (Log.Level.ofName name) bytes = _
    rw [boot, Machine.fresh.load_of_large hlarge]
    exact ⟨_, rfl⟩

theorem start_of_loadable (setup : Setup) (hread : CommandLine.read arguments = .ok settings)
    (hlevel : settings.logLevel = some name) {rom : List UInt8}
    (hrom : settings.rom read = .ok rom) (hfits : rom.length ≤ Memory.capacity) :
    ∃ err, start arguments read = .ok {
      settings, level := Log.Level.ofName name
      vm := (Vm.fresh.handle setup (.load rom)).vm, err } := by
  rw [start_of_read hread hlevel, romOf_of_ok hrom]
  change ∃ err, boot settings (Log.Level.ofName name) rom = _
  rw [boot, Machine.fresh.load_of_fits hfits, Vm.handle, Vm.fresh.machine.load_of_fits hfits]
  exact ⟨_, rfl⟩

theorem report_of_status {ready : Ready} {run : Headless.Run} {status : Nat}
    (hpc : 0 ≤ run.vm.machine.pc) (hstatus : run.ending.status? = some status) :
    (report ready run).ending = .status status ∧
      Prints ready.settings run.vm.machine (report ready run).out := by
  obtain ⟨texts, hviews, hprints⟩ := views_snapshot ready.settings hpc
  unfold report
  simp only [hviews]
  cases hending : run.ending with
  | finished | waiting x =>
      rw [hending] at hstatus
      obtain rfl := Option.some.inj hstatus
      exact ⟨rfl, hprints⟩
  | refused error =>
      rw [hending] at hstatus
      cases error with
      | fault fault =>
          obtain rfl := Option.some.inj hstatus
          exact ⟨rfl, hprints⟩
      | _ => cases hstatus
  | defective _ | interrupted =>
      rw [hending] at hstatus
      cases hstatus

/-- A run that was loaded prints what its loop has reached. -/
theorem run_of_start (random : Nat → Int) {ready : Ready} {steps : Int} {cycles : Nat}
    (hstart : start arguments read = .ok ready) (hheadless : ready.settings.headless)
    (hsteps : ready.settings.steps = some steps)
    (hcycles : ready.settings.cyclesPerFrame = .ok cycles) :
    run arguments read random none =
      report ready (Headless.run (setupOf ready.settings random) (.ok cycles) none steps
        ready.vm) := by
  rw [run, hstart]
  simp only [hheadless, if_true, headless, hsteps, Setting.require, hcycles]

/-- A run from a loaded machine along its schedule, as the transcript tells it. -/
structure Runs (settings : Settings) (setup : Setup) (cycles budget : Nat) (loaded : Vm)
    (count : Nat) (final : Vm) (status : Nat) (transcript : Transcript) : Prop where
  undisturbed : Headless.Undisturbed setup cycles loaded count
  result : Headless.Result setup cycles budget loaded count final status
  ending : transcript.ending = .status status
  prints : Prints settings final.machine transcript.out

open Headless in
/-- The run of a program that was loaded, for its own budget and for any greater one. -/
theorem run_of_loadable (random : Nat → Int) {steps clock : Int} {rom : List UInt8}
    (hread : CommandLine.read arguments = .ok settings) (hheadless : settings.headless)
    (hsteps : settings.steps = some steps) (hclock : settings.clockHz = some clock)
    (hlevel : settings.logLevel = some name) (hrom : settings.rom read = .ok rom)
    (hfits : rom.length ≤ Memory.capacity) :
    let transcript := run arguments read random none
    let setup := setupOf settings random
    let cycles := (max 1 (clock / 60)).toNat
    let loaded := (Vm.fresh.handle setup (.load rom)).vm
    ∃ count final status,
      Runs settings setup cycles steps.toNat loaded count final status transcript ∧
        (Early setup cycles loaded count status → ∀ longer more,
          CommandLine.read longer = .ok { settings with steps := some more } →
          steps ≤ more →
          (run longer read random none).ending = transcript.ending ∧
            (run longer read random none).out = transcript.out) := by
  intro transcript setup cycles loaded
  have hcycles := Settings.cyclesPerFrame_of_clock hclock (CommandLine.timerHz_read hread)
  obtain ⟨err, hstart⟩ := start_of_loadable setup hread hlevel hrom hfits
  have hsound : loaded.Sound := Vm.sound_fresh.load rom
  have hidle : loaded.wait = none := Vm.fresh.wait_proceed _ _
  let reached := Headless.run setup (.ok cycles) none steps loaded
  obtain ⟨hpasses, hstop⟩ :
      Passes setup cycles loaded reached.executed ∧
        Stop setup cycles steps.toNat loaded reached.executed reached.vm reached.ending :=
    run_stop steps hidle
  obtain ⟨status, hstatus, hresult, hfinal⟩ := result_of_stop hsound hpasses hstop
  have htranscript : transcript = report _ reached :=
    run_of_start random hstart hheadless hsteps hcycles
  obtain ⟨hending, hprints⟩ := report_of_status hfinal.machine.pc.1 hstatus
  rw [← htranscript] at hending hprints
  refine ⟨reached.executed, reached.vm, status,
    ⟨undisturbed_of_passes hsound hpasses, hresult, hending, hprints⟩, ?_⟩
  intro hearly longer more hlonger hmore
  have hfinished := not_finished_of_early hsound hpasses hstop hstatus hearly
  have hsame : Headless.run setup (.ok cycles) none more loaded = reached :=
    runFrom_of_le (Int.toNat_le_toNat hmore) hfinished
  -- The settings of the longer run differ in nothing that the report looks at.
  obtain ⟨err', hstart'⟩ := start_of_loadable setup hlonger hlevel hrom hfits
  have hreport : run longer read random none = report _ reached :=
    (run_of_start random hstart' hheadless rfl hcycles).trans (congrArg (report _) hsame)
  obtain ⟨hending', hprints'⟩ := report_of_status hfinal.machine.pc.1 hstatus
  rw [← hreport] at hending' hprints'
  exact ⟨hending'.trans hending.symm, Prints.unique hprints' hprints⟩

/-- A headless run whose settings all have a value either finds no program to load, and then
has status 2 and prints nothing, or goes along its schedule up to the first fault, the first
key wait or the end of its budget, and prints the machine that it has reached.  What ends
early does so with every greater budget. -/
theorem headless_end_to_end {steps clock : Int}
    (read : String → Except ReadError (List UInt8)) (random : Nat → Int)
    (hread : CommandLine.read arguments = .ok settings) (hheadless : settings.headless)
    (hsteps : settings.steps = some steps) (hclock : settings.clockHz = some clock)
    (hlevel : settings.logLevel = some name)
    (hpath : settings.rom read ≠ .error .embeddedNul) :
    let transcript := run arguments read random none
    let setup := setupOf settings random
    let cycles := (max 1 (clock / 60)).toNat
    (transcript.ending = .status 2 ↔ Unloadable (settings.rom read)) ∧
      (Unloadable (settings.rom read) →
        transcript.out = "" ∧ start arguments read = .error transcript) ∧
      ∀ rom, settings.rom read = .ok rom → rom.length ≤ Memory.capacity →
        let loaded := (Vm.fresh.handle setup (.load rom)).vm
        ∃ count final status,
          Runs settings setup cycles steps.toNat loaded count final status transcript ∧
            (Headless.Early setup cycles loaded count status → ∀ longer more,
              CommandLine.read longer = .ok { settings with steps := some more } →
              steps ≤ more →
              (run longer read random none).ending = transcript.ending ∧
                (run longer read random none).out = transcript.out) := by
  intro transcript setup cycles
  have hunloadable (hrom : Unloadable (settings.rom read)) :
      transcript.ending = .status 2 ∧ transcript.out = "" ∧
        start arguments read = .error transcript := by
    obtain ⟨err, hstart⟩ := start_of_unloadable hread hlevel hrom
    have htranscript : transcript = { ending := .status 2, err } := by
      simp only [transcript, run, hstart]
    rw [htranscript]
    exact ⟨rfl, rfl, hstart⟩
  refine ⟨⟨?_, fun hrom => (hunloadable hrom).1⟩, fun hrom => (hunloadable hrom).2, ?_⟩
  · intro hending
    cases hrom : settings.rom read with
    | error error =>
        cases error with
        | embeddedNul => exact absurd hrom hpath
        | system number reason => exact Or.inl ⟨number, reason, rfl⟩
    | ok rom =>
        rcases Nat.lt_or_ge Memory.capacity rom.length with hlarge | hfits
        · exact Or.inr ⟨rom, rfl, hlarge⟩
        · -- The results of a run have no status but zero and one.
          obtain ⟨count, final, status, hruns, -⟩ :=
            run_of_loadable random hread hheadless hsteps hclock hlevel hrom hfits
          obtain rfl := Ending.status.inj (hruns.ending.symm.trans hending)
          cases hruns.result
  · intro rom hrom hfits
    exact run_of_loadable random hread hheadless hsteps hclock hlevel hrom hfits

/-- A program that loads a register and then awaits a key, with a budget of five. -/
theorem headless_end_to_end_waiting :
    let arguments := ["rom", "--headless", "--steps", "5", "--clock=60", "--dump-memory"]
    let settings : Settings := {
      romPath := some "rom", headless := true, steps := some 5, clockHz := some 60
      dumpMemory := true }
    let read : String → Except ReadError (List UInt8) := fun _ => .ok [0x60, 0x05, 0xF1, 0x0A]
    let random : Nat → Int := fun _ => 0
    let transcript := run arguments read random none
    let setup := setupOf settings random
    let loaded := (Vm.fresh.handle setup (.load [0x60, 0x05, 0xF1, 0x0A])).vm
    CommandLine.read arguments = .ok settings ∧
      settings.rom read = .ok [0x60, 0x05, 0xF1, 0x0A] ∧ transcript.ending ≠ .status 2 ∧
      ∃ count final status,
        Runs settings setup 1 5 loaded count final status transcript := by
  intro arguments settings read random transcript setup loaded
  have hread : CommandLine.read arguments = .ok settings := by decide +kernel
  have hrom : settings.rom read = .ok [0x60, 0x05, 0xF1, 0x0A] := rfl
  obtain ⟨hstatus, -, hloaded⟩ := headless_end_to_end read random hread rfl rfl rfl rfl
    (by rw [hrom]; rintro ⟨⟩)
  obtain ⟨count, final, status, hruns, -⟩ := hloaded _ hrom (by decide)
  refine ⟨hread, hrom, ?_, count, final, status, hruns⟩
  intro htwo
  rcases hstatus.mp htwo with ⟨number, reason, hsystem⟩ | ⟨bytes, hbytes, hlarge⟩
  · rw [hrom] at hsystem
    cases hsystem
  · rw [hrom] at hbytes
    obtain rfl := Except.ok.inj hbytes
    revert hlarge
    decide

/-- Command lines that ask for a headless run and leave a setting blank that it needs, or
name a path that no system takes: the program breaks off without a status, and prints
nothing. -/
theorem headless_without_status :
    let broken : List (List String × Crash) :=
      [(["--headless", "--steps", "0", "--log-level=--"], .unusable (.blank .logLevel)),
        (["--headless", "--steps=--"], .unusable (.blank .steps)),
        (["--headless", "--steps", "1", "--clock=--"], .unusable (.blank .clock)),
        (["\x00", "--headless"], .embeddedNul)]
    ∀ entry ∈ broken,
      (CommandLine.read entry.1).toOption.map Settings.headless = some true ∧
        run entry.1 ({} : Storage).read (fun _ => 0) none = { ending := .crashed entry.2 } := by
  decide +kernel

end Program

end Chip8
