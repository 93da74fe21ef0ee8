/-
The faults of a step.  Which fault a reachable machine meets is decided by the
program counter, the word at it, the index register and the depth of the call stack;
a step that faults changes nothing but the latch.
-/
import Chip8.Proofs.Reachable
import Mathlib.Tactic.Simproc.ExistsAndEq

namespace Chip8

/-- An outcome that is refused for a fault of a kind. -/
def Outcome.Raises (outcome : Outcome) (kind : ErrorKind) : Prop :=
  ∃ fault, outcome.error = some (.fault fault) ∧ fault.cause.kind = kind

namespace Machine

/-- The word at the program counter, or the bytes that it asks for at the index
register, end behind the memory. -/
def LeavesMemory (machine : Machine) : Prop :=
  let word := machine.fetched.toNat
  0xFFE < machine.pc ∨ machine.pc ≤ 0xFFE ∧
    (word / 4096 = 0xD ∧ 4096 < machine.index + (word % 16 : Nat) ∨
      word / 4096 = 0xF ∧ word % 256 = 0x33 ∧ 4096 < machine.index + 3 ∨
      word / 4096 = 0xF ∧ (word % 256 = 0x55 ∨ word % 256 = 0x65) ∧
        4096 < machine.index + (word / 256 % 16 : Nat) + 1)

/-- The word at the program counter calls, and no slot is left. -/
def Overflows (machine : Machine) : Prop :=
  machine.pc ≤ 0xFFE ∧ machine.fetched.toNat / 4096 = 2 ∧ machine.calls.depth = 15

/-- The word at the program counter returns, and no call is open. -/
def Underflows (machine : Machine) : Prop :=
  machine.pc ≤ 0xFFE ∧ machine.fetched = 0x00EE ∧ machine.calls.depth = 0

/-- The kind of the cause for which the next cycle is refused. -/
def cycleKind (machine : Machine) : Option ErrorKind :=
  machine.cycleRefusal.map Cause.kind

instance (machine : Machine) : Decidable machine.LeavesMemory :=
  inferInstanceAs (Decidable (_ ∨ _))

variable {machine : Machine}

theorem refusal_kind_eq_memory_iff (hindex : 0 ≤ machine.index) (instr : Instr) :
    (machine.refusal instr).map Cause.kind = some .memory ↔
      ∃ length, instr.request = some length ∧ 4096 < machine.index + length := by
  cases instr <;> simp [refusal, Instr.request, Memory.refusal, Memory.InRange, hindex,
    Cause.kind]

theorem refusal_kind_eq_overflow_iff (instr : Instr) :
    (machine.refusal instr).map Cause.kind = some .stackOverflow ↔
      (∃ address, instr = .call address) ∧ 15 ≤ machine.calls.depth := by
  cases instr <;> simp [refusal, Instr.request, Memory.refusal, Cause.kind]

theorem refusal_kind_eq_underflow_iff (instr : Instr) :
    (machine.refusal instr).map Cause.kind = some .stackUnderflow ↔
      instr = .ret ∧ machine.calls.depth = 0 := by
  cases instr <;> simp [refusal, Instr.request, Memory.refusal, Cause.kind]

theorem cycleKind_of_le (hsound : machine.Sound) (hinside : machine.pc ≤ 0xFFE) :
    machine.cycleKind = (machine.refusal (.ofWord machine.fetched)).map Cause.kind := by
  have hserved : Memory.refusal machine.pc 2 = none :=
    (Memory.refusal_eq_none_iff _ _).mpr ⟨hsound.pc.1, by omega⟩
  rw [cycleKind, cycleRefusal, hserved]

theorem cycleKind_of_lt (houtside : 0xFFE < machine.pc) :
    machine.cycleKind = some .memory := by
  have hrange : ¬ Memory.InRange machine.pc 2 := by
    rintro ⟨-, hhigh⟩
    omega
  rw [cycleKind, cycleRefusal, (Memory.refusal_eq_some_iff _ _ _).mpr ⟨hrange, rfl⟩]
  rfl

theorem cycleKind_eq_memory_iff (hsound : machine.Sound) :
    machine.cycleKind = some .memory ↔ machine.LeavesMemory := by
  rcases Int.lt_or_le 0xFFE machine.pc with houtside | hinside
  · rw [cycleKind_of_lt houtside]
    exact ⟨fun _ => Or.inl houtside, fun _ => rfl⟩
  · rw [cycleKind_of_le hsound hinside, refusal_kind_eq_memory_iff hsound.index.1]
    simp only [Instr.request_ofWord_eq_some_iff, LeavesMemory]
    constructor
    · rintro ⟨length, hlength, hbehind⟩
      omega
    · rintro (houtside | ⟨-, hdraw | hdecimal | hblock⟩)
      · omega
      · exact ⟨_, Or.inl ⟨hdraw.1, rfl⟩, hdraw.2⟩
      · exact ⟨3, Or.inr (Or.inl ⟨hdecimal.1, hdecimal.2.1, rfl⟩), hdecimal.2.2⟩
      · exact ⟨_, Or.inr (Or.inr ⟨hblock.1, hblock.2.1, rfl⟩), by omega⟩

theorem cycleKind_eq_overflow_iff (hsound : machine.Sound) :
    machine.cycleKind = some .stackOverflow ↔ machine.Overflows := by
  have hwithin := hsound.calls.within
  rcases Int.lt_or_le 0xFFE machine.pc with houtside | hinside
  · rw [cycleKind_of_lt houtside, Overflows]
    constructor
    · rintro ⟨⟩
    · rintro ⟨hinside, -⟩
      omega
  · rw [cycleKind_of_le hsound hinside, refusal_kind_eq_overflow_iff]
    simp only [Instr.ofWord_eq_call_iff, Overflows]
    constructor
    · rintro ⟨⟨address, hcall, -⟩, hfull⟩
      exact ⟨hinside, hcall, Int.le_antisymm hwithin.2 hfull⟩
    · rintro ⟨-, hcall, hfull⟩
      exact ⟨⟨_, hcall, rfl⟩, Int.le_of_eq hfull.symm⟩

theorem cycleKind_eq_underflow_iff (hsound : machine.Sound) :
    machine.cycleKind = some .stackUnderflow ↔ machine.Underflows := by
  rcases Int.lt_or_le 0xFFE machine.pc with houtside | hinside
  · rw [cycleKind_of_lt houtside, Underflows]
    constructor
    · rintro ⟨⟩
    · rintro ⟨hinside, -⟩
      omega
  · rw [cycleKind_of_le hsound hinside, refusal_kind_eq_underflow_iff,
      Instr.ofWord_eq_ret_iff, Underflows]
    exact ⟨fun hempty => ⟨hinside, hempty⟩, fun hempty => hempty.2⟩

/-- A cause has one of the three kinds. -/
theorem cycleRefusal_eq_none_iff_kind :
    machine.cycleRefusal = none ↔ machine.cycleKind ≠ some .memory ∧
      machine.cycleKind ≠ some .stackOverflow ∧
      machine.cycleKind ≠ some .stackUnderflow := by
  rw [cycleKind]
  rcases machine.cycleRefusal with _ | _ | _ | _ <;> simp [Cause.kind]

end Machine

namespace Vm

variable {setup : Setup} {vm : Vm}

/-- A running interpreter that awaits no key raises the cause that its machine shows,
at the program counter. -/
theorem error_step (hsound : vm.Sound) (hrunning : vm.fault = none)
    (hwait : vm.wait = none) :
    (vm.step setup).error = vm.machine.cycleRefusal.map fun cause =>
      .fault { cause, address := some vm.machine.pc } := by
  cases vm.step_cases setup hsound.machine.calls.within with
  | halted fault hfault hstep => simp [hfault] at hrunning
  | waiting x _ hwaiting hstep => simp [hwaiting] at hwait
  | refused cause _ _ hrefusal hstep =>
      rw [hrefusal, hstep]
      rfl
  | served _ _ hserved hstep herror =>
      rw [hserved, herror]
      rfl

theorem step_raises_iff (hsound : vm.Sound) (hrunning : vm.fault = none)
    (hwait : vm.wait = none) (kind : ErrorKind) :
    (vm.step setup).Raises kind ↔ vm.machine.cycleKind = some kind := by
  rw [Outcome.Raises, error_step hsound hrunning hwait, Machine.cycleKind]
  cases vm.machine.cycleRefusal <;> simp

/-- Which fault a step of a running interpreter raises is read off the state before
it, and a step raises nothing but faults that carry the program counter. -/
theorem step_raises_exactly (hreachable : Reachable setup vm) (hrunning : vm.fault = none) :
    (vm.wait.isSome → (vm.step setup).error = none) ∧
      (vm.wait = none →
        ((vm.step setup).Raises .memory ↔ vm.machine.LeavesMemory) ∧
          ((vm.step setup).Raises .stackOverflow ↔ vm.machine.Overflows) ∧
          ((vm.step setup).Raises .stackUnderflow ↔ vm.machine.Underflows) ∧
          ((vm.step setup).error = none ↔ ¬ vm.machine.LeavesMemory ∧
            ¬ vm.machine.Overflows ∧ ¬ vm.machine.Underflows)) ∧
      ∀ error, (vm.step setup).error = some error →
        ∃ cause, error = .fault { cause, address := some vm.machine.pc } := by
  have hsound := hreachable.sound
  refine ⟨?_, ?_, ?_⟩
  · intro hwaiting
    obtain ⟨x, hx⟩ := Option.isSome_iff_exists.mp hwaiting
    rw [step_of_wait setup hrunning hx]
    rfl
  · intro hwait
    rw [error_step hsound hrunning hwait, Option.map_eq_none_iff,
      Machine.cycleRefusal_eq_none_iff_kind]
    simp only [step_raises_iff hsound hrunning hwait, ne_eq,
      Machine.cycleKind_eq_memory_iff hsound.machine,
      Machine.cycleKind_eq_overflow_iff hsound.machine,
      Machine.cycleKind_eq_underflow_iff hsound.machine, and_self]
  · intro error herror
    cases vm.step_cases setup hsound.machine.calls.within with
    | halted fault hfault hstep => simp [hfault] at hrunning
    | waiting x _ hwaiting hstep =>
        rw [hstep] at herror
        cases herror
    | refused cause _ _ hrefusal hstep =>
        rw [hstep] at herror
        exact ⟨cause, (Option.some.inj herror).symm⟩
    | served _ _ hserved hstep hnone =>
        rw [hnone] at herror
        cases herror

/-- A sprite of two rows at the last address. -/
theorem step_raises_exactly_sprite :
    let setup : Setup := { random := fun _ => 0 }
    let vm := Vm.fresh.run setup [.load [0xAF, 0xFF, 0xD0, 0x02], .step]
    Reachable setup vm ∧ vm.fault = none ∧ vm.wait = none ∧ vm.machine.LeavesMemory ∧
      (vm.step setup).Raises .memory := by
  intro setup vm
  have hreachable : Reachable setup vm := ⟨_, by decide, rfl⟩
  obtain ⟨hrunning, hwait, hleaves⟩ :
      vm.fault = none ∧ vm.wait = none ∧ vm.machine.LeavesMemory := by
    decide +kernel
  obtain ⟨-, hraises, -⟩ := step_raises_exactly hreachable hrunning
  exact ⟨hreachable, hrunning, hwait, hleaves, (hraises hwait).1.mpr hleaves⟩

/-- A step that raises a fault reports nothing and changes nothing but the latch, and
nothing at all when the fault was latched before. -/
theorem step_fault_atomic (hreachable : Reachable setup vm) {fault : Fault}
    (hraised : (vm.step setup).error = some (.fault fault)) :
    (vm.step setup).reports = [] ∧
      (vm.fault = none → fault.address = some vm.machine.pc ∧
        (vm.step setup).vm = { vm with fault := some fault }) ∧
      (vm.fault.isSome → vm.fault = some fault ∧ (vm.step setup).vm = vm) := by
  cases vm.step_cases setup hreachable.sound.machine.calls.within with
  | halted latched hfault hstep =>
      rw [hstep] at hraised ⊢
      obtain rfl : latched = fault := by simpa [Outcome.refused] using hraised
      exact ⟨rfl, by simp [hfault], fun _ => ⟨hfault, rfl⟩⟩
  | waiting x _ hwaiting hstep =>
      rw [hstep] at hraised
      cases hraised
  | refused cause hrunning _ hrefusal hstep =>
      rw [hstep] at hraised ⊢
      obtain rfl : { cause, address := some vm.machine.pc } = fault := by
        simpa [Outcome.refused] using hraised
      exact ⟨rfl, fun _ => ⟨rfl, rfl⟩, by simp [hrunning]⟩
  | served _ _ hserved hstep hnone =>
      rw [hnone] at hraised
      cases hraised

/-- A return to an empty stack as the first instruction. -/
theorem step_fault_atomic_return :
    let setup : Setup := { random := fun _ => 0, legacyStore := true }
    let vm := Vm.fresh.run setup [.load [0x00, 0xEE]]
    let fault : Fault := { cause := .stackUnderflow, address := some 512 }
    Reachable setup vm ∧ (vm.step setup).error = some (.fault fault) ∧
      (vm.step setup).reports = [] ∧ (vm.step setup).vm = { vm with fault := some fault } := by
  intro setup vm fault
  have hreachable : Reachable setup vm := ⟨_, by decide, rfl⟩
  obtain ⟨hrunning, hraised⟩ :
      vm.fault = none ∧ (vm.step setup).error = some (.fault fault) := by
    decide +kernel
  obtain ⟨hreports, hlatches, -⟩ := step_fault_atomic hreachable hraised
  exact ⟨hreachable, hraised, hreports, (hlatches hrunning).2⟩

end Vm

end Chip8
