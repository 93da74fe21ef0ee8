/-
What a program cannot tell.  The sound timer, the slots of the call stack that hold no open
call, and the cells that no step reads never come back into a run: two states that differ
there only give the same results, refusals and reports whatever a host does with both of
them, and still differ there only.
-/
import Chip8.Proofs.Reports
import Mathlib.Data.Set.Insert

namespace Chip8

/-- Parts of a state that are kept from a program: some cells, the sound timer, and the
slots that hold no open call. -/
structure Secret where
  cells : Set (Fin 4096) := ∅
  sound : Prop := False
  deadSlots : Prop := False

/-- The sound timer, and the slots that hold no open call. -/
def Secret.unused : Secret where
  sound := True
  deadSlots := True

/-- The slot holds the return address of an open call. -/
def CallStack.Live (stack : CallStack) (slot : Fin 16) : Prop :=
  1 ≤ slot.val ∧ slot.val ≤ stack.depth

instance (stack : CallStack) (slot : Fin 16) : Decidable (stack.Live slot) :=
  inferInstanceAs (Decidable (_ ∧ _))

/-- The number of bytes that an instruction loads from the index register on: the rows of
a sprite, and the values of registers. -/
def Instr.loads : Instr → Nat
  | .draw _ _ rows => rows.val
  | .fill x => x.val + 1
  | _ => 0

/-- The cell is among those that an instruction loads. -/
def Machine.Loads (machine : Machine) (instr : Instr) (place : Fin 4096) : Prop :=
  machine.index ≤ place.val ∧ place.val < machine.index + instr.loads

instance (machine : Machine) (instr : Instr) (place : Fin 4096) :
    Decidable (machine.Loads instr place) :=
  inferInstanceAs (Decidable (_ ∧ _))

/-- What an event gives back: a program that is loaded its length, and every other event
nothing. -/
def Event.result (outcome : Outcome) : Event → Option Nat
  | .load rom => if outcome.error = none then some rom.length else none
  | _ => none

namespace Vm

/-- The state with other contents in the parts that can be secret. -/
def patched (vm : Vm) (memory : Memory) (sound : UInt8) (slots : Vector Int 16) : Vm :=
  { vm with
    machine.memory := memory
    machine.registers.sound := sound
    machine.calls.slots := slots }

/-- The states that are equal to a state but for the secret parts. -/
inductive EqualBut (secret : Secret) (vm : Vm) : Vm → Prop
  | patched (memory : Memory) (sound : UInt8) (slots : Vector Int 16)
      (hmemory : ∀ place ∉ secret.cells, memory.get place = vm.machine.memory.get place)
      (hsound : secret.sound ∨ sound = vm.machine.registers.sound)
      (hslots : ∀ slot, secret.deadSlots ∧ ¬ vm.machine.calls.Live slot ∨
        slots.get slot = vm.machine.calls.slots.get slot) :
      EqualBut secret vm (vm.patched memory sound slots)

/-- A step that executes the next word reads the cell: one of the two that it fetches, or
one of those that the word loads. -/
def Reads (vm : Vm) (place : Fin 4096) : Prop :=
  let machine := vm.machine
  let instr := Instr.ofWord machine.fetched
  vm.fault = none ∧ vm.wait = none ∧ Memory.InRange machine.pc 2 ∧
    (machine.pc ≤ place.val ∧ place.val < machine.pc + 2 ∨
      Memory.InRange machine.index instr.loads ∧ machine.Loads instr place)

instance (vm : Vm) (place : Fin 4096) : Decidable (vm.Reads place) :=
  inferInstanceAs (Decidable (_ ∧ _ ∧ _ ∧ (_ ∨ _)))

/-- No step of a history reads one of the cells. -/
def Unread (setup : Setup) (cells : Set (Fin 4096)) (vm : Vm) : List Event → Prop
  | [] => True
  | event :: rest =>
      (event = .step → ∀ place ∈ cells, ¬ vm.Reads place) ∧
        (vm.handle setup event).vm.Unread setup cells rest

end Vm

/-- Outcomes that are equal but for the secret parts of the state. -/
structure Outcome.EqualBut (secret : Secret) (first second : Outcome) : Prop where
  error : second.error = first.error
  reports : second.reports = first.reports
  vm : first.vm.EqualBut secret second.vm

namespace Memory

variable {first second : Memory} {start length : Nat}

theorem getElem?_congr {address : Nat}
    (hagree : ∀ place : Fin 4096, place.val = address → second.get place = first.get place) :
    second[address]? = first[address]? := by
  by_cases hinside : address < 4096
  · rw [Vector.getElem?_eq_getElem hinside, Vector.getElem?_eq_getElem hinside]
    exact congrArg some (hagree ⟨address, hinside⟩ rfl)
  · have hbehind := Nat.le_of_not_lt hinside
    rw [Vector.getElem?_eq_none hbehind, Vector.getElem?_eq_none hbehind]

theorem block_congr
    (hagree : ∀ place : Fin 4096, start ≤ place.val → place.val < start + length →
      second.get place = first.get place) :
    second.block start length = first.block start length := by
  apply List.ext_getElem?
  intro offset
  simp only [block, List.getElem?_take, List.getElem?_drop, Vector.getElem?_toList]
  by_cases hoffset : offset < length
  · rw [if_pos hoffset, if_pos hoffset]
    exact getElem?_congr fun place hplace => hagree place (by omega) (by omega)
  · rw [if_neg hoffset, if_neg hoffset]

/-- Bytes that are put over two memories leave them apart only where they were. -/
theorem get_overwrite_congr (start : Nat) (bytes : List UInt8) {place : Fin 4096}
    (hagree : second.get place = first.get place) :
    Vector.get (overwrite second start bytes) place =
      Vector.get (overwrite first start bytes) place := by
  change (overwrite second start bytes)[place.val] = (overwrite first start bytes)[place.val]
  rw [getElem_overwrite, getElem_overwrite]
  split
  · rfl
  · exact hagree

end Memory

namespace Machine

variable {machine : Machine} {instr : Instr}

theorem Loads.pos {place : Fin 4096} (hloads : machine.Loads instr place) :
    0 < instr.loads := by
  obtain ⟨hfrom, hto⟩ := hloads
  omega

/-- An instruction that is served loads from inside the memory. -/
theorem inRange_of_served (hserved : machine.refusal instr = none)
    (hloads : 0 < instr.loads) : Memory.InRange machine.index instr.loads := by
  cases instr with
  | draw x y rows => exact (Memory.refusal_eq_none_iff _ _).mp hserved
  | fill x => exact (Memory.refusal_eq_none_iff _ _).mp hserved
  | _ => exact absurd hloads (Nat.lt_irrefl 0)

end Machine

namespace Vm

variable {setup : Setup} {secret : Secret} {first second : Vm} {instr : Instr}

theorem within_effect (hwithin : first.machine.calls.Within)
    (hserved : first.machine.refusal instr = none) :
    (first.effect setup instr).machine.calls.Within := by
  obtain ⟨hlow, hhigh⟩ := hwithin
  cases instr with
  | call address =>
      have hroom : ¬ 15 ≤ first.machine.calls.depth := by
        simpa [Machine.refusal] using hserved
      simp only [effect, CallStack.pushed, CallStack.Within]
      omega
  | ret =>
      have hopen : ¬ first.machine.calls.depth = 0 := by
        simpa [Machine.refusal] using hserved
      simp only [effect, CallStack.popped, CallStack.Within]
      omega
  | _ => exact ⟨hlow, hhigh⟩

theorem EqualBut.get_memory (hequal : first.EqualBut secret second) :
    ∀ place ∉ secret.cells,
      second.machine.memory.get place = first.machine.memory.get place := by
  obtain ⟨memory, sound, slots, hmemory, hsound, hslots⟩ := hequal
  exact hmemory

/-- What decides where the next step goes and which cells it reads is no secret. -/
theorem EqualBut.control (hequal : first.EqualBut secret second) :
    second.fault = first.fault ∧ second.wait = first.wait ∧
      second.machine.pc = first.machine.pc ∧ second.machine.index = first.machine.index ∧
      second.machine.calls.depth = first.machine.calls.depth := by
  obtain ⟨memory, sound, slots, hmemory, hsound, hslots⟩ := hequal
  exact ⟨rfl, rfl, rfl, rfl, rfl⟩

/-- The newest open call is in a live slot. -/
theorem EqualBut.entry (hequal : first.EqualBut secret second)
    (hwithin : first.machine.calls.Within) (hopen : ¬ first.machine.calls.depth = 0) :
    second.machine.calls.entry second.machine.calls.depth.toNat =
      first.machine.calls.entry first.machine.calls.depth.toNat := by
  obtain ⟨memory, sound, slots, hmemory, hsound, hslots⟩ := hequal
  obtain ⟨hlow, hhigh⟩ := hwithin
  have hinside : first.machine.calls.depth.toNat < 16 := by omega
  have hlive : first.machine.calls.Live ⟨first.machine.calls.depth.toNat, hinside⟩ := by
    simp only [CallStack.Live]
    omega
  have hsame := (hslots ⟨_, hinside⟩).resolve_left fun hdead => hdead.2 hlive
  change slots[first.machine.calls.depth.toNat]?.getD 0 =
    first.machine.calls.slots[first.machine.calls.depth.toNat]?.getD 0
  rw [Vector.getElem?_eq_getElem hinside, Vector.getElem?_eq_getElem hinside]
  exact hsame

/-- What a served instruction loads is the same when no secret cell is in it. -/
theorem EqualBut.block (hequal : first.EqualBut secret second)
    (hserved : first.machine.refusal instr = none)
    (hunread : ∀ place ∈ secret.cells, ¬ first.machine.Loads instr place) :
    second.machine.memory.block second.machine.index.toNat instr.loads =
      first.machine.memory.block first.machine.index.toNat instr.loads := by
  obtain ⟨-, -, -, hindex, -⟩ := hequal.control
  rw [hindex]
  refine Memory.block_congr fun place hfrom hto => hequal.get_memory place fun hsecret => ?_
  obtain ⟨hstart, -⟩ := Machine.inRange_of_served hserved (by omega)
  exact hunread place hsecret ⟨by omega, by omega⟩

/-- A served instruction that loads no secret cell does the same to both states. -/
theorem EqualBut.effect (hequal : first.EqualBut secret second)
    (hwithin : first.machine.calls.Within)
    (hserved : first.machine.refusal instr = none)
    (hunread : ∀ place ∈ secret.cells, ¬ first.machine.Loads instr place) :
    (first.effect setup instr).EqualBut secret (second.effect setup instr) := by
  have hblock := hequal.block hserved hunread
  have hentry := hequal.entry hwithin
  obtain ⟨memory, sound, slots, hmemory, hsound, hslots⟩ := hequal
  cases instr with
  | ret =>
      have hopen : ¬ first.machine.calls.depth = 0 := by
        simpa [Machine.refusal] using hserved
      have hreturned : (first.patched memory sound slots).effect setup .ret =
          (first.effect setup .ret).patched memory sound slots := by
        simp only [Vm.effect, hentry hopen]
        rfl
      rw [hreturned]
      refine .patched memory sound slots hmemory hsound fun slot => ?_
      refine (hslots slot).imp_left fun hclosed => ⟨hclosed.1, fun hlive => hclosed.2 ?_⟩
      simp only [Vm.effect, CallStack.popped, CallStack.Live] at hlive ⊢
      omega
  | call address =>
      let calls : CallStack := { first.machine.calls with slots }
      refine .patched memory sound (calls.pushed first.machine.pc).slots hmemory hsound
        fun slot => ?_
      -- The call brings one dead slot to life, and fills it in both states.
      simp only [Vm.effect, CallStack.get_pushed]
      by_cases hfilled : first.machine.calls.depth.toNat + 1 = slot.val
      · exact Or.inr (by rw [if_pos hfilled, if_pos hfilled])
      · rw [if_neg hfilled, if_neg hfilled]
        refine (hslots slot).imp_left fun hclosed => ⟨hclosed.1, fun hlive => hclosed.2 ?_⟩
        have hlow := hwithin.1
        simp only [CallStack.pushed, CallStack.Live] at hlive ⊢
        omega
  | draw x y rows =>
      have hdrawn : (first.patched memory sound slots).effect setup (.draw x y rows) =
          (first.effect setup (.draw x y rows)).patched memory sound slots := by
        simp only [Instr.loads] at hblock
        simp only [Vm.effect, Machine.drawn, withMachine, hblock]
        rfl
      rw [hdrawn]
      exact .patched memory sound slots hmemory hsound hslots
  | setSound x => exact .patched memory _ slots hmemory (Or.inr rfl) hslots
  | decimal x | store x =>
      -- What is written comes from the registers, so both memories get the same bytes.
      exact .patched _ sound slots
        (fun place hother => Memory.get_overwrite_congr _ _ (hmemory place hother)) hsound hslots
  | fill x =>
      have hfilled : (first.patched memory sound slots).effect setup (.fill x) =
          (first.effect setup (.fill x)).patched memory sound slots := by
        simp only [Instr.loads] at hblock
        simp only [Vm.effect, hblock]
        rfl
      rw [hfilled]
      exact .patched memory sound slots hmemory hsound hslots
  | _ => exact .patched memory sound slots hmemory hsound hslots

theorem EqualBut.past (hequal : first.EqualBut secret second) :
    first.past.EqualBut secret second.past := by
  obtain ⟨memory, sound, slots, hmemory, hsound, hslots⟩ := hequal
  exact .patched memory sound slots hmemory hsound hslots

theorem EqualBut.poll (hequal : first.EqualBut secret second) (x : Register) :
    (first.poll x).EqualBut secret (second.poll x) := by
  obtain ⟨memory, sound, slots, hmemory, hsound, hslots⟩ := hequal
  have hkeypad : (first.patched memory sound slots).keypad = first.keypad := rfl
  simp only [Vm.poll, hkeypad]
  cases first.keypad.firstPressed with
  | none => exact .patched memory sound slots hmemory hsound hslots
  | some pad => exact .patched memory sound slots hmemory hsound hslots

theorem EqualBut.stopped (hequal : first.EqualBut secret second) (cause : Cause) :
    (first.stopped cause).EqualBut secret (second.stopped cause) := by
  obtain ⟨memory, sound, slots, hmemory, hsound, hslots⟩ := hequal
  exact .patched memory sound slots hmemory hsound hslots

/-- The next word is the same when no secret cell is read. -/
theorem EqualBut.fetched (hequal : first.EqualBut secret second)
    (hrunning : first.fault = none) (hidle : first.wait = none)
    (hfetch : Memory.refusal first.machine.pc 2 = none)
    (hunread : ∀ place ∈ secret.cells, ¬ first.Reads place) :
    second.machine.fetched = first.machine.fetched := by
  obtain ⟨-, -, hpc, -⟩ := hequal.control
  have hrange := (Memory.refusal_eq_none_iff _ _).mp hfetch
  have hstart := hrange.1
  have hbyte (address : Nat) (hfrom : first.machine.pc.toNat ≤ address)
      (hto : address < first.machine.pc.toNat + 2) :
      second.machine.memory[address]? = first.machine.memory[address]? := by
    refine Memory.getElem?_congr fun place hplace => hequal.get_memory place fun hsecret => ?_
    exact hunread place hsecret ⟨hrunning, hidle, hrange, Or.inl ⟨by omega, by omega⟩⟩
  simp only [Machine.fetched, Memory.peek, hpc]
  rw [hbyte _ (by omega) (by omega), hbyte _ (by omega) (by omega)]

theorem EqualBut.refusal (hequal : first.EqualBut secret second) (instr : Instr) :
    second.machine.refusal instr = first.machine.refusal instr := by
  obtain ⟨memory, sound, slots, hmemory, hsound, hslots⟩ := hequal
  cases instr <;> rfl

theorem EqualBut.cycleRefusal (hequal : first.EqualBut secret second)
    (hrunning : first.fault = none) (hidle : first.wait = none)
    (hunread : ∀ place ∈ secret.cells, ¬ first.Reads place) :
    second.machine.cycleRefusal = first.machine.cycleRefusal := by
  obtain ⟨-, -, hpc, -⟩ := hequal.control
  rw [Machine.cycleRefusal, Machine.cycleRefusal, hpc]
  cases hfetch : Memory.refusal first.machine.pc 2 with
  | some cause => rfl
  | none =>
      simp only [hequal.fetched hrunning hidle hfetch hunread, hequal.refusal]

/-- What is reported depends on the program counter and the word alone. -/
theorem EqualBut.reports_exec (hequal : first.EqualBut secret second) (instr : Instr) :
    (second.exec setup instr).reports = (first.exec setup instr).reports := by
  by_cases hknown : ∀ word, instr ≠ .unknown word
  · rw [Vm.reports_exec hknown, Vm.reports_exec hknown]
  · obtain ⟨word, hword⟩ := not_forall.mp hknown
    obtain rfl := not_not.mp hword
    obtain ⟨memory, sound, slots, hmemory, hsound, hslots⟩ := hequal
    rfl

/-- A step that reads no secret cell does the same to both states. -/
theorem EqualBut.step (hequal : first.EqualBut secret second)
    (hwithin : first.machine.calls.Within)
    (hunread : ∀ place ∈ secret.cells, ¬ first.Reads place) :
    (first.step setup).EqualBut secret (second.step setup) := by
  obtain ⟨hfault, hwait, hpc, -, hdepth⟩ := hequal.control
  have hsecond : second.machine.calls.Within := by
    rw [CallStack.Within, hdepth]
    exact hwithin
  cases first.step_cases setup hwithin with
  | halted fault hstopped hstep =>
      rw [hstep, step_of_fault setup (hfault.trans hstopped)]
      exact ⟨rfl, rfl, hequal⟩
  | waiting x hrunning hwaits hstep =>
      rw [hstep, step_of_wait setup (hfault.trans hrunning) (hwait.trans hwaits)]
      exact ⟨rfl, rfl, hequal.poll x⟩
  | refused cause hrunning hidle hrefusal hstep =>
      have hagain : second.machine.cycleRefusal = some cause :=
        (hequal.cycleRefusal hrunning hidle hunread).trans hrefusal
      rw [hstep, step_of_idle setup (hfault.trans hrunning) (hwait.trans hidle),
        cycle_of_refusal hagain, hpc]
      exact ⟨rfl, rfl, hequal.stopped cause⟩
  | served hrunning hidle hserved hstep herror =>
      obtain ⟨hfetch, hexec⟩ := first.machine.cycleRefusal_eq_none_iff.mp hserved
      have hagain : second.machine.cycleRefusal = none :=
        (hequal.cycleRefusal hrunning hidle hunread).trans hserved
      obtain ⟨hcycle, hnone⟩ := cycle_of_served setup hsecond hagain
      have hagainStep := (step_of_idle setup (hfault.trans hrunning) (hwait.trans hidle)).trans
        hcycle
      have hfirst := executes_of_served hwithin hrunning hidle hserved hstep
      have hother := executes_of_served hsecond (hfault.trans hrunning) (hwait.trans hidle)
        hagain hagainStep
      have hfetched := hequal.fetched hrunning hidle hfetch hunread
      have hunloaded : ∀ place ∈ secret.cells,
          ¬ first.past.machine.Loads (.ofWord first.machine.fetched) place := by
        intro place hsecret hloads
        have hrange := (Memory.refusal_eq_none_iff _ _).mp hfetch
        have hinside := Machine.inRange_of_served hexec hloads.pos
        exact hunread place hsecret ⟨hrunning, hidle, hrange, Or.inr ⟨hinside, hloads⟩⟩
      refine ⟨?_, ?_, ?_⟩
      · rw [herror, hagainStep]
        exact hnone
      · rw [hstep, hagainStep, hfetched]
        exact hequal.past.reports_exec _
      · rw [hfirst.effect, hother.effect, hfetched]
        exact hequal.past.effect hwithin ((refusal_past _).trans hexec) hunloaded

theorem EqualBut.handle (setup : Setup) (hequal : first.EqualBut secret second)
    (hwithin : first.machine.calls.Within) {event : Event} (hroutine : event.isRoutine)
    (hunread : event = .step → ∀ place ∈ secret.cells, ¬ first.Reads place) :
    (first.handle setup event).EqualBut secret (second.handle setup event) := by
  cases event with
  | step => exact hequal.step hwithin (hunread rfl)
  | load rom =>
      obtain ⟨memory, sound, slots, hmemory, hsound, hslots⟩ := hequal
      rcases first.handle_load_cases setup rom with ⟨hfits, hload⟩ | ⟨hlarge, hload⟩
      · rw [hload, Vm.handle, Machine.load_of_fits _ hfits]
        refine ⟨rfl, rfl, .patched _ sound slots (fun place hother => ?_) hsound hslots⟩
        exact Memory.get_overwrite_congr _ _ (hmemory place hother)
      · rw [hload, Vm.handle, Machine.load_of_large _ hlarge]
        exact ⟨rfl, rfl, .patched memory sound slots hmemory hsound hslots⟩
  | press _ | release _ | restart =>
      obtain ⟨memory, sound, slots, hmemory, hsound, hslots⟩ := hequal
      exact ⟨rfl, rfl, .patched memory sound slots hmemory hsound hslots⟩
  | tick =>
      obtain ⟨memory, sound, slots, hmemory, hsound, hslots⟩ := hequal
      refine ⟨rfl, rfl, .patched memory _ slots hmemory (hsound.imp_right ?_) hslots⟩
      rintro rfl
      rfl
  | reset =>
      obtain ⟨memory, sound, slots, hmemory, hsound, hslots⟩ := hequal
      rw [Vm.handle_reset, Vm.handle_reset]
      exact ⟨rfl, rfl, .patched _ _ _ (fun _ _ => rfl) (Or.inr rfl) fun _ => Or.inr rfl⟩
  | exec word => cases hroutine
  | assign changes => cases hroutine

theorem within_step (hwithin : first.machine.calls.Within) :
    (first.step setup).vm.machine.calls.Within := by
  cases first.step_cases setup hwithin with
  | halted fault hfault hstep =>
      rw [hstep]
      exact hwithin
  | waiting x hrunning hwait hstep =>
      rw [hstep, Outcome.done, Vm.poll]
      split <;> exact hwithin
  | refused cause hrunning hwait hrefusal hstep =>
      rw [hstep]
      exact hwithin
  | served hrunning hwait hserved hstep herror =>
      obtain ⟨-, hexec⟩ := first.machine.cycleRefusal_eq_none_iff.mp hserved
      have hpast : first.past.machine.calls.Within := hwithin
      rw [(executes_of_served hwithin hrunning hwait hserved hstep).effect]
      exact within_effect hpast ((refusal_past _).trans hexec)

theorem within_handle (hwithin : first.machine.calls.Within) {event : Event}
    (hroutine : event.isRoutine) : (first.handle setup event).vm.machine.calls.Within := by
  cases event with
  | step => exact within_step hwithin
  | load rom =>
      rcases first.handle_load_cases setup rom with ⟨-, hload⟩ | ⟨-, hload⟩ <;> rw [hload] <;>
        exact hwithin
  | reset =>
      rw [Vm.handle_reset]
      exact Machine.sound_fresh.calls.within
  | press _ | release _ | restart | tick => exact hwithin
  | exec word => cases hroutine
  | assign changes => cases hroutine

/-- A host that does the same with both states sees the same, event by event. -/
theorem EqualBut.outcomes (hequal : first.EqualBut secret second)
    (hwithin : first.machine.calls.Within) {history : List Event}
    (hroutine : ∀ event ∈ history, event.isRoutine)
    (hunread : first.Unread setup secret.cells history) :
    List.Forall₂ (Outcome.EqualBut secret) (first.outcomes setup history)
      (second.outcomes setup history) := by
  induction history generalizing first second with
  | nil => exact .nil
  | cons event rest ih =>
      obtain ⟨hevent, hrest⟩ := List.forall_mem_cons.mp hroutine
      obtain ⟨hnow, hlater⟩ := hunread
      have houtcome := hequal.handle setup hwithin hevent hnow
      exact .cons houtcome (ih houtcome.vm (within_handle hwithin hevent) hrest hlater)

theorem unread_empty (history : List Event) : first.Unread setup ∅ history := by
  induction history generalizing first with
  | nil => trivial
  | cons event rest ih => exact ⟨fun _ _ hnone => absurd hnone (Set.notMem_empty _), ih⟩

theorem results_eq {left right : List Outcome}
    (hequal : List.Forall₂ (Outcome.EqualBut secret) left right) (history : List Event) :
    List.zipWith Event.result right history = List.zipWith Event.result left history := by
  induction hequal generalizing history with
  | nil => rfl
  | cons houtcome _ ih =>
      cases history with
      | nil => rfl
      | cons event rest =>
          simp only [List.zipWith_cons_cons, ih rest]
          cases event <;> simp only [Event.result, houtcome.error]

/-- The sound timer and the slots that hold no open call, slot zero among them, never come
back into a run.  States that differ only there give the same results, refusals and reports
for one history, and differ only there behind each of its events. -/
theorem sound_and_dead_slots_irrelevant (setup : Setup)
    (hwithin : first.machine.calls.Within) (hequal : first.EqualBut Secret.unused second)
    {history : List Event} (hroutine : ∀ event ∈ history, event.isRoutine) :
    let left := first.outcomes setup history
    let right := second.outcomes setup history
    List.Forall₂ (Outcome.EqualBut Secret.unused) left right ∧
      List.zipWith Event.result right history = List.zipWith Event.result left history := by
  intro left right
  have houtcomes : List.Forall₂ (Outcome.EqualBut Secret.unused) left right :=
    hequal.outcomes hwithin hroutine (unread_empty history)
  exact ⟨houtcomes, results_eq houtcomes history⟩

/-- A call that fills a dead slot and returns, a sound that is set, a fault below an empty
stack, and a program that is too long, from a machine whose slots were never used and
from one where all of them are. -/
theorem sound_and_dead_slots_irrelevant_call :
    let setup : Setup := { random := fun _ => 0 }
    let first := Vm.fresh.run setup [.load [0x22, 0x06, 0x00, 0xEE, 0x00, 0x00, 0xF0, 0x18,
      0x00, 0xEE]]
    let second := first.patched first.machine.memory 0xC8 (Vector.replicate 16 (-5))
    let history : List Event := [.step, .tick, .step, .step, .step, .step,
      .load (List.replicate 3585 0), .restart, .reset]
    let left := first.outcomes setup history
    let right := second.outcomes setup history
    first.machine.calls.Within ∧ first.EqualBut Secret.unused second ∧
      (∀ event ∈ history, event.isRoutine) ∧
      List.Forall₂ (Outcome.EqualBut Secret.unused) left right ∧
      List.zipWith Event.result right history = List.zipWith Event.result left history := by
  intro setup first second history left right
  have hwithin : first.machine.calls.Within := (sound_run (by decide)).machine.calls.within
  have hdead : ∀ slot, ¬ first.machine.calls.Live slot := by decide +kernel
  have hequal : first.EqualBut Secret.unused second :=
    .patched _ _ _ (fun _ _ => rfl) (Or.inl trivial) fun slot => Or.inl ⟨trivial, hdead slot⟩
  have hroutine : ∀ event ∈ history, event.isRoutine := by decide
  exact ⟨hwithin, hequal, hroutine,
    sound_and_dead_slots_irrelevant setup hwithin hequal hroutine⟩

/-- Cells that no step reads do not matter, whatever is stored in them on the way.  States
that differ only there give the same results, refusals and reports for one history, and
differ only there behind each of its events. -/
theorem unread_memory_irrelevant (setup : Setup) {cells : Set (Fin 4096)}
    (hwithin : first.machine.calls.Within) (hequal : first.EqualBut { cells } second)
    {history : List Event} (hroutine : ∀ event ∈ history, event.isRoutine)
    (hunread : first.Unread setup cells history) :
    let left := first.outcomes setup history
    let right := second.outcomes setup history
    List.Forall₂ (Outcome.EqualBut { cells }) left right ∧
      List.zipWith Event.result right history = List.zipWith Event.result left history := by
  intro left right
  have houtcomes : List.Forall₂ (Outcome.EqualBut { cells }) left right :=
    hequal.outcomes hwithin hroutine hunread
  exact ⟨houtcomes, results_eq houtcomes history⟩

/-- A program that stores over the cell, fills registers and draws from the two cells before
it, passes over an unassigned word and returns from no call. -/
theorem unread_memory_irrelevant_store :
    let setup : Setup := { random := fun _ => 0 }
    let cells : Set (Fin 4096) := {0x302}
    let first := Vm.fresh.run setup [.load [0xA3, 0x00, 0xF3, 0x55, 0xF1, 0x65, 0xD0, 0x12,
      0x80, 0x0F, 0x00, 0xEE]]
    let second := first.patched (first.machine.memory.set 0x302 0xC8)
      first.machine.registers.sound first.machine.calls.slots
    let history : List Event := [.step, .press 3, .step, .tick, .step, .step, .step, .step]
    let left := first.outcomes setup history
    let right := second.outcomes setup history
    first.machine.calls.Within ∧ first.EqualBut { cells } second ∧
      (∀ event ∈ history, event.isRoutine) ∧ first.Unread setup cells history ∧
      List.Forall₂ (Outcome.EqualBut { cells }) left right ∧
      List.zipWith Event.result right history = List.zipWith Event.result left history := by
  intro setup cells first second history left right
  have hwithin : first.machine.calls.Within := (sound_run (by decide)).machine.calls.within
  have hequal : first.EqualBut { cells } second := by
    refine .patched _ _ _ (fun place hother => ?_) (Or.inr rfl) fun _ => Or.inr rfl
    have hapart : 0x302 ≠ place.val := fun hsame => hother (Fin.ext hsame.symm)
    exact Vector.getElem_set_ne (by decide) place.isLt hapart
  have hroutine : ∀ event ∈ history, event.isRoutine := by decide
  have hunread : first.Unread setup cells history := by
    simp only [history, cells, Unread, Set.mem_singleton_iff, forall_eq]
    decide +kernel
  exact ⟨hwithin, hequal, hroutine, hunread,
    unread_memory_irrelevant setup hwithin hequal hroutine hunread⟩

end Vm

end Chip8
