/-
The open calls.  Beside a run goes a list of return addresses that only the executed
words change: a call adds the address behind itself, a return takes the newest address
off.  In every reachable state the live slots of the call stack are this list, so that
returns come in the reverse order of their calls, whatever was executed in between.
-/
import Chip8.Proofs.Effects
import Chip8.Proofs.Reachable
import Mathlib.Data.List.Infix

namespace Chip8

/-- The open calls, oldest first, behind a word that was executed at an address. -/
def Word.trackCalls (word : Word) (address : Int) (calls : List Int) : List Int :=
  if word.family = 0x2 then calls ++ [address + 2]
  else if word = 0x00EE then calls.dropLast
  else calls

namespace Vm

/-- The open calls after an event.  Only executed words and a new machine change them. -/
def trackCalls (setup : Setup) (vm : Vm) (calls : List Int) : Event → List Int
  | .reset => []
  | .step =>
      match vm.executed setup with
      | some word => word.trackCalls vm.machine.pc calls
      | none => calls
  | _ => calls

/-- The open calls at the end of a history. -/
def openCalls (setup : Setup) (vm : Vm) (calls : List Int) : List Event → List Int
  | [] => calls
  | event :: rest =>
      (vm.handle setup event).vm.openCalls setup (vm.trackCalls setup calls event) rest

/-- More than `depth` calls are open all through a history. -/
def StaysAbove (setup : Setup) (vm : Vm) (depth : Int) (history : List Event) : Prop :=
  ∀ before ∈ history.inits, depth < (vm.run setup before).machine.calls.depth

instance (setup : Setup) (vm : Vm) (depth : Int) (history : List Event) :
    Decidable (vm.StaysAbove setup depth history) :=
  inferInstanceAs (Decidable (∀ before ∈ history.inits, _))

end Vm

namespace CallStack

variable {stack : CallStack}

theorem frames_eq (hwithin : stack.Within) :
    stack.frames = (stack.slots.toList.drop 1).take stack.depth.toNat := by
  obtain ⟨slots, depth⟩ := stack
  obtain ⟨hlow, hhigh⟩ := hwithin
  obtain ⟨count, rfl⟩ := Int.eq_ofNat_of_zero_le hlow
  exact frames_of_le slots (Int.ofNat_le.mp hhigh)

theorem length_frames (hwithin : stack.Within) : (stack.frames.length : Int) = stack.depth := by
  obtain ⟨hlow, hhigh⟩ := hwithin
  rw [frames_eq ⟨hlow, hhigh⟩, List.length_take, List.length_drop, Vector.length_toList]
  omega

theorem frames_pushed (hwithin : stack.Within) (hroom : ¬ 15 ≤ stack.depth) (address : Int) :
    (stack.pushed address).frames = stack.frames ++ [address] := by
  obtain ⟨hlow, hhigh⟩ := hwithin
  have hpushed : (stack.pushed address).Within := by
    simp only [Within, pushed]
    omega
  have hdepth : (stack.depth + 1).toNat = stack.depth.toNat + 1 := by omega
  have hbehind : ¬ stack.depth.toNat + 1 < 1 := by omega
  have hslot : stack.depth.toNat < (stack.slots.toList.drop 1).length := by
    rw [List.length_drop, Vector.length_toList]
    omega
  rw [frames_eq hpushed, frames_eq ⟨hlow, hhigh⟩]
  simp only [pushed, Vector.toList_setIfInBounds, hdepth]
  rw [List.drop_set, if_neg hbehind, Nat.add_sub_cancel, List.take_add_one,
    List.take_set_of_le (Nat.le_refl _), List.getElem?_set_self hslot]
  rfl

theorem frames_popped (hwithin : stack.Within) (hopen : ¬ stack.depth = 0) :
    stack.popped.frames = stack.frames.dropLast := by
  obtain ⟨hlow, hhigh⟩ := hwithin
  have hpopped : stack.popped.Within := by
    simp only [Within, popped]
    omega
  have hlength := length_frames ⟨hlow, hhigh⟩
  have hkept : (stack.depth - 1).toNat = min (stack.frames.length - 1) stack.depth.toNat := by
    omega
  rw [List.dropLast_eq_take, frames_eq hpopped]
  simp only [popped, hkept]
  rw [← List.take_take, ← frames_eq ⟨hlow, hhigh⟩]

theorem getLast?_frames (hwithin : stack.Within) (hopen : ¬ stack.depth = 0) :
    stack.frames.getLast? = some (stack.entry stack.depth.toNat) := by
  obtain ⟨hlow, hhigh⟩ := hwithin
  have hsome : ¬ stack.depth.toNat = 0 := by omega
  have hslot : 1 + (stack.depth.toNat - 1) = stack.depth.toNat := by omega
  have hinside : stack.depth.toNat < 16 := by omega
  rw [frames_eq ⟨hlow, hhigh⟩, List.getLast?_take, if_neg hsome, List.getElem?_drop, hslot,
    Vector.getElem?_toList]
  simp [entry, hinside]

end CallStack

namespace Vm

variable {setup : Setup} {vm : Vm} {word : Word}

theorem calls_effect {instr : Instr} (hcall : ∀ address, instr ≠ .call address)
    (hret : instr ≠ .ret) :
    (vm.effect setup instr).machine.calls = vm.machine.calls := by
  cases instr with
  | call address => exact absurd rfl (hcall address)
  | ret => exact absurd rfl hret
  | _ => rfl

theorem frames_effect (hwithin : vm.machine.calls.Within)
    (hserved : vm.machine.refusal (.ofWord word) = none) :
    (vm.past.effect setup (.ofWord word)).machine.calls.frames =
      word.trackCalls vm.machine.pc vm.machine.calls.frames := by
  rw [Word.trackCalls]
  by_cases hcall : word.family = 0x2
  · have hinstr : .ofWord word = Instr.call word.nnn :=
      (Instr.ofWord_eq_call_iff word _).mpr ⟨congrArg Fin.val hcall, rfl⟩
    rw [hinstr] at hserved ⊢
    have hroom : ¬ 15 ≤ vm.machine.calls.depth := by
      simpa [Machine.refusal] using hserved
    rw [if_pos hcall]
    exact CallStack.frames_pushed hwithin hroom _
  · rw [if_neg hcall]
    by_cases hret : word = 0x00EE
    · have hinstr : .ofWord word = Instr.ret := (Instr.ofWord_eq_ret_iff word).mpr hret
      rw [hinstr] at hserved ⊢
      have hopen : ¬ vm.machine.calls.depth = 0 := by
        simpa [Machine.refusal] using hserved
      rw [if_pos hret]
      exact CallStack.frames_popped hwithin hopen
    · have hother : ∀ address, Instr.ofWord word ≠ .call address := by
        intro address hinstr
        exact hcall (Fin.ext ((Instr.ofWord_eq_call_iff word _).mp hinstr).1)
      rw [if_neg hret, calls_effect hother (mt (Instr.ofWord_eq_ret_iff word).mp hret)]
      rfl

theorem frames_step (hwithin : vm.machine.calls.Within) :
    (vm.step setup).vm.machine.calls.frames =
      vm.trackCalls setup vm.machine.calls.frames .step := by
  rw [trackCalls]
  cases vm.step_cases setup hwithin with
  | halted fault hfault hstep =>
      have hnothing : vm.executed setup = none := by simp [executed, hfault]
      rw [hstep, hnothing]
      rfl
  | waiting x hrunning hwait hstep =>
      have hnothing : vm.executed setup = none := by simp [executed, hwait]
      rw [hstep, hnothing]
      unfold poll
      split <;> rfl
  | refused cause hrunning hwait hrefusal hstep =>
      have hnothing : vm.executed setup = none := by simp [executed, hstep, Outcome.refused]
      rw [hstep, hnothing]
      rfl
  | served hrunning hwait hserved hstep herror =>
      have hexecutes := executes_of_served hwithin hrunning hwait hserved hstep
      have hword : vm.executed setup = some vm.machine.fetched :=
        if_pos ⟨hrunning, hwait, herror⟩
      obtain ⟨-, hexec⟩ := vm.machine.cycleRefusal_eq_none_iff.mp hserved
      rw [hexecutes.effect, hword]
      exact frames_effect hwithin hexec

theorem frames_handle (hwithin : vm.machine.calls.Within) {event : Event}
    (hroutine : event.isRoutine) :
    (vm.handle setup event).vm.machine.calls.frames =
      vm.trackCalls setup vm.machine.calls.frames event := by
  cases event with
  | load rom =>
      rcases vm.handle_load_cases setup rom with ⟨-, hload⟩ | ⟨-, hload⟩ <;> rw [hload] <;> rfl
  | step => exact frames_step hwithin
  | exec word => cases hroutine
  | assign changes => cases hroutine
  | press _ | release _ | tick | reset | restart => rfl

theorem frames_run (hsound : vm.Sound) {history : List Event}
    (hroutine : ∀ event ∈ history, event.isRoutine) :
    (vm.run setup history).machine.calls.frames =
      vm.openCalls setup vm.machine.calls.frames history := by
  induction history generalizing vm with
  | nil => rfl
  | cons event rest ih =>
      obtain ⟨hevent, hrest⟩ := List.forall_mem_cons.mp hroutine
      rw [openCalls, ← frames_handle hsound.machine.calls.within hevent]
      exact ih (hsound.handle hevent) hrest

/-- Calls that stay open are not touched. -/
theorem isPrefix_trackCalls {event : Event} {kept calls : List Int} (hkept : kept <+: calls)
    (hlength : kept.length ≤ (vm.trackCalls setup calls event).length) :
    kept <+: vm.trackCalls setup calls event := by
  cases event with
  | step =>
      rw [trackCalls] at hlength ⊢
      cases hword : vm.executed setup with
      | none => exact hkept
      | some word =>
          simp only [hword, Word.trackCalls] at hlength ⊢
          by_cases hcall : word.family = 0x2
          · rw [if_pos hcall]
            exact hkept.trans (List.prefix_append calls _)
          · by_cases hret : word = 0x00EE
            · rw [if_neg hcall, if_pos hret] at hlength ⊢
              exact List.prefix_of_prefix_length_le hkept (List.dropLast_prefix calls) hlength
            · rw [if_neg hcall, if_neg hret]
              exact hkept
  | reset =>
      -- A new machine has no open call, so nothing can have been kept.
      have hnone : kept = [] := List.length_eq_zero_iff.mp (Nat.le_zero.mp hlength)
      rw [hnone]
      exact List.nil_prefix
  | _ => exact hkept

theorem StaysAbove.head {depth : Int} {event : Event} {rest : List Event}
    (habove : vm.StaysAbove setup depth (event :: rest)) :
    depth < (vm.handle setup event).vm.machine.calls.depth := by
  apply habove [event]
  simp

theorem StaysAbove.tail {depth : Int} {event : Event} {rest : List Event}
    (habove : vm.StaysAbove setup depth (event :: rest)) :
    (vm.handle setup event).vm.StaysAbove setup depth rest := by
  intro before hbefore
  apply habove (event :: before)
  rw [List.inits_cons]
  exact List.mem_cons_of_mem _ (List.mem_map_of_mem hbefore)

/-- The calls that are open at the start of a history stay where they are as long as
the depth stays above them. -/
theorem isPrefix_frames_run (hsound : vm.Sound) {kept : List Int}
    (hkept : kept <+: vm.machine.calls.frames) {depth : Int} (hdepth : kept.length ≤ depth + 1)
    {between : List Event} (hroutine : ∀ event ∈ between, event.isRoutine)
    (habove : vm.StaysAbove setup depth between) :
    kept <+: (vm.run setup between).machine.calls.frames := by
  induction between generalizing vm with
  | nil => exact hkept
  | cons event rest ih =>
      obtain ⟨hevent, hrest⟩ := List.forall_mem_cons.mp hroutine
      have hnext : (vm.handle setup event).vm.Sound := hsound.handle hevent
      have hframes : (vm.handle setup event).vm.machine.calls.frames =
          vm.trackCalls setup vm.machine.calls.frames event :=
        frames_handle hsound.machine.calls.within hevent
      have hlength := CallStack.length_frames hnext.machine.calls.within
      have hdeeper := habove.head
      apply ih hnext _ hrest habove.tail
      rw [hframes] at hlength ⊢
      exact isPrefix_trackCalls hkept (by omega)

theorem frames_step_call (hwithin : vm.machine.calls.Within)
    (hexecuted : vm.executed setup = some word) (hcall : word.family = 0x2) :
    (vm.step setup).vm.machine.calls.frames =
      vm.machine.calls.frames ++ [vm.machine.pc + 2] := by
  rw [frames_step hwithin]
  simp only [trackCalls, hexecuted, Word.trackCalls, if_pos hcall]

theorem frames_step_ret (hwithin : vm.machine.calls.Within)
    (hexecuted : vm.executed setup = some 0x00EE) :
    (vm.step setup).vm.machine.calls.frames = vm.machine.calls.frames.dropLast := by
  have hcall : ¬ (0x00EE : Word).family = 0x2 := by decide
  rw [frames_step hwithin]
  simp only [trackCalls, hexecuted, Word.trackCalls, if_neg hcall, if_true]

theorem getLast?_frames_of_ret (hwithin : vm.machine.calls.Within)
    (hexecuted : vm.executed setup = some 0x00EE) :
    vm.machine.calls.frames.getLast? = some (vm.step setup).vm.machine.pc := by
  have hexecutes := executes_of_executed hwithin hexecuted
  have hinstr : .ofWord 0x00EE = Instr.ret := by decide
  obtain ⟨-, hexec⟩ := vm.machine.cycleRefusal_eq_none_iff.mp hexecutes.served
  rw [hexecutes.fetched, hinstr] at hexec
  have hopen : ¬ vm.machine.calls.depth = 0 := by
    simpa [Machine.refusal] using hexec
  rw [hexecutes.effect, hinstr]
  exact CallStack.getLast?_frames hwithin hopen

/-- A return that leaves fewer calls open than were kept continues at the last kept
address. -/
theorem pc_of_isPrefix (hsound : vm.Sound) (hret : vm.executed setup = some 0x00EE)
    {calls : List Int} {address : Int} (hkept : calls ++ [address] <+: vm.machine.calls.frames)
    (hback : (vm.step setup).vm.machine.calls.depth = calls.length) :
    (vm.step setup).vm.machine.pc = address := by
  have hwithin := hsound.machine.calls.within
  have hafter : (vm.step setup).vm.Sound := hsound.step
  have hlength := CallStack.length_frames hafter.machine.calls.within
  rw [frames_step_ret hwithin hret, List.length_dropLast, hback] at hlength
  have hatmost := hkept.length_le
  rw [List.length_append, List.length_singleton] at hatmost
  have hall : calls ++ [address] = vm.machine.calls.frames := by
    apply hkept.eq_of_length
    rw [List.length_append, List.length_singleton]
    omega
  have hnewest := getLast?_frames_of_ret hwithin hret
  rw [← hall, List.getLast?_concat] at hnewest
  exact (Option.some.inj hnewest).symm

/-- The first return to the depth of a call continues behind the call. -/
theorem pc_of_return (hsound : vm.Sound) (hexecuted : vm.executed setup = some word)
    (hcall : word.family = 0x2) {between : List Event}
    (hroutine : ∀ event ∈ between, event.isRoutine)
    (habove : (vm.step setup).vm.StaysAbove setup vm.machine.calls.depth between)
    (hret : ((vm.step setup).vm.run setup between).executed setup = some 0x00EE)
    (hback : (((vm.step setup).vm.run setup between).step setup).vm.machine.calls.depth =
      vm.machine.calls.depth) :
    (((vm.step setup).vm.run setup between).step setup).vm.machine.pc =
      vm.machine.pc + 2 := by
  have hwithin := hsound.machine.calls.within
  have hcalled : (vm.step setup).vm.Sound := hsound.step
  have hlength := CallStack.length_frames hwithin
  have hcalls := frames_step_call hwithin hexecuted hcall
  have hkept : vm.machine.calls.frames ++ [vm.machine.pc + 2] <+:
      ((vm.step setup).vm.run setup between).machine.calls.frames := by
    apply isPrefix_frames_run hcalled _ _ hroutine habove
    · rw [hcalls]
    · rw [List.length_append, List.length_singleton]
      omega
  exact pc_of_isPrefix (hcalled.run hroutine) hret hkept (hback.trans hlength.symm)

theorem frames_fresh : Vm.fresh.machine.calls.frames = [] := rfl

/-- In every reachable state the live slots are the open calls, a return goes to the
newest of them, and the return that closes a call continues behind it. -/
theorem calls_lifo (setup : Setup) {history : List Event}
    (hroutine : ∀ event ∈ history, event.isRoutine) :
    let reached := Vm.fresh.run setup history
    let calls := Vm.fresh.openCalls setup [] history
    reached.machine.calls.depth = calls.length ∧ reached.machine.calls.frames = calls ∧
      (reached.executed setup = some 0x00EE →
        calls.getLast? = some (reached.step setup).vm.machine.pc) ∧
      ∀ word between, reached.executed setup = some word → word.family = 0x2 →
        (∀ event ∈ between, event.isRoutine) →
        (reached.step setup).vm.StaysAbove setup reached.machine.calls.depth between →
        let returning := (reached.step setup).vm.run setup between
        returning.executed setup = some 0x00EE →
        (returning.step setup).vm.machine.calls.depth = reached.machine.calls.depth →
        (returning.step setup).vm.machine.pc = reached.machine.pc + 2 := by
  intro reached calls
  have hsound : reached.Sound := sound_run hroutine
  have hwithin := hsound.machine.calls.within
  have hcalls : reached.machine.calls.frames = calls := by
    simp only [reached, calls, frames_run sound_fresh hroutine, frames_fresh]
  refine ⟨?_, hcalls, ?_, ?_⟩
  · rw [← hcalls, CallStack.length_frames hwithin]
  · intro hret
    rw [← hcalls]
    exact getLast?_frames_of_ret hwithin hret
  · intro word between hexecuted hcall hbetween habove returning hret hback
    exact pc_of_return hsound hexecuted hcall hbetween habove hret hback

/-- A nested call and a key wait between a call and its return. -/
theorem calls_lifo_nested :
    let setup : Setup := { random := fun _ => 0 }
    let history : List Event :=
      [.load [0x22, 0x04, 0x00, 0x00, 0x22, 0x08, 0x00, 0xEE, 0xF0, 0x0A, 0x00, 0xEE]]
    let between : List Event := [.step, .step, .step, .press 7, .step, .tick, .step]
    let reached := Vm.fresh.run setup history
    let called := (reached.step setup).vm
    let returning := called.run setup between
    (∀ event ∈ history, event.isRoutine) ∧ (∀ event ∈ between, event.isRoutine) ∧
      reached.executed setup = some 0x2204 ∧
      called.StaysAbove setup reached.machine.calls.depth between ∧
      returning.executed setup = some 0x00EE ∧
      (returning.step setup).vm.machine.calls.depth = reached.machine.calls.depth ∧
      (returning.step setup).vm.machine.pc = reached.machine.pc + 2 := by
  intro setup history between reached called returning
  have hhistory : ∀ event ∈ history, event.isRoutine := by decide
  have hbetween : ∀ event ∈ between, event.isRoutine := by decide
  obtain ⟨hcall, habove, hret, hback⟩ : reached.executed setup = some 0x2204 ∧
      called.StaysAbove setup reached.machine.calls.depth between ∧
      returning.executed setup = some 0x00EE ∧
      (returning.step setup).vm.machine.calls.depth = reached.machine.calls.depth := by
    decide +kernel
  obtain ⟨-, -, -, hreturns⟩ := calls_lifo setup hhistory
  exact ⟨hhistory, hbetween, hcall, habove, hret, hback,
    hreturns 0x2204 between hcall (by decide) hbetween habove hret hback⟩

end Vm

end Chip8
