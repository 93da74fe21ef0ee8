/-
Requests of a host to the parts of a machine.  Whether a request is refused can be told
from the request and the depth of the call stack, and a request that is refused changes
nothing.  One that is served changes the cells that it names and leaves all others alone,
so that no part of a machine ever grows or shrinks.
-/
import Chip8.Proofs.Compositing
import Chip8.Proofs.Frames

namespace Chip8

/-- What a host asks of a machine. -/
inductive Request
  | load (rom : List UInt8)
  | write (address : Int) (bytes : List UInt8)
  | setRegister (number value : Int)
  | push (address : Int)
  | pop
deriving Repr, DecidableEq

namespace Machine

/-- What becomes of a request; the answer is a number if the request gives one. -/
def reply (machine : Machine) : Request → Reply Machine (Option Int)
  | .load rom => (machine.load rom).map fun size => some (size : Int)
  | .write address bytes => (machine.write address bytes).map fun _ => none
  | .setRegister number value => (machine.setRegister number value).map fun _ => none
  | .push address => (machine.push address).map fun _ => none
  | .pop => machine.pop.map some

/-- The requests that are refused, each with its reason. -/
inductive Refuses (machine : Machine) : Request → Error → Prop
  | load {rom : List UInt8} (hlarge : 3584 < rom.length) :
      Refuses machine (.load rom) (.romTooLarge rom.length 3584)
  | write {address : Int} {bytes : List UInt8}
      (houtside : address < 0 ∨ 4096 < address + bytes.length) :
      Refuses machine (.write address bytes) (Cause.memory address bytes.length).error
  | setRegister {number value : Int} (houtside : number < 0 ∨ 17 < number) :
      Refuses machine (.setRegister number value) (.noRegister number)
  | push {address : Int} (hfull : machine.calls.depth = 15) :
      Refuses machine (.push address) Cause.stackOverflow.error
  | pop (hempty : machine.calls.depth = 0) :
      Refuses machine .pop Cause.stackUnderflow.error

/-- What a request that is served changes, and how it is answered. -/
def Serves (before after : Machine) (answer : Option Int) : Request → Prop
  | .load rom =>
      answer = some (rom.length : Int) ∧
        after.memory.toList =
          spliced before.memory.toList 0x200 (0x200 + rom.length) rom ∧
        after = { before with memory := after.memory, pc := 0x200 }
  | .write address bytes =>
      answer = none ∧
        after.memory.toList = spliced before.memory.toList address.toNat
          (address.toNat + bytes.length) bytes ∧
        after = { before with memory := after.memory }
  | .setRegister number value =>
      answer = none ∧
        (∀ k : Fin 18, ((after.registers.all.get k).toNat : Int) =
          if (k.val : Int) = number then value % 256
          else (before.registers.all.get k).toNat) ∧
        after = { before with registers := after.registers }
  | .push address =>
      answer = none ∧
        (∀ slot : Fin 16, after.calls.slots.get slot =
          if (slot.val : Int) = before.calls.depth + 1 then address
          else before.calls.slots.get slot) ∧
        after = { before with
          calls := { slots := after.calls.slots, depth := before.calls.depth + 1 } }
  | .pop =>
      (∃ slot : Fin 16, (slot.val : Int) = before.calls.depth ∧
        answer = some (before.calls.slots.get slot)) ∧
        after = { before with calls.depth := before.calls.depth - 1 }

/-- The two things that can become of a request. -/
inductive ReplyCase (machine : Machine) (request : Request) : Prop
  | refused (error : Error) (hrefuses : machine.Refuses request error)
      (hreply : machine.reply request = ⟨machine, .error error⟩)
  | served (after : Machine) (answer : Option Int)
      (hadmitted : ∀ error, ¬ machine.Refuses request error)
      (hserves : machine.Serves after answer request)
      (hreply : machine.reply request = ⟨after, .ok answer⟩)

end Machine

namespace Machine

variable {machine : Machine}

theorem reply_load (machine : Machine) (rom : List UInt8) :
    ReplyCase machine (.load rom) := by
  by_cases hfits : rom.length ≤ Memory.capacity
  · have hinside : 0x200 + rom.length ≤ 4096 := Nat.add_le_add_left hfits 0x200
    refine .served (machine.loaded rom) (some rom.length) ?_
      ⟨rfl, toList_overwrite machine.memory hinside, rfl⟩
      (by rw [reply, machine.load_of_fits hfits]; rfl)
    intro error hrefuses
    cases hrefuses with
    | load hlarge => exact Nat.not_le_of_lt hlarge hfits
  · have hlarge : Memory.capacity < rom.length := Nat.lt_of_not_le hfits
    exact .refused _ (.load hlarge) (by rw [reply, machine.load_of_large hlarge]; rfl)

theorem reply_write (machine : Machine) (address : Int) (bytes : List UInt8) :
    ReplyCase machine (.write address bytes) := by
  cases hrefusal : Memory.refusal address bytes.length with
  | none =>
      obtain ⟨hlow, hhigh⟩ := (Memory.refusal_eq_none_iff _ _).mp hrefusal
      have hinside : address.toNat + bytes.length ≤ 4096 := by omega
      refine .served _ _ ?_ ⟨rfl, toList_overwrite machine.memory hinside, rfl⟩
        (by rw [reply, machine.write_of_served hrefusal]; rfl)
      intro error hrefuses
      cases hrefuses with
      | write houtside => omega
  | some cause =>
      obtain ⟨hrange, rfl⟩ := (Memory.refusal_eq_some_iff _ _ _).mp hrefusal
      have houtside : address < 0 ∨ 4096 < address + bytes.length := by
        simp only [Memory.InRange] at hrange
        omega
      exact .refused _ (.write houtside)
        (by rw [reply, machine.write_of_refusal hrefusal]; rfl)

theorem reply_setRegister (machine : Machine) (number value : Int) :
    ReplyCase machine (.setRegister number value) := by
  rcases machine.registers.write_cases number value with
    ⟨houtside, hwrite⟩ | ⟨hlow, hhigh, written, hwrite, hregisters⟩
  · exact .refused _ (.setRegister houtside) (by rw [reply, setRegister, hwrite]; rfl)
  · have hbyte : ((UInt8.ofInt value).toNat : Int) = value % 256 := by
      simp only [UInt8.ofInt, UInt8.toNat_ofNat']
      omega
    refine .served { machine with registers := written } none ?_ ⟨rfl, ?_, rfl⟩
      (by rw [reply, setRegister, hwrite]; rfl)
    · intro error hrefuses
      cases hrefuses with
      | setRegister houtside => omega
    · intro k
      simp only [hregisters, apply_ite UInt8.toNat, Nat.cast_ite, hbyte]

theorem reply_push (hwithin : machine.calls.Within) (address : Int) :
    ReplyCase machine (.push address) := by
  by_cases hfull : 15 ≤ machine.calls.depth
  · have hpush : machine.push address = ⟨machine, .error Cause.stackOverflow.error⟩ := by
      rw [push, CallStack.push, if_pos hfull]
      rfl
    exact .refused _ (.push (Int.le_antisymm hwithin.2 hfull)) (by rw [reply, hpush]; rfl)
  · have hpush : machine.push address =
        ⟨{ machine with calls := machine.calls.pushed address }, .ok ()⟩ := by
      rw [push, CallStack.push_of_room hwithin hfull]
      rfl
    refine .served _ _ ?_ ⟨rfl, ?_, rfl⟩ (by rw [reply, hpush]; rfl)
    · intro error hrefuses
      cases hrefuses with
      | push hdepth => omega
    · intro slot
      have hlow := hwithin.1
      have hsame : machine.calls.depth.toNat + 1 = slot.val ↔
          (slot.val : Int) = machine.calls.depth + 1 := by omega
      simp only [CallStack.get_pushed, hsame]

theorem reply_pop (hwithin : machine.calls.Within) : ReplyCase machine .pop := by
  by_cases hempty : machine.calls.depth = 0
  · have hpop : machine.pop = ⟨machine, .error Cause.stackUnderflow.error⟩ := by
      rw [pop, CallStack.pop, if_pos hempty]
      rfl
    exact .refused _ (.pop hempty) (by rw [reply, hpop]; rfl)
  · obtain ⟨hlow, hhigh⟩ := hwithin
    have hslot : machine.calls.depth.toNat < 16 := by omega
    let popped : Machine := { machine with calls := machine.calls.popped }
    have hpop :
        machine.pop = ⟨popped, .ok (machine.calls.entry machine.calls.depth.toNat)⟩ := by
      rw [pop, CallStack.pop_of_live ⟨hlow, hhigh⟩ hempty]
      rfl
    refine .served popped _ ?_ ⟨⟨⟨machine.calls.depth.toNat, hslot⟩, ?_, ?_⟩, rfl⟩
      (by rw [reply, hpop]; rfl)
    · intro error hrefuses
      cases hrefuses with
      | pop hdepth => exact hempty hdepth
    · exact Int.toNat_of_nonneg hlow
    · have hentry : machine.calls.entry machine.calls.depth.toNat =
          machine.calls.slots[machine.calls.depth.toNat] := by
        simp [CallStack.entry, hslot]
      rw [hentry]
      rfl

theorem reply_cases (hwithin : machine.calls.Within) (request : Request) :
    ReplyCase machine request := by
  cases request with
  | load rom => exact machine.reply_load rom
  | write address bytes => exact machine.reply_write address bytes
  | setRegister number value => exact machine.reply_setRegister number value
  | push address => exact reply_push hwithin address
  | pop => exact reply_pop hwithin

theorem Refuses.unique {request : Request} {first second : Error}
    (hfirst : machine.Refuses request first) (hsecond : machine.Refuses request second) :
    first = second := by
  cases hfirst <;> cases hsecond <;> rfl

/-- A refusal is answered with its reason, and with nothing else. -/
theorem answer_eq_error_iff (hwithin : machine.calls.Within) {request : Request}
    {error : Error} :
    (machine.reply request).answer = .error error ↔ machine.Refuses request error := by
  cases reply_cases hwithin request with
  | refused reason hrefuses hreply =>
      rw [hreply]
      constructor
      · intro hanswer
        rw [← Except.error.inj hanswer]
        exact hrefuses
      · intro hsame
        rw [hrefuses.unique hsame]
  | served after answer hadmitted _ hreply =>
      rw [hreply]
      constructor
      · intro hanswer
        cases hanswer
      · intro hrefuses
        exact absurd hrefuses (hadmitted error)

theorem state_of_error (hwithin : machine.calls.Within) {request : Request} {error : Error}
    (hrefused : (machine.reply request).answer = .error error) :
    (machine.reply request).state = machine := by
  cases reply_cases hwithin request with
  | refused _ _ hreply => rw [hreply]
  | served after answer _ _ hreply =>
      rw [hreply] at hrefused
      cases hrefused

theorem serves_of_ok (hwithin : machine.calls.Within) {request : Request}
    {answer : Option Int} (hserved : (machine.reply request).answer = .ok answer) :
    machine.Serves (machine.reply request).state answer request := by
  cases reply_cases hwithin request with
  | refused reason _ hreply =>
      rw [hreply] at hserved
      cases hserved
  | served after given _ hserves hreply =>
      rw [hreply] at hserved ⊢
      cases hserved
      exact hserves

/-- The address that was pushed last is popped, and at most a dead slot tells that it was
ever there. -/
theorem reply_pop_of_push (hwithin : machine.calls.Within) (hroom : machine.calls.depth ≠ 15)
    (address : Int) :
    ∃ slots, (machine.reply (.push address)).state.reply .pop =
      ⟨{ machine with calls.slots := slots }, .ok (some address)⟩ := by
  obtain ⟨hlow, hhigh⟩ := hwithin
  obtain ⟨depth, hdepth⟩ := Int.eq_ofNat_of_zero_le hlow
  have hfree : depth < 15 := by omega
  have hcalls : machine.calls = ⟨machine.calls.slots, depth⟩ := by
    rw [← hdepth]
  have hpush : machine.calls.push address =
      ⟨⟨machine.calls.slots.set (depth + 1) address, depth + 1⟩, .ok ()⟩ := by
    rw [hcalls]
    exact CallStack.push_of_lt machine.calls.slots hfree address
  have hpop := CallStack.pop_push machine.calls.slots hfree address
  rw [← hcalls, hpush] at hpop
  refine ⟨machine.calls.slots.set (depth + 1) address, ?_⟩
  rw [reply, push, hpush]
  simp only [reply, pop, Reply.map, Reply.within, hpop, hdepth]
  rfl

/-- A request of a host is refused exactly for the reasons of `Refuses`, and then nothing
changes; otherwise it changes what `Serves` says, no part of the machine gets another size,
and what was pushed can be popped. -/
theorem requests_atomic_and_local (hwithin : machine.calls.Within) :
    (∀ request error, (machine.reply request).answer = .error error ↔
        machine.Refuses request error) ∧
      (∀ request error, (machine.reply request).answer = .error error →
        (machine.reply request).state = machine) ∧
      (∀ request answer, (machine.reply request).answer = .ok answer →
        machine.Serves (machine.reply request).state answer request) ∧
      (∀ address, machine.calls.depth ≠ 15 →
        ∃ slots, (machine.reply (.push address)).state.reply .pop =
          ⟨{ machine with calls.slots := slots }, .ok (some address)⟩) ∧
      ∀ request, (machine.reply request).state.snapshot.Complete := by
  refine ⟨?_, ?_, ?_, ?_, ?_⟩
  · exact fun request error => answer_eq_error_iff hwithin
  · exact fun request error => state_of_error hwithin
  · exact fun request answer => serves_of_ok hwithin
  · exact fun address hroom => reply_pop_of_push hwithin hroom address
  · exact fun request => (machine.reply request).state.snapshot_complete

/-- One slot is left, a write ends one byte behind the memory, and the sound timer gets a
number that is no byte. -/
theorem requests_atomic_and_local_nearly_full :
    let machine : Machine := { calls.depth := 14 }
    let write : Request := .write 4095 [1, 2]
    let sound : Request := .setRegister 17 (-1)
    machine.calls.Within ∧ machine.Refuses write (Cause.memory 4095 2).error ∧
      (machine.reply write).state = machine ∧
      machine.Serves (machine.reply sound).state none sound ∧
      (∃ slots, (machine.reply (.push (-7))).state.reply .pop =
        ⟨{ machine with calls.slots := slots }, .ok (some (-7))⟩) ∧
      (machine.reply sound).state.snapshot.Complete := by
  intro machine write sound
  have hwithin : machine.calls.Within := ⟨by decide, by decide⟩
  obtain ⟨hrefused, hkept, hserved, hpopped, hcomplete⟩ := requests_atomic_and_local hwithin
  have herror : (machine.reply write).answer = .error (Cause.memory 4095 2).error := rfl
  exact ⟨hwithin, (hrefused _ _).mp herror, hkept _ _ herror, hserved _ _ rfl,
    hpopped (-7) (by decide), hcomplete sound⟩

end Machine

end Chip8
