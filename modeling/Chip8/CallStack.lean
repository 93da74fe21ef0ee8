/-
The call stack: sixteen slots and a depth.  Slot zero is never used, so that
depth zero means empty; the live return addresses are the slots from one to the
depth.  A host may set the depth to any integer, and a slot number counts from
the end when it is negative.
-/
import Chip8.Fault

namespace Chip8

/-- Sixteen slots, of which the ones from 1 to `depth` are live. -/
structure CallStack where
  slots : Vector Int 16 := Vector.replicate 16 0
  depth : Int := 0
deriving Repr, DecidableEq

namespace CallStack

/-- The return addresses of the open calls, oldest first. -/
def frames (stack : CallStack) : List Int :=
  (Position.between stack.slots.toArray 1 (stack.depth + 1)).toList

/-- Open a call.  Depth 15 is full; a depth whose next slot does not exist is
raised all the same. -/
def push (stack : CallStack) (address : Int) : Reply CallStack Unit :=
  if 15 ≤ stack.depth then ⟨stack, .error Cause.stackOverflow.error⟩
  else
    let deeper := { stack with depth := stack.depth + 1 }
    match Position.resolve 16 deeper.depth with
    | .ok slot => ⟨{ deeper with slots := deeper.slots.set slot address }, .ok ()⟩
    | .error why => ⟨deeper, .error (.position .stackWrite why)⟩

/-- Close the last call and give its return address. -/
def pop (stack : CallStack) : Reply CallStack Int :=
  if stack.depth = 0 then ⟨stack, .error Cause.stackUnderflow.error⟩
  else
    match Position.resolve 16 stack.depth with
    | .ok slot => ⟨{ stack with depth := stack.depth - 1 }, .ok stack.slots[slot]⟩
    | .error why => ⟨stack, .error (.position .stackRead why)⟩

/-- Within the slots, the return addresses are the entries behind the first one. -/
theorem frames_of_le (slots : Vector Int 16) {depth : Nat} (reachable : depth ≤ 15) :
    frames ⟨slots, depth⟩ = (slots.toList.drop 1).take depth := by
  have first : Position.bound 16 1 = 1 := Position.bound_of_le (by omega) (by omega)
  have last : Position.bound 16 (depth + 1) = depth + 1 :=
    Position.bound_of_le (by omega) (by omega)
  simp only [frames, Position.between, Vector.size_toArray, first, last,
    Array.toList_extract, List.extract_eq_take_drop, Nat.add_sub_cancel]
  rfl

/-- A call with room left fills the next slot. -/
theorem push_of_lt (slots : Vector Int 16) {depth : Nat} (room : depth < 15)
    (address : Int) :
    push ⟨slots, depth⟩ address =
      ⟨⟨slots.set (depth + 1) address (by omega), depth + 1⟩, .ok ()⟩ := by
  have notFull : ¬ 15 ≤ (depth : Int) := by omega
  have slot : Position.resolve 16 (depth + 1) = .ok ⟨depth + 1, by omega⟩ :=
    Position.resolve_of_lt (by omega) (by omega)
  simp [push, notFull, slot]

/-- A return gives back the address of the newest call. -/
theorem pop_push (slots : Vector Int 16) {depth : Nat} (room : depth < 15)
    (address : Int) :
    pop (push ⟨slots, depth⟩ address).state =
      ⟨⟨slots.set (depth + 1) address (by omega), depth⟩, .ok address⟩ := by
  have used : ¬ (depth : Int) + 1 = 0 := by omega
  have slot : Position.resolve 16 (depth + 1) = .ok ⟨depth + 1, by omega⟩ :=
    Position.resolve_of_lt (by omega) (by omega)
  simp [push_of_lt slots room, pop, used, slot]

end CallStack

end Chip8
