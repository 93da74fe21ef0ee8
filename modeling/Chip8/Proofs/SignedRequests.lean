/-
Requests of a signed length.  The check of a request compares its first end with zero and
its last end with the size of the memory.  For lengths that are not negative this is enough:
the bytes that are asked for are given, or the request is refused.  A request of negative
length that passes gives no bytes, or, when its last end lies below zero and so counts from
the end of the memory, bytes that were not asked for.
-/
import Chip8.Proofs.Requests
import Mathlib.Tactic.SplitIfs

namespace Chip8

namespace Memory

/-- The number of bytes that are given for a request that passes the check. -/
def extent (address length : Int) : Nat :=
  if 0 ≤ length then length.toNat
  else if 0 ≤ address + length then 0
  else (4096 + length).toNat

/-- The bytes from the address on, as many as asked for, all of them inside the memory. -/
structure Holds (memory : Memory) (address length : Int) (bytes : List UInt8) : Prop where
  length : (bytes.length : Int) = length
  bytes : ∀ offset < bytes.length, ∃ place : Fin 4096,
    (place.val : Int) = address + offset ∧ bytes[offset]? = some (memory.get place)

/-- A request is refused, or the bytes that it asks for are given. -/
def ReadsExactly (memory : Memory) (address length : Int) : Prop :=
  memory.read address length = .error (.memory address length) ∨
    ∃ bytes, memory.read address length = .ok bytes ∧ memory.Holds address length bytes

variable (memory : Memory) {address length : Int}

theorem drop_bound (hlow : 0 ≤ address) :
    memory.toList.drop (Position.bound 4096 address) = memory.toList.drop address.toNat := by
  rw [List.drop_eq_drop_iff, Vector.length_toList, Position.bound, if_neg (Int.not_lt.mpr hlow),
    Nat.min_assoc, Nat.min_self]

theorem bound_sub_bound (hrange : InRange address length) :
    Position.bound 4096 (address + length) - Position.bound 4096 address =
      extent address length := by
  obtain ⟨hlow, hhigh⟩ := hrange
  simp only [Position.bound, extent]
  split_ifs <;> omega

/-- The bytes that are given start at the address, whatever the sign of the length is. -/
theorem read_of_inRange (hrange : InRange address length) :
    memory.read address length = .ok (memory.block address.toNat (extent address length)) := by
  rw [read, if_pos hrange, Position.between, Array.toList_extract, List.extract_eq_take_drop,
    Vector.size_toArray, bound_sub_bound hrange]
  exact congrArg (fun bytes : List UInt8 => Except.ok (bytes.take _)) (memory.drop_bound hrange.1)

theorem read_of_not_inRange (hrange : ¬ InRange address length) :
    memory.read address length = .error (.memory address length) :=
  if_neg hrange

theorem length_block_extent (hrange : InRange address length) :
    (memory.block address.toNat (extent address length)).length = extent address length := by
  obtain ⟨hlow, hhigh⟩ := hrange
  rw [block, List.length_take, List.length_drop, Vector.length_toList, extent]
  split_ifs <;> omega

/-- A block inside the memory holds the bytes that its length asks for. -/
theorem holds_block {count : Nat} (hlow : 0 ≤ address) (hhigh : address + count ≤ 4096) :
    memory.Holds address count (memory.block address.toNat count) := by
  have hlength : (memory.block address.toNat count).length = count :=
    memory.length_block (by omega)
  constructor
  case length => rw [hlength]
  case bytes =>
    intro offset hoffset
    have hplace : address.toNat + offset < 4096 := by omega
    refine ⟨⟨address.toNat + offset, hplace⟩, ?_, ?_⟩
    · change ((address.toNat + offset : Nat) : Int) = address + offset
      omega
    · have hcount : offset < count := by omega
      rw [block, List.getElem?_take_of_lt hcount, List.getElem?_drop, Vector.getElem?_toList]
      exact Vector.getElem?_eq_getElem hplace

theorem readsExactly_iff :
    memory.ReadsExactly address length ↔ 0 ≤ length ∨ ¬ InRange address length := by
  constructor
  · rintro (hrefused | ⟨bytes, -, hholds⟩)
    · exact Or.inr ((memory.read_eq_error_iff _ _ _).mp hrefused).1
    · exact Or.inl (hholds.length ▸ Int.natCast_nonneg _)
  · intro hadmitted
    by_cases hrange : InRange address length
    · have hlength : 0 ≤ length := hadmitted.resolve_right (not_not_intro hrange)
      obtain ⟨count, rfl⟩ := Int.eq_ofNat_of_zero_le hlength
      obtain ⟨hlow, hhigh⟩ := hrange
      exact Or.inr ⟨_, memory.read_of_nonneg ⟨hlow, hhigh⟩ hlength,
        memory.holds_block hlow hhigh⟩
    · exact Or.inl (memory.read_of_not_inRange hrange)

end Memory

namespace Machine

/-- A sprite is refused and nothing changes, or as many rows as asked for are drawn. -/
def DrawsExactly (machine : Machine) (column row height : Int) : Prop :=
  machine.draw column row height =
      ⟨machine, .error (Cause.memory machine.index height).error⟩ ∨
    ∃ sprite, machine.memory.Holds machine.index height sprite ∧
      machine.draw column row height = machine.withSprite column row sprite

variable (machine : Machine) (column row : Int) {height : Int}

theorem draw_of_ok {sprite : List UInt8}
    (hread : machine.memory.read machine.index height = .ok sprite) :
    machine.draw column row height = machine.withSprite column row sprite := by
  rw [draw, hread]

theorem draw_of_error {cause : Cause}
    (hread : machine.memory.read machine.index height = .error cause) :
    machine.draw column row height = ⟨machine, .error cause.error⟩ := by
  rw [draw, hread]

theorem drawsExactly_iff :
    machine.DrawsExactly column row height ↔
      0 ≤ height ∨ ¬ Memory.InRange machine.index height := by
  constructor
  · rintro (hrefused | ⟨sprite, hholds, -⟩)
    · refine Or.inr fun hrange => ?_
      rw [machine.draw_of_ok column row (machine.memory.read_of_inRange hrange)] at hrefused
      cases congrArg Reply.answer hrefused
    · exact Or.inl (hholds.length ▸ Int.natCast_nonneg _)
  · intro hadmitted
    rcases machine.memory.readsExactly_iff.mpr hadmitted with hrefused | ⟨sprite, hread, hholds⟩
    · exact Or.inl (machine.draw_of_error column row hrefused)
    · exact Or.inr ⟨sprite, hholds, machine.draw_of_ok column row hread⟩

/-- Bytes are read and sprites are drawn as asked for, or refused, exactly when their length
is not negative or an end lies outside.  What is given starts at the address in any case. -/
theorem requests_exact_iff (address length height : Int) :
    (machine.memory.ReadsExactly address length ↔
      0 ≤ length ∨ ¬ Memory.InRange address length) ∧
    (machine.DrawsExactly column row height ↔
      0 ≤ height ∨ ¬ Memory.InRange machine.index height) ∧
    machine.memory.read address length =
      (if Memory.InRange address length then
        .ok (machine.memory.block address.toNat (Memory.extent address length))
      else .error (.memory address length)) ∧
    machine.draw column row height =
      if Memory.InRange machine.index height then
        machine.withSprite column row
          (machine.memory.block machine.index.toNat (Memory.extent machine.index height))
      else ⟨machine, .error (Cause.memory machine.index height).error⟩ := by
  refine ⟨machine.memory.readsExactly_iff, machine.drawsExactly_iff column row, ?_, ?_⟩
  · split
    case isTrue hrange => exact machine.memory.read_of_inRange hrange
    case isFalse hrange => exact machine.memory.read_of_not_inRange hrange
  · split
    case isTrue hrange =>
      exact machine.draw_of_ok column row (machine.memory.read_of_inRange hrange)
    case isFalse hrange =>
      exact machine.draw_of_error column row (machine.memory.read_of_not_inRange hrange)

/-- A request of length -20 at address 16.  Its last end is four below zero, which counts as four
before the end of the memory, so 4076 bytes are given, and a sprite is drawn of as many rows. -/
theorem requests_below_zero :
    let machine : Machine := { fresh with index := 16 }
    (∃ bytes, machine.memory.read 16 (-20) = .ok bytes ∧ bytes.length = 4076) ∧
      ¬ machine.memory.ReadsExactly 16 (-20) ∧ ¬ machine.DrawsExactly 0 0 (-20) := by
  intro machine
  have hrange : Memory.InRange 16 (-20) := by decide
  have hnegative : ¬ (0 ≤ (-20 : Int) ∨ ¬ Memory.InRange 16 (-20)) := by decide
  refine ⟨⟨_, machine.memory.read_of_inRange hrange, ?_⟩, ?_, ?_⟩
  · exact machine.memory.length_block_extent hrange
  · exact mt machine.memory.readsExactly_iff.mp hnegative
  · exact mt (machine.drawsExactly_iff 0 0).mp hnegative

end Machine

end Chip8
