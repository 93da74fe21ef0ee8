/-
Views that read one byte after another.  A view of many parts is refused when one of them
is, and since every byte that is missing is refused in the same way, there are views of
exactly those bytes that are enough of them.
-/
import Chip8.RegisterListing
import Chip8.Screen

namespace Chip8

/-- Parts that are either read or refused with one error are refused together. -/
theorem mapM_eq_ite {α β ε : Type} {read : α → Except ε β} {good : α → Prop}
    [DecidablePred good] {value : α → β} {error : ε} {items : List α}
    (hitems : ∀ item ∈ items,
      read item = if good item then .ok (value item) else .error error) :
    items.mapM read =
      if ∀ item ∈ items, good item then .ok (items.map value) else .error error := by
  induction items with
  | nil => simp [pure, Except.pure]
  | cons item rest ih =>
      obtain ⟨hitem, hrest⟩ := List.forall_mem_cons.mp hitems
      rw [List.mapM_cons, hitem, ih hrest]
      by_cases hgood : good item
      · by_cases hall : ∀ other ∈ rest, good other
        · rw [if_pos hgood, if_pos hall, if_pos (List.forall_mem_cons.mpr ⟨hgood, hall⟩)]
          rfl
        · have hsome : ¬ ∀ other ∈ item :: rest, good other :=
            fun hevery => hall (List.forall_mem_cons.mp hevery).2
          rw [if_pos hgood, if_neg hall, if_neg hsome]
          rfl
      · have hsome : ¬ ∀ other ∈ item :: rest, good other :=
          fun hevery => hgood (List.forall_mem_cons.mp hevery).1
        rw [if_neg hgood, if_neg hsome]
        rfl

namespace Snapshot

variable {bytes : Array UInt8} {number : Nat}

theorem byteAt_of_lt (hinside : number < bytes.size) :
    byteAt bytes number = .ok bytes[number] := by
  have hresolved : Position.resolve bytes.size number = .ok ⟨number, hinside⟩ :=
    Position.resolve_of_lt (Int.natCast_nonneg number) (Int.ofNat_lt.mpr hinside)
  rw [byteAt, hresolved]
  rfl

/-- A number that is small enough for a word either names a byte or lies outside. -/
theorem byteAt_eq_ite (bytes : Array UInt8) (hword : number < 0x8000000000000000) :
    byteAt bytes number =
      if number < bytes.size then .ok (bytes.getD number 0)
      else .error (.position .bytes .outside) := by
  by_cases hinside : number < bytes.size
  · rw [if_pos hinside, byteAt_of_lt hinside, Array.getElem_eq_getD 0]
  · have hresolved : Position.resolve bytes.size number = .error .outside :=
      Position.resolve_of_le (by omega) (by omega)
    rw [if_neg hinside, byteAt, hresolved]

end Snapshot

namespace Screen

variable (display : Array UInt8) (on off : String)

theorem cell_eq_ite (r : Fin 32) (c : Fin 64) :
    cell display on off r c =
      if r.val * 64 + c.val < display.size then
        .ok (if display.getD (r.val * 64 + c.val) 0 = 0 then off else on)
      else .error (.position .bytes .outside) := by
  rw [cell, Snapshot.byteAt_eq_ite display (by omega)]
  split <;> rfl

/-- The line of text for a row of cells that are all there. -/
def shownRow (r : Fin 32) : String :=
  String.join ((List.finRange 64).map fun c =>
    if display.getD (r.val * 64 + c.val) 0 = 0 then off else on)

theorem row_eq_ite (r : Fin 32) :
    row display on off r =
      if r.val * 64 + 64 ≤ display.size then .ok (shownRow display on off r)
      else .error (.position .bytes .outside) := by
  have hmarks : (List.finRange 64).mapM (cell display on off r) = _ :=
    mapM_eq_ite fun c _ => cell_eq_ite display on off r c
  have hall : (∀ c ∈ List.finRange 64, r.val * 64 + c.val < display.size) ↔
      r.val * 64 + 64 ≤ display.size := by
    refine ⟨fun hevery => hevery 63 (List.mem_finRange 63), fun hrow c _ => ?_⟩
    omega
  simp only [row, hmarks, hall]
  split <;> rfl

/-- There is a text exactly of displays that have all cells of a screen. -/
theorem text_eq_ite :
    text display on off =
      if 2048 ≤ display.size then
        .ok ("\n".intercalate ((List.finRange 32).map (shownRow display on off)))
      else .error (.position .bytes .outside) := by
  have hlines : (List.finRange 32).mapM (row display on off) = _ :=
    mapM_eq_ite fun r _ => row_eq_ite display on off r
  have hall : (∀ r ∈ List.finRange 32, r.val * 64 + 64 ≤ display.size) ↔
      2048 ≤ display.size := by
    refine ⟨fun hevery => hevery 31 (List.mem_finRange 31), fun henough r _ => ?_⟩
    omega
  simp only [text, hlines, hall]
  split <;> rfl

end Screen

namespace RegisterListing

variable (registers : Array UInt8)

theorem cell_eq_ite {number : Nat} (hnumber : number < 16) :
    cell registers number =
      if number < registers.size then
        .ok ("V" ++ Hex.padded 1 number ++ ": " ++ Hex.byte (registers.getD number 0))
      else .error (.position .bytes .outside) := by
  rw [cell, Snapshot.byteAt_eq_ite registers (by omega)]
  split <;> rfl

/-- The row of four registers that are all there. -/
def shownRow (r : Fin 4) : String :=
  "  ".intercalate ((List.finRange 4).map fun c =>
    "V" ++ Hex.padded 1 (r.val * 4 + c.val : Nat) ++ ": " ++
      Hex.byte (registers.getD (r.val * 4 + c.val) 0))

theorem row_eq_ite (r : Fin 4) :
    row registers r =
      if r.val * 4 + 4 ≤ registers.size then .ok (shownRow registers r)
      else .error (.position .bytes .outside) := by
  have hcells : (List.finRange 4).mapM (fun c => cell registers (r.val * 4 + c.val)) = _ :=
    mapM_eq_ite fun c _ => cell_eq_ite registers (by omega)
  have hall : (∀ c ∈ List.finRange 4, r.val * 4 + c.val < registers.size) ↔
      r.val * 4 + 4 ≤ registers.size := by
    refine ⟨fun hevery => hevery 3 (List.mem_finRange 3), fun hrow c _ => ?_⟩
    omega
  simp only [row, hcells, hall]
  split <;> rfl

/-- There are rows exactly of copies that have all eighteen registers. -/
theorem rows_eq_ite (snapshot : Snapshot) :
    rows snapshot =
      if 18 ≤ snapshot.registers.size then
        .ok ((List.finRange 4).map (shownRow snapshot.registers) ++
          statusRow snapshot (snapshot.registers.getD 16 0) (snapshot.registers.getD 17 0) ::
            if snapshot.depth = 0 then [] else [stackRow snapshot.frames])
      else .error (.position .bytes .outside) := by
  have hrows : (List.finRange 4).mapM (row snapshot.registers) = _ :=
    mapM_eq_ite fun r _ => row_eq_ite snapshot.registers r
  have hall : (∀ r ∈ List.finRange 4, r.val * 4 + 4 ≤ snapshot.registers.size) ↔
      16 ≤ snapshot.registers.size := by
    refine ⟨fun hevery => hevery 3 (List.mem_finRange 3), fun hgeneral r _ => ?_⟩
    omega
  have hdelay : Snapshot.byteAt snapshot.registers 16 = _ :=
    Snapshot.byteAt_eq_ite snapshot.registers (by decide : 16 < 0x8000000000000000)
  have hsound : Snapshot.byteAt snapshot.registers 17 = _ :=
    Snapshot.byteAt_eq_ite snapshot.registers (by decide : 17 < 0x8000000000000000)
  simp only [rows, hrows, hall, hdelay, hsound]
  by_cases henough : 18 ≤ snapshot.registers.size
  · have hgeneral : 16 ≤ snapshot.registers.size := by omega
    have hfirst : 16 < snapshot.registers.size := by omega
    have hsecond : 17 < snapshot.registers.size := by omega
    rw [if_pos henough, if_pos hgeneral, if_pos hfirst, if_pos hsecond]
    rfl
  · have hsecond : ¬ 17 < snapshot.registers.size := by omega
    rw [if_neg henough, if_neg hsecond]
    -- Whichever register is missing first, the error is the same.
    split
    · split <;> rfl
    · rfl

end RegisterListing

end Chip8
