/-
Reading a hex dump back.  Every row names the address of its first byte, and the bytes of
all rows, one row after the other, are the bytes of the range that was dumped: none is
lost, shown twice or shown under another address.
-/
import Chip8.HexDump
import Chip8.Proofs.Hexadecimal
import Chip8.Proofs.Lines
import Mathlib.Algebra.Order.Floor.Div
import Mathlib.GroupTheory.GroupAction.Ring

namespace Chip8

namespace Hex

/-- The number that capital digits write, if there are no other characters. -/
def number? (text : List Char) : Option Nat :=
  if text.all capitals.contains then some (value text) else none

/-- The byte that a token of two digits writes. -/
def byte? (token : List Char) : Option UInt8 :=
  if token.length = 2 then (number? token).map UInt8.ofNat else none

theorem number?_padded (width number : Nat) :
    number? (padded width number).toList = some number := by
  have hcapital : (padded width number).toList.all capitals.contains := by
    rw [List.all_eq_true]
    intro digit hdigit
    exact List.contains_iff_mem.mpr (mem_capitals_of_mem_padded hdigit)
  rw [number?, if_pos hcapital, value_padded]

theorem byte?_byte (value : UInt8) : byte? (byte value).toList = some value := by
  have hlength : (byte value).toList.length = 2 := by
    rw [String.length_toList]
    exact length_padded_of_lt (by decide) value.toNat_lt
  rw [byte?, if_pos hlength, byte, number?_padded, Option.map_some, UInt8.ofNat_toNat]

end Hex

namespace HexDump

/-- The tokens of a text in which single blanks stand between them. -/
def tokens (text : List Char) : List (List Char) :=
  if text = [] then [] else text.splitOn ' '

/-- A line of a dump read back: a number before the first colon, and bytes from the second
character behind it on. -/
def Row.ofLine? (line : String) : Option Row := do
  let address ← Hex.number? (line.toList.takeWhile (· ≠ ':'))
  let bytes ← (tokens ((line.toList.dropWhile (· ≠ ':')).drop 2)).mapM Hex.byte?
  return { address, bytes }

/-- A dump read back line by line. -/
def read? (dump : String) : Option (List Row) :=
  (Text.lines dump).mapM Row.ofLine?

/-- The bytes from address `first` up to address `last`, as far as the memory goes. -/
def slice (memory : Array UInt8) (first last : Nat) : List UInt8 :=
  (memory.toList.take last).drop first

section Slices

variable (memory : Array UInt8) {first middle last : Nat}

theorem slice_append (hfirst : first ≤ middle) (hlast : middle ≤ last) :
    slice memory first middle ++ slice memory middle last = slice memory first last := by
  have htake : memory.toList.take middle = (memory.toList.take last).take middle := by
    rw [List.take_take, Nat.min_eq_left hlast]
  calc slice memory first middle ++ slice memory middle last
      = ((memory.toList.take last).drop first).take (middle - first) ++
          ((memory.toList.take last).drop first).drop (middle - first) := by
        rw [slice, slice, htake, List.drop_take, List.drop_drop, Nat.add_sub_cancel' hfirst]
    _ = slice memory first last := List.take_append_drop _ _

theorem slice_eq_nil (hlast : last ≤ first) : slice memory first last = [] :=
  List.drop_eq_nil_of_le (Nat.le_trans (List.length_take_le _ _) hlast)

theorem slice_min_size (first last : Nat) :
    slice memory first (min last memory.size) = slice memory first last := by
  rw [slice, slice, ← List.take_take, ← Array.length_toList, List.take_length]

theorem between_eq_slice (first last : Nat) :
    (Position.between memory first last).toList = slice memory first last := by
  have hbound : ∀ place : Nat, Position.bound memory.size place = min place memory.size := by
    intro place
    simp only [Position.bound]
    omega
  rw [Position.between, hbound, hbound, Array.toList_extract, List.extract_eq_take_drop,
    ← List.drop_take]
  change slice memory (min first memory.size) (min last memory.size) = slice memory first last
  rw [slice_min_size]
  rcases Nat.le_total first memory.size with hinside | hbehind
  · rw [Nat.min_eq_left hinside]
  · have hshort : (memory.toList.take last).length ≤ memory.size := by
      rw [← Array.length_toList]
      exact List.length_take_le' _ _
    rw [Nat.min_eq_right hbehind, slice, slice, List.drop_eq_nil_of_le hshort,
      List.drop_eq_nil_of_le (Nat.le_trans hshort hbehind)]

end Slices

section Rows

variable (memory : Array UInt8) (first last : Nat)

/-- The row of a number, counted from the row at `first`. -/
def row (number : Nat) : Row where
  address := (first + 32 * number : Nat)
  bytes := slice memory (first + 32 * number) (min (first + 32 * (number + 1)) last)

theorem rowAt_eq_row (number : Nat) :
    rowAt memory last ((first : Int) + 32 * number) = row memory first last number := by
  have haddress : (first : Int) + 32 * number = (first + 32 * number : Nat) := by omega
  have hend : min ((first : Int) + 32 * number + 32) last =
      (min (first + 32 * (number + 1)) last : Nat) := by omega
  rw [rowAt, hend, haddress, between_eq_slice, row]

theorem rows_eq_map_row (start : Nat) :
    rows memory start last =
      (List.range ((last - (start - start % 32)) ⌈/⌉ 32)).map
        (row memory (start - start % 32) last) := by
  have hstart : rowStart start = (start - start % 32 : Nat) := by
    rw [rowStart]
    omega
  have hcount : (((last : Int) - (start - start % 32 : Nat) + 31) / 32).toNat =
      (last - (start - start % 32)) ⌈/⌉ 32 := by
    rw [Nat.ceilDiv_eq_add_pred_div]
    omega
  rw [rows, hstart, hcount]
  apply List.map_congr_left
  intro number _
  exact rowAt_eq_row memory _ last number

/-- The bytes of the first rows, one row after the other. -/
theorem flatMap_bytes_row (count : Nat) :
    ((List.range count).map (row memory first last)).flatMap Row.bytes =
      slice memory first (min (first + 32 * count) last) := by
  induction count with
  | zero => exact (slice_eq_nil memory (Nat.min_le_left _ _)).symm
  | succ count ih =>
      rw [List.range_succ, List.map_append, List.flatMap_append, ih]
      simp only [List.map_cons, List.map_nil, List.flatMap_cons, List.flatMap_nil,
        List.append_nil, row]
      rcases Nat.le_total (first + 32 * count) last with hinside | hbehind
      · rw [Nat.min_eq_left hinside]
        exact slice_append memory (Nat.le_add_right _ _) (by omega)
      · -- The row starts behind the range, and adds no byte to those before it.
        have hempty : min (first + 32 * (count + 1)) last ≤ first + 32 * count := by omega
        have hsame : min (first + 32 * (count + 1)) last = min (first + 32 * count) last := by
          omega
        rw [slice_eq_nil memory hempty, List.append_nil, hsame]

/-- As many rows as the range needs show all of it. -/
theorem flatMap_bytes_rows :
    ((List.range ((last - first) ⌈/⌉ 32)).map (row memory first last)).flatMap Row.bytes =
      slice memory first last := by
  have hcovered : last ≤ first + 32 * ((last - first) ⌈/⌉ 32) := by
    rw [Nat.ceilDiv_eq_add_pred_div]
    omega
  rw [flatMap_bytes_row, Nat.min_eq_right hcovered]

end Rows

section Reading

variable (address : Nat) (bytes : List UInt8)

theorem toList_text :
    (Row.text { address, bytes }).toList = (Hex.padded 3 address).toList ++
      ':' :: ' ' :: [' '].intercalate (bytes.map fun byte => (Hex.byte byte).toList) := by
  have htokens : (bytes.map Hex.byte).map String.toList =
      bytes.map fun byte => (Hex.byte byte).toList := List.map_map
  rw [Row.text, String.toList_append, String.toList_append, String.toList_intercalate, htokens,
    List.append_assoc]
  rfl

theorem tokens_intercalate :
    tokens ([' '].intercalate (bytes.map fun byte => (Hex.byte byte).toList)) =
      bytes.map fun byte => (Hex.byte byte).toList := by
  have hplain : ∀ token ∈ bytes.map (fun byte => (Hex.byte byte).toList), ' ' ∉ token := by
    intro token htoken
    obtain ⟨byte, -, rfl⟩ := List.mem_map.mp htoken
    exact Hex.not_mem_padded (by decide) 2 byte.toNat
  cases bytes with
  | nil => rfl
  | cons byte rest =>
      have hsome : (byte :: rest).map (fun byte => (Hex.byte byte).toList) ≠ [] :=
        List.cons_ne_nil _ _
      have hfull : (Hex.byte byte).toList ≠ [] := by
        intro hempty
        have hread := Hex.byte?_byte byte
        rw [hempty] at hread
        cases hread
      have hnonempty :
          [' '].intercalate ((byte :: rest).map fun byte => (Hex.byte byte).toList) ≠ [] := by
        cases rest with
        | nil => simpa using hfull
        | cons next others =>
            rw [List.map_cons, List.map_cons, List.intercalate_cons_cons]
            simp [hfull]
      rw [tokens, if_neg hnonempty, List.splitOn_intercalate ' ' hplain hsome]

theorem mapM_byte? :
    (bytes.map fun byte => (Hex.byte byte).toList).mapM Hex.byte? = some bytes := by
  induction bytes with
  | nil => rfl
  | cons byte rest ih =>
      rw [List.map_cons, List.mapM_cons, Hex.byte?_byte, ih]
      rfl

theorem ofLine?_text : Row.ofLine? (Row.text { address, bytes }) = some { address, bytes } := by
  have hmark : ':' ∉ Hex.capitals := by decide
  rw [Row.ofLine?, toList_text, Hex.takeWhile_padded_append hmark,
    Hex.dropWhile_padded_append hmark, Hex.number?_padded]
  simp only [List.drop_succ_cons, List.drop_zero, tokens_intercalate, mapM_byte?]
  rfl

theorem unbroken_text : Text.Unbroken (Row.text { address, bytes }) := by
  have hplain : ∀ width number : Nat, '\n' ∉ (Hex.padded width number).toList :=
    Hex.not_mem_padded (by decide)
  have hbytes : '\n' ∉ (" ".intercalate (bytes.map Hex.byte)).toList := by
    apply Text.not_mem_intercalate (by decide)
    intro part hpart
    obtain ⟨byte, -, rfl⟩ := List.mem_map.mp hpart
    exact hplain 2 byte.toNat
  constructor
  · simp [Row.text]
  · simp only [Row.text, String.toList_append, List.mem_append, not_or]
    exact ⟨⟨hplain 3 address, by decide⟩, hbytes⟩

end Reading

section Dumps

variable (memory : Array UInt8) (first last : Nat)

theorem lines_rows (numbers : List Nat) :
    Text.lines ("\n".intercalate ((numbers.map (row memory first last)).map Row.text)) =
      (numbers.map (row memory first last)).map Row.text := by
  apply Text.lines_intercalate
  intro line hline
  obtain ⟨shown, hshown, rfl⟩ := List.mem_map.mp hline
  obtain ⟨number, -, rfl⟩ := List.mem_map.mp hshown
  exact unbroken_text _ _

theorem read?_rows (numbers : List Nat) :
    read? ("\n".intercalate ((numbers.map (row memory first last)).map Row.text)) =
      some (numbers.map (row memory first last)) := by
  rw [read?, lines_rows]
  induction numbers with
  | nil => rfl
  | cons number rest ih =>
      have hfirst : Row.ofLine? (row memory first last number).text =
          some (row memory first last number) := ofLine?_text _ _
      rw [List.map_cons, List.map_cons, List.mapM_cons, hfirst, ih]
      rfl

theorem text_eq_rows (start : Nat) (stop : Option Nat) :
    text memory start (stop.map fun (stop : Nat) => (stop : Int)) = "\n".intercalate
      (((List.range ((stop.getD memory.size - (start - start % 32)) ⌈/⌉ 32)).map
        (row memory (start - start % 32) (stop.getD memory.size))).map Row.text) := by
  have hlast : (stop.map fun (stop : Nat) => (stop : Int)).getD memory.size =
      (stop.getD memory.size : Nat) := by
    cases stop with
    | none => rfl
    | some stop => rfl
  rw [text, hlast, rows_eq_map_row]

theorem eq_row_of_getElem? {count j : Nat} {shown : Row}
    (hshown : ((List.range count).map (row memory first last))[j]? = some shown) :
    shown = row memory first last j := by
  rw [List.getElem?_map, Option.map_eq_some_iff] at hshown
  obtain ⟨number, hnumber, rfl⟩ := hshown
  obtain ⟨hinside, hsame⟩ := List.getElem?_eq_some_iff.mp hnumber
  rw [List.getElem_range] at hsame
  rw [hsame]

end Dumps

/-- A dump is read back as rows of 32 addresses, as many as reach from the row of `start` to
the end of the range; each is shown behind its address and holds the bytes up to the next row,
the end of the range or the end of the memory, and all of them together are the range. -/
theorem dump_read_back (memory : Array UInt8) (start : Nat) (stop : Option Nat) :
    let first := start - start % 32
    let last := stop.getD memory.size
    let dump := text memory start (stop.map fun (stop : Nat) => (stop : Int))
    ∃ rows, read? dump = some rows ∧
      rows.length = (last - first) ⌈/⌉ 32 ∧
      (Text.lines dump).length = rows.length ∧
      (∀ j line, (Text.lines dump)[j]? = some line →
        ∃ digits bytes, line = digits ++ ": " ++ bytes ∧
          Hex.Writes 3 (first + 32 * j) digits) ∧
      (∀ j row, rows[j]? = some row → row.address = ((first + 32 * j : Nat) : Int) ∧
        row.bytes = slice memory (first + 32 * j)
          (min (first + 32 * (j + 1)) (min last memory.size))) ∧
      rows.flatMap Row.bytes = slice memory first (min last memory.size) := by
  intro first last dump
  have hdump : dump = _ := text_eq_rows memory start stop
  have hlines := lines_rows memory first last (List.range ((last - first) ⌈/⌉ 32))
  refine ⟨(List.range ((last - first) ⌈/⌉ 32)).map (row memory first last), ?_, ?_, ?_, ?_, ?_,
    ?_⟩
  · rw [hdump]
    exact read?_rows memory first last _
  · rw [List.length_map, List.length_range]
  · rw [hdump, hlines, List.length_map]
  · intro j line hline
    rw [hdump, hlines, List.getElem?_map, Option.map_eq_some_iff] at hline
    obtain ⟨shown, hshown, rfl⟩ := hline
    obtain rfl := eq_row_of_getElem? memory first last hshown
    exact ⟨_, _, rfl, Hex.writes_padded 3 (first + 32 * j)⟩
  · intro j shown hshown
    obtain rfl := eq_row_of_getElem? memory first last hshown
    refine ⟨rfl, ?_⟩
    rw [← Nat.min_assoc, slice_min_size]
    rfl
  · rw [slice_min_size]
    exact flatMap_bytes_rows memory first last

/-- A range that starts inside a row and ends behind a memory of 70 bytes: the rows without
bytes are shown, and those with bytes hold the memory from the start of the row on. -/
theorem dump_read_back_behind_memory :
    let memory := (Array.range 70).map UInt8.ofNat
    ∃ rows, read? (text memory 37 (some 1000)) = some rows ∧ rows.length = 31 ∧
      (∀ row, rows[1]? = some row →
        row.address = 64 ∧ row.bytes = [64, 65, 66, 67, 68, 69]) ∧
      rows.flatMap Row.bytes = (List.range' 32 38).map UInt8.ofNat := by
  intro memory
  obtain ⟨rows, hread, hlength, -, -, hrows, hall⟩ := dump_read_back memory 37 (some 1000)
  refine ⟨rows, hread, hlength.trans (by decide), ?_, hall.trans (by decide +kernel)⟩
  intro row hrow
  obtain ⟨haddress, hbytes⟩ := hrows 1 row hrow
  exact ⟨haddress, hbytes.trans (by decide +kernel)⟩

end HexDump

end Chip8
