/-
Reading the register listing back.  Every number stands in a word of its own, so that the
numbers of a line can be told apart whatever their widths are.  No number of a reachable
state is negative, and its listing therefore tells all that it shows; the last line holds
the return addresses of the open calls, and is left out when there are none.
-/
import Chip8.Proofs.HexDumpReading
import Chip8.Proofs.Indexing
import Chip8.Proofs.OpenCalls

namespace Chip8

namespace Text

/-- The words of a text, without the blanks around them. -/
def words (text : String) : List (List Char) :=
  (text.toList.splitOn ' ').filter (· ≠ [])

theorem words_append_blank (front rest : String) :
    words (front ++ " " ++ rest) = words front ++ words rest := by
  have htext : (front ++ " " ++ rest).toList = front.toList ++ ' ' :: rest.toList := by simp
  rw [words, htext, List.splitOn_append_cons_self, List.filter_append]
  rfl

theorem words_of_plain {word : String} (hplain : ' ' ∉ word.toList) (hsome : word ≠ "") :
    words word = [word.toList] := by
  have hletters : word.toList ≠ [] := by simpa using hsome
  rw [words, List.splitOn_eq_singleton hplain]
  simp [hletters]

end Text

namespace RegisterListing

/-- The numbers that stand in a line as words of their own. -/
def numbers (line : String) : List Nat :=
  (Text.words line).filterMap Hex.number?

/-- What stands before the first colon of a line. -/
def label (line : String) : List Char :=
  line.toList.takeWhile (· ≠ ':')

/-- The lines of a listing that show return addresses. -/
def stackLines (listing : String) : List String :=
  (Text.lines listing).filter (label · = "Stack".toList)

/-- A named number of a listing. -/
structure Field where
  name : String
  width : Nat
  number : Nat

def Field.text (field : Field) : String :=
  field.name ++ ": " ++ Hex.padded field.width field.number

/-- Named numbers side by side. -/
def fieldLine (fields : List Field) : String :=
  "  ".intercalate (fields.map Field.text)

/-- A name that breaks neither a word nor a line and ends where the first colon stands, and
that is not the one of the return addresses. -/
structure Plain (name : String) : Prop where
  blank : ' ' ∉ name.toList
  colon : ':' ∉ name.toList
  lineBreak : '\n' ∉ name.toList
  other : name ≠ "Stack"

section Numbers

theorem numbers_append_blank (front rest : String) :
    numbers (front ++ " " ++ rest) = numbers front ++ numbers rest := by
  rw [numbers, Text.words_append_blank, List.filterMap_append]
  rfl

theorem numbers_append_blanks (front rest : String) :
    numbers (front ++ "  " ++ rest) = numbers front ++ numbers rest := by
  have htext : front ++ "  " ++ rest = front ++ " " ++ "" ++ " " ++ rest := by
    simp [← String.toList_inj]
  have hempty : numbers "" = [] := rfl
  rw [htext, numbers_append_blank, numbers_append_blank, hempty, List.append_nil]

/-- Parts are read one after the other when what stands between them parts words. -/
theorem numbers_intercalate {separator : String}
    (hparts : ∀ front rest, numbers (front ++ separator ++ rest) = numbers front ++ numbers rest)
    (parts : List String) :
    numbers (separator.intercalate parts) = parts.flatMap numbers := by
  induction parts with
  | nil => rfl
  | cons part others ih =>
      cases others with
      | nil => simp
      | cons next others =>
          rw [String.intercalate_cons_cons, hparts, ih, List.flatMap_cons (x := part)]

theorem numbers_padded (width number : Nat) : numbers (Hex.padded width number) = [number] := by
  have hplain : ' ' ∉ (Hex.padded width number).toList :=
    Hex.not_mem_padded (by decide) width number
  rw [numbers, Text.words_of_plain hplain (Hex.padded_ne_empty width number)]
  simp [Hex.number?_padded]

/-- A colon is no digit. -/
theorem number?_of_colon {text : List Char} (hcolon : ':' ∈ text) : Hex.number? text = none := by
  have hother : ¬ text.all Hex.capitals.contains := by
    rw [List.all_eq_true]
    intro hall
    exact absurd (hall ':' hcolon) (by decide)
  exact if_neg hother

theorem numbers_name {name : String} (hplain : ' ' ∉ name.toList) : numbers (name ++ ":") = [] := by
  have hword : ' ' ∉ (name ++ ":").toList := by simpa using hplain
  have hcolon : ':' ∈ (name ++ ":").toList := by simp
  have hsome : name ++ ":" ≠ "" := by simp
  rw [numbers, Text.words_of_plain hword hsome, List.filterMap_cons,
    number?_of_colon hcolon]
  rfl

theorem numbers_text {field : Field} (hplain : Plain field.name) :
    numbers field.text = [field.number] := by
  have htext : field.text = field.name ++ ":" ++ " " ++ Hex.padded field.width field.number := by
    simp [Field.text, ← String.toList_inj]
  rw [htext, numbers_append_blank, numbers_name hplain.blank, numbers_padded]
  rfl

theorem numbers_fieldLine {fields : List Field} (hplain : ∀ field ∈ fields, Plain field.name) :
    numbers (fieldLine fields) = fields.map Field.number := by
  rw [fieldLine, numbers_intercalate numbers_append_blanks, List.flatMap_map,
    ← List.flatMap_pure_eq_map]
  exact List.flatMap_congr fun field hfield => numbers_text (hplain field hfield)

end Numbers

section Lines

theorem unbroken_fieldLine {fields : List Field} (hsome : fields ≠ [])
    (hplain : ∀ field ∈ fields, Plain field.name) : Text.Unbroken (fieldLine fields) := by
  constructor
  · obtain ⟨first, rest, rfl⟩ := List.exists_cons_of_ne_nil hsome
    have htext : first.text ≠ "" := by simp [Field.text]
    exact Text.intercalate_ne_empty htext
  · apply Text.not_mem_intercalate (by decide)
    intro part hpart
    obtain ⟨field, hfield, rfl⟩ := List.mem_map.mp hpart
    have hname := (hplain field hfield).lineBreak
    have hnumber : '\n' ∉ (Hex.padded field.width field.number).toList :=
      Hex.not_mem_padded (by decide) _ _
    simp [Field.text, hname, hnumber]

theorem label_append {front rest : String} (hplain : ':' ∉ front.toList) :
    label (front ++ ":" ++ rest) = front.toList := by
  have htext : (front ++ ":" ++ rest).toList = front.toList ++ ':' :: rest.toList := by simp
  rw [label, htext, List.takeWhile_append_of_pos]
  · simp
  · intro letter hletter
    have hother : letter ≠ ':' := by
      rintro rfl
      exact hplain hletter
    exact decide_eq_true hother

theorem label_fieldLine_ne {fields : List Field} (hsome : fields ≠ [])
    (hplain : ∀ field ∈ fields, Plain field.name) : label (fieldLine fields) ≠ "Stack".toList := by
  obtain ⟨first, rest, rfl⟩ := List.exists_cons_of_ne_nil hsome
  obtain ⟨-, hcolon, -, hother⟩ := hplain first List.mem_cons_self
  obtain ⟨behind, hline⟩ : ∃ behind, fieldLine (first :: rest) = first.name ++ ":" ++ behind := by
    cases rest with
    | nil => exact ⟨" " ++ Hex.padded first.width first.number,
        by simp [fieldLine, Field.text, ← String.toList_inj]⟩
    | cons next others => exact ⟨" " ++ Hex.padded first.width first.number ++ "  " ++
        fieldLine (next :: others), by simp [fieldLine, Field.text, ← String.toList_inj]⟩
  rw [hline, label_append hcolon]
  exact String.toList_inj.ne.mpr hother

end Lines

section Frames

variable {frames : List Int}

theorem label_stackRow (frames : List Int) : label (stackRow frames) = "Stack".toList := by
  have hplain : ':' ∉ "Stack".toList := by decide
  have htext : stackRow frames = "Stack" ++ ":" ++
      (" " ++ " ".intercalate (frames.map (Hex.padded 3))) := by
    simp [stackRow, ← String.toList_inj]
  rw [htext, label_append hplain]

variable (hframes : ∀ address ∈ frames, 0 ≤ address)

include hframes

theorem unbroken_stackRow : Text.Unbroken (stackRow frames) := by
  constructor
  · simp [stackRow]
  · have hrest : '\n' ∉ (" ".intercalate (frames.map (Hex.padded 3))).toList := by
      apply Text.not_mem_intercalate (by decide)
      intro part hpart
      obtain ⟨address, haddress, rfl⟩ := List.mem_map.mp hpart
      obtain ⟨number, rfl⟩ := Int.eq_ofNat_of_zero_le (hframes address haddress)
      exact Hex.not_mem_padded (by decide) 3 number
    rw [stackRow, String.toList_append, List.mem_append, not_or]
    exact ⟨by decide, hrest⟩

theorem numbers_stackRow : numbers (stackRow frames) = frames.map Int.toNat := by
  have htext : stackRow frames = "Stack" ++ ":" ++ " " ++
      " ".intercalate (frames.map (Hex.padded 3)) := rfl
  rw [htext, numbers_append_blank, numbers_name (by decide),
    numbers_intercalate numbers_append_blank, List.flatMap_map, List.nil_append,
    ← List.flatMap_pure_eq_map]
  apply List.flatMap_congr
  intro address haddress
  obtain ⟨number, rfl⟩ := Int.eq_ofNat_of_zero_le (hframes address haddress)
  exact numbers_padded 3 number

end Frames

section Rows

variable (snapshot : Snapshot)

/-- The register of a number, zero when there are not so many. -/
def registerAt (number : Nat) : UInt8 :=
  snapshot.registers.getD number 0

/-- The four registers of a row. -/
def rowFields (r : Fin 4) : List Field :=
  (List.finRange 4).map fun c =>
    { name := "V" ++ Hex.padded 1 (r.val * 4 + c.val : Nat)
      width := 2
      number := (registerAt snapshot (r.val * 4 + c.val)).toNat }

/-- The timers and the registers that hold addresses. -/
def statusFields : List Field :=
  [⟨"DT", 2, (registerAt snapshot 16).toNat⟩, ⟨"ST", 2, (registerAt snapshot 17).toNat⟩,
    ⟨"I", 4, snapshot.index.toNat⟩, ⟨"PC", 3, snapshot.pc.toNat⟩,
    ⟨"SP", 1, snapshot.depth.toNat⟩]

theorem shownRow_eq_fieldLine (r : Fin 4) :
    shownRow snapshot.registers r = fieldLine (rowFields snapshot r) := by
  rw [shownRow, fieldLine, rowFields, List.map_map]
  rfl

theorem plain_rowFields (r : Fin 4) : ∀ field ∈ rowFields snapshot r, Plain field.name := by
  intro field hfield
  obtain ⟨c, -, rfl⟩ := List.mem_map.mp hfield
  have hdigit : ∀ mark ∉ Hex.capitals, mark ∉ (Hex.padded 1 (r.val * 4 + c.val : Nat)).toList :=
    fun mark hmark => Hex.not_mem_padded hmark _ _
  constructor
  case blank => simpa using hdigit ' ' (by decide)
  case colon => simpa using hdigit ':' (by decide)
  case lineBreak => simpa using hdigit '\n' (by decide)
  case other => simp [← String.toList_inj]

theorem plain_statusFields : ∀ field ∈ statusFields snapshot, Plain field.name := by
  simp only [statusFields, List.forall_mem_cons]
  refine ⟨?_, ?_, ?_, ?_, ?_, List.forall_mem_nil _⟩ <;> constructor <;> decide

end Rows

end RegisterListing

namespace Snapshot

/-- No number that a listing shows is negative. -/
structure Unsigned (snapshot : Snapshot) : Prop where
  index : 0 ≤ snapshot.index
  pc : 0 ≤ snapshot.pc
  depth : 0 ≤ snapshot.depth
  frames : ∀ address ∈ snapshot.frames, 0 ≤ address

/-- Two copies that differ in memory, display and unused stack slots only. -/
structure SameRegisters (snapshot other : Snapshot) : Prop where
  registers : snapshot.registers = other.registers
  index : snapshot.index = other.index
  pc : snapshot.pc = other.pc
  depth : snapshot.depth = other.depth
  frames : snapshot.frames = other.frames

variable {snapshot other : Snapshot}

theorem frames_of_depth_eq_zero (hdepth : snapshot.depth = 0) : snapshot.frames = [] := by
  rw [frames, hdepth]
  simp [Position.between]

/-- Addresses that are not negative are told by what is shown of them. -/
theorem Unsigned.map_cast_toNat (hunsigned : snapshot.Unsigned) :
    (snapshot.frames.map Int.toNat).map (fun number : Nat => (number : Int)) =
      snapshot.frames := by
  rw [List.map_map, List.map_congr_left (g := id), List.map_id]
  exact fun address haddress => Int.toNat_of_nonneg (hunsigned.frames address haddress)

end Snapshot

namespace RegisterListing

section Listings

variable (snapshot : Snapshot)

/-- The named numbers that are shown of a copy, line by line. -/
def shownFields : List (List Field) :=
  (List.finRange 4).map (rowFields snapshot) ++ [statusFields snapshot]

/-- The line of return addresses, if it is shown. -/
def shownFrames : List String :=
  if snapshot.depth = 0 then [] else [stackRow snapshot.frames]

def shownLines : List String :=
  (shownFields snapshot).map fieldLine ++ shownFrames snapshot

/-- The numbers in the line of return addresses, if it is shown. -/
def frameNumbers : List (List Nat) :=
  if snapshot.depth = 0 then [] else [snapshot.frames.map Int.toNat]

/-- The numbers that are shown of a copy, line by line. -/
def shownNumbers : List (List Nat) :=
  (shownFields snapshot).map (·.map Field.number) ++ frameNumbers snapshot

theorem plain_shownFields :
    ∀ fields ∈ shownFields snapshot, fields ≠ [] ∧ ∀ field ∈ fields, Plain field.name := by
  intro fields hfields
  rcases List.mem_append.mp hfields with hrow | hstatus
  · obtain ⟨r, -, rfl⟩ := List.mem_map.mp hrow
    exact ⟨by simp [rowFields], plain_rowFields snapshot r⟩
  · obtain rfl := List.mem_singleton.mp hstatus
    exact ⟨by simp [statusFields], plain_statusFields snapshot⟩

variable {snapshot} (hunsigned : snapshot.Unsigned)

include hunsigned

theorem statusRow_eq_fieldLine :
    statusRow snapshot (registerAt snapshot 16) (registerAt snapshot 17) =
      fieldLine (statusFields snapshot) := by
  obtain ⟨hindex, hpc, hdepth, -⟩ := hunsigned
  rw [← String.toList_inj]
  delta statusRow
  simp [statusFields, fieldLine, Field.text, Hex.byte, hindex, hpc, hdepth]

theorem text_eq_lines (enough : 18 ≤ snapshot.registers.size) :
    text snapshot = .ok ("\n".intercalate (shownLines snapshot)) := by
  have hrows : (List.finRange 4).map (shownRow snapshot.registers) =
      (List.finRange 4).map (fieldLine ∘ rowFields snapshot) :=
    List.map_congr_left fun r _ => shownRow_eq_fieldLine snapshot r
  have hstatus := statusRow_eq_fieldLine hunsigned
  rw [registerAt, registerAt] at hstatus
  rw [text, rows_eq_ite, if_pos enough, hstatus, hrows, shownLines, shownFields,
    List.map_append, List.map_map, List.append_assoc]
  rfl

theorem of_mem_shownFrames {line : String} (hline : line ∈ shownFrames snapshot) :
    Text.Unbroken line ∧ label line = "Stack".toList ∧
      numbers line = snapshot.frames.map Int.toNat := by
  rw [shownFrames] at hline
  split at hline
  · cases hline
  · obtain rfl := List.mem_singleton.mp hline
    exact ⟨unbroken_stackRow hunsigned.frames, label_stackRow _,
      numbers_stackRow hunsigned.frames⟩

theorem lines_shownLines :
    Text.lines ("\n".intercalate (shownLines snapshot)) = shownLines snapshot := by
  apply Text.lines_intercalate
  intro line hline
  rcases List.mem_append.mp hline with hfields | hframes
  · obtain ⟨fields, hshown, rfl⟩ := List.mem_map.mp hfields
    obtain ⟨hsome, hplain⟩ := plain_shownFields snapshot fields hshown
    exact unbroken_fieldLine hsome hplain
  · exact (of_mem_shownFrames hunsigned hframes).1

theorem stackLines_shownLines :
    stackLines ("\n".intercalate (shownLines snapshot)) = shownFrames snapshot := by
  have hnone : ((shownFields snapshot).map fieldLine).filter
      (label · = "Stack".toList) = [] := by
    rw [List.filter_eq_nil_iff]
    intro line hline
    obtain ⟨fields, hshown, rfl⟩ := List.mem_map.mp hline
    obtain ⟨hsome, hplain⟩ := plain_shownFields snapshot fields hshown
    exact fun hlabel => label_fieldLine_ne hsome hplain (of_decide_eq_true hlabel)
  have hall : (shownFrames snapshot).filter (label · = "Stack".toList) =
      shownFrames snapshot := by
    rw [List.filter_eq_self]
    intro line hline
    exact decide_eq_true (of_mem_shownFrames hunsigned hline).2.1
  rw [stackLines, lines_shownLines hunsigned, shownLines, List.filter_append, hnone, hall,
    List.nil_append]

theorem map_numbers_shownLines :
    (shownLines snapshot).map numbers = shownNumbers snapshot := by
  have hfields : ((shownFields snapshot).map fieldLine).map numbers =
      (shownFields snapshot).map (·.map Field.number) := by
    rw [List.map_map]
    apply List.map_congr_left
    intro fields hshown
    obtain ⟨-, hplain⟩ := plain_shownFields snapshot fields hshown
    exact numbers_fieldLine hplain
  have hframes : (shownFrames snapshot).map numbers = frameNumbers snapshot := by
    rw [shownFrames, frameNumbers]
    split
    · rfl
    · rw [List.map_singleton, numbers_stackRow hunsigned.frames]
  rw [shownLines, List.map_append, hfields, hframes, shownNumbers]

end Listings

section Telling

variable {snapshot other : Snapshot}

theorem frames_eq_of_frameNumbers (hunsigned : snapshot.Unsigned) (hunsigned' : other.Unsigned)
    (hdepth : snapshot.depth = other.depth)
    (hframes : frameNumbers snapshot = frameNumbers other) :
    snapshot.frames = other.frames := by
  by_cases hnone : snapshot.depth = 0
  · rw [Snapshot.frames_of_depth_eq_zero hnone,
      Snapshot.frames_of_depth_eq_zero (hdepth.symm.trans hnone)]
  · rw [frameNumbers, frameNumbers, ← hdepth, if_neg hnone, if_neg hnone, List.singleton_inj]
      at hframes
    rw [← hunsigned.map_cast_toNat, hframes, hunsigned'.map_cast_toNat]

variable (hsize : snapshot.registers.size = 18) (hsize' : other.registers.size = 18)

include hsize hsize'

/-- Registers are told by the numbers in their rows and by the timers. -/
theorem registers_eq_of_rows
    (hrows : ∀ r, (rowFields snapshot r).map Field.number = (rowFields other r).map Field.number)
    (hdelay : registerAt snapshot 16 = registerAt other 16)
    (hsound : registerAt snapshot 17 = registerAt other 17) :
    snapshot.registers = other.registers := by
  apply Array.ext (hsize.trans hsize'.symm)
  intro i hi _
  rw [Array.getElem_eq_getD 0, Array.getElem_eq_getD 0]
  change registerAt snapshot i = registerAt other i
  obtain hgeneral | rfl | rfl : i < 16 ∨ i = 16 ∨ i = 17 := by omega
  · have hplace : i / 4 * 4 + i % 4 = i := Nat.div_add_mod' i 4
    have hrow := hrows ⟨i / 4, by omega⟩
    rw [rowFields, rowFields, List.map_map, List.map_map] at hrow
    have hcell := List.map_inj_left.mp hrow ⟨i % 4, Nat.mod_lt _ (by decide)⟩ (List.mem_finRange _)
    simpa [hplace, UInt8.toNat_inj] using hcell
  · exact hdelay
  · exact hsound

variable (hunsigned : snapshot.Unsigned) (hunsigned' : other.Unsigned)

include hunsigned hunsigned'

theorem sameRegisters_of_shownNumbers (hnumbers : shownNumbers snapshot = shownNumbers other) :
    snapshot.SameRegisters other := by
  have htold : ∀ {one another : Int}, 0 ≤ one → 0 ≤ another → one.toNat = another.toNat →
      one = another := by omega
  obtain ⟨hfields, hframes⟩ := List.append_inj hnumbers (by simp [shownFields])
  rw [shownFields, shownFields, List.map_append, List.map_append, List.map_map, List.map_map]
    at hfields
  obtain ⟨hrows, hstatus⟩ := List.append_inj' hfields rfl
  simp only [statusFields, List.map_cons, List.map_nil, List.cons.injEq, and_true,
    UInt8.toNat_inj] at hstatus
  obtain ⟨hdelay, hsound, hindex, hpc, hdepth⟩ := hstatus
  have hsame := htold hunsigned.depth hunsigned'.depth hdepth
  constructor
  case registers =>
    exact registers_eq_of_rows hsize hsize'
      (fun r => List.map_inj_left.mp hrows r (List.mem_finRange r)) hdelay hsound
  case index => exact htold hunsigned.index hunsigned'.index hindex
  case pc => exact htold hunsigned.pc hunsigned'.pc hpc
  case depth => exact hsame
  case frames => exact frames_eq_of_frameNumbers hunsigned hunsigned' hsame hframes

/-- Copies with the same listing differ in nothing that a listing shows. -/
theorem sameRegisters_of_text (htext : text snapshot = text other) :
    snapshot.SameRegisters other := by
  rw [text_eq_lines hunsigned (Nat.le_of_eq hsize.symm),
    text_eq_lines hunsigned' (Nat.le_of_eq hsize'.symm), Except.ok.injEq] at htext
  apply sameRegisters_of_shownNumbers hsize hsize' hunsigned hunsigned'
  rw [← map_numbers_shownLines hunsigned, ← lines_shownLines hunsigned, htext,
    lines_shownLines hunsigned', map_numbers_shownLines hunsigned']

end Telling

end RegisterListing

namespace Machine

variable {machine : Machine}

/-- The addresses that a copy shows are the slots from one up to the depth. -/
theorem getElem?_frames_snapshot (hwithin : machine.calls.Within) (i : Nat) (address : Int) :
    machine.snapshot.frames[i]? = some address ↔
      (i + 1 : Int) ≤ machine.snapshot.depth ∧
        machine.snapshot.stack[i + 1]? = some address := by
  have hslots : machine.snapshot.stack[i + 1]? = (machine.calls.slots.toList.drop 1)[i]? := by
    rw [List.getElem?_drop, Nat.add_comm, Vector.getElem?_toList]
    exact Vector.getElem?_toArray
  have hdepth : (i + 1 : Int) ≤ machine.snapshot.depth ↔ i < machine.calls.depth.toNat := by
    change (i + 1 : Int) ≤ machine.calls.depth ↔ _
    omega
  rw [Snapshot.frames_snapshot, CallStack.frames_eq hwithin, hslots, hdepth, List.getElem?_take]
  split <;> simp [*]

theorem Sound.unsigned (hsound : machine.Sound) : machine.snapshot.Unsigned := by
  obtain ⟨-, hcalls, hpc, hindex⟩ := hsound
  refine ⟨hindex.1, hpc.1, hcalls.within.1, ?_⟩
  intro address haddress
  rw [Snapshot.frames_snapshot, CallStack.frames_eq hcalls.within] at haddress
  have hslot := List.mem_of_mem_drop (List.mem_of_mem_take haddress)
  obtain ⟨slot, hinside, rfl⟩ := Vector.getElem_of_mem (Vector.mem_toList_iff.mp hslot)
  exact (hcalls.entries ⟨slot, hinside⟩).1

end Machine

namespace RegisterListing

/-- Two reachable machines with the same listing have the same registers, depth and open calls.
The listing of a reachable machine has one line of return addresses when calls are open, and
none when there are not; in it stand the addresses behind the open calls, oldest first, which
are those of the slots from one up to the depth. -/
theorem listing_faithful {setup setup' : Setup} {history history' : List Event}
    (hroutine : ∀ event ∈ history, event.isRoutine)
    (hroutine' : ∀ event ∈ history', event.isRoutine) :
    let snapshot := (Vm.fresh.run setup history).machine.snapshot
    let other := (Vm.fresh.run setup' history').machine.snapshot
    let calls := Vm.fresh.openCalls setup [] history
    (text snapshot = text other → snapshot.SameRegisters other) ∧
      ∃ listing, text snapshot = .ok listing ∧
        stackLines listing = (if 0 < snapshot.depth then [stackRow calls] else []) ∧
        (∀ line ∈ stackLines listing,
          (numbers line).map (fun number : Nat => (number : Int)) = calls) ∧
        (calls.length : Int) = snapshot.depth ∧
        ∀ (i : Nat) (address : Int), calls[i]? = some address ↔
          (i + 1 : Int) ≤ snapshot.depth ∧ snapshot.stack[i + 1]? = some address := by
  intro snapshot other calls
  have hsound : (Vm.fresh.run setup history).machine.Sound := (Vm.sound_run hroutine).machine
  have hsound' : (Vm.fresh.run setup' history').machine.Sound :=
    (Vm.sound_run hroutine').machine
  have hsize : snapshot.registers.size = 18 := (Machine.snapshot_complete _).registers
  have hsize' : other.registers.size = 18 := (Machine.snapshot_complete _).registers
  have hcalls : snapshot.frames = calls := Vm.frames_run Vm.sound_fresh hroutine
  have hunsigned : snapshot.Unsigned := hsound.unsigned
  have hlines := stackLines_shownLines hunsigned
  refine ⟨sameRegisters_of_text hsize hsize' hunsigned hsound'.unsigned, _,
    text_eq_lines hunsigned (Nat.le_of_eq hsize.symm), ?_, ?_, ?_, ?_⟩
  · have hopen : 0 < snapshot.depth ↔ ¬ snapshot.depth = 0 := by
      have hdepth := hunsigned.depth
      omega
    rw [hlines, shownFrames, hcalls]
    simp only [hopen, ite_not]
  · intro line hline
    rw [hlines] at hline
    obtain ⟨-, -, hnumbers⟩ := of_mem_shownFrames hunsigned hline
    rw [hnumbers, hunsigned.map_cast_toNat, hcalls]
  · rw [← hcalls]
    exact CallStack.length_frames hsound.calls.within
  · intro i address
    rw [← hcalls]
    exact Machine.getElem?_frames_snapshot hsound.calls.within i address

/-- A call is open, and a second one that has returned is in a dead slot of the first machine
only, so that the machines differ and their listings do not. -/
theorem listing_faithful_dead_slot :
    let setup : Setup := { random := fun _ => 0 }
    let history : List Event :=
      [.load [0x22, 0x04, 0x00, 0x00, 0x22, 0x08, 0x00, 0x00, 0x00, 0xEE], .step, .step, .step]
    let history' : List Event := [.load [0x22, 0x04, 0x00, 0x00, 0x12, 0x06], .step, .step]
    let snapshot := (Vm.fresh.run setup history).machine.snapshot
    let other := (Vm.fresh.run setup history').machine.snapshot
    (∀ event ∈ history, event.isRoutine) ∧ (∀ event ∈ history', event.isRoutine) ∧
      snapshot.stack[2]? = some 0x206 ∧ other.stack[2]? = some 0 ∧
      text snapshot = text other ∧ snapshot.SameRegisters other ∧
      ∃ listing, text snapshot = .ok listing ∧ stackLines listing = ["Stack: 202"] := by
  intro setup history history' snapshot other
  have hroutine : ∀ event ∈ history, event.isRoutine := by decide
  have hroutine' : ∀ event ∈ history', event.isRoutine := by decide
  obtain ⟨hdead, hdead', htext, hopen⟩ : snapshot.stack[2]? = some 0x206 ∧
      other.stack[2]? = some 0 ∧ text snapshot = text other ∧
      (if 0 < snapshot.depth then [stackRow (Vm.fresh.openCalls setup [] history)] else []) =
        ["Stack: 202"] := by
    decide +kernel
  obtain ⟨hsame, listing, hlisting, hstack, -⟩ := listing_faithful hroutine hroutine'
  exact ⟨hroutine, hroutine', hdead, hdead', htext, hsame htext, listing, hlisting,
    hstack.trans hopen⟩

end RegisterListing

end Chip8
