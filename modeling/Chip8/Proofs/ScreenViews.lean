/-
The views of the screen.  The number that a machine gives for a cell, the mark that stands
for it in the text and its colour in the picture say the same, although one counts the cells,
one joins them line by line and one exchanges rows and columns.
-/
import Chip8.Proofs.Compositing
import Chip8.Proofs.Indexing
import Chip8.Proofs.Lines

namespace Chip8

namespace Display

theorem eq_of_pixels {one other : Display} (hsame : ∀ c r, one.pixel c r = other.pixel c r) :
    one = other := by
  apply Vector.ext
  intro number hnumber
  obtain ⟨c, r, hplace⟩ := exists_place ⟨number, hnumber⟩
  have hcell := hsame c r
  rw [pixel, pixel, hplace] at hcell
  exact hcell

/-- A screen of dark and lit cells is known when the lit ones are. -/
theorem Binary.eq_of_lit {one other : Display} (hone : one.Binary) (hother : other.Binary)
    (hlit : ∀ c r, one.pixel c r ≠ 0 ↔ other.pixel c r ≠ 0) : one = other := by
  apply eq_of_pixels
  intro c r
  have hcell := hlit c r
  rcases hone (place c r) with hdark | hbright
  · have hoff : other.pixel c r = 0 := by
      by_contra hbright
      exact hcell.mpr hbright hdark
    exact hdark.trans hoff.symm
  · have hon : other.pixel c r ≠ 0 := hcell.mp (by rw [pixel, hbright]; decide)
    exact hbright.trans ((hother (place c r)).resolve_left hon).symm

end Display

/-- The machine gives the cell that is numbered row by row. -/
theorem Machine.pixel_inside (machine : Machine) (c : Fin 64) (r : Fin 32) :
    machine.pixel c.val r.val = .ok (machine.display.pixel c r) := by
  have hlow : 0 ≤ (r.val : Int) * 64 + c.val := by omega
  have hhigh : (r.val : Int) * 64 + c.val < (2048 : Nat) := by omega
  rw [Machine.pixel, Position.resolve_of_lt hlow hhigh]
  rfl

namespace Screen

/-- The character at a column of a line of a text. -/
def mark? (text : String) (column line : Nat) : Option Char :=
  (Text.lines text)[line]?.bind fun line => line.toList[column]?

/-- The mark of a cell. -/
def mark (on off : Char) (value : UInt8) : Char :=
  if value = 0 then off else on

section Rows

variable (display : Display) (on off : Char)

/-- The line that is shown for a row of a screen. -/
def shownLine (r : Fin 32) : String :=
  shownRow display.toArray on.toString off.toString r

def shownLines : List String :=
  (List.finRange 32).map (shownLine display on off)

theorem getD_toArray (c : Fin 64) (r : Fin 32) :
    display.toArray.getD (r.val * 64 + c.val) 0 = display.pixel c r := by
  rw [← Array.getElem_eq_getD]
  rfl

theorem text_eq_lines :
    text display.toArray on.toString off.toString =
      .ok ("\n".intercalate (shownLines display on off)) := by
  have henough : 2048 ≤ display.toArray.size := Nat.le_of_eq display.size_toArray.symm
  rw [text_eq_ite, if_pos henough]
  rfl

theorem toList_shownLine (r : Fin 32) :
    (shownLine display on off r).toList =
      (List.finRange 64).map fun c => mark on off (display.pixel c r) := by
  rw [shownLine, shownRow, String.toList_join, List.flatMap_map, ← List.flatMap_pure_eq_map]
  apply List.flatMap_congr
  intro c _
  rw [getD_toArray]
  by_cases hdark : display.pixel c r = 0
  · simp [mark, hdark]
  · simp [mark, hdark]

theorem length_shownLine (r : Fin 32) : (shownLine display on off r).length = 64 := by
  rw [← String.length_toList, toList_shownLine, List.length_map, List.length_finRange]

end Rows

section Lines

variable (display : Display) {on off : Char}

theorem unbroken_shownLine (hon : on ≠ '\n') (hoff : off ≠ '\n') (r : Fin 32) :
    Text.Unbroken (shownLine display on off r) := by
  constructor
  · intro hempty
    have hlength := length_shownLine display on off r
    rw [hempty] at hlength
    cases hlength
  · intro hbreak
    rw [toList_shownLine] at hbreak
    obtain ⟨c, -, hmark⟩ := List.mem_map.mp hbreak
    rw [mark] at hmark
    split at hmark
    · exact hoff hmark
    · exact hon hmark

theorem lines_shown (hon : on ≠ '\n') (hoff : off ≠ '\n') :
    Text.lines ("\n".intercalate (shownLines display on off)) = shownLines display on off := by
  apply Text.lines_intercalate
  intro line hline
  obtain ⟨r, -, rfl⟩ := List.mem_map.mp hline
  exact unbroken_shownLine display hon hoff r

theorem mark?_shown (hon : on ≠ '\n') (hoff : off ≠ '\n') (c : Fin 64) (r : Fin 32) :
    mark? ("\n".intercalate (shownLines display on off)) c r =
      some (mark on off (display.pixel c r)) := by
  have hline : (shownLines display on off)[r.val]? = some (shownLine display on off r) := by
    simp [shownLines]
  rw [mark?, lines_shown display hon hoff, hline, Option.bind_some, toList_shownLine]
  simp

end Lines

variable {on off : Char} {value : UInt8}

theorem mark_eq_on_iff (hapart : on ≠ off) : mark on off value = on ↔ value ≠ 0 := by
  by_cases hdark : value = 0
  · simp [mark, hdark, hapart.symm]
  · simp [mark, hdark]

theorem get_cells (display : Display) (c : Fin 64) (r : Fin 32) :
    ((cells display).get r).get c = display.pixel c r := by
  have hcell : (cells display)[r.val][c.val] = display[r.val * 64 + c.val] := by simp [cells]
  exact hcell

theorem get_transpose {α : Type} {rows columns : Nat} (table : Vector (Vector α columns) rows)
    (c : Fin columns) (r : Fin rows) :
    ((transpose table).get c).get r = (table.get r).get c := by
  have hcell : (transpose table)[c.val][r.val] = table[r.val].get c := by
    rw [transpose, Vector.getElem_ofFn, Vector.getElem_map]
  exact hcell

theorem getElem_picture (display : Display) (c : Fin 64) (r : Fin 32) :
    (picture display)[c][r] = colour (display.pixel c r) :=
  calc (picture display)[c][r] = colour (transpose (cells display))[c][r] := by simp [picture]
    _ = colour (((cells display).get r).get c) := congrArg colour (get_transpose _ c r)
    _ = colour (display.pixel c r) := by rw [get_cells]

theorem colour_eq_white_iff :
    (∀ channel : Fin 3, (colour value)[channel] = 255) ↔ value ≠ 0 := by
  simp [colour]

theorem text_error_iff (display : Array UInt8) (on off : String) (error : Error) :
    text display on off = .error error ↔
      display.size < 2048 ∧ error = .position .bytes .outside := by
  rw [text_eq_ite]
  by_cases henough : 2048 ≤ display.size
  · simp [henough]
  · simp [henough, Nat.lt_of_not_le henough, eq_comm]

section Screens

variable {one other : Display}

theorem eq_of_text (hapart : on ≠ off) (hon : on ≠ '\n') (hoff : off ≠ '\n')
    (hone : one.Binary) (hother : other.Binary)
    (htexts : text one.toArray on.toString off.toString =
      text other.toArray on.toString off.toString) : one = other := by
  apply hone.eq_of_lit hother
  intro c r
  rw [text_eq_lines, text_eq_lines, Except.ok.injEq] at htexts
  have hmarks := mark?_shown one hon hoff c r
  rw [htexts, mark?_shown other hon hoff, Option.some_inj] at hmarks
  rw [← mark_eq_on_iff hapart, ← mark_eq_on_iff hapart, hmarks]

theorem eq_of_picture (hone : one.Binary) (hother : other.Binary)
    (hpictures : picture one = picture other) : one = other := by
  apply hone.eq_of_lit hother
  intro c r
  rw [← colour_eq_white_iff, ← colour_eq_white_iff, ← getElem_picture, ← getElem_picture,
    hpictures]

end Screens

/-- The number that the machine gives for a cell is not zero exactly when its mark in the text
is `on`, and exactly when all channels of its colour are full; when it is zero, the mark is `off`
and all channels are empty.  The text has 32 lines of 64 marks and the picture 64 columns of 32
colours, so that either of them tells screens of dark and lit cells apart.  Only a display of too
few cells has no text. -/
theorem views_agree (hapart : on ≠ off) (hon : on ≠ '\n') (hoff : off ≠ '\n') :
    (∀ machine : Machine, ∃ shown,
      text machine.display.toArray on.toString off.toString = .ok shown ∧
      (Text.lines shown).length = 32 ∧ (∀ line ∈ Text.lines shown, line.length = 64) ∧
      (picture machine.display).toArray.size = 64 ∧
      (∀ column ∈ picture machine.display, column.toArray.size = 32 ∧
        ∀ colour ∈ column, colour.toArray.size = 3) ∧
      ∀ (c : Fin 64) (r : Fin 32), ∃ value, machine.pixel c.val r.val = .ok value ∧
        (value ≠ 0 ↔ mark? shown c r = some on) ∧
        (value ≠ 0 ↔ ∀ channel : Fin 3, (picture machine.display)[c][r][channel] = 255) ∧
        (value = 0 → mark? shown c r = some off ∧
          ∀ channel : Fin 3, (picture machine.display)[c][r][channel] = 0)) ∧
    (∀ one other : Display, one.Binary → other.Binary →
      text one.toArray on.toString off.toString =
          text other.toArray on.toString off.toString ∨ picture one = picture other →
        one = other) ∧
    ∀ (display : Array UInt8) (lit dark : String) (error : Error),
      text display lit dark = .error error ↔
        display.size < 2048 ∧ error = .position .bytes .outside := by
  refine ⟨?_, ?_, text_error_iff⟩
  · intro machine
    have hlines := lines_shown machine.display hon hoff
    refine ⟨_, text_eq_lines machine.display on off, ?_, ?_, ?_, ?_, ?_⟩
    · rw [hlines, shownLines, List.length_map, List.length_finRange]
    · intro line hline
      rw [hlines] at hline
      obtain ⟨r, -, rfl⟩ := List.mem_map.mp hline
      exact length_shownLine machine.display on off r
    · exact Vector.size_toArray _
    · intro column _
      exact ⟨Vector.size_toArray column, fun colour _ => Vector.size_toArray colour⟩
    · intro c r
      refine ⟨_, machine.pixel_inside c r, ?_, ?_, ?_⟩
      · rw [mark?_shown _ hon hoff, Option.some_inj, mark_eq_on_iff hapart]
      · rw [getElem_picture, colour_eq_white_iff]
      · intro hdark
        rw [mark?_shown _ hon hoff, getElem_picture, hdark]
        exact ⟨rfl, by decide⟩
  · rintro one other hone hother (htexts | hpictures)
    · exact eq_of_text hapart hon hoff hone hother htexts
    · exact eq_of_picture hone hother hpictures

/-- A cell that holds seven is shown like any lit one, and not where column and row are
exchanged. -/
theorem views_agree_one_cell :
    let machine : Machine := { Machine.fresh with display := Display.blank.set 70 7 }
    ∃ shown, text machine.display.toArray "#" "." = .ok shown ∧
      mark? shown 6 1 = some '#' ∧ mark? shown 1 6 = some '.' ∧
      ∀ channel : Fin 3, (picture machine.display)[6][1][channel] = 255 := by
  intro machine
  have hlit : machine.pixel 6 1 = .ok 7 := by decide +kernel
  have hdark : machine.pixel 1 6 = .ok 0 := by decide +kernel
  have hagree := views_agree (by decide : '#' ≠ '.') (by decide) (by decide)
  obtain ⟨shown, hshown, -, -, -, -, hcells⟩ := hagree.1 machine
  obtain ⟨value, hvalue, hmark, hcolour, -⟩ := hcells 6 1
  obtain ⟨other, hother, -, -, hoff⟩ := hcells 1 6
  obtain rfl : (7 : UInt8) = value := Except.ok.inj (hlit.symm.trans hvalue)
  obtain rfl : (0 : UInt8) = other := Except.ok.inj (hdark.symm.trans hother)
  exact ⟨shown, hshown, hmark.mp (by decide), (hoff rfl).1, hcolour.mp (by decide)⟩

end Screen

end Chip8
