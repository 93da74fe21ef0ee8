/-
How single arguments are classified.  A switch is known by its name, with a value behind an
equals sign or without one.  A numeral is plain even when it starts with a minus sign, and so is
every argument that does not start with a dash.
-/
import Chip8.CommandLine.Token
import Chip8.Proofs.Numerals

namespace Chip8.CommandLine

variable {chars : List Char} {switch : Switch}

namespace Switch

theorem ofName?_longName (switch : Switch) : ofName? switch.longName.toList = some switch := by
  cases switch <;> decide +kernel

theorem exists_longName (switch : Switch) :
    ∃ name, switch.longName.toList = '-' :: '-' :: name ∧ '=' ∉ name := by
  cases switch <;> exact ⟨_, rfl, by decide⟩

theorem not_mem_longName (switch : Switch) : '=' ∉ switch.longName.toList := by
  obtain ⟨name, hname, hequals⟩ := exists_longName switch
  simp [hname, hequals]

theorem eq_of_ofName? (hname : ofName? chars = some switch) :
    chars = ['-', 'h'] ∨ chars = switch.longName.toList := by
  rw [ofName?] at hname
  split at hname
  · exact Or.inl ‹_›
  · have hfound := List.find?_some hname
    exact Or.inr (of_decide_eq_true hfound).symm

theorem ofName?_of_equals (hequals : '=' ∈ chars) : ofName? chars = none := by
  refine Option.eq_none_iff_forall_ne_some.mpr fun switch hname => ?_
  rcases eq_of_ofName? hname with rfl | rfl
  · exact absurd hequals (by decide)
  · exact not_mem_longName switch hequals

theorem ofName?_of_head (hhead : chars.head? ≠ some '-') : ofName? chars = none := by
  refine Option.eq_none_iff_forall_ne_some.mpr fun switch hname => ?_
  rcases eq_of_ofName? hname with rfl | rfl
  · exact hhead rfl
  · obtain ⟨name, hname, -⟩ := exists_longName switch
    exact hhead (by rw [hname]; rfl)

end Switch

namespace Token

theorem ofChars_longName (switch : Switch) :
    ofChars switch.longName.toList = .ok (.named switch none) := by
  unfold ofChars
  rw [Switch.ofName?_longName]

theorem splitValue_append (hequals : '=' ∉ chars) (value : List Char) :
    splitValue (chars ++ '=' :: value) = (chars, some (String.ofList value)) := by
  have hpos (char : Char) (hmem : char ∈ chars) : decide (char ≠ '=') = true :=
    decide_eq_true fun heq => hequals (heq ▸ hmem)
  rw [splitValue, List.takeWhile_append_of_pos hpos, List.dropWhile_append_of_pos hpos,
    List.takeWhile_cons_of_neg (by decide), List.dropWhile_cons_of_neg (by decide),
    List.append_nil]

theorem ofChars_attached (switch : Switch) (value : List Char) :
    ofChars (switch.longName.toList ++ '=' :: value) =
      .ok (.named switch (some (String.ofList value))) := by
  have hsplit := splitValue_append (Switch.not_mem_longName switch) value
  have hequals : '=' ∈ switch.longName.toList ++ '=' :: value := by simp
  have hwhole := Switch.ofName?_of_equals hequals
  have hname := Switch.ofName?_longName switch
  obtain ⟨name, hdashes, -⟩ := Switch.exists_longName switch
  rw [hdashes] at hsplit hwhole hname ⊢
  unfold ofChars
  rw [hwhole]
  simp only [List.cons_append] at hsplit ⊢
  simp only [hsplit, hname]

theorem ofChars_of_head (hhead : chars.head? ≠ some '-') :
    ofChars chars = .ok (.plain (String.ofList chars)) := by
  unfold ofChars
  rw [Switch.ofName?_of_head hhead]
  simp only
  split <;> first | rfl | exact absurd rfl hhead

/-- A dash and a character that starts no spelling. -/
theorem ofChars_of_second {second : Char} (hdash : second ≠ '-') (hh : second ≠ 'h')
    (rest : List Char) :
    ofChars ('-' :: second :: rest) = .ok (ofOddArgument ('-' :: second :: rest)) := by
  have hsecond {third : Char} {tail : List Char}
      (heq : '-' :: second :: rest = '-' :: third :: tail) : second = third :=
    (List.cons.inj (List.cons.inj heq).2).1
  have hname : Switch.ofName? ('-' :: second :: rest) = none := by
    refine Option.eq_none_iff_forall_ne_some.mpr fun switch hname => ?_
    obtain ⟨name, hlong, -⟩ := Switch.exists_longName switch
    rcases Switch.eq_of_ofName? hname with heq | heq
    · exact hh (hsecond heq)
    · exact hdash (hsecond (heq.trans hlong))
  unfold ofChars
  rw [hname]
  simp only
  split
  · next heq => exact absurd (hsecond heq) hdash
  · next heq _ => exact absurd (hsecond heq) hdash
  · next heq => exact absurd (hsecond heq) hh
  · next heq => exact absurd (hsecond heq) hh
  · rfl
  · next hodd _ => exact (hodd second rest rfl).elim

open Numeral

/-- Digits behind a minus sign are a negative number. -/
theorem isNegativeNumber_digits (digits : List (Fin 10)) (hdigits : digits ≠ []) :
    isNegativeNumber ('-' :: digits.map digitChar) = true := by
  have hline : (digits.map digitChar).getLast? ≠ some '\n' := by
    rw [List.getLast?_map]
    intro hlast
    obtain ⟨digit, -, hdigit⟩ := Option.map_eq_some_iff.mp hlast
    exact digitChar_ne (by decide) digit hdigit
  have hdrop : (digits.map digitChar).dropWhile Text.isDigit = [] := by
    refine List.dropWhile_eq_nil_iff.mpr fun char hmem => ?_
    obtain ⟨digit, -, rfl⟩ := List.mem_map.mp hmem
    exact isDigit_digitChar digit
  simp only [isNegativeNumber, if_neg hline, hdrop]
  simpa using hdigits

/-- A numeral is plain. -/
theorem ofChars_numeral (numeral : Numeral) :
    ofChars numeral.text.toList = .ok (.plain numeral.text) := by
  obtain ⟨sign, first, more⟩ := numeral
  rw [text, String.toList_ofList]
  cases sign with
  | bare =>
      refine ofChars_of_head fun hhead => ?_
      exact digitChar_ne (by decide) first (Option.some.inj hhead)
  | plus => exact ofChars_of_head fun hhead => absurd (Option.some.inj hhead) (by decide)
  | minus =>
      have hchars : (⟨.minus, first, more⟩ : Numeral).chars =
          '-' :: digitChar first :: more.map digitChar := rfl
      have hdash : digitChar first ≠ '-' := digitChar_ne (by decide) first
      have hh : digitChar first ≠ 'h' := digitChar_ne (by decide) first
      have hnumber := isNegativeNumber_digits (first :: more) (List.cons_ne_nil _ _)
      rw [hchars, ofChars_of_second hdash hh, ofOddArgument, ← List.map_cons, hnumber]
      rfl

end Token

end Chip8.CommandLine
