/-
Numerals.  An integer written in decimal is read back as its value, whatever its sign and its
leading zeros, as long as it has no more digits than are read; with more digits it is refused.
Every integer that is small enough can be written this way.
-/
import Chip8.Text.Integer
import Mathlib.Algebra.Ring.Nat
import Mathlib.Data.List.TakeWhile

namespace Chip8

/-- What is written before the digits. -/
inductive Sign
  | bare
  | plus
  | minus
deriving Repr, DecidableEq

def Sign.chars : Sign → List Char
  | .bare => []
  | .plus => ['+']
  | .minus => ['-']

/-- An integer written in decimal.  It has at least one digit. -/
structure Numeral where
  sign : Sign
  first : Fin 10
  more : List (Fin 10)
deriving Repr, DecidableEq

namespace Numeral

def digitChar (digit : Fin 10) : Char :=
  Nat.digitChar digit.val

def digits (numeral : Numeral) : List (Fin 10) :=
  numeral.first :: numeral.more

def chars (numeral : Numeral) : List Char :=
  numeral.sign.chars ++ numeral.digits.map digitChar

def text (numeral : Numeral) : String :=
  String.ofList numeral.chars

/-- The number that digits stand for behind the ones that make `before`. -/
def magnitude (before : Nat) (digits : List (Fin 10)) : Nat :=
  digits.foldl (fun value digit => value * 10 + digit.val) before

def value (numeral : Numeral) : Int :=
  match numeral.sign with
  | .minus => -(magnitude 0 numeral.digits : Int)
  | .bare | .plus => magnitude 0 numeral.digits

/-- Whether a numeral is short enough to be read. -/
def Short (numeral : Numeral) : Prop :=
  numeral.digits.length ≤ Integer.digitLimit

instance (numeral : Numeral) : Decidable numeral.Short :=
  inferInstanceAs (Decidable (_ ≤ _))

example : (⟨.minus, 0, [4, 2]⟩ : Numeral).text = "-042" := by decide
example : (⟨.minus, 0, [4, 2]⟩ : Numeral).value = -42 := by decide

open Text

theorem digitValue?_digitChar : ∀ digit, digitValue? (digitChar digit) = some digit.val := by
  decide

theorem isDigit_digitChar (digit : Fin 10) : isDigit (digitChar digit) = true := by
  rw [isDigit, digitValue?_digitChar]
  rfl

theorem isBlank_digitChar : ∀ digit, isBlank (digitChar digit) = false := by
  decide

/-- A digit is none of the characters that are no digit. -/
theorem digitChar_ne {char : Char} (hchar : isDigit char = false) (digit : Fin 10) :
    digitChar digit ≠ char := by
  rintro rfl
  rw [isDigit_digitChar] at hchar
  cases hchar

theorem moreDigits_map (before : Nat) (digits : List (Fin 10)) :
    Integer.moreDigits before (digits.map digitChar) = some (magnitude before digits) := by
  induction digits generalizing before with
  | nil => rfl
  | cons digit rest ih =>
      have hscore (char : Char) (behind : List Char) : digitChar digit = '_' →
          rest.map digitChar = char :: behind → False :=
        fun hchar _ => digitChar_ne (by decide) digit hchar
      rw [List.map_cons, Integer.moreDigits.eq_3 _ _ _ hscore, digitValue?_digitChar]
      exact ih _

variable {numeral : Numeral}

theorem natural?_digits (numeral : Numeral) :
    Integer.natural? (numeral.digits.map digitChar) = some (magnitude 0 numeral.digits) := by
  simp only [digits, List.map_cons, Integer.natural?, digitValue?_digitChar, moreDigits_map,
    magnitude, List.foldl_cons, Nat.zero_mul, Nat.zero_add]

theorem signed?_chars (numeral : Numeral) :
    Integer.signed? numeral.chars = some numeral.value := by
  obtain ⟨sign, first, more⟩ := numeral
  have hdigits := natural?_digits ⟨sign, first, more⟩
  cases sign with
  | minus | plus =>
      simp only [chars, Sign.chars, List.cons_append, List.nil_append, Integer.signed?,
        hdigits]
      rfl
  | bare =>
      simp only [chars, Sign.chars, List.nil_append, digits, List.map_cons] at hdigits ⊢
      rw [Integer.signed?.eq_3 _
        (fun _ hchars => digitChar_ne (by decide) first (List.cons.inj hchars).1)
        (fun _ hchars => digitChar_ne (by decide) first (List.cons.inj hchars).1), hdigits]
      rfl

theorem countP_chars (numeral : Numeral) :
    numeral.chars.countP isDigit = numeral.digits.length := by
  have hsign : numeral.sign.chars.countP isDigit = 0 := by
    cases numeral.sign <;> decide
  rw [chars, List.countP_append, hsign, Nat.zero_add, List.countP_map]
  exact List.countP_eq_length.mpr fun digit _ => isDigit_digitChar digit

/-- A numeral has a digit, so it is no text without digits. -/
theorem text_ne {other : String} (hother : other.toList.countP isDigit = 0) :
    numeral.text ≠ other := by
  rintro rfl
  rw [text, String.toList_ofList, countP_chars] at hother
  cases hother

theorem isBlank_of_mem : ∀ char ∈ numeral.chars, isBlank char = false := by
  refine List.forall_mem_append.mpr ⟨?_, ?_⟩
  · cases numeral.sign with
    | bare => exact List.forall_mem_nil _
    | plus | minus => exact List.forall_mem_singleton.mpr (by decide)
  · exact List.forall_mem_map.mpr fun digit _ => isBlank_digitChar digit

theorem trimBlanks_eq_self {chars : List Char}
    (hblank : ∀ char ∈ chars, isBlank char = false) : trimBlanks chars = chars := by
  have hdrop (kept : List Char) (hkept : ∀ char ∈ kept, isBlank char = false) :
      kept.dropWhile isBlank = kept :=
    List.dropWhile_eq_self_iff.mpr fun _ =>
      Bool.eq_false_iff.mp (hkept _ (List.getElem_mem _))
  rw [trimBlanks, hdrop chars hblank,
    hdrop chars.reverse fun char hmem => hblank char (List.mem_reverse.mp hmem),
    List.reverse_reverse]

/-- A numeral that is short enough is read back as its value. -/
theorem ofString?_text (hshort : numeral.Short) :
    Integer.ofString? numeral.text = some numeral.value := by
  rw [Integer.ofString?, text, String.toList_ofList, Integer.ofChars?, countP_chars,
    if_neg (Nat.not_lt.mpr hshort), trimBlanks_eq_self isBlank_of_mem,
    signed?_chars]

theorem ofString?_text_of_not_short (hlong : ¬ numeral.Short) :
    Integer.ofString? numeral.text = none := by
  rw [Integer.ofString?, text, String.toList_ofList, Integer.ofChars?, countP_chars,
    if_pos (Nat.lt_of_not_le hlong)]

/-- A number with few enough digits is written with that many. -/
theorem exists_magnitude {count number : Nat} (hnumber : number < 10 ^ (count + 1)) :
    ∃ (first : Fin 10) (more : List (Fin 10)),
      more.length ≤ count ∧ magnitude 0 (first :: more) = number := by
  induction count generalizing number with
  | zero =>
      have hdigit : number < 10 := by simpa using hnumber
      exact ⟨⟨number, hdigit⟩, [], Nat.le_refl 0, by simp [magnitude]⟩
  | succ count ih =>
      have hdiv : number / 10 < 10 ^ (count + 1) := by
        rw [Nat.pow_succ] at hnumber
        exact Nat.div_lt_of_lt_mul (by rwa [Nat.mul_comm])
      obtain ⟨first, more, hlength, hvalue⟩ := ih hdiv
      refine ⟨first, more ++ [⟨number % 10, Nat.mod_lt _ (by decide)⟩], ?_, ?_⟩
      · rw [List.length_append, List.length_singleton]
        exact Nat.succ_le_succ hlength
      · calc magnitude 0 (first :: (more ++ [⟨number % 10, Nat.mod_lt _ (by decide)⟩]))
          _ = magnitude 0 (first :: more) * 10 + number % 10 := by
              rw [← List.cons_append, magnitude, List.foldl_append]
              rfl
          _ = number := by rw [hvalue, Nat.div_add_mod']

/-- Every integer with few enough digits has a numeral that is read. -/
theorem exists_short {number : Int} (hnumber : number.natAbs < 10 ^ Integer.digitLimit) :
    ∃ numeral : Numeral, numeral.Short ∧ numeral.value = number := by
  have hlimit : Integer.digitLimit = 4299 + 1 := rfl
  rw [hlimit] at hnumber
  obtain ⟨first, more, hlength, hvalue⟩ := exists_magnitude hnumber
  have hshort (sign : Sign) : (⟨sign, first, more⟩ : Numeral).Short :=
    Nat.succ_le_succ hlength
  rcases Int.natAbs_eq number with hsign | hsign
  · exact ⟨⟨.bare, first, more⟩, hshort .bare, by rw [hsign, ← hvalue]; rfl⟩
  · exact ⟨⟨.minus, first, more⟩, hshort .minus, by rw [hsign, ← hvalue]; rfl⟩

end Numeral

end Chip8
