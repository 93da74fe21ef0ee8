/-
The lines of a text.  A text that was put together from lines falls into these lines
again, as long as none of them is empty or broken itself.
-/
import Mathlib.Data.List.Basic

namespace Chip8.Text

/-- What stands between the line breaks of a text.  An empty text has no lines. -/
def lines (text : String) : List String :=
  if text = "" then [] else (text.split '\n').toList.map (·.copy)

/-- A line that is neither empty nor broken. -/
def Unbroken (line : String) : Prop :=
  line ≠ "" ∧ '\n' ∉ line.toList

theorem intercalate_ne_empty {separator line : String} {rest : List String}
    (hline : line ≠ "") : separator.intercalate (line :: rest) ≠ "" := by
  cases rest with
  | nil => simpa using hline
  | cons next others =>
      rw [String.intercalate_cons_cons]
      simp [hline]

/-- A character that stands in no part and not between them does not stand in the whole. -/
theorem not_mem_intercalate {mark : Char} {separator : String} {parts : List String}
    (hseparator : mark ∉ separator.toList) (hparts : ∀ part ∈ parts, mark ∉ part.toList) :
    mark ∉ (separator.intercalate parts).toList := by
  induction parts with
  | nil => simp
  | cons part rest ih =>
      obtain ⟨hpart, hrest⟩ := List.forall_mem_cons.mp hparts
      cases rest with
      | nil => simpa using hpart
      | cons next others =>
          rw [String.intercalate_cons_cons, String.toList_append, String.toList_append]
          simp only [List.mem_append, not_or]
          exact ⟨⟨hpart, hseparator⟩, ih hrest⟩

theorem lines_intercalate {shown : List String} (hunbroken : ∀ line ∈ shown, Unbroken line) :
    lines ("\n".intercalate shown) = shown := by
  cases shown with
  | nil => rfl
  | cons line rest =>
      have hline : line ≠ "" := (hunbroken line List.mem_cons_self).1
      rw [lines, if_neg (intercalate_ne_empty hline)]
      have hsplit := String.toList_split_intercalate fun shown hshown => (hunbroken shown hshown).2
      rw [if_neg (List.cons_ne_nil _ _)] at hsplit
      exact hsplit

end Chip8.Text
