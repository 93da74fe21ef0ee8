/-
Quoted text.  A text stands in single quotes, or in double ones when it holds a
single quote and no double quote.  The quote, the backslash and the characters
that are not printable are escaped; all else stands for itself.
-/
import Chip8.Text.Printable

namespace Chip8.Quoted

/-- The quotation mark for a text. -/
def mark (chars : List Char) : Char :=
  if chars.contains '\'' && !chars.contains '"' then '"' else '\''

/-- The last `width` hexadecimal digits of a code point. -/
def digits (width code : Nat) : List Char :=
  match width with
  | 0 => []
  | width + 1 => digits width (code / 16) ++ [Nat.digitChar (code % 16)]

/-- An escape by code point, in the shortest of three forms. -/
def escape (code : Nat) : List Char :=
  if code < 0x100 then '\\' :: 'x' :: digits 2 code
  else if code < 0x10000 then '\\' :: 'u' :: digits 4 code
  else '\\' :: 'U' :: digits 8 code

/-- How one character is written between quotation marks. -/
def encodeChar (mark char : Char) : List Char :=
  if char = mark ∨ char = '\\' then ['\\', char]
  else if char = '\n' then ['\\', 'n']
  else if char = '\r' then ['\\', 'r']
  else if char = '\t' then ['\\', 't']
  else if Text.isPrintable char then [char]
  else escape char.toNat

def encode (chars : List Char) : List Char :=
  let mark := mark chars
  mark :: chars.flatMap (encodeChar mark) ++ [mark]

/-- The quoted form of a text. -/
def text (text : String) : String :=
  String.ofList (encode text.toList)

example : encode ['a', '\n', '\''] = ['"', 'a', '\\', 'n', '\'', '"'] := by decide +kernel
example : encode [Char.ofNat 0x7F] = ['\'', '\\', 'x', '7', 'f', '\''] := by decide +kernel

end Chip8.Quoted
