/-
Tokens of the command line.  An argument is classified by itself: it is a switch,
with a value attached or without, the separator `--`, an unknown switch, or plain.
Behind the separator everything is plain.
-/
import Chip8.CommandLine.Refusal
import Chip8.Text.DecimalDigit

namespace Chip8.CommandLine

/-- A classified argument. -/
inductive Token
  | plain (text : String)
  | named (switch : Switch) (attached : Option String)
  /-- The short spelling for help with more letters behind it, or an equals sign and
  perhaps more letters. -/
  | cluster (letters : List Char)
  /-- Something that looks like a switch and is none. -/
  | unknown (text : String)
  | separator
deriving Repr, DecidableEq

namespace Token

/-- What is before the first equals sign and, if there is one, what is behind it. -/
def splitValue (chars : List Char) : List Char × Option String :=
  (chars.takeWhile (· ≠ '='),
    match chars.dropWhile (· ≠ '=') with
    | [] => none
    | _ :: value => some (String.ofList value))

/-- A number after a minus sign: digits, or digits around a point of which the
ones in front may be missing.  One line break may follow. -/
def isNegativeNumber : List Char → Bool
  | '-' :: chars =>
      let body := if chars.getLast? = some '\n' then chars.dropLast else chars
      match body.dropWhile Text.isDigit with
      | [] => !body.isEmpty
      | '.' :: fraction => !fraction.isEmpty && fraction.all Text.isDigit
      | _ => false
  | _ => false

/-- An argument that starts with a dash and is neither a spelling nor the start of
one: plain when it is a negative number or holds a space. -/
def ofOddArgument (chars : List Char) : Token :=
  if isNegativeNumber chars || chars.contains ' ' then .plain (String.ofList chars)
  else .unknown (String.ofList chars)

/-- An argument with two dashes that is no exact spelling: an abbreviation when
exactly one switch starts with it. -/
def ofAbbreviation (chars : List Char) : Except Refusal Token :=
  let (name, attached) := splitValue chars
  match Switch.startingWith name with
  | [] => .ok (ofOddArgument chars)
  | [switch] => .ok (.named switch attached)
  | candidates => .error (.ambiguous (String.ofList chars) candidates)

/-- Classify one argument other than the separator. -/
def ofChars (chars : List Char) : Except Refusal Token :=
  match Switch.ofName? chars with
  | some switch => .ok (.named switch none)
  | none =>
      match splitValue chars, chars with
      | (name, some value), '-' :: '-' :: _ =>
          match Switch.ofName? name with
          | some switch => .ok (.named switch (some value))
          | none => ofAbbreviation chars
      | _, '-' :: '-' :: _ => ofAbbreviation chars
      | _, '-' :: 'h' :: '=' :: letters => .ok (.cluster letters)
      | _, '-' :: 'h' :: letters => .ok (.cluster letters)
      | _, '-' :: _ :: _ => .ok (ofOddArgument chars)
      | _, _ => .ok (.plain (String.ofList chars))

/-- Classify all arguments.  The first `--` is the separator. -/
def ofArguments : List String → Except Refusal (List Token)
  | [] => .ok []
  | argument :: rest =>
      if argument = "--" then .ok (.separator :: rest.map .plain)
      else do
        let token ← ofChars argument.toList
        let tokens ← ofArguments rest
        return token :: tokens

end Token

end Chip8.CommandLine
