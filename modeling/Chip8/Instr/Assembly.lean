/-
The assembly text of instructions and of words.  A disassembler goes by the bits of a
word alone and builds no instruction; a word that its tables do not list is written as
data.
-/
import Chip8.Instr
import Chip8.Text.Hex

namespace Chip8

/-- A general register in assembly text. -/
def Register.name (register : Register) : String :=
  "V" ++ Hex.padded 1 register.val

/-- A twelve-bit address in assembly text. -/
def Address.text (address : Address) : String :=
  Hex.padded 3 address.val

namespace Instr

/-- A name followed by two operands. -/
def binary (name left right : String) : String :=
  name ++ " " ++ left ++ ", " ++ right

/-- The assembly text of an instruction. -/
def assembly : Instr → String
  | .clear => "CLS"
  | .ret => "RET"
  | .jump address => "JP " ++ address.text
  | .call address => "CALL " ++ address.text
  | .skipIfByte x kk => binary "SE" x.name (Hex.byte kk)
  | .skipUnlessByte x kk => binary "SNE" x.name (Hex.byte kk)
  | .skipIfSame x y => binary "SE" x.name y.name
  | .setByte x kk => binary "LD" x.name (Hex.byte kk)
  | .addByte x kk => binary "ADD" x.name (Hex.byte kk)
  | .move x y => binary "LD" x.name y.name
  | .or x y => binary "OR" x.name y.name
  | .and x y => binary "AND" x.name y.name
  | .xor x y => binary "XOR" x.name y.name
  | .add x y => binary "ADD" x.name y.name
  | .sub x y => binary "SUB" x.name y.name
  | .shiftRight x => "SHR " ++ x.name
  | .subFrom x y => binary "SUBN" x.name y.name
  | .shiftLeft x => "SHL " ++ x.name
  | .skipUnlessSame x y => binary "SNE" x.name y.name
  | .setIndex address => binary "LD" "I" address.text
  | .jumpBy address => binary "JP" "V0" address.text
  | .random x kk => binary "RND" x.name (Hex.byte kk)
  | .draw x y rows =>
      binary "DRW" x.name y.name ++ ", " ++ Hex.padded 1 rows.val
  | .skipIfKey x => "SKP " ++ x.name
  | .skipUnlessKey x => "SKNP " ++ x.name
  | .readDelay x => binary "LD" x.name "DT"
  | .waitKey x => binary "LD" x.name "K"
  | .setDelay x => binary "LD" "DT" x.name
  | .setSound x => binary "LD" "ST" x.name
  | .addIndex x => binary "ADD" "I" x.name
  | .glyph x => binary "LD" "F" x.name
  | .decimal x => binary "LD" "B" x.name
  | .store x => binary "LD" "[I]" x.name
  | .fill x => binary "LD" x.name "[I]"
  | .unknown word => "DW #" ++ Hex.padded 4 word.toNat

example : (ofWord 0xD12F).assembly = "DRW V1, V2, F" := by decide
example : (ofWord 0xF055).assembly = "LD [I], V0" := by decide

end Instr

namespace Word

/-- The texts of the words that start with eight, by their low four bits. -/
def arithmeticText (x y : String) : Nat → Option String
  | 0x0 => some (Instr.binary "LD" x y)
  | 0x1 => some (Instr.binary "OR" x y)
  | 0x2 => some (Instr.binary "AND" x y)
  | 0x3 => some (Instr.binary "XOR" x y)
  | 0x4 => some (Instr.binary "ADD" x y)
  | 0x5 => some (Instr.binary "SUB" x y)
  | 0x6 => some ("SHR " ++ x)
  | 0x7 => some (Instr.binary "SUBN" x y)
  | 0xE => some ("SHL " ++ x)
  | _ => none

/-- The texts of the words that start with `F`, by their low byte. -/
def miscText (x : String) : Nat → Option String
  | 0x07 => some (Instr.binary "LD" x "DT")
  | 0x0A => some (Instr.binary "LD" x "K")
  | 0x15 => some (Instr.binary "LD" "DT" x)
  | 0x18 => some (Instr.binary "LD" "ST" x)
  | 0x1E => some (Instr.binary "ADD" "I" x)
  | 0x29 => some (Instr.binary "LD" "F" x)
  | 0x33 => some (Instr.binary "LD" "B" x)
  | 0x55 => some (Instr.binary "LD" "[I]" x)
  | 0x65 => some (Instr.binary "LD" x "[I]")
  | _ => none

/-- The text of a word that is no instruction. -/
def dataText (word : Word) : String :=
  "DW #" ++ Hex.padded 4 word.toNat

/-- The texts of the words of each family. -/
def familyText (word : Word) : Nat → String
  | 0x1 => "JP " ++ word.nnn.text
  | 0x2 => "CALL " ++ word.nnn.text
  | 0x3 => Instr.binary "SE" word.x.name (Hex.byte word.kk)
  | 0x4 => Instr.binary "SNE" word.x.name (Hex.byte word.kk)
  | 0x5 => if word.n = 0 then Instr.binary "SE" word.x.name word.y.name else word.dataText
  | 0x6 => Instr.binary "LD" word.x.name (Hex.byte word.kk)
  | 0x7 => Instr.binary "ADD" word.x.name (Hex.byte word.kk)
  | 0x8 => (arithmeticText word.x.name word.y.name word.n.val).getD word.dataText
  | 0x9 => if word.n = 0 then Instr.binary "SNE" word.x.name word.y.name else word.dataText
  | 0xA => Instr.binary "LD" "I" word.nnn.text
  | 0xB => Instr.binary "JP" "V0" word.nnn.text
  | 0xC => Instr.binary "RND" word.x.name (Hex.byte word.kk)
  | 0xD => Instr.binary "DRW" word.x.name word.y.name ++ ", " ++ Hex.padded 1 word.n.val
  | 0xE =>
      if word.kk = 0x9E then "SKP " ++ word.x.name
      else if word.kk = 0xA1 then "SKNP " ++ word.x.name
      else word.dataText
  | 0xF => (miscText word.x.name word.kk.toNat).getD word.dataText
  | _ => word.dataText

/-- The assembly text of a word, by its bits. -/
def assembly (word : Word) : String :=
  if word = 0x00E0 then "CLS"
  else if word = 0x00EE then "RET"
  else word.familyText word.family.val

example : (0x8AB6 : Word).assembly = "SHR VA" := by decide
example : (0x8AB8 : Word).assembly = "DW #8AB8" := by decide

end Word

end Chip8
