/-
The instructions.  Every word is an instruction: `Instr.ofWord` gives the word
itself back as `unknown` when the interpreter has no rule for it.
-/
import Chip8.Word

namespace Chip8

/-- One instruction with its operands.  Results go to `Vx`, and `kk` is a byte of the word;
`ofWord` tells the pattern of each instruction. -/
inductive Instr
  | clear
  | ret
  | jump (address : Address)
  | call (address : Address)
  | skipIfByte (x : Register) (kk : UInt8)
  | skipUnlessByte (x : Register) (kk : UInt8)
  | skipIfSame (x y : Register)
  | setByte (x : Register) (kk : UInt8)
  | addByte (x : Register) (kk : UInt8)
  | move (x y : Register)
  | or (x y : Register)
  | and (x y : Register)
  | xor (x y : Register)
  | add (x y : Register)
  | sub (x y : Register)
  | shiftRight (x : Register)
  /-- `Vy` less `Vx`. -/
  | subFrom (x y : Register)
  | shiftLeft (x : Register)
  | skipUnlessSame (x y : Register)
  | setIndex (address : Address)
  /-- Continue at an address plus `V0`. -/
  | jumpBy (address : Address)
  | random (x : Register) (kk : UInt8)
  | draw (x y : Register) (rows : Fin 16)
  | skipIfKey (x : Register)
  | skipUnlessKey (x : Register)
  | readDelay (x : Register)
  | waitKey (x : Register)
  | setDelay (x : Register)
  | setSound (x : Register)
  | addIndex (x : Register)
  | glyph (x : Register)
  /-- Write the three decimal digits of `Vx` at the index register. -/
  | decimal (x : Register)
  /-- Write `V0` to `Vx` at the index register. -/
  | store (x : Register)
  /-- Read `V0` to `Vx` at the index register. -/
  | fill (x : Register)
  /-- A word that no other instruction has. -/
  | unknown (word : Word)
deriving Repr, DecidableEq

namespace Instr

def ofSystem (word : Word) : Instr :=
  if word = 0x00E0 then .clear
  else if word = 0x00EE then .ret
  else .unknown word

def ofArithmetic (word : Word) : Instr :=
  match word.n.val with
  | 0x0 => .move word.x word.y
  | 0x1 => .or word.x word.y
  | 0x2 => .and word.x word.y
  | 0x3 => .xor word.x word.y
  | 0x4 => .add word.x word.y
  | 0x5 => .sub word.x word.y
  | 0x6 => .shiftRight word.x
  | 0x7 => .subFrom word.x word.y
  | 0xE => .shiftLeft word.x
  | _ => .unknown word

def ofKey (word : Word) : Instr :=
  match word.kk.toNat with
  | 0x9E => .skipIfKey word.x
  | 0xA1 => .skipUnlessKey word.x
  | _ => .unknown word

def ofMisc (word : Word) : Instr :=
  match word.kk.toNat with
  | 0x07 => .readDelay word.x
  | 0x0A => .waitKey word.x
  | 0x15 => .setDelay word.x
  | 0x18 => .setSound word.x
  | 0x1E => .addIndex word.x
  | 0x29 => .glyph word.x
  | 0x33 => .decimal word.x
  | 0x55 => .store word.x
  | 0x65 => .fill word.x
  | _ => .unknown word

/-- The instruction of a word, by its top four bits. -/
def ofWord (word : Word) : Instr :=
  match word.family.val with
  | 0x0 => ofSystem word
  | 0x1 => .jump word.nnn
  | 0x2 => .call word.nnn
  | 0x3 => .skipIfByte word.x word.kk
  | 0x4 => .skipUnlessByte word.x word.kk
  | 0x5 => if word.n = 0 then .skipIfSame word.x word.y else .unknown word
  | 0x6 => .setByte word.x word.kk
  | 0x7 => .addByte word.x word.kk
  | 0x8 => ofArithmetic word
  | 0x9 => if word.n = 0 then .skipUnlessSame word.x word.y else .unknown word
  | 0xA => .setIndex word.nnn
  | 0xB => .jumpBy word.nnn
  | 0xC => .random word.x word.kk
  | 0xD => .draw word.x word.y word.n
  | 0xE => ofKey word
  | _ => ofMisc word

example : ofWord 0x00EE = .ret := by decide
example : ofWord 0x8AB6 = .shiftRight 10 := by decide
example : ofWord 0x5121 = .unknown 0x5121 := by decide

end Instr

end Chip8
