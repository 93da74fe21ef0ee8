/-
Reading assembly text back.  The text of an instruction is its words with blanks between
them.  The words stand for one instruction only: the name tells the form, and with it
whether an operand is a register, a mark or a number.  So the text tells everything about
a word that the interpreter looks at, which is the whole word but for the second register
of a shift.
-/
import Chip8.Proofs.Disassembling
import Chip8.Proofs.Hexadecimal
import Chip8.Vm.Exec

namespace Chip8

namespace Instr

/-- The words of the assembly text. -/
def tokens : Instr → List String
  | .clear => ["CLS"]
  | .ret => ["RET"]
  | .jump address => ["JP", address.text]
  | .call address => ["CALL", address.text]
  | .skipIfByte x kk => ["SE", x.name ++ ",", Hex.byte kk]
  | .skipUnlessByte x kk => ["SNE", x.name ++ ",", Hex.byte kk]
  | .skipIfSame x y => ["SE", x.name ++ ",", y.name]
  | .setByte x kk => ["LD", x.name ++ ",", Hex.byte kk]
  | .addByte x kk => ["ADD", x.name ++ ",", Hex.byte kk]
  | .move x y => ["LD", x.name ++ ",", y.name]
  | .or x y => ["OR", x.name ++ ",", y.name]
  | .and x y => ["AND", x.name ++ ",", y.name]
  | .xor x y => ["XOR", x.name ++ ",", y.name]
  | .add x y => ["ADD", x.name ++ ",", y.name]
  | .sub x y => ["SUB", x.name ++ ",", y.name]
  | .shiftRight x => ["SHR", x.name]
  | .subFrom x y => ["SUBN", x.name ++ ",", y.name]
  | .shiftLeft x => ["SHL", x.name]
  | .skipUnlessSame x y => ["SNE", x.name ++ ",", y.name]
  | .setIndex address => ["LD", "I,", address.text]
  | .jumpBy address => ["JP", "V0,", address.text]
  | .random x kk => ["RND", x.name ++ ",", Hex.byte kk]
  | .draw x y rows => ["DRW", x.name ++ ",", y.name ++ ",", Hex.padded 1 rows.val]
  | .skipIfKey x => ["SKP", x.name]
  | .skipUnlessKey x => ["SKNP", x.name]
  | .readDelay x => ["LD", x.name ++ ",", "DT"]
  | .waitKey x => ["LD", x.name ++ ",", "K"]
  | .setDelay x => ["LD", "DT,", x.name]
  | .setSound x => ["LD", "ST,", x.name]
  | .addIndex x => ["ADD", "I,", x.name]
  | .glyph x => ["LD", "F,", x.name]
  | .decimal x => ["LD", "B,", x.name]
  | .store x => ["LD", "[I],", x.name]
  | .fill x => ["LD", x.name ++ ",", "[I]"]
  | .unknown word => ["DW", "#" ++ Hex.padded 4 word.toNat]

theorem assembly_eq_intercalate (instr : Instr) :
    instr.assembly = (String.singleton ' ').intercalate instr.tokens := by
  rw [← String.toList_inj]
  cases instr <;> simp [assembly, binary, tokens]

section Operands

/-- The capital digits in a token. -/
def digitsOf (token : String) : List Char :=
  token.toList.filter Hex.capitals.contains

/-- The number that the capital digits in a token write. -/
def number (token : String) : Nat :=
  Hex.value (digitsOf token)

def registerOf (token : String) : Register :=
  Fin.ofNat 16 (number token)

def rowsOf (token : String) : Fin 16 :=
  Fin.ofNat 16 (number token)

def byteOf (token : String) : UInt8 :=
  UInt8.ofNat (number token)

def addressOf (token : String) : Address :=
  Fin.ofNat 4096 (number token)

def wordOf (token : String) : Word :=
  UInt16.ofNat (number token)

/-- Whether a token starts like the name of a register. -/
def namesRegister (token : String) : Bool :=
  token.toList.head? = some 'V'

theorem digitsOf_append (left right : String) :
    digitsOf (left ++ right) = digitsOf left ++ digitsOf right := by
  simp only [digitsOf, String.toList_append, List.filter_append]

theorem digitsOf_padded (width n : Nat) :
    digitsOf (Hex.padded width n) = (Hex.padded width n).toList := by
  apply List.filter_eq_self.mpr
  intro digit hdigit
  exact List.contains_iff_mem.mpr (Hex.mem_capitals_of_mem_padded hdigit)

theorem number_padded (width n : Nat) : number (Hex.padded width n) = n := by
  rw [number, digitsOf_padded, Hex.value_padded]

theorem number_mark_append {mark : String} (hmark : digitsOf mark = []) (token : String) :
    number (mark ++ token) = number token := by
  rw [number, digitsOf_append, hmark, List.nil_append, number]

theorem number_append_mark {mark : String} (hmark : digitsOf mark = []) (token : String) :
    number (token ++ mark) = number token := by
  rw [number, digitsOf_append, hmark, List.append_nil, number]

theorem number_name (x : Register) : number x.name = x.val :=
  (number_mark_append (by decide) _).trans (number_padded 1 x.val)

@[simp] theorem registerOf_name (x : Register) : registerOf x.name = x := by
  rw [registerOf, number_name]
  exact Fin.ofNat_val_eq_self x

@[simp] theorem registerOf_name_comma (x : Register) : registerOf (x.name ++ ",") = x := by
  rw [registerOf, number_append_mark (by decide), number_name]
  exact Fin.ofNat_val_eq_self x

@[simp] theorem byteOf_byte (kk : UInt8) : byteOf (Hex.byte kk) = kk := by
  rw [byteOf, Hex.byte, number_padded]
  exact UInt8.ofNat_toNat

@[simp] theorem addressOf_text (address : Address) : addressOf address.text = address := by
  rw [addressOf, Address.text, number_padded]
  exact Fin.ofNat_val_eq_self address

@[simp] theorem wordOf_data (word : Word) :
    wordOf ("#" ++ Hex.padded 4 word.toNat) = word := by
  rw [wordOf, number_mark_append (by decide), number_padded]
  exact UInt16.ofNat_toNat

@[simp] theorem rowsOf_padded (rows : Fin 16) :
    rowsOf (Hex.padded 1 rows.val) = rows := by
  rw [rowsOf, number_padded]
  exact Fin.ofNat_val_eq_self rows

@[simp] theorem namesRegister_name : ∀ x : Register, namesRegister x.name = true := by
  decide

@[simp] theorem namesRegister_name_comma :
    ∀ x : Register, namesRegister (x.name ++ ",") = true := by
  decide

/-- The operands that are neither registers nor numbers. -/
theorem namesRegister_mark :
    namesRegister "DT" = false ∧ namesRegister "K" = false ∧ namesRegister "[I]" = false ∧
      namesRegister "DT," = false ∧ namesRegister "ST," = false ∧
      namesRegister "F," = false ∧ namesRegister "B," = false ∧
      namesRegister "[I]," = false ∧ namesRegister "I," = false := by
  decide

theorem namesRegister_padded (width n : Nat) :
    namesRegister (Hex.padded width n) = false := by
  rw [namesRegister, decide_eq_false_iff_not]
  intro hfirst
  have hdigit := Hex.mem_capitals_of_mem_padded (List.mem_of_head? hfirst)
  revert hdigit
  decide

@[simp] theorem namesRegister_byte (kk : UInt8) : namesRegister (Hex.byte kk) = false :=
  namesRegister_padded 2 kk.toNat

@[simp] theorem namesRegister_text (address : Address) :
    namesRegister address.text = false :=
  namesRegister_padded 3 address.val

end Operands

/-- The loads into a register. -/
def loadInto (x : Register) : String → Instr
  | "DT" => .readDelay x
  | "K" => .waitKey x
  | "[I]" => .fill x
  | token => .setByte x (byteOf token)

/-- The loads from a register. -/
def loadFrom? (y : Register) : String → Option Instr
  | "DT," => some (.setDelay y)
  | "ST," => some (.setSound y)
  | "F," => some (.glyph y)
  | "B," => some (.decimal y)
  | "[I]," => some (.store y)
  | _ => none

/-- The instruction of a name and two operands, by which of them are registers. -/
def ofPair? (name first second : String) : Option Instr :=
  let x := registerOf first
  let y := registerOf second
  match name, namesRegister first, namesRegister second with
  | "JP", _, _ => some (.jumpBy (addressOf second))
  | "SE", _, true => some (.skipIfSame x y)
  | "SE", _, false => some (.skipIfByte x (byteOf second))
  | "SNE", _, true => some (.skipUnlessSame x y)
  | "SNE", _, false => some (.skipUnlessByte x (byteOf second))
  | "LD", true, true => some (.move x y)
  | "LD", true, false => some (loadInto x second)
  | "LD", false, true => loadFrom? y first
  | "LD", false, false => some (.setIndex (addressOf second))
  | "ADD", true, true => some (.add x y)
  | "ADD", true, false => some (.addByte x (byteOf second))
  | "ADD", false, _ => some (.addIndex y)
  | "OR", _, _ => some (.or x y)
  | "AND", _, _ => some (.and x y)
  | "XOR", _, _ => some (.xor x y)
  | "SUB", _, _ => some (.sub x y)
  | "SUBN", _, _ => some (.subFrom x y)
  | "RND", _, _ => some (.random x (byteOf second))
  | _, _, _ => none

/-- The instruction that tokens write. -/
def ofTokens? : List String → Option Instr
  | ["CLS"] => some .clear
  | ["RET"] => some .ret
  | ["JP", address] => some (.jump (addressOf address))
  | ["CALL", address] => some (.call (addressOf address))
  | ["SHR", x] => some (.shiftRight (registerOf x))
  | ["SHL", x] => some (.shiftLeft (registerOf x))
  | ["SKP", x] => some (.skipIfKey (registerOf x))
  | ["SKNP", x] => some (.skipUnlessKey (registerOf x))
  | ["DW", data] => some (.unknown (wordOf data))
  | ["DRW", x, y, rows] =>
      some (.draw (registerOf x) (registerOf y) (rowsOf rows))
  | [name, first, second] => ofPair? name first second
  | _ => none

theorem byte_ne {mark : String} (hmark : digitsOf mark ≠ mark.toList) (kk : UInt8) :
    Hex.byte kk ≠ mark := by
  rintro rfl
  exact hmark (digitsOf_padded 2 kk.toNat)

theorem loadInto_byte (x : Register) (kk : UInt8) :
    loadInto x (Hex.byte kk) = .setByte x kk := by
  unfold loadInto
  split
  case h_4 => rw [byteOf_byte]
  all_goals exact absurd ‹_› (byte_ne (by decide) kk)

/-- The tokens of an instruction write no other. -/
theorem ofTokens?_tokens (instr : Instr) : ofTokens? instr.tokens = some instr := by
  cases instr with
  | clear => rfl
  | ret => rfl
  -- A byte is no mark, which a match on texts does not see by itself.
  | setByte x kk => simp [tokens, ofTokens?, ofPair?, loadInto_byte]
  | readDelay x | waitKey x | fill x =>
      simp [tokens, ofTokens?, ofPair?, loadInto, namesRegister_mark]
  | _ => simp [tokens, ofTokens?, ofPair?, loadFrom?, namesRegister_mark]

theorem blank_not_mem_tokens {instr : Instr} {token : String}
    (htoken : token ∈ instr.tokens) : ' ' ∉ token.toList := by
  have hplain : ∀ width number : Nat, ' ' ∉ (Hex.padded width number).toList :=
    Hex.not_mem_padded (by decide)
  revert token
  cases instr <;> simp [tokens, hplain, Register.name, Address.text, Hex.byte]

theorem tokens_ne_nil (instr : Instr) : instr.tokens ≠ [] := by
  cases instr <;> simp [tokens]

/-- No token holds a blank, so the text falls into its tokens again. -/
theorem split_assembly (instr : Instr) :
    (instr.assembly.split ' ').toList.map (·.copy) = instr.tokens := by
  rw [assembly_eq_intercalate,
    String.toList_split_intercalate fun _ => blank_not_mem_tokens,
    if_neg (tokens_ne_nil instr)]

theorem assembly_injective : Function.Injective assembly := by
  intro first second hsame
  have htokens : first.tokens = second.tokens := by
    rw [← split_assembly first, hsame, split_assembly second]
  apply Option.some.inj
  rw [← ofTokens?_tokens first, htokens, ofTokens?_tokens]

end Instr

namespace Word

variable {first second : Word}

theorem assembly_eq_iff :
    first.assembly = second.assembly ↔ Instr.ofWord first = Instr.ofWord second := by
  rw [assembly_eq_ofWord, assembly_eq_ofWord]
  exact Instr.assembly_injective.eq_iff

/-- Shifts of one register in one direction. -/
def SameShift (first second : Word) : Prop :=
  first.family = 0x8 ∧ second.family = 0x8 ∧ first.n = second.n ∧
    (first.n = 0x6 ∨ first.n = 0xE) ∧ first.x = second.x

theorem eq_of_address (hfamily : first.family = second.family)
    (haddress : first.nnn = second.nnn) : first = second := by
  have htop := congrArg Fin.val hfamily
  have hlow := congrArg Fin.val haddress
  simp only [family, nnn] at htop hlow
  apply UInt16.toNat_inj.mp
  omega

theorem eq_of_byte (hfamily : first.family = second.family) (hx : first.x = second.x)
    (hbyte : first.kk = second.kk) : first = second := by
  apply eq_of_address hfamily
  have hmiddle := congrArg Fin.val hx
  have hlow := congrArg UInt8.toNat hbyte
  rw [toNat_kk, toNat_kk] at hlow
  apply Fin.ext
  simp only [x, nnn] at hmiddle ⊢
  omega

theorem eq_of_nibbles (hfamily : first.family = second.family) (hx : first.x = second.x)
    (hy : first.y = second.y) (hn : first.n = second.n) : first = second := by
  apply eq_of_byte hfamily hx
  have hhigh := congrArg Fin.val hy
  have hlow := congrArg Fin.val hn
  apply UInt8.toNat_inj.mp
  rw [toNat_kk, toNat_kk]
  simp only [y, n] at hhigh hlow
  omega

theorem eq_or_sameShift_of_spells {instr : Instr} (hfirst : first.Spells instr)
    (hsecond : second.Spells instr) : first = second ∨ SameShift first second := by
  cases instr with
  | clear | ret => exact .inl (hfirst.trans hsecond.symm)
  | jump _ | call _ | setIndex _ | jumpBy _ =>
      obtain ⟨hfamily, haddress⟩ := hfirst
      obtain ⟨hfamily', haddress'⟩ := hsecond
      exact .inl (eq_of_address (hfamily.trans hfamily'.symm) (haddress.symm.trans haddress'))
  | skipIfByte _ _ | skipUnlessByte _ _ | setByte _ _ | addByte _ _ | random _ _ =>
      obtain ⟨hfamily, hx, hbyte⟩ := hfirst
      obtain ⟨hfamily', hx', hbyte'⟩ := hsecond
      exact .inl (eq_of_byte (hfamily.trans hfamily'.symm) (hx.symm.trans hx')
        (hbyte.symm.trans hbyte'))
  | draw _ _ _ =>
      obtain ⟨hfamily, hx, hy, hn⟩ := hfirst
      obtain ⟨hfamily', hx', hy', hn'⟩ := hsecond
      exact .inl (eq_of_nibbles (hfamily.trans hfamily'.symm) (hx.symm.trans hx')
        (hy.symm.trans hy') (hn.symm.trans hn'))
  | skipIfSame _ _ | skipUnlessSame _ _ | move _ _ | or _ _ | and _ _ | xor _ _ | add _ _
  | sub _ _ | subFrom _ _ =>
      obtain ⟨hfamily, hn, hx, hy⟩ := hfirst
      obtain ⟨hfamily', hn', hx', hy'⟩ := hsecond
      exact .inl (eq_of_nibbles (hfamily.trans hfamily'.symm) (hx.symm.trans hx')
        (hy.symm.trans hy') (hn.trans hn'.symm))
  -- A shift does not name its second register, so nothing more is known of it.
  | shiftRight _ =>
      obtain ⟨hfamily, hn, hx⟩ := hfirst
      obtain ⟨hfamily', hn', hx'⟩ := hsecond
      exact .inr ⟨hfamily, hfamily', hn.trans hn'.symm, .inl hn, hx.symm.trans hx'⟩
  | shiftLeft _ =>
      obtain ⟨hfamily, hn, hx⟩ := hfirst
      obtain ⟨hfamily', hn', hx'⟩ := hsecond
      exact .inr ⟨hfamily, hfamily', hn.trans hn'.symm, .inr hn, hx.symm.trans hx'⟩
  | skipIfKey _ | skipUnlessKey _ | readDelay _ | waitKey _ | setDelay _ | setSound _
  | addIndex _ | glyph _ | decimal _ | store _ | fill _ =>
      obtain ⟨hfamily, hbyte, hx⟩ := hfirst
      obtain ⟨hfamily', hbyte', hx'⟩ := hsecond
      exact .inl (eq_of_byte (hfamily.trans hfamily'.symm) (hx.symm.trans hx')
        (hbyte.trans hbyte'.symm))
  | unknown _ => exact .inl (hfirst.1.symm.trans hsecond.1)

theorem ofWord_of_shift {word : Word} (hfamily : word.family = 0x8)
    (hshift : word.n = 0x6 ∨ word.n = 0xE) :
    Instr.ofWord word =
      if word.n = 0x6 then .shiftRight word.x else .shiftLeft word.x := by
  unfold Instr.ofWord Instr.ofArithmetic
  rcases hshift with hn | hn
  · rw [hfamily, hn]
    rfl
  · rw [hfamily, hn]
    rfl

/-- Of the fields of a shift only the first register and the direction tell what it does; the
second register is not asked for. -/
theorem exec_of_shift (setup : Setup) (vm : Vm) {word : Word} (hfamily : word.family = 0x8)
    (hshift : word.n = 0x6 ∨ word.n = 0xE) :
    vm.exec setup (.ofWord word) =
      let value := vm.machine.v word.x
      .done (vm.withMachine
        (if word.n = 0x6 then
          vm.machine.setFlagged word.x (value >>> 1) (value.toNat.testBit 0)
        else vm.machine.setFlagged word.x (value <<< 1) (value.toNat.testBit 7))) := by
  rw [ofWord_of_shift hfamily hshift]
  split <;> rfl

theorem SameShift.exec_eq (hsame : SameShift first second) (setup : Setup) (vm : Vm) :
    vm.exec setup (.ofWord first) = vm.exec setup (.ofWord second) := by
  obtain ⟨hfamily, hfamily', hn, hshift, hx⟩ := hsame
  rw [exec_of_shift setup vm hfamily hshift, exec_of_shift setup vm hfamily' (hn ▸ hshift),
    hn, hx]

theorem ofWord_eq_iff :
    Instr.ofWord first = Instr.ofWord second ↔ first = second ∨ SameShift first second := by
  constructor
  · intro hsame
    have hsecond := second.spells_ofWord
    rw [← hsame] at hsecond
    exact eq_or_sameShift_of_spells first.spells_ofWord hsecond
  · rintro (rfl | ⟨hfamily, hfamily', hn, hshift, hx⟩)
    · rfl
    · have hshift' : second.n = 0x6 ∨ second.n = 0xE := hn ▸ hshift
      rw [ofWord_of_shift hfamily hshift, ofWord_of_shift hfamily' hshift', hn, hx]

theorem ofInt_eq_iff (first second : Int) :
    ofInt first = ofInt second ↔ first % 65536 = second % 65536 := by
  rw [← UInt16.toNat_inj, ← Int.natCast_inj, toNat_ofInt, toNat_ofInt]

/-- Numbers have one text when they have the same low sixteen bits or are shifts of one
register in one direction, and numbers with one text have the same effect on every state
of every interpreter. -/
theorem assembly_determines_execution (first second : Int) :
    ((ofInt first).assembly = (ofInt second).assembly ↔
        first % 65536 = second % 65536 ∨ SameShift (ofInt first) (ofInt second)) ∧
      ((ofInt first).assembly = (ofInt second).assembly → ∀ (setup : Setup) (vm : Vm),
        vm.exec setup (.ofWord (ofInt first)) = vm.exec setup (.ofWord (ofInt second))) := by
  refine ⟨?_, ?_⟩
  · rw [assembly_eq_iff, ofWord_eq_iff, ofInt_eq_iff]
  · intro hsame setup vm
    rcases ofWord_eq_iff.mp (assembly_eq_iff.mp hsame) with hword | hshift
    · rw [hword]
    · exact hshift.exec_eq setup vm

/-- Two halvings of `VA`, one of them above sixteen bits. -/
theorem assembly_determines_execution_shift :
    (ofInt 0x8AB6).assembly = (ofInt 0x18AC6).assembly ∧
      (0x8AB6 : Int) % 65536 ≠ 0x18AC6 % 65536 ∧
      SameShift (ofInt 0x8AB6) (ofInt 0x18AC6) ∧
      ∀ (setup : Setup) (vm : Vm), vm.exec setup (.ofWord (ofInt 0x8AB6)) =
        vm.exec setup (.ofWord (ofInt 0x18AC6)) := by
  obtain ⟨htexts, heffects⟩ := assembly_determines_execution 0x8AB6 0x18AC6
  have hsame : (ofInt 0x8AB6).assembly = (ofInt 0x18AC6).assembly := by decide
  have happart : (0x8AB6 : Int) % 65536 ≠ 0x18AC6 % 65536 := by decide
  exact ⟨hsame, happart, (htexts.mp hsame).resolve_left happart, heffects hsame⟩

end Word

end Chip8
