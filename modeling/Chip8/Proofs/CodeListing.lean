/-
Listings of code.  From any address on a disassembly shows every word that lies in the
memory with both of its bytes, up to the number of lines that is asked for.  It shows
nothing at the program counter exactly when the next fetch is refused, and otherwise the
word that is fetched stands in its first line.
-/
import Chip8.Disassembly
import Chip8.Proofs.Assembler
import Chip8.Proofs.Indexing
import Chip8.Proofs.Lines
import Chip8.Proofs.Reachable

namespace Chip8

namespace Instr

theorem lineBreak_not_mem_assembly (instr : Instr) : '\n' ∉ instr.assembly.toList := by
  have hplain : ∀ width number : Nat, '\n' ∉ (Hex.padded width number).toList :=
    Hex.not_mem_padded (by decide)
  cases instr <;> simp [assembly, binary, Register.name, Address.text, Hex.byte, hplain]

end Instr

namespace Disassembly

/-- The word that a byte and the one after it make, high byte first. -/
def WordAt (memory : Array UInt8) (address : Nat) (word : Word) : Prop :=
  ∃ high low, memory[address]? = some high ∧ memory[address + 1]? = some low ∧
    word.toNat = 256 * high.toNat + low.toNat

/-- A line that names an address in at least three digits, a word in four, and the
instruction that the word stands for. -/
def Names (line : String) (address : Nat) (word : Word) : Prop :=
  ∃ place digits, line = place ++ ": " ++ digits ++ "  " ++ word.assembly ∧
    Hex.Writes 3 address place ∧ Hex.Writes 4 word.toNat digits ∧ digits.length = 4

variable {memory : Array UInt8} {address : Nat}

theorem wordAt_of_lt (hinside : address + 1 < memory.size) :
    ∃ word, wordAt memory address = .ok word ∧ WordAt memory address word := by
  have hfirst : address < memory.size := Nat.lt_of_succ_lt hinside
  have hlow : Snapshot.byteAt memory (address + 1) = .ok memory[address + 1] :=
    Snapshot.byteAt_of_lt hinside
  refine ⟨.ofBytes memory[address] memory[address + 1], ?_, memory[address],
    memory[address + 1], Array.getElem?_eq_getElem hfirst, Array.getElem?_eq_getElem hinside, ?_⟩
  · rw [wordAt, Snapshot.byteAt_of_lt hfirst, hlow]
    rfl
  · rw [Word.toNat_ofBytes, Nat.mul_comm]

/-- Lines of a listing, from an address on and without gaps. -/
inductive Lists (memory : Array UInt8) : Nat → List Line → Prop
  | nil (address : Nat) : Lists memory address []
  | cons {address : Nat} {word : Word} {rest : List Line} (hword : WordAt memory address word)
      (hrest : Lists memory (address + 2) rest) :
      Lists memory address ({ address, word } :: rest)

theorem linesFrom_of_le {count : Nat} (hinside : 0 < count → address + 2 * count ≤ memory.size) :
    ∃ shown, linesFrom memory address count = .ok shown ∧ shown.length = count ∧
      Lists memory address shown := by
  -- The lines that are left start two bytes on, so the address is general.
  induction count generalizing address with
  | zero => exact ⟨[], rfl, rfl, .nil address⟩
  | succ count ih =>
      have hend := hinside (Nat.succ_pos count)
      obtain ⟨word, hword, hbytes⟩ := wordAt_of_lt (by omega : address + 1 < memory.size)
      obtain ⟨rest, hrest, hlength, hlists⟩ := @ih (address + 2) (by omega)
      have hnext : linesFrom memory ((address : Int) + 2) count = .ok rest := hrest
      refine ⟨{ address, word } :: rest, ?_, congrArg (· + 1) hlength, .cons hbytes hlists⟩
      rw [linesFrom, hword, hnext]
      rfl

/-- What stands in the lines of a listing, told from the place of each. -/
theorem Lists.line {shown : List Line} (hlists : Lists memory address shown) {i : Nat}
    {line : Line} (hline : shown[i]? = some line) :
    ∃ word, WordAt memory (address + 2 * i) word ∧
      line = { address := (address + 2 * i : Nat), word } := by
  induction hlists generalizing i with
  | nil address => cases hline
  | @cons address word rest hword hrest ih =>
      cases i with
      | zero =>
          obtain rfl := Option.some.inj hline
          exact ⟨word, hword, rfl⟩
      | succ i =>
          obtain ⟨next, hnext, rfl⟩ := ih hline
          have hplace : address + 2 + 2 * i = address + 2 * (i + 1) := by omega
          rw [hplace] at hnext ⊢
          exact ⟨next, hnext, rfl⟩

/-- The text of a line names its address and its word. -/
theorem names_text (address : Nat) (word : Word) :
    Names (Line.text { address, word }) address word := by
  have hword : word.toNat < 16 ^ 4 := word.toNat_lt
  exact ⟨Hex.padded 3 address, Hex.padded 4 word.toNat, rfl, Hex.writes_padded 3 address,
    Hex.writes_padded 4 word.toNat, Hex.length_padded_of_lt (by decide) hword⟩

theorem unbroken_text (address : Nat) (word : Word) :
    Text.Unbroken (Line.text { address, word }) := by
  have hplain : ∀ width number : Nat, '\n' ∉ (Hex.padded width number).toList :=
    Hex.not_mem_padded (by decide)
  have hassembly : '\n' ∉ word.assembly.toList := by
    rw [Word.assembly_eq_ofWord]
    exact (Instr.ofWord word).lineBreak_not_mem_assembly
  constructor
  · simp [Line.text]
  · simp [Line.text, hplain, hassembly]

/-- The lines of a listing are shown one by one. -/
theorem Lists.unbroken {shown : List Line} (hlists : Lists memory address shown) :
    ∀ line ∈ shown.map Line.text, Text.Unbroken line := by
  induction hlists with
  | nil address => simp
  | cons hword hrest ih =>
      rw [List.map_cons]
      exact List.forall_mem_cons.mpr ⟨unbroken_text _ _, ih⟩

theorem lineCount_eq (size start count : Nat) :
    (lineCount size start count : Int) = max 0 (min (count : Int) ((size - start) / 2)) := by
  unfold lineCount
  omega

/-- A listing from an address that is not negative is never refused. -/
theorem exists_listing (memory : Array UInt8) (start count : Nat) :
    ∃ shown, text memory start count = .ok ("\n".intercalate (shown.map Line.text)) ∧
      shown.length = lineCount memory.size start count ∧ Lists memory start shown := by
  have hinside : 0 < lineCount memory.size start count →
      start + 2 * lineCount memory.size start count ≤ memory.size := by
    unfold lineCount
    omega
  obtain ⟨shown, hshown, hlength, hlists⟩ := linesFrom_of_le hinside
  refine ⟨shown, ?_, hlength, hlists⟩
  rw [text, lines, hshown]
  rfl

theorem WordAt.unique {first second : Word} (hfirst : WordAt memory address first)
    (hsecond : WordAt memory address second) : first = second := by
  obtain ⟨high, low, hhigh, hlow, hword⟩ := hfirst
  obtain ⟨high', low', hhigh', hlow', hword'⟩ := hsecond
  obtain rfl := Option.some.inj (hhigh.symm.trans hhigh')
  obtain rfl := Option.some.inj (hlow.symm.trans hlow')
  exact UInt16.toNat_inj.mp (hword.trans hword'.symm)

/-- The word that is fetched is the one that its two bytes make. -/
theorem wordAt_fetched (machine : Machine) (hinside : machine.pc.toNat + 2 ≤ 4096) :
    WordAt machine.memory.toArray machine.pc.toNat machine.fetched := by
  have hpeek : ∀ place < 4096,
      machine.memory.toArray[place]? = some (machine.memory.peek place) := by
    intro place hplace
    simp [Memory.peek, hplace]
  refine ⟨_, _, hpeek _ (by omega), hpeek _ (by omega), ?_⟩
  rw [Machine.fetched, Word.toNat_ofBytes, Nat.mul_comm]

/-- What a listing at the program counter shows: nothing, or the word that is fetched. -/
theorem listing_at_pc {machine : Machine} (hsound : machine.Sound) {count : Nat}
    (hcount : 1 ≤ count) :
    ∃ listing, text machine.snapshot.memory machine.snapshot.pc count = .ok listing ∧
      (listing = "" ↔ ∃ cause, machine.memory.word machine.pc = .error cause ∧
        cause.kind = .memory) ∧
      ∀ word, machine.memory.word machine.pc = .ok word →
        ∃ line rest, Text.lines listing = line :: rest ∧ Names line machine.pc.toNat word := by
  obtain ⟨shown, hshown, hlength, hlists⟩ :=
    exists_listing machine.snapshot.memory machine.pc.toNat count
  have hpc : ((machine.pc.toNat : Nat) : Int) = machine.pc := Int.toNat_of_nonneg hsound.pc.1
  have hsize : machine.snapshot.memory.size = 4096 := machine.memory.size_toArray
  rw [hpc] at hshown
  have hcases := lineCount_eq machine.snapshot.memory.size machine.pc.toNat count
  rw [← hlength, hsize, hpc] at hcases
  refine ⟨_, hshown, ?_⟩
  rw [Text.lines_intercalate hlists.unbroken]
  cases hfetch : Memory.refusal machine.pc 2 with
  | some cause =>
      obtain ⟨hrange, rfl⟩ := (Memory.refusal_eq_some_iff _ _ _).mp hfetch
      have hword := machine.word_of_refusal hfetch
      have houtside : 4096 < machine.pc + 2 := by
        simp only [Memory.InRange] at hrange
        omega
      have hnone : shown = [] := List.length_eq_zero_iff.mp (by omega)
      subst hnone
      refine ⟨⟨fun _ => ⟨_, hword, rfl⟩, fun _ => rfl⟩, ?_⟩
      intro word hfetched
      rw [hword] at hfetched
      cases hfetched
  | none =>
      obtain ⟨hlow, hhigh⟩ := (Memory.refusal_eq_none_iff _ _).mp hfetch
      have hword := machine.word_of_served hfetch
      cases hlists with
      | nil =>
          simp only [List.length_nil] at hcases
          omega
      | @cons _ first rest hfirst _ =>
          have hsame : first = machine.fetched :=
            hfirst.unique (wordAt_fetched machine (by omega))
          subst hsame
          refine ⟨⟨fun hempty => ?_, ?_⟩, ?_⟩
          · exact absurd hempty (Text.intercalate_ne_empty (unbroken_text _ _).1)
          · rintro ⟨cause, hrefused, -⟩
            rw [hword] at hrefused
            cases hrefused
          · intro word hfetched
            rw [hword] at hfetched
            obtain rfl := Except.ok.inj hfetched
            exact ⟨_, _, rfl, names_text _ _⟩

/-- A disassembly is never refused from an address that is not negative.  It shows the words
of the memory in their order, as many as there are and as are asked for; at the program
counter of a machine it shows nothing exactly when the next fetch leaves the memory, and
the fetched word first in any other case. -/
theorem listing_agrees_with_fetch :
    (∀ (memory : Array UInt8) (start count : Nat),
      ∃ listing, text memory start count = .ok listing ∧
        ((Text.lines listing).length : Int) =
          max 0 (min (count : Int) ((memory.size - start) / 2)) ∧
        ∀ i line, (Text.lines listing)[i]? = some line →
          ∃ word, WordAt memory (start + 2 * i) word ∧ Names line (start + 2 * i) word) ∧
      ∀ (setup : Setup) (vm : Vm), Vm.Reachable setup vm → ∀ count : Nat, 1 ≤ count →
        ∃ listing,
          text vm.machine.snapshot.memory vm.machine.snapshot.pc count = .ok listing ∧
          (listing = "" ↔ ∃ cause, vm.machine.memory.word vm.machine.pc = .error cause ∧
            cause.kind = .memory) ∧
          ∀ word, vm.machine.memory.word vm.machine.pc = .ok word →
            ∃ line rest, Text.lines listing = line :: rest ∧
              Names line vm.machine.pc.toNat word := by
  refine ⟨?_, ?_⟩
  · intro memory start count
    obtain ⟨shown, hshown, hlength, hlists⟩ := exists_listing memory start count
    refine ⟨_, hshown, ?_⟩
    rw [Text.lines_intercalate hlists.unbroken]
    refine ⟨?_, ?_⟩
    · rw [List.length_map, hlength, lineCount_eq]
    · intro i line hline
      rw [List.getElem?_map, Option.map_eq_some_iff] at hline
      obtain ⟨entry, hentry, rfl⟩ := hline
      obtain ⟨word, hword, rfl⟩ := hlists.line hentry
      exact ⟨word, hword, names_text _ word⟩
  · intro setup vm hreachable count hcount
    exact listing_at_pc hreachable.sound.machine hcount

/-- A jump to the last byte, where no word starts, and a memory of three bytes that is listed
from an odd address. -/
theorem listing_agrees_with_fetch_last_byte :
    let setup : Setup := { random := fun _ => 0 }
    let vm := Vm.fresh.run setup [.load [0x1F, 0xFF], .step]
    Vm.Reachable setup vm ∧
      vm.machine.memory.word vm.machine.pc = .error (.memory 0xFFF 2) ∧
      text vm.machine.snapshot.memory vm.machine.snapshot.pc 3 = .ok "" ∧
      ∃ listing, text #[0x12, 0x34, 0x56] 1 5 = .ok listing ∧
        (Text.lines listing).length = 1 ∧
        ∀ line, (Text.lines listing)[0]? = some line →
          ∃ word, WordAt #[0x12, 0x34, 0x56] 1 word ∧ Names line 1 word := by
  intro setup vm
  have hreachable : Vm.Reachable setup vm := ⟨_, by decide, rfl⟩
  have hrefused : vm.machine.memory.word vm.machine.pc = .error (.memory 0xFFF 2) := by
    have hserved : Memory.refusal vm.machine.pc 2 = some (.memory 0xFFF 2) := by
      decide +kernel
    exact vm.machine.word_of_refusal hserved
  obtain ⟨hmemories, hmachines⟩ := listing_agrees_with_fetch
  obtain ⟨listing, hlisting, hempty, -⟩ := hmachines setup vm hreachable 3 (by decide)
  obtain ⟨odd, hodd, hlength, hlines⟩ := hmemories #[0x12, 0x34, 0x56] 1 5
  obtain rfl := hempty.mpr ⟨_, hrefused, rfl⟩
  exact ⟨hreachable, hrefused, hlisting, odd, hodd, Int.ofNat_inj.mp hlength, hlines 0⟩

end Disassembly

end Chip8
