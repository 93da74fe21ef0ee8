/-
The views that a headless run prints.  A copy of a machine has the sizes that the views
ask for, and as long as the program counter is not negative the disassembly stays inside
the memory, so nothing is refused once a run is over.
-/
import Chip8.Program
import Chip8.Proofs.CodeListing

namespace Chip8

theorem Disassembly.text_snapshot {machine : Machine} (hpc : 0 ≤ machine.pc) (count : Nat) :
    ∃ code, Disassembly.text machine.snapshot.memory machine.pc count = .ok code := by
  obtain ⟨shown, hshown, -⟩ :=
    Disassembly.exists_listing machine.snapshot.memory machine.pc.toNat count
  rw [Int.toNat_of_nonneg hpc] at hshown
  exact ⟨_, hshown⟩

theorem Screen.text_snapshot (machine : Machine) (on off : String) :
    ∃ screen, Screen.text machine.snapshot.display on off = .ok screen := by
  have henough : 2048 ≤ machine.snapshot.display.size :=
    Nat.le_of_eq machine.display.size_toArray.symm
  rw [Screen.text_eq_ite, if_pos henough]
  exact ⟨_, rfl⟩

theorem RegisterListing.text_snapshot (machine : Machine) :
    ∃ listing, RegisterListing.text machine.snapshot = .ok listing := by
  have henough : 18 ≤ machine.snapshot.registers.size :=
    Nat.le_of_eq machine.registers.all.size_toArray.symm
  rw [RegisterListing.text, RegisterListing.rows_eq_ite, if_pos henough]
  exact ⟨_, rfl⟩

namespace Program

/-- What a headless run prints of the machine that it has reached: the screen, the
registers and, when asked for, the memory and eight lines of code, with a line break
behind each. -/
def Prints (settings : Settings) (machine : Machine) (out : String) : Prop :=
  ∃ screen listing code,
    Screen.text machine.snapshot.display "#" "." = .ok screen ∧
      RegisterListing.text machine.snapshot = .ok listing ∧
      Disassembly.text machine.snapshot.memory machine.pc 8 = .ok code ∧
      out = screen ++ "\n" ++ listing ++ "\n" ++
        if settings.dumpMemory then
          HexDump.text machine.snapshot.memory 0 none ++ "\n" ++ code ++ "\n"
        else ""

theorem views_snapshot (settings : Settings) {machine : Machine} (hpc : 0 ≤ machine.pc) :
    ∃ texts, views settings machine.snapshot = .ok texts ∧
      Prints settings machine (String.join (texts.map (· ++ "\n"))) := by
  obtain ⟨screen, hscreen⟩ := Screen.text_snapshot machine "#" "."
  obtain ⟨listing, hlisting⟩ := RegisterListing.text_snapshot machine
  obtain ⟨code, hcode⟩ := Disassembly.text_snapshot hpc 8
  cases hdump : settings.dumpMemory with
  | false =>
      refine ⟨[screen, listing], ?_, screen, listing, code, hscreen, hlisting, hcode, ?_⟩
      · rw [views, hscreen, hlisting, hdump]
        rfl
      · simp [hdump, String.join, String.append_assoc]
  | true =>
      refine ⟨[screen, listing, HexDump.text machine.snapshot.memory 0 none, code], ?_,
        screen, listing, code, hscreen, hlisting, hcode, ?_⟩
      · have hshown : Disassembly.text machine.snapshot.memory machine.snapshot.pc 8 =
          .ok code := hcode
        rw [views, hscreen, hlisting, hdump]
        simp only [hshown]
        rfl
      · simp [hdump, String.join, String.append_assoc]

/-- A machine has one such output. -/
theorem Prints.unique {settings : Settings} {machine : Machine} {first second : String}
    (hfirst : Prints settings machine first) (hsecond : Prints settings machine second) :
    first = second := by
  obtain ⟨screen, listing, code, hscreen, hlisting, hcode, rfl⟩ := hfirst
  obtain ⟨screen', listing', code', hscreen', hlisting', hcode', rfl⟩ := hsecond
  obtain rfl := Except.ok.inj (hscreen.symm.trans hscreen')
  obtain rfl := Except.ok.inj (hlisting.symm.trans hlisting')
  obtain rfl := Except.ok.inj (hcode.symm.trans hcode')
  rfl

end Program

end Chip8
