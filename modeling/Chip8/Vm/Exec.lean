/-
The effect of one instruction.  The program counter already points past the
instruction when it is executed.  An instruction that is refused leaves what its
request to the machine has left, which is a change only for a call from a depth
with no next slot: it still goes deeper.
-/
import Chip8.Instr
import Chip8.Vm

namespace Chip8

/-- An operation that went through. -/
def Outcome.done (vm : Vm) : Outcome := { vm }

/-- An operation that was refused. -/
def Outcome.refused (vm : Vm) (error : Error) : Outcome :=
  { vm, error := some error }

namespace Machine

/-- The value of a general register. -/
def v (machine : Machine) (x : Register) : UInt8 :=
  machine.registers.v.get x

def setV (machine : Machine) (x : Register) (value : UInt8) : Machine :=
  { machine with registers := machine.registers.setV x value }

/-- Set a general register, and after it the flag register. -/
def setFlagged (machine : Machine) (x : Register) (value : UInt8) (flag : Bool) :
    Machine :=
  { machine with registers := machine.registers.setFlagged x value flag }

/-- Pass over one instruction when a condition holds. -/
def skipIf (machine : Machine) (condition : Bool) : Machine :=
  if condition then { machine with pc := machine.pc + 2 } else machine

/-- The index register after a block transfer up to `Vx`. -/
def indexAfterBlock (machine : Machine) (legacyStore : Bool) (x : Register) : Int :=
  if legacyStore then (machine.index + x.val + 1) % 65536 else machine.index

/-- The hundreds, tens and ones of a byte. -/
def decimalDigits (value : UInt8) : List UInt8 :=
  [value / 100, value / 10 % 10, value % 10]

end Machine

namespace Vm

/-- Replace the machine. -/
def withMachine (vm : Vm) (machine : Machine) : Vm :=
  { vm with machine }

/-- Go on with the answer of a request and the machine that it has left, unless it was
refused. -/
def proceed {α : Type} (vm : Vm) (reply : Reply Machine α) (next : α → Machine → Machine) :
    Outcome :=
  match reply.answer with
  | .ok value => .done (vm.withMachine (next value reply.state))
  | .error error => .refused (vm.withMachine reply.state) error

section Proceed

variable {α : Type} (vm : Vm) (reply : Reply Machine α) (next : α → Machine → Machine)

/-! A request to the machine changes nothing but the machine. -/

theorem fault_proceed : (vm.proceed reply next).vm.fault = vm.fault := by
  unfold proceed
  split <;> rfl

theorem keypad_proceed : (vm.proceed reply next).vm.keypad = vm.keypad := by
  unfold proceed
  split <;> rfl

theorem wait_proceed : (vm.proceed reply next).vm.wait = vm.wait := by
  unfold proceed
  split <;> rfl

theorem reports_proceed : (vm.proceed reply next).reports = [] := by
  unfold proceed
  split <;> rfl

end Proceed

/-- A word without a rule is reported at the address before the program counter. -/
def unknown (setup : Setup) (vm : Vm) (word : Word) : Outcome :=
  let address := ((vm.machine.pc - 2) % 65536).toNat
  { vm, reports := if setup.listening then [{ address, word }] else [] }

/-- Execute one instruction. -/
def exec (setup : Setup) (vm : Vm) (instr : Instr) : Outcome :=
  let machine := vm.machine
  let become (changed : Machine) : Outcome := .done (vm.withMachine changed)
  match instr with
  | .clear => become machine.clear
  | .ret => vm.proceed machine.pop fun address popped => { popped with pc := address }
  | .jump address => become { machine with pc := address.val }
  | .call address =>
      vm.proceed (machine.push machine.pc) fun _ pushed => { pushed with pc := address.val }
  | .skipIfByte x kk => become (machine.skipIf (machine.v x == kk))
  | .skipUnlessByte x kk => become (machine.skipIf (machine.v x != kk))
  | .skipIfSame x y => become (machine.skipIf (machine.v x == machine.v y))
  | .setByte x kk => become (machine.setV x kk)
  | .addByte x kk => become (machine.setV x (machine.v x + kk))
  | .move x y => become (machine.setV x (machine.v y))
  | .or x y => become (machine.setV x (machine.v x ||| machine.v y))
  | .and x y => become (machine.setV x (machine.v x &&& machine.v y))
  | .xor x y => become (machine.setV x (machine.v x ^^^ machine.v y))
  | .add x y =>
      let left := machine.v x
      let right := machine.v y
      become (machine.setFlagged x (left + right)
        (decide (255 < left.toNat + right.toNat)))
  | .sub x y =>
      let left := machine.v x
      let right := machine.v y
      become (machine.setFlagged x (left - right) (decide (right ≤ left)))
  | .shiftRight x =>
      let value := machine.v x
      become (machine.setFlagged x (value >>> 1) (value.toNat.testBit 0))
  | .subFrom x y =>
      let left := machine.v x
      let right := machine.v y
      become (machine.setFlagged x (right - left) (decide (left < right)))
  | .shiftLeft x =>
      let value := machine.v x
      become (machine.setFlagged x (value <<< 1) (value.toNat.testBit 7))
  | .skipUnlessSame x y => become (machine.skipIf (machine.v x != machine.v y))
  | .setIndex address => become { machine with index := address.val }
  | .jumpBy address =>
      become { machine with pc := ((machine.v 0).toNat + address.val) % 4096 }
  | .random x kk =>
      let drawn := UInt8.ofInt (setup.random vm.drawn) &&& kk
      .done { vm with machine := machine.setV x drawn, drawn := vm.drawn + 1 }
  | .draw x y rows =>
      vm.proceed (machine.draw (machine.v x).toNat (machine.v y).toNat rows.val)
        fun _ drawn => drawn
  | .skipIfKey x =>
      become (machine.skipIf (vm.keypad.isPressed ((machine.v x).toNat % 16)))
  | .skipUnlessKey x =>
      become (machine.skipIf (!vm.keypad.isPressed ((machine.v x).toNat % 16)))
  | .readDelay x => become (machine.setV x machine.registers.delay)
  | .waitKey x => .done { vm with wait := some x }
  | .setDelay x =>
      become { machine with registers.delay := machine.v x }
  | .setSound x =>
      become { machine with registers.sound := machine.v x }
  | .addIndex x =>
      become { machine with index := (machine.index + (machine.v x).toNat) % 65536 }
  | .glyph x => become { machine with index := Font.address (machine.v x).toNat }
  | .decimal x =>
      vm.proceed (machine.write machine.index (Machine.decimalDigits (machine.v x)))
        fun _ written => written
  | .store x =>
      vm.proceed (machine.write machine.index (machine.registers.firstV x))
        fun _ written => { written with
          index := machine.indexAfterBlock setup.legacyStore x }
  | .fill x =>
      match machine.memory.read machine.index (x.val + 1) with
      | .ok values =>
          become { machine with
            registers := machine.registers.setFirstV values
            index := machine.indexAfterBlock setup.legacyStore x }
      | .error cause => .refused vm cause.error
  | .unknown word => vm.unknown setup word

end Vm

end Chip8
