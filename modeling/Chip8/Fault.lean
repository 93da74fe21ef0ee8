/-
What can go wrong.  A fault stops the machine for good: it has a cause, and the
address of the instruction that met it once that is known.  Every other error
refuses one request of the host and stops nothing.
-/
import Chip8.Position
import Chip8.Text.Hex

namespace Chip8

/-- Why the machine cannot go on. -/
inductive Cause
  /-- A request for `length` bytes from `address` leaves the memory. -/
  | memory (address length : Int)
  | stackOverflow
  | stackUnderflow
deriving Repr, DecidableEq

def Cause.message : Cause → String
  | .memory address length =>
      "Memory access " ++ Hex.marked 5 address ++ "+" ++ length.repr ++
        " outside 0..0xfff"
  | .stackOverflow => "Stack overflow (15 nested calls)"
  | .stackUnderflow => "Stack underflow on RET"

/-- A cause together with the address of the instruction that met it. -/
structure Fault where
  cause : Cause
  address : Option Int := none
deriving Repr, DecidableEq

/-- A message is followed by the address when one is known. -/
def Fault.describe (message : String) : Option Int → String
  | none => message
  | some address => message ++ " (at PC " ++ Hex.padded 3 address ++ ")"

def Fault.message (fault : Fault) : String :=
  Fault.describe fault.cause.message fault.address

/-- Attach an address to a fault that has none yet. -/
def Fault.located (fault : Fault) (address : Int) : Fault :=
  { fault with address := some (fault.address.getD address) }

/-- The rows of cells that a signed position can miss. -/
inductive Cells
  /-- The display of a running machine. -/
  | display
  /-- The bytes of a snapshot. -/
  | bytes
  | stackRead
  | stackWrite
deriving Repr, DecidableEq

/-- The text for a position that names no cell. -/
def BadPosition.message : BadPosition → Cells → String
  | .oversized, _ => "cannot fit 'int' into an index-sized integer"
  | .outside, .display => "bytearray index out of range"
  | .outside, .bytes => "index out of range"
  | .outside, .stackRead => "list index out of range"
  | .outside, .stackWrite => "list assignment index out of range"

/-- Everything that a request to the machine can be refused for. -/
inductive Error
  | fault (fault : Fault)
  | position (cells : Cells) (why : BadPosition)
  | noRegister (number : Int)
  /-- A display cell was given a value that is no byte. -/
  | notAByte
  | romTooLarge (size capacity : Int)
deriving Repr, DecidableEq

def Error.message : Error → String
  | .fault met => met.message
  | .position cells why => why.message cells
  | .noRegister number => "No register " ++ Hex.marked 0 number
  | .notAByte => "byte must be in range(0, 256)"
  | .romTooLarge size capacity =>
      "ROM is too large for memory (" ++ size.repr ++ " bytes, " ++
        capacity.repr ++ " available)"

/-- A cause that has not been located yet, as an error. -/
def Cause.error (cause : Cause) : Error :=
  .fault { cause }

/-- What becomes of a request: the state that it leaves, and the answer or the reason for
which it was refused.  A request can have changed the state before it is refused. -/
structure Reply (σ α : Type) where
  state : σ
  answer : Except Error α

/-- The reply of a larger state, one part of which was asked. -/
def Reply.within {σ τ α : Type} (reply : Reply σ α) (put : σ → τ) : Reply τ α where
  state := put reply.state
  answer := reply.answer

def Reply.map {σ α β : Type} (reply : Reply σ α) (render : α → β) : Reply σ β where
  state := reply.state
  answer := reply.answer.map render

/-- The kinds of error that the machine itself reports. -/
inductive ErrorKind
  | any
  | fault
  | memory
  | stackOverflow
  | stackUnderflow
  | romTooLarge
deriving Repr, DecidableEq

/-- The next wider kind: causes are faults, and every kind lies within `any`. -/
def ErrorKind.wider : ErrorKind → ErrorKind
  | .memory | .stackOverflow | .stackUnderflow => .fault
  | .any | .fault | .romTooLarge => .any

/-- Whether each error of one kind is an error of another kind. -/
def ErrorKind.within (kind other : ErrorKind) : Bool :=
  kind == other || kind.wider == other || other == .any

def Cause.kind : Cause → ErrorKind
  | .memory _ _ => .memory
  | .stackOverflow => .stackOverflow
  | .stackUnderflow => .stackUnderflow

example : (Fault.mk .stackUnderflow (some 512)).message =
    "Stack underflow on RET (at PC 200)" := by decide

end Chip8
