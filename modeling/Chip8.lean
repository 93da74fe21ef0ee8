import Chip8.Canvas
import Chip8.Main
import Chip8.Vm.History
import Chip8.Window
import Chip8.Proofs.Compositing
import Chip8.Proofs.Faults
import Chip8.Proofs.Effects
import Chip8.Proofs.Spelling
import Chip8.Proofs.Frames
import Chip8.Proofs.OpenCalls
import Chip8.Proofs.Keys
import Chip8.Proofs.KeyWait
import Chip8.Proofs.Latch
import Chip8.Proofs.Hexadecimal
import Chip8.Proofs.Assembler
import Chip8.Proofs.MazePicture
import Chip8.Proofs.MazeRun
import Chip8.Proofs.Reports
import Chip8.Proofs.HeadlessRun
import Chip8.Proofs.Timers
import Chip8.Proofs.Interference
import Chip8.Proofs.HostLoops
import Chip8.Proofs.ControlFlow
import Chip8.Proofs.Arithmetic
import Chip8.Proofs.Batches
import Chip8.Proofs.Freeze
import Chip8.Proofs.Renewal
import Chip8.Proofs.WindowLoop
import Chip8.Proofs.WindowRun
import Chip8.Proofs.BlockTransfer
import Chip8.Proofs.KeyEvents
import Chip8.Proofs.Overlays
import Chip8.Proofs.Arguments
import Chip8.Proofs.ChosenSettings
import Chip8.Proofs.AtomicRequests
import Chip8.Proofs.Lines
import Chip8.Proofs.CodeListing
import Chip8.Proofs.HexDumpReading
import Chip8.Proofs.ScreenViews
import Chip8.Proofs.RegisterReading
import Chip8.Proofs.SignedRequests
