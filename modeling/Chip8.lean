import Chip8.Cli.Invoke
import Chip8.Main
import Chip8.Operand.Arithmetic
import Chip8.Operand.Order
import Chip8.Proofs.Bookkeeping
import Chip8.Proofs.CallReturn
import Chip8.Proofs.Decoding
import Chip8.Proofs.Endings
import Chip8.Proofs.Flags
import Chip8.Proofs.FrameReport
import Chip8.Proofs.Restart
import Chip8.Proofs.SpriteInstruction
import Chip8.Proofs.Surroundings
import Chip8.Proofs.Transfer
import Chip8.Proofs.WellFormed
import Chip8.Proofs.Loading
import Chip8.Proofs.Successor
import Chip8.Proofs.Countdown
import Chip8.Proofs.KeyWait
import Chip8.Proofs.Composition
import Chip8.Proofs.StackRefinement
import Chip8.Proofs.PlainText
import Chip8.Proofs.ScreenViews
import Chip8.Proofs.StatusLine
import Chip8.Proofs.Addresses
import Chip8.Proofs.TickCount
import Chip8.Proofs.Dispatch
import Chip8.Proofs.PositiveNumbers
