import Trainer51.Instruction.Text
import Trainer51.Image.Record
import Trainer51.Listing.Sweep
import Trainer51.Dsm51
import Trainer51.Console
import Trainer51.Settings.File
import Trainer51.Screen.Grid
import Trainer51.Subscribers
import Trainer51.Terminal.Picture
import Trainer51.Redraw
import Trainer51.Main
import Trainer51.Proofs.Workbench.View
import Trainer51.Proofs.Workbench.Runs
import Trainer51.Proofs.Workbench.Stepping
import Trainer51.Proofs.Image.Cells
import Trainer51.Proofs.Listing.Tiling
import Trainer51.Proofs.Dsm51.ProgramMemory
import Trainer51.Proofs.Dsm51.Load
import Trainer51.Proofs.Dsm51.Fresh
import Trainer51.Proofs.Dsm51.Ready
import Trainer51.Proofs.Dsm51.Mark
import Trainer51.Proofs.Dsm51.Prediction
import Trainer51.Proofs.Chip.Nesting
import Trainer51.Proofs.Image.Acceptance
import Trainer51.Proofs.Image.HexText
import Trainer51.Proofs.Workbench.Target
import Trainer51.Proofs.Workbench.Announced
import Trainer51.Proofs.Chip.Buses
import Trainer51.Proofs.Dsm51.Settled
import Trainer51.Proofs.Workbench.Looking
import Trainer51.Proofs.Dsm51.Restart
import Trainer51.Proofs.Dsm51.MachineTime
import Trainer51.Proofs.Dsm51.MatrixKeyboard
import Trainer51.Proofs.Dsm51.SequentialKeyboard
import Trainer51.Proofs.Dsm51.Requests
import Trainer51.Proofs.Dsm51.KeysUp
import Trainer51.Proofs.Console.Delivery
import Trainer51.Proofs.Workbench.Pace
import Trainer51.Proofs.Workbench.Consistency
import Trainer51.Proofs.MemoryWindow.Bounds
import Trainer51.Proofs.Chip.Selection
import Trainer51.Proofs.Chip.Watched
import Trainer51.Proofs.Chip.Hold
import Trainer51.Proofs.Panel.Lossless
import Trainer51.Proofs.Instruction.Opcodes
import Trainer51.Proofs.Dsm51.FailedStep
import Trainer51.Proofs.Dsm51.BitInstructions
import Trainer51.Proofs.Dsm51.ReadModifyWrite
import Trainer51.Proofs.Chip.LongArithmetic
import Trainer51.Proofs.Chip.DecimalArithmetic
import Trainer51.Proofs.Chip.Stack
import Trainer51.Proofs.Instruction.Assembly
import Trainer51.Proofs.Image.Detection
import Trainer51.Proofs.Image.Corruption
import Trainer51.Proofs.MemoryWindow.OnScreen
import Trainer51.Proofs.Workbench.Jump
import Trainer51.Proofs.KeyCap.Arrangement
import Trainer51.Proofs.Subscribers.Shares
import Trainer51.Proofs.Terminal.Arrows
import Trainer51.Proofs.Terminal.ListingPane
