import Micro6502.Debugger
import Micro6502.Main
import Micro6502.Window
import Micro6502.Proofs.FlatMemory
import Micro6502.Proofs.Command
import Micro6502.Proofs.Configuration
import Micro6502.Proofs.Cycle
import Micro6502.Proofs.Disassembly
import Micro6502.Proofs.EffectTable
import Micro6502.Proofs.Operand
import Micro6502.Proofs.StepOutcome
import Micro6502.Proofs.Run
import Micro6502.Proofs.Unread
import Micro6502.Proofs.Stopping
import Micro6502.Proofs.Splitting
import Micro6502.Proofs.WellFormed
import Micro6502.Proofs.Grid
import Micro6502.Proofs.Transparency
import Micro6502.Proofs.VideoMemory
import Micro6502.Proofs.Replay
import Micro6502.Proofs.Lifecycle
import Micro6502.Proofs.Subroutine
import Micro6502.Proofs.Ticks
import Micro6502.Proofs.Repaint
import Micro6502.Proofs.Reset
import Micro6502.Proofs.Panel
import Micro6502.Proofs.OperandText
import Micro6502.Proofs.Legible
import Micro6502.Proofs.TableEntries
import Micro6502.Proofs.EffectiveAddress
import Micro6502.Proofs.LongAddition
import Micro6502.Proofs.LongShift
import Micro6502.Proofs.IdealStack
import Micro6502.Proofs.Reading
import Micro6502.Proofs.Boot
import Micro6502.Proofs.Watchpoint
import Micro6502.Proofs.ImmediateOperand
import Micro6502.Proofs.ScreenLayout
import Micro6502.Proofs.Loading
import Micro6502.Proofs.Layout
import Micro6502.Proofs.Dump
import Micro6502.Proofs.Coverage
import Micro6502.Proofs.PartialStore
import Micro6502.Proofs.Breakpoints
import Micro6502.Proofs.DerivedFlags
import Micro6502.Proofs.RegisterOrder
import Micro6502.Proofs.FreshStart
import Micro6502.Proofs.Keyboard
import Micro6502.Proofs.Marks
import Micro6502.Proofs.Numeral
import Micro6502.Proofs.Refusal
import Micro6502.Proofs.History
