import Testos.Foundation.Align
import Testos.Foundation.Memory
import Testos.Foundation.Blocks
import Testos.Foundation.Run
import Testos.Foundation.Slots
import Testos.Foundation.Reversal
import Testos.Foundation.Numeral
import Testos.Foundation.Stack
import Testos.Foundation.Move
import Testos.Foundation.First
import Testos.Foundation.Listing
import Testos.Types
import Testos.Console
import Testos.Mem.Heap
import Testos.Mem.Session
import Testos.Mem.Admission
import Testos.Mem.Aligned
import Testos.Mem.Cleared
import Testos.Boot.Layout
import Testos.Boot.Start
import Testos.Boot.HartId
import Testos.Dev.Gets
import Testos.Entry.Shell
import Testos.Entry.Lines
import Testos.Entry.Commands
import Testos.Entry.UserProgram
import Testos.Entry.UserRuns
import Testos.Entry.UserStack
import Testos.Lib.Stream
import Testos.Lib.Format
import Testos.Lib.Digits
import Testos.Lib.Scan
import Testos.Lib.Walk
import Testos.Lib.Conversion
import Testos.Lib.Flags
import Testos.Lib.Truncation
import Testos.Lib.Decimals
import Testos.Lib.Sprintf
import Testos.Lib.EmptyBuffer
import Testos.Lib.Logger
import Testos.Dev.BackEnds
import Testos.Foundation.Rounding
import Testos.Dev.Baud
import Testos.Lib.Move
import Testos.Lib.Compare
import Testos.Lib.Search
import Testos.Lib.Atol
import Testos.Lib.Padding
import Testos.Lib.AlternateHex
import Testos.Lib.Unsigned
import Testos.Timer
import Testos.Timer.Drift
import Testos.Timer.Stats
import Testos.Exception.Dispatch
import Testos.Exception.Vector
import Testos.Exception.TrapPath
import Testos.Exception.Nesting
import Testos.Entry.Syscalls
import Testos.Exception.Unknown
import Testos.Exception.Arming
import Testos.Exception.Gateway
import Testos.Exception.Alignment
import Testos.Entry.Compat
