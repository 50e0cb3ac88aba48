import WigOSX.Core.Memory
import WigOSX.Core.MemoryGrammar
import WigOSX.Core.Input
import WigOSX.Core.InputQueue
import WigOSX.Core.Format
import WigOSX.Core.Console
import WigOSX.Core.Interrupts
import WigOSX.Drivers.Keyboard
import WigOSX.Kernel.Program
import WigOSX.Drivers.Serial
import WigOSX.Drivers.Pit
import WigOSX.Core.Log
import WigOSX.Mm.Summary
import WigOSX.Core.Shell
import WigOSX.Core.ShellLine
import WigOSX.Kernel.Work
import WigOSX.Kernel.Machine
import WigOSX.Kernel.IrqPath
import WigOSX.Kernel.Foreground
import WigOSX.Kernel.Discipline
import WigOSX.Drivers.Vga
import WigOSX.Drivers.PlainTerminal
import WigOSX.Drivers.VgaRefinement
import WigOSX.Drivers.VgaWindow
import WigOSX.Library.WordBitmap
import WigOSX.Library.CircularWindow
import WigOSX.Library.Interaction
import WigOSX.Library.Preemption
import WigOSX.Library.ResourcePool
import WigOSX.Mm.Pmm
import WigOSX.Mm.PmmFrames
import WigOSX.Mm.PmmAccounting
import WigOSX.Mm.PmmInitialize
import WigOSX.Mm.PmmLifecycle
import WigOSX.Mm.PmmOwnership
import WigOSX.Mm.PmmReserved
import WigOSX.Mm.PmmFreeSet
import WigOSX.Mm.PmmFirstFit
import WigOSX.Mm.PmmSelfTest
import WigOSX.Mm.FailClosed
import WigOSX.Core.MemoryTotals
import WigOSX.Core.MemoryReads
import WigOSX.Library.Protocol
import WigOSX.Drivers.KeyboardModifiers
import WigOSX.Drivers.SerialLine
import WigOSX.Drivers.SerialReady
import WigOSX.Drivers.SerialCrlf
import WigOSX.Core.IrqRegistry
import WigOSX.Drivers.KeyboardCapsLock
import WigOSX.Drivers.PitTicks
import WigOSX.Core.FormatLoops
import WigOSX.Library.CountedLoop
import WigOSX.Machine.MemoryStores
import WigOSX.Machine.Paging
import WigOSX.Mm.PmmCapacity
import WigOSX.Machine.I386
import WigOSX.Machine.IrqStub
import WigOSX.Drivers.SerialText
import WigOSX.Core.ShellExecution
import WigOSX.Drivers.VgaBackspace
import WigOSX.Kernel.Footprint
import WigOSX.Library.Recording
import WigOSX.Kernel.Record
import WigOSX.Kernel.Service
import WigOSX.Library.Completion
import WigOSX.Kernel.Quiescence
import WigOSX.Machine.Pic8259
import WigOSX.Kernel.PicService
import WigOSX.Core.FormatHex
import WigOSX.Kernel.Printing
import WigOSX.Library.Takeover
import WigOSX.Machine.DescriptorTables
import WigOSX.Machine.ExceptionStub
import WigOSX.Kernel.BootProgram
import WigOSX.Kernel.BootReady
import WigOSX.Kernel.FailStop
