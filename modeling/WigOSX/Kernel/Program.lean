import WigOSX.Core.Console
import WigOSX.Core.Input
import WigOSX.Core.Interrupts
import WigOSX.Library.Interaction
import WigOSX.Mm.Pmm

/-! The kernel's code as programs of requests. A request is one access to
what the program shares with interrupt handlers or devices, or one call of a
service whose state no interrupt handler touches; between two requests an
interrupt may be taken. -/
namespace WigOSX

/-- The functions that `kernel_main` registers as IRQ handlers. -/
inductive IrqHandler where
  | pitHandleInterrupt
  | inputHandleKeyboardInterrupt
deriving DecidableEq

/-- The static state of `heap.c`. -/
structure HeapState where
  initialized : Bool
  startAddress : BitVec 32
  endAddress : BitVec 32
  capacity : BitVec 32

/-- Requests with the types of their replies. -/
inductive KernelRequest : Type → Type where
  /-- The instructions of `cpu.c`, and one that changes nothing modelled. -/
  | cli : KernelRequest Unit
  | sti : KernelRequest Unit
  | hlt : KernelRequest Unit
  | nop : KernelRequest Unit
  /-- The port accesses of `io.c`. -/
  | inb (port : BitVec 16) : KernelRequest (BitVec 8)
  | outb (port : BitVec 16) (value : BitVec 8) : KernelRequest Unit
  /-- `console.c`. -/
  | console (call : ConsoleCall) : KernelRequest Unit
  /-- `klog_serial_available` and `serial_initialized`. -/
  | klogHasSerialOutput : KernelRequest Bool
  | serialIsInitialized : KernelRequest Bool
  | serialSetInitialized (value : Bool) : KernelRequest Unit
  /-- `interrupts.c`; a dispatch replies with the handler to be called. -/
  | interruptsContextEnter : KernelRequest Bool
  | interruptsContextExit : KernelRequest Bool
  | interruptsGetContextDepth : KernelRequest (BitVec 32)
  | interruptsDispatchIrq (irq : BitVec 8) : KernelRequest (Option IrqHandler)
  | interruptsGetIrqCount (irq : BitVec 8) : KernelRequest (BitVec 32)
  | interruptsGetUnhandledIrqCount : KernelRequest (BitVec 32)
  | interruptsGetInvalidIrqCount : KernelRequest (BitVec 32)
  /-- The accesses of `input.c`; the enqueue runs in the handler only. -/
  | inputLoadTail : KernelRequest (BitVec 32)
  | inputLoadHead : KernelRequest (BitVec 32)
  | inputLoadSlot (position : BitVec 32) : KernelRequest (BitVec 8)
  | inputStoreTail (tail : BitVec 32) : KernelRequest Unit
  | inputEnqueueCharacter (ascii : BitVec 8) : KernelRequest Bool
  | inputGetDroppedCharacterCount : KernelRequest (BitVec 32)
  /-- `keyboard_handle_interrupt` after its port access. -/
  | keyboardHandleInterrupt (rawScancode : BitVec 8) : KernelRequest (Option (BitVec 8))
  /-- `pit_ticks++`, with the new value, and a load of it. -/
  | pitIncrementTicks : KernelRequest (BitVec 32)
  | pitGetTicks : KernelRequest (BitVec 32)
  /-- The memory services, which only the foreground uses. -/
  | memoryState : KernelRequest MemoryState
  | pmmState : KernelRequest PmmState
  | pmmRunBasicSelfTest : KernelRequest Bool
  | vmmIsEnabled : KernelRequest Bool
  | vmmGetIdentityMappedBytes : KernelRequest (BitVec 32)
  | heapState : KernelRequest HeapState
  /-- The call and the return of `shell_handle_character`. -/
  | shellCall (ascii : BitVec 8) : KernelRequest Unit
  | shellReturn : KernelRequest Unit
  /-- The call of `kernel_panic`, and its last loop, which never returns. -/
  | panicCall (message : List (BitVec 8)) : KernelRequest Unit
  | haltForever : KernelRequest Empty

abbrev KernelProgram (α : Type) := Interaction KernelRequest α

open Interaction (perform)

def cpuDisableInterrupts : KernelProgram Unit := perform .cli

/-- The instruction that STI shields is the return of the function. -/
def cpuEnableInterrupts : KernelProgram Unit := do
  perform .sti
  perform .nop

/-- One assembly block, so nothing stands between the two instructions. -/
def cpuEnableInterruptsAndHalt : KernelProgram Unit := do
  perform .sti
  perform .hlt

def consolePutchar (character : BitVec 8) : KernelProgram Unit :=
  perform (.console (.putchar character))

def consoleWritestring (text : List (BitVec 8)) : KernelProgram Unit :=
  perform (.console (.writestring text))

def consoleClear : KernelProgram Unit :=
  perform (.console .clear)

def interruptsIsInContext : KernelProgram Bool := do
  let depth ← perform .interruptsGetContextDepth
  return depth ≠ 0#32

theorem interruptsIsInContext_bind {α : Type} (f : Bool → KernelProgram α) :
    interruptsIsInContext >>= f =
      .ask .interruptsGetContextDepth fun depth => f (decide (depth ≠ 0#32)) := rfl

end WigOSX
