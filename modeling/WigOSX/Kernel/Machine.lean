import WigOSX.Kernel.Work
import WigOSX.Library.Preemption

/-! The running kernel on one processor: what each request does to the state,
and how interrupts are taken and returned from. -/
namespace WigOSX

/-- The processor state that the interrupt mechanism uses. The shadow of STI
is there until one more instruction has been executed. -/
structure Cpu where
  interruptFlag : Bool
  stiShadow : Bool
  halted : Bool
deriving DecidableEq

/-- The static state of the kernel with the processor. The last four fields
are only there to be spoken about: the characters that the input queue
accepted, those that were given to the shell, the argument of the running
`shell_handle_character`, and the message of a panic. -/
structure KernelState where
  cpu : Cpu
  console : ConsoleState
  klogSerialAvailable : Bool
  serialInitialized : Bool
  interrupts : InterruptsState IrqHandler
  input : InputState
  keyboard : KeyboardState
  pitTicks : BitVec 32
  memory : MemoryState
  pmm : PmmState
  vmmInitialized : Bool
  pagingInitialized : Bool
  pagingEnabled : Bool
  heap : HeapState
  accepted : List (BitVec 8)
  given : List (BitVec 8)
  shellArgument : Option (BitVec 8)
  panicMessage : Option (List (BitVec 8))

namespace KernelState

/-- Static initialization at boot, with the CPU as the loader leaves it. -/
def boot : KernelState where
  cpu := { interruptFlag := false, stiShadow := false, halted := false }
  console := { initialized := false, terminal := .boot }
  klogSerialAvailable := false
  serialInitialized := false
  interrupts := interruptsInitialize
  input := .boot
  keyboard := .boot
  pitTicks := 0#32
  memory := memoryResetSummary
  pmm := .boot
  vmmInitialized := false
  pagingInitialized := false
  pagingEnabled := false
  heap := { initialized := false, startAddress := 0#32, endAddress := 0#32, capacity := 0#32 }
  accepted := []
  given := []
  shellArgument := none
  panicMessage := none

/-- An instruction ends the shadow of the STI before it. -/
def retire (s : KernelState) : KernelState :=
  { s with cpu := { s.cpu with stiShadow := false } }

/-- `I386_PAGING_IDENTITY_MAPPED_BYTES`. -/
def identityMappedBytes : BitVec 32 := 16#32 * 1024#32 * 1024#32

/-- The effect of a request; `device` is what a port would deliver. -/
def serve (device : BitVec 8) (s : KernelState) : ∀ ⦃ρ : Type⦄, KernelRequest ρ → Option (ρ × KernelState)
  | _, .cli => some ((), { s with cpu := { s.cpu with interruptFlag := false } })
  | _, .sti => some ((), { s with cpu := { s.cpu with interruptFlag := true, stiShadow := true } })
  | _, .hlt => some ((), { s with cpu := { s.cpu with halted := true } })
  | _, .nop => some ((), s)
  | _, .inb _ => some (device, s)
  | _, .outb _ _ => some ((), s)
  | _, .console call => some ((), { s with console := consoleCall s.console call })
  | _, .klogHasSerialOutput => some (s.klogSerialAvailable, s)
  | _, .serialIsInitialized => some (s.serialInitialized, s)
  | _, .serialSetInitialized value => some ((), { s with serialInitialized := value })
  | _, .interruptsContextEnter =>
      some ((interruptsContextEnter s.interrupts).1,
        { s with interrupts := (interruptsContextEnter s.interrupts).2 })
  | _, .interruptsContextExit =>
      some ((interruptsContextExit s.interrupts).1,
        { s with interrupts := (interruptsContextExit s.interrupts).2 })
  | _, .interruptsGetContextDepth => some (interruptsGetContextDepth s.interrupts, s)
  | _, .interruptsDispatchIrq irq =>
      some ((interruptsDispatchIrq irq s.interrupts).1,
        { s with interrupts := (interruptsDispatchIrq irq s.interrupts).2 })
  | _, .interruptsGetIrqCount irq => some (interruptsGetIrqCount irq s.interrupts, s)
  | _, .interruptsGetUnhandledIrqCount => some (interruptsGetUnhandledIrqCount s.interrupts, s)
  | _, .interruptsGetInvalidIrqCount => some (interruptsGetInvalidIrqCount s.interrupts, s)
  | _, .inputLoadTail => some (s.input.queueTail, s)
  | _, .inputLoadHead => some (s.input.queueHead, s)
  | _, .inputLoadSlot position => some (s.input.queue (inputQueueIndex position), s)
  | _, .inputStoreTail tail => some ((), { s with input := { s.input with queueTail := tail } })
  | _, .inputEnqueueCharacter ascii =>
      let result := inputEnqueueCharacter ascii s.input
      some (result.1,
        { s with
          input := result.2
          accepted := if result.1 then s.accepted ++ [ascii] else s.accepted })
  | _, .inputGetDroppedCharacterCount => some (inputGetDroppedCharacterCount s.input, s)
  | _, .keyboardHandleInterrupt rawScancode =>
      some ((keyboardHandleInterrupt rawScancode s.keyboard).1,
        { s with keyboard := (keyboardHandleInterrupt rawScancode s.keyboard).2 })
  | _, .pitIncrementTicks => some (s.pitTicks + 1#32, { s with pitTicks := s.pitTicks + 1#32 })
  | _, .pitGetTicks => some (s.pitTicks, s)
  | _, .memoryState => some (s.memory, s)
  | _, .pmmState => some (s.pmm, s)
  | _, .pmmRunBasicSelfTest =>
      some ((pmmRunBasicSelfTest s.pmm).1, { s with pmm := (pmmRunBasicSelfTest s.pmm).2 })
  | _, .vmmIsEnabled => some (s.vmmInitialized && s.pagingEnabled, s)
  | _, .vmmGetIdentityMappedBytes =>
      some (if s.pagingInitialized then identityMappedBytes else 0#32, s)
  | _, .heapState => some (s.heap, s)
  | _, .shellCall ascii => some ((), { s with given := s.given ++ [ascii], shellArgument := some ascii })
  | _, .shellReturn => some ((), { s with shellArgument := none })
  | _, .panicCall message => some ((), { s with panicMessage := some message })
  | _, .haltForever => none

/-- A halted processor executes nothing. -/
def execute ⦃ρ : Type⦄ (device : BitVec 8) (s : KernelState) (request : KernelRequest ρ) :
    Option (ρ × KernelState) :=
  if s.cpu.halted then none else s.retire.serve device request

/-- An interrupt gate clears the flag; a halted processor wakes up. -/
def enterInterrupt (s : KernelState) : KernelState :=
  { s with cpu := { interruptFlag := false, stiShadow := false, halted := false } }

/-- IRET brings the saved flag back. -/
def leaveInterrupt (interruptFlag : Bool) (s : KernelState) : KernelState :=
  { s with cpu := { s.cpu with interruptFlag := interruptFlag } }

end KernelState

def kernelProcessor : Processor KernelRequest KernelState (Fin irqHandlerCount) Bool (BitVec 8) where
  execute := KernelState.execute
  accepts s := s.cpu.interruptFlag && !s.cpu.stiShadow
  enter := KernelState.enterInterrupt
  save s := s.cpu.interruptFlag
  restore := KernelState.leaveInterrupt
  handler := irqStub

abbrev KernelConfig := Processor.Config KernelRequest KernelState (Fin irqHandlerCount) Bool ShellState

/-- The registrations of `kernel_main`. -/
def kernelInterrupts : InterruptsState IrqHandler :=
  (interruptsRegisterIrq 1#8 (some .inputHandleKeyboardInterrupt)
    (interruptsRegisterIrq 0#8 (some .pitHandleInterrupt) interruptsInitialize).2).2

/-- What `kernel_main` has reached before it enables interrupts, from
whatever the other services were before. -/
def kernelMainReady (prior : KernelState) : KernelState :=
  { prior with
    cpu := { interruptFlag := false, stiShadow := false, halted := false }
    interrupts := kernelInterrupts
    input := inputInitialize prior.input
    pitTicks := 0#32
    accepted := []
    given := []
    shellArgument := none
    panicMessage := none }

/-- Interrupts may be pending already. -/
def kernelStart (prior : KernelState) (shell : ShellState) (pending : Fin irqHandlerCount → Bool) :
    KernelConfig where
  state := kernelMainReady prior
  foreground := kernelMainEnable shell
  frames := []
  pending := pending

/-- One step of the running kernel. -/
def KernelStep : KernelConfig → Schedule (Fin irqHandlerCount) (BitVec 8) → KernelConfig → Prop :=
  kernelProcessor.Step kernelWorkRunOnce

end WigOSX
