import WigOSX.Core.Shell
import WigOSX.Drivers.Keyboard
import WigOSX.Drivers.Pit

/-! The two sides of the running kernel: the IRQ path of `idt.c` and the
foreground work of `work.c`. -/
namespace WigOSX

open Interaction (perform)

section Interrupt

def inputHandleKeyboardInterrupt : KernelProgram Unit := do
  let rawScancode ← perform (.inb keyboardDataPort)
  match ← perform (.keyboardHandleInterrupt rawScancode) with
  | none => return ()
  | some ascii => do
      let _ ← perform (.inputEnqueueCharacter ascii)
      return ()

def IrqHandler.run : IrqHandler → KernelProgram Unit
  | .pitHandleInterrupt => WigOSX.pitHandleInterrupt
  | .inputHandleKeyboardInterrupt => WigOSX.inputHandleKeyboardInterrupt

/-- `interrupts_dispatch_irq` with the call of the handler at its end. -/
def interruptsDispatch (irq : BitVec 8) : KernelProgram Unit := do
  match ← perform (.interruptsDispatchIrq irq) with
  | none => return ()
  | some handler => handler.run

/-- The ports and the command of `pic.c`. -/
def picMasterCommand : BitVec 16 := 0x20#16
def picSlaveCommand : BitVec 16 := 0xA0#16
def picCommandEoi : BitVec 8 := 0x20#8

def picSendEoi (irq : BitVec 8) : KernelProgram Unit :=
  if 15#8 < irq then return ()
  else if 8#8 ≤ irq then do
    perform (.outb picSlaveCommand picCommandEoi)
    perform (.outb picMasterCommand picCommandEoi)
  else perform (.outb picMasterCommand picCommandEoi)

/-- The stub always passes a frame, so its pointer is not null. -/
def irqHandler (interruptNumber : BitVec 32) : KernelProgram Unit :=
  if interruptNumber < 32#32 ∨ 47#32 < interruptNumber then
    kernelPanic "Invalid hardware interrupt vector"
  else do
    let irq := (interruptNumber - 32#32).setWidth 8
    if ← perform .interruptsContextEnter then
      interruptsDispatch irq
      picSendEoi irq
      if ← perform .interruptsContextExit then return ()
      else kernelPanic "Hardware interrupt-context depth underflow"
    else kernelPanic "Hardware interrupt-context depth overflow"

/-- The stub of an IRQ line up to its IRET: it clears the flag again, and
pushes the vector. -/
def irqStub (line : Fin irqHandlerCount) : KernelProgram Unit := do
  perform .cli
  irqHandler (BitVec.ofNat 32 (32 + line.val))

end Interrupt

section Foreground

/-- `input_try_read_character` on a non-null pointer, access by access. -/
def inputTryRead : KernelProgram (Option (BitVec 8)) := do
  let tail ← perform .inputLoadTail
  let head ← perform .inputLoadHead
  if tail = head then return none
  else
    let ascii ← perform (.inputLoadSlot tail)
    perform (.inputStoreTail (tail + 1#32))
    return some ascii

/-- `shell_handle_character` with its call and return. -/
def shellHandleCharacterCall (ascii : BitVec 8) (shell : ShellState) : KernelProgram ShellState := do
  perform (.shellCall ascii)
  let shell ← shellHandleCharacter ascii shell
  perform .shellReturn
  return shell

def kernelWorkRunOnce (shell : ShellState) : KernelProgram ShellState := do
  if ← interruptsIsInContext then kernelPanic "Foreground work invoked from interrupt context"
  else
    cpuDisableInterrupts
    match ← inputTryRead with
    | some ascii => do
        cpuEnableInterrupts
        shellHandleCharacterCall ascii shell
    | none => do
        cpuEnableInterruptsAndHalt
        return shell

/-- The end of `kernel_main` before its loop. -/
def kernelMainEnable (shell : ShellState) : KernelProgram ShellState := do
  cpuEnableInterrupts
  return shell

end Foreground
end WigOSX
