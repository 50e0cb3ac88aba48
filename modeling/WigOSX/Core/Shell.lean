import WigOSX.Mm.Summary

/-! The command shell of `shell.c`. Its two static variables belong to the
foreground, so they are passed along instead of being requested. -/
namespace WigOSX

open Interaction (perform)

/-- `SHELL_BUFFER_SIZE`. -/
def shellBufferSize : Nat := 64

/-- `SHELL_PROMPT`. -/
def shellPrompt : List (BitVec 8) := asciiText "wigOSX> "

/-- The static state of `shell.c`: a command line and how much of it is in
use. The length is an index, so that the terminator always has its place. -/
structure ShellState where
  buffer : Vector (BitVec 8) shellBufferSize
  bufferLength : Fin shellBufferSize

def shellPrintPrompt : KernelProgram Unit :=
  consoleWritestring shellPrompt

/-- The loop of `shell_strings_equal` over the two texts without their
terminators. -/
def shellStringsEqual : List (BitVec 8) → List (BitVec 8) → Bool
  | l :: left, r :: right => if l ≠ r then false else shellStringsEqual left right
  | [], [] => true
  | _, _ => false

def shellCommandIsEmpty (command : List (BitVec 8)) : Bool :=
  command.isEmpty

def shellPrintUint32 (value : BitVec 32) : KernelProgram Unit :=
  match formatted (kformatUint32Decimal value) 11 with
  | some text => consoleWritestring text
  | none => return ()

/-- Consecutive `console_writestring` calls. -/
def shellWriteLines : List String → KernelProgram Unit
  | [] => return ()
  | line :: rest => do
      consoleWritestring (asciiText line)
      shellWriteLines rest

def shellCommandHelp : KernelProgram Unit :=
  shellWriteLines
    ["wigOSX commands:\n",
      "  help     - show this help text\n",
      "  clear    - clear the screen\n",
      "  version  - show kernel version\n",
      "  ticks    - show PIT tick count\n",
      "  irq      - show interrupt-context and IRQ diagnostics\n",
      "  input    - show queued and dropped input counts\n",
      "  mem      - show detected memory summary\n",
      "  pmm      - show physical memory manager summary\n",
      "  pmm_test - run a basic PMM allocation/free self-test\n",
      "  paging   - show paging and identity-map summary\n",
      "  heap     - show kernel heap backing-region summary\n",
      "  about    - describe the current stage\n",
      "  scroll   - print lines to test terminal scrolling\n"]

def shellCommandVersion : KernelProgram Unit := do
  consoleWritestring (asciiText "wigOSX ")
  consoleWritestring (asciiText wigosxVersionString)
  consolePutchar asciiLineFeed

/-- A label, a number that a service is asked for, and a line feed. -/
def shellPrintCounter (label : String) (counter : KernelProgram (BitVec 32)) : KernelProgram Unit := do
  consoleWritestring (asciiText label)
  let value ← counter
  shellPrintUint32 value
  consolePutchar asciiLineFeed

def shellCommandTicks : KernelProgram Unit :=
  shellPrintCounter "PIT ticks since initialization: " (perform .pitGetTicks)

def shellCommandAbout : KernelProgram Unit :=
  shellWriteLines
    [wigosxStageLabel, ".\n",
      "Kernel services now use explicit console, logging, panic, input, and interrupt boundaries.\n",
      "Identity paging remains active for the first 16 MiB.\n"]

/-- `input_get_pending_character_count`: the head is loaded before the tail. -/
def inputPendingCharacters : KernelProgram (BitVec 32) := do
  let head ← perform .inputLoadHead
  let tail ← perform .inputLoadTail
  return head - tail

def shellCommandInput : KernelProgram Unit := do
  shellPrintCounter "Queued input characters: " inputPendingCharacters
  shellPrintCounter "Dropped input characters: " (perform .inputGetDroppedCharacterCount)

/-- The loop of the scroll test, from line `i` on. -/
def shellScrollLines (i : Nat) : Nat → KernelProgram Unit
  | 0 => return ()
  | count + 1 => do
      consoleWritestring (asciiText "scroll test line ")
      shellPrintUint32 (BitVec.ofNat 32 i)
      consolePutchar asciiLineFeed
      shellScrollLines (i + 1) count

def shellCommandScrolltest : KernelProgram Unit :=
  shellScrollLines 0 40

def shellCommandIrq : KernelProgram Unit := do
  shellPrintCounter "Interrupt context depth: " (perform .interruptsGetContextDepth)
  shellPrintCounter "PIT IRQ0 dispatches: " (perform (.interruptsGetIrqCount 0#8))
  shellPrintCounter "Keyboard IRQ1 dispatches: " (perform (.interruptsGetIrqCount 1#8))
  shellPrintCounter "Unhandled IRQ dispatches: " (perform .interruptsGetUnhandledIrqCount)
  shellPrintCounter "Invalid IRQ dispatches: " (perform .interruptsGetInvalidIrqCount)

def shellCommandHeap : KernelProgram Unit := do
  consoleWritestring (asciiText "Heap initialized: ")
  let heap ← perform .heapState
  consoleWritestring (asciiText (if heap.initialized then "yes\n" else "no\n"))
  shellPrintCounter "Heap capacity bytes: " (return if heap.initialized then heap.capacity else 0#32)
  consoleWritestring (asciiText "Allocator available: no\n")

def shellCommandPmmTest : KernelProgram Unit := do
  let passed ← perform .pmmRunBasicSelfTest
  consoleWritestring (asciiText (if passed then "PMM self-test passed.\n" else "PMM self-test failed.\n"))

def shellUnknownCommand (command : List (BitVec 8)) : KernelProgram Unit := do
  consoleWritestring (asciiText "Unknown command: ")
  consoleWritestring command
  consolePutchar asciiLineFeed
  consoleWritestring (asciiText "Type 'help' for available commands.\n")

def shellExecuteCommand (command : List (BitVec 8)) : KernelProgram Unit :=
  let isCommand name := shellStringsEqual command (asciiText name)
  if shellCommandIsEmpty command then return ()
  else if isCommand "help" then shellCommandHelp
  else if isCommand "clear" then consoleClear
  else if isCommand "version" then shellCommandVersion
  else if isCommand "ticks" then shellCommandTicks
  else if isCommand "irq" then shellCommandIrq
  else if isCommand "input" then shellCommandInput
  else if isCommand "mem" then memoryPrintSummary
  else if isCommand "pmm" then pmmPrintSummary
  else if isCommand "pmm_test" then shellCommandPmmTest
  else if isCommand "heap" then shellCommandHeap
  else if isCommand "paging" then vmmPrintSummary
  else if isCommand "about" then shellCommandAbout
  else if isCommand "scroll" then shellCommandScrolltest
  else shellUnknownCommand command

/-- Every byte of the buffer is overwritten. -/
def shellResetBuffer : ShellState where
  buffer := Vector.replicate shellBufferSize 0#8
  bufferLength := ⟨0, by decide⟩

def shellInitialize : KernelProgram ShellState := do
  consoleWritestring (asciiText wigosxStageLabel)
  consoleWritestring (asciiText " shell ready.\n")
  consoleWritestring (asciiText "Type 'help' for commands.\n")
  shellPrintPrompt
  return shellResetBuffer

/-- `shell_buffer[shell_buffer_length] = character`. -/
def ShellState.store (s : ShellState) (character : BitVec 8) : ShellState :=
  { s with buffer := s.buffer.set s.bufferLength.val character }

/-- `shell_buffer_length--`, then the terminator; the length is positive. -/
def ShellState.erase (s : ShellState) : ShellState :=
  { s with bufferLength := ⟨s.bufferLength.val - 1, by omega⟩ }.store 0#8

/-- The character is stored, then `shell_buffer_length++`. -/
def ShellState.append (s : ShellState) (character : BitVec 8)
    (h : ¬shellBufferSize - 1 ≤ s.bufferLength.val) : ShellState :=
  { s.store character with bufferLength := ⟨s.bufferLength.val + 1, by omega⟩ }

/-- The command that Enter runs: the buffer up to the stored terminator. -/
def shellCommand (s : ShellState) : List (BitVec 8) :=
  cString (s.store 0#8).buffer.toList

def shellCompleteLine (s : ShellState) : KernelProgram ShellState := do
  consolePutchar asciiLineFeed
  shellExecuteCommand (shellCommand s)
  shellPrintPrompt
  return shellResetBuffer

/-- `shell_handle_character` after its check of the context. -/
def shellEditLine (ascii : BitVec 8) (s : ShellState) : KernelProgram ShellState :=
  if ascii = asciiLineFeed then shellCompleteLine s
  else if ascii = asciiBackspace then
    if 0 < s.bufferLength.val then do
      consolePutchar asciiBackspace
      return s.erase
    else return s
  else if ascii = asciiTab then return s
  else if h : shellBufferSize - 1 ≤ s.bufferLength.val then do
    klogWritestring (asciiText "\n[WARNING] Shell input buffer full.\n")
    shellPrintPrompt
    return s
  else do
    consolePutchar ascii
    return s.append ascii h

def shellHandleCharacter (ascii : BitVec 8) (s : ShellState) : KernelProgram ShellState := do
  if ← interruptsIsInContext then kernelPanic "Shell invoked from interrupt context"
  else shellEditLine ascii s

end WigOSX
