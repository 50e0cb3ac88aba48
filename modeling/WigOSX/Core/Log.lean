import WigOSX.Core.Format
import WigOSX.Drivers.Serial

/-! Diagnostic output of `log.c`, to the console and to serial, and the fatal
path of `panic.c`. -/
namespace WigOSX

open Interaction (perform)

def klogPutchar (character : BitVec 8) : KernelProgram Unit := do
  consolePutchar character
  if ← perform .klogHasSerialOutput then serialPutchar character
  else return ()

def klogWritestring (text : List (BitVec 8)) : KernelProgram Unit := do
  consoleWritestring text
  if ← perform .klogHasSerialOutput then serialWrite text
  else return ()

/-- The formatted text of a local buffer of the given size. What the buffer
holds before is never read. -/
def formatted (format : Bool → List (BitVec 8) → Bool × List (BitVec 8)) (size : Nat) :
    Option (List (BitVec 8)) :=
  let result := format false (List.replicate size 0#8)
  if result.1 then some (cString result.2) else none

def klogWriteFormatted (text : Option (List (BitVec 8))) : KernelProgram Unit :=
  match text with
  | some text => klogWritestring text
  | none => return ()

def klogWriteUint32 (value : BitVec 32) : KernelProgram Unit :=
  klogWriteFormatted (formatted (kformatUint32Decimal value) 11)

def klogWriteUint64 (value : BitVec 64) : KernelProgram Unit :=
  klogWriteFormatted (formatted (kformatUint64Decimal value) 21)

/-- `kernel_panic` does not return, so it has every type. -/
def kernelPanic {α : Type} (message : String) : KernelProgram α := do
  perform (.panicCall (asciiText message))
  cpuDisableInterrupts
  klogWritestring (asciiText "\n[KERNEL PANIC] ")
  klogWritestring (asciiText message)
  klogPutchar asciiLineFeed
  klogWritestring (asciiText "System halted.\n")
  let impossible ← perform .haltForever
  nomatch impossible

end WigOSX
