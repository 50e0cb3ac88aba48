import WigOSX.Kernel.Program

/-! The polling COM1 driver of `serial.c`. -/
namespace WigOSX

open Interaction (perform)

/-- `SERIAL_PORT_COM1`. -/
def serialPortCom1 : BitVec 16 := 0x3F8#16

/-- `SERIAL_TRANSMIT_TIMEOUT`. -/
def serialTransmitTimeout : Nat := 100000

def serialCanTransmit : KernelProgram Bool := do
  let status ← perform (.inb (serialPortCom1 + 5#16))
  return status &&& 0x20#8 ≠ 0#8

/-- The polling loop, with what is left of the timeout. -/
def serialPoll : Nat → KernelProgram Bool
  | 0 => serialCanTransmit
  | timeout + 1 => do
      if ← serialCanTransmit then return true
      else serialPoll timeout

def serialWaitCanTransmit : KernelProgram Bool :=
  serialPoll serialTransmitTimeout

/-- The register values that `serial_initialize` writes, in order. -/
def serialSetup : List (BitVec 16 × BitVec 8) :=
  [(1#16, 0x00#8), (3#16, 0x80#8), (0#16, 0x03#8), (1#16, 0x00#8), (3#16, 0x03#8), (2#16, 0xC7#8),
    (4#16, 0x0B#8)]

def serialWriteRegisters : List (BitVec 16 × BitVec 8) → KernelProgram Unit
  | [] => return ()
  | (register, value) :: rest => do
      perform (.outb (serialPortCom1 + register) value)
      serialWriteRegisters rest

def serialInitialize : KernelProgram Bool := do
  perform (.serialSetInitialized false)
  serialWriteRegisters serialSetup
  if ← serialWaitCanTransmit then
    perform (.serialSetInitialized true)
    return true
  else return false

/-- The tail of `serial_putchar`: one byte, or the driver gives up. -/
def serialTransmit (c : BitVec 8) : KernelProgram Unit := do
  if ← serialWaitCanTransmit then perform (.outb serialPortCom1 c)
  else perform (.serialSetInitialized false)

/-- `serial_putchar` on a character other than a line feed. -/
def serialPutPlain (c : BitVec 8) : KernelProgram Unit := do
  if ← perform .serialIsInitialized then serialTransmit c
  else return ()

/-- A line feed is sent after a carriage return, which is why the recursion
of the source is one call deep. -/
def serialPutchar (c : BitVec 8) : KernelProgram Unit :=
  if c = asciiLineFeed then do
    if ← perform .serialIsInitialized then
      serialPutPlain asciiCarriageReturn
      serialPutPlain c
    else return ()
  else serialPutPlain c

def serialWrite : List (BitVec 8) → KernelProgram Unit
  | [] => return ()
  | c :: data => do
      serialPutchar c
      serialWrite data

end WigOSX
