import WigOSX.Core.Format
import WigOSX.Drivers.Serial

/-! The interrupt handler of the interval timer in `pit.c`. -/
namespace WigOSX

open Interaction (perform)

def pitHandleInterrupt : KernelProgram Unit := do
  let ticks ← perform .pitIncrementTicks
  if ticks % 100#32 = 0#32 then
    serialWrite (asciiText "[wigOSX] PIT tick: ")
    if ticks = 100#32 then serialWrite (asciiText "100\n")
    else if ticks = 200#32 then serialWrite (asciiText "200\n")
    else if ticks = 300#32 then serialWrite (asciiText "300\n")
    else serialWrite (asciiText "another second passed\n")
  else return ()

end WigOSX
