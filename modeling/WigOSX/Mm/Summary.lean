import WigOSX.Core.Log

/-! The summaries that `memory.c`, `pmm.c` and `vmm.c` print. -/
namespace WigOSX

open Interaction (perform)

/-- `WIGOSX_STAGE_LABEL` and `WIGOSX_VERSION_STRING`. -/
def wigosxStageLabel : String := "Stage 16.1: Initial kernel heap backing region"
def wigosxVersionString : String := "0.016.1"

def memoryPrintKib (bytes : BitVec 64) : KernelProgram Unit := do
  klogWriteUint64 (bytes / 1024#64)
  klogWritestring (asciiText " KB")

def memoryRegionTypeName : MemoryRegionType → String
  | .usable => "usable"
  | .reserved => "reserved"

/-- A labelled count on a line of its own. -/
def klogWriteLine (label : String) (value : KernelProgram Unit) : KernelProgram Unit := do
  klogWritestring (asciiText label)
  value
  klogPutchar asciiLineFeed

/-- The loop over `memory_regions`; the regions from index `i` on are left. -/
def memoryPrintRegions (i : Nat) : List MemoryRegion → KernelProgram Unit
  | [] => return ()
  | region :: rest => do
      klogWritestring (asciiText "Region ")
      klogWriteUint64 (BitVec.ofNat 64 i)
      klogWritestring (asciiText ": ")
      klogWritestring (asciiText (memoryRegionTypeName region.type))
      klogWritestring (asciiText ", base=")
      memoryPrintKib region.baseAddress
      klogWritestring (asciiText ", length=")
      memoryPrintKib region.length
      klogPutchar asciiLineFeed
      memoryPrintRegions (i + 1) rest

def memoryPrintBasic (m : MemoryState) : KernelProgram Unit :=
  if m.basicAvailable then do
    klogWritestring (asciiText "Lower memory: ")
    klogWriteUint64 (m.lowerKb.setWidth 64)
    klogWritestring (asciiText " KB\n")
    klogWritestring (asciiText "Upper memory: ")
    klogWriteUint64 (m.upperKb.setWidth 64)
    klogWritestring (asciiText " KB\n")
  else klogWritestring (asciiText "Basic memory information: unavailable\n")

def memoryPrintTruncated (m : MemoryState) : KernelProgram Unit :=
  if m.mapTruncated then
    klogWritestring (asciiText "WARNING: memory map truncated; increase MEMORY_MAX_REGIONS.\n")
  else return ()

def memoryPrintSummary : KernelProgram Unit := do
  let m ← perform .memoryState
  klogWritestring (asciiText wigosxStageLabel)
  klogWritestring (asciiText ".\n")
  memoryPrintBasic m
  if !m.mapAvailable then klogWritestring (asciiText "Memory map: unavailable\n")
  else
    klogWritestring (asciiText "Memory map: available and normalized\n")
    klogWriteLine "Stored memory regions: " (klogWriteUint64 (m.regionCount.setWidth 64))
    klogWriteLine "Usable memory regions: " (klogWriteUint64 (m.usableRegionCount.setWidth 64))
    klogWriteLine "Reserved memory regions: " (klogWriteUint64 (m.reservedRegionCount.setWidth 64))
    klogWriteLine "Total usable memory: " (memoryPrintKib m.totalUsableBytes)
    klogWriteLine "Total reserved memory: " (memoryPrintKib m.totalReservedBytes)
    memoryPrintTruncated m
    memoryPrintRegions 0 (m.regions.toList.take m.regionCount.toNat)

def pmmPrintSummary : KernelProgram Unit := do
  let s ← perform .pmmState
  klogWritestring (asciiText wigosxStageLabel)
  klogWritestring (asciiText ".\n")
  klogWritestring (asciiText "PMM frame size: ")
  klogWriteUint32 pmmFrameSize
  klogWritestring (asciiText " bytes\n")
  klogWriteLine "Tracked frames: " (klogWriteUint32 s.totalFrames)
  klogWriteLine "Free frames: " (klogWriteUint32 s.freeFrames)
  klogWriteLine "Used/reserved frames: " (klogWriteUint32 s.usedFrames)

def vmmPrintSummary : KernelProgram Unit := do
  klogWritestring (asciiText "Virtual memory manager: ")
  let enabled ← perform .vmmIsEnabled
  klogWritestring (asciiText (if enabled then "enabled\n" else "disabled\n"))
  let bytes ← perform .vmmGetIdentityMappedBytes
  klogWriteLine "Identity-mapped bytes: " (klogWriteUint32 bytes)

end WigOSX
