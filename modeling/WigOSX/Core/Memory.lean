import WigOSX.Core.Status
import WigOSX.Machine.Multiboot

/-! The normalized memory map of `memory.c`. The static variables are one
record, and every function takes the record and returns the changed one. -/
namespace WigOSX

inductive MemoryRegionType where
  | usable
  | reserved
deriving DecidableEq, Repr

structure MemoryRegion where
  baseAddress : BitVec 64
  length : BitVec 64
  type : MemoryRegionType
deriving DecidableEq, Repr

/-- `MEMORY_MAX_REGIONS`. -/
def memoryMaxRegions : Nat := 32

/-- The static state of `memory.c`. -/
structure MemoryState where
  initialized : Bool
  basicAvailable : Bool
  mapAvailable : Bool
  mapTruncated : Bool
  lowerKb : BitVec 32
  upperKb : BitVec 32
  usableRegionCount : BitVec 32
  reservedRegionCount : BitVec 32
  totalUsableBytes : BitVec 64
  totalReservedBytes : BitVec 64
  regions : Vector MemoryRegion memoryMaxRegions
  regionCount : BitVec 32

/-- Every static variable is overwritten, so the previous state is not read. -/
def memoryResetSummary : MemoryState where
  initialized := false
  basicAvailable := false
  mapAvailable := false
  mapTruncated := false
  lowerKb := 0#32
  upperKb := 0#32
  usableRegionCount := 0#32
  reservedRegionCount := 0#32
  totalUsableBytes := 0#64
  totalReservedBytes := 0#64
  regions := Vector.replicate memoryMaxRegions ⟨0#64, 0#64, .reserved⟩
  regionCount := 0#32

/-- The counters at the head of `memory_add_region`. They run before the
capacity check, and the byte totals wrap at `2 ^ 64`. -/
def memoryCountRegion (m : MemoryState) (length : BitVec 64) : MemoryRegionType → MemoryState
  | .usable =>
      { m with
        usableRegionCount := m.usableRegionCount + 1#32
        totalUsableBytes := m.totalUsableBytes + length }
  | .reserved =>
      { m with
        reservedRegionCount := m.reservedRegionCount + 1#32
        totalReservedBytes := m.totalReservedBytes + length }

/-- The tail of `memory_add_region`: the array store, or the truncation mark
when all slots are taken. -/
def memoryStoreRegion (m : MemoryState) (region : MemoryRegion) : MemoryState :=
  if h : BitVec.ofNat 32 memoryMaxRegions ≤ m.regionCount then
    { m with mapTruncated := true }
  else
    { m with
      regions := m.regions.set m.regionCount.toNat region (by
        simp only [memoryMaxRegions] at h ⊢
        bv_omega)
      regionCount := m.regionCount + 1#32 }

def memoryAddRegion (m : MemoryState) (baseAddress length : BitVec 64)
    (type : MemoryRegionType) : MemoryState :=
  if length = 0#64 then m
  else memoryStoreRegion (memoryCountRegion m length type) ⟨baseAddress, length, type⟩

/-- `MULTIBOOT_MEMORY_MAP_BASE_SIZE`: an entry without its size field. -/
def multibootMemoryMapBaseSize : BitVec 32 := MultibootMemoryMapEntry.structSize - 4#32

/-- The normalized type of an entry. -/
def memoryEntryRegionType (memory : PhysicalMemory) (entry : BitVec 32) : MemoryRegionType :=
  if MultibootMemoryMapEntry.type memory entry = multibootMemoryAvailable then .usable else .reserved

/-- An entry that passed the size checks moves the cursor towards the end
without wrapping, so the loop below terminates. -/
theorem memoryEntry_advances {currentAddress endAddress size : BitVec 32}
    (hLoop : currentAddress < endAddress) (hLarge : ¬uint32Max - 4#32 < size)
    (hRemaining : ¬endAddress - currentAddress < 4#32 + size) :
    (currentAddress + (4#32 + size)).toNat = currentAddress.toNat + 4 + size.toNat ∧
      currentAddress.toNat + 4 + size.toNat ≤ endAddress.toNat := by
  have hSize : size.toNat ≤ 2 ^ 32 - 5 := by
    simp only [uint32Max] at hLarge
    bv_omega
  have hTotal : (4#32 + size).toNat = 4 + size.toNat := by bv_omega
  have hSub : (endAddress - currentAddress).toNat = endAddress.toNat - currentAddress.toNat := by bv_omega
  have hFits : 4 + size.toNat ≤ endAddress.toNat - currentAddress.toNat := by
    rw [BitVec.lt_def, hTotal, hSub] at hRemaining
    omega
  have hEnd := endAddress.isLt
  rw [BitVec.toNat_add, hTotal]
  omega

theorem memoryEntry_shrinks {currentAddress endAddress size : BitVec 32}
    (hLoop : currentAddress < endAddress) (hLarge : ¬uint32Max - 4#32 < size)
    (hRemaining : ¬endAddress - currentAddress < 4#32 + size) :
    endAddress.toNat - (currentAddress + (4#32 + size)).toNat <
      endAddress.toNat - currentAddress.toNat := by
  have hNext := memoryEntry_advances hLoop hLarge hRemaining
  have hLt := BitVec.lt_def.mp hLoop
  omega

/-- The loop of `memory_read_multiboot_map`. A returned status is an early
return; `none` means that the loop ran to `endAddress`. -/
def memoryReadEntries (memory : PhysicalMemory) (endAddress currentAddress : BitVec 32)
    (m : MemoryState) : Option KernelStatus × MemoryState :=
  if _hLoop : currentAddress < endAddress then
    let remainingBytes := endAddress - currentAddress
    if remainingBytes < 4#32 then (some .malformedData, m)
    else
      let size := MultibootMemoryMapEntry.size memory currentAddress
      if size < multibootMemoryMapBaseSize then (some .malformedData, m)
      else if _hLarge : uint32Max - 4#32 < size then (some .malformedData, m)
      else
        let entryTotalSize := 4#32 + size
        if _hRemaining : remainingBytes < entryTotalSize then (some .malformedData, m)
        else
          let baseAddr := MultibootMemoryMapEntry.baseAddr memory currentAddress
          let length := MultibootMemoryMapEntry.length memory currentAddress
          if length ≠ 0#64 ∧ uint64Max - length < baseAddr then (some .malformedData, m)
          else
            let m := memoryAddRegion m baseAddr length (memoryEntryRegionType memory currentAddress)
            if m.mapTruncated then (some .malformedData, m)
            else memoryReadEntries memory endAddress (currentAddress + entryTotalSize) m
  else (none, m)
termination_by endAddress.toNat - currentAddress.toNat
decreasing_by exact memoryEntry_shrinks _hLoop _hLarge _hRemaining

/-- The info pointer is never null here: `memory_initialize` checked it. -/
def memoryReadMultibootMap (memory : PhysicalMemory) (info : BitVec 32) (m : MemoryState) :
    KernelStatus × MemoryState :=
  let mmapAddr := MultibootInfo.mmapAddr memory info
  let mmapLength := MultibootInfo.mmapLength memory info
  if info = 0#32 ∨ mmapAddr = 0#32 ∨ mmapLength = 0#32 then (.invalidArgument, m)
  else if uint32Max - mmapAddr < mmapLength then (.malformedData, m)
  else
    match memoryReadEntries memory (mmapAddr + mmapLength) mmapAddr m with
    | (some status, m) => (status, m)
    | (none, m) => if m.regionCount = 0#32 then (.malformedData, m) else (.ok, m)

/-- The basic memory fields of `memory_initialize`. -/
def memoryReadBasic (memory : PhysicalMemory) (info : BitVec 32) (m : MemoryState) : MemoryState :=
  if MultibootInfo.flags memory info &&& multibootInfoMemory ≠ 0#32 then
    { m with
      basicAvailable := true
      lowerKb := MultibootInfo.memLower memory info
      upperKb := MultibootInfo.memUpper memory info }
  else m

/-- `_previous` is the state before the call; the reset discards it. -/
def memoryInitialize (memory : PhysicalMemory) (multibootInfoAddress : BitVec 32)
    (_previous : MemoryState) : KernelStatus × MemoryState :=
  let m := memoryResetSummary
  if multibootInfoAddress = 0#32 then (.invalidArgument, m)
  else
    let m := memoryReadBasic memory multibootInfoAddress m
    if MultibootInfo.hasMemoryMap memory multibootInfoAddress = false ∨
        MultibootInfo.mmapAddr memory multibootInfoAddress = 0#32 ∨
        MultibootInfo.mmapLength memory multibootInfoAddress = 0#32 then (.unavailable, m)
    else
      let (status, m) := memoryReadMultibootMap memory multibootInfoAddress m
      if status.isOk then (.ok, { m with mapAvailable := true, initialized := true })
      else (status, m)

def memoryIsInitialized (m : MemoryState) : Bool := m.initialized

def memoryGetRegionCount (m : MemoryState) : BitVec 32 := m.regionCount

/-- `none` is the null pointer. -/
def memoryGetRegion (m : MemoryState) (index : BitVec 32) : Option MemoryRegion :=
  if m.regionCount ≤ index then none else m.regions[index.toNat]?

def memoryGetTotalUsableBytes (m : MemoryState) : BitVec 64 := m.totalUsableBytes

def memoryGetTotalReservedBytes (m : MemoryState) : BitVec 64 := m.totalReservedBytes

def memoryWasMapTruncated (m : MemoryState) : Bool := m.mapTruncated

end WigOSX
