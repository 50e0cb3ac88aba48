import WigOSX.Core.Memory

/-! The bitmap physical memory manager of `pmm.c`. Frame indices, counters
and addresses keep the widths of the source: frame indices are 32-bit,
address arithmetic is 64-bit. -/
namespace WigOSX

/-- `PMM_FRAME_SIZE` and `PMM_FRAME_SIZE_U64`. -/
def pmmFrameSize : BitVec 32 := 4096#32
def pmmFrameSizeU64 : BitVec 64 := 4096#64

/-- `PMM_LOW_MEMORY_RESERVED_BYTES`. -/
def pmmLowMemoryReservedBytes : BitVec 64 := 0x00100000#64

/-- `PMM_MAX_PHYSICAL_MEMORY_BYTES`. -/
def pmmMaxPhysicalMemoryBytes : BitVec 64 := 0x100000000#64

/-- `PMM_MAX_FRAMES`. -/
def pmmMaxFrames : BitVec 32 := (pmmMaxPhysicalMemoryBytes / pmmFrameSizeU64).setWidth 32

/-- `PMM_BITS_PER_WORD`. -/
def pmmBitsPerWord : BitVec 32 := 32#32

/-- `PMM_BITMAP_WORD_COUNT`. -/
def pmmBitmapWordCount : BitVec 32 := pmmMaxFrames / pmmBitsPerWord

/-- `sizeof(pmm_bitmap)`, which is also `sizeof(pmm_allocated_bitmap)`. -/
def pmmBitmapBytes : BitVec 64 := pmmBitmapWordCount.setWidth 64 * 4#64

/-- Addresses fixed by the linker: the symbols of `kernel.ld` and the two
static bitmap arrays. -/
structure KernelImage where
  kernelStart : BitVec 32
  kernelEnd : BitVec 32
  kernelHeapStart : BitVec 32
  kernelHeapEnd : BitVec 32
  pmmBitmap : BitVec 32
  pmmAllocatedBitmap : BitVec 32

/-- The static state of `pmm.c`. `suppressedUpdates` is a ghost: it counts
the counter updates that the saturation guards of the marking helpers left
out, and no function reads it. -/
structure PmmState where
  bitmap : Nat → BitVec 32
  allocatedBitmap : Nat → BitVec 32
  initialized : Bool
  totalFrames : BitVec 32
  freeFrames : BitVec 32
  usedFrames : BitVec 32
  nextSearchFrame : BitVec 32
  suppressedUpdates : Nat

/-- Static initialization at boot. -/
def PmmState.boot : PmmState where
  bitmap := fun _ => 0#32
  allocatedBitmap := fun _ => 0#32
  initialized := false
  totalFrames := 0#32
  freeFrames := 0#32
  usedFrames := 0#32
  nextSearchFrame := 0#32
  suppressedUpdates := 0

def pmmAlignDown (value : BitVec 64) : BitVec 64 :=
  value &&& ~~~(pmmFrameSizeU64 - 1#64)

def pmmAlignUp (value : BitVec 64) : BitVec 64 :=
  let mask := pmmFrameSizeU64 - 1#64
  if value &&& mask = 0#64 then value
  else if uint64Max - mask < value then uint64Max &&& ~~~mask
  else (value + mask) &&& ~~~mask

/-- The exclusive end of a range, saturated at `UINT64_MAX`. -/
def pmmRangeEnd (baseAddress length : BitVec 64) : BitVec 64 :=
  if uint64Max - length < baseAddress then uint64Max else baseAddress + length

def pmmIsValidFrameIndex (s : PmmState) (frameIndex : BitVec 32) : Bool :=
  frameIndex < s.totalFrames && frameIndex < pmmMaxFrames

def pmmBitmapWordIndex (frameIndex : BitVec 32) : Nat :=
  (frameIndex / pmmBitsPerWord).toNat

def pmmBitmapBitMask (frameIndex : BitVec 32) : BitVec 32 :=
  1#32 <<< (frameIndex % pmmBitsPerWord)

def pmmIsFrameAllocated (s : PmmState) (frameIndex : BitVec 32) : Bool :=
  s.allocatedBitmap (pmmBitmapWordIndex frameIndex) &&& pmmBitmapBitMask frameIndex != 0#32

def pmmIsFrameIndexUsed (s : PmmState) (frameIndex : BitVec 32) : Bool :=
  s.bitmap (pmmBitmapWordIndex frameIndex) &&& pmmBitmapBitMask frameIndex != 0#32

/-- `bitmap[word] |= mask`. -/
def pmmOrWord (bitmap : Nat → BitVec 32) (frameIndex : BitVec 32) : Nat → BitVec 32 :=
  Function.update bitmap (pmmBitmapWordIndex frameIndex)
    (bitmap (pmmBitmapWordIndex frameIndex) ||| pmmBitmapBitMask frameIndex)

/-- `bitmap[word] &= ~mask`. -/
def pmmAndNotWord (bitmap : Nat → BitVec 32) (frameIndex : BitVec 32) : Nat → BitVec 32 :=
  Function.update bitmap (pmmBitmapWordIndex frameIndex)
    (bitmap (pmmBitmapWordIndex frameIndex) &&& ~~~pmmBitmapBitMask frameIndex)

def pmmMarkFrameAllocated (s : PmmState) (frameIndex : BitVec 32) : PmmState :=
  if pmmIsValidFrameIndex s frameIndex then
    { s with allocatedBitmap := pmmOrWord s.allocatedBitmap frameIndex }
  else s

def pmmMarkFrameUnallocated (s : PmmState) (frameIndex : BitVec 32) : PmmState :=
  if pmmIsValidFrameIndex s frameIndex then
    { s with allocatedBitmap := pmmAndNotWord s.allocatedBitmap frameIndex }
  else s

/-- `if (pmm_free_frames > 0) pmm_free_frames--;` -/
def pmmDecrementFree (s : PmmState) : PmmState :=
  if 0#32 < s.freeFrames then { s with freeFrames := s.freeFrames - 1#32 }
  else { s with suppressedUpdates := s.suppressedUpdates + 1 }

/-- `if (pmm_used_frames > 0) pmm_used_frames--;` -/
def pmmDecrementUsed (s : PmmState) : PmmState :=
  if 0#32 < s.usedFrames then { s with usedFrames := s.usedFrames - 1#32 }
  else { s with suppressedUpdates := s.suppressedUpdates + 1 }

def pmmMarkFrameUsed (s : PmmState) (frameIndex : BitVec 32) : PmmState :=
  if !pmmIsValidFrameIndex s frameIndex then s
  else if pmmIsFrameIndexUsed s frameIndex then s
  else
    let s := pmmDecrementFree { s with bitmap := pmmOrWord s.bitmap frameIndex }
    { s with usedFrames := s.usedFrames + 1#32 }

def pmmMarkFrameFree (s : PmmState) (frameIndex : BitVec 32) : PmmState :=
  if !pmmIsValidFrameIndex s frameIndex then s
  else if !pmmIsFrameIndexUsed s frameIndex then s
  else
    let s := { s with bitmap := pmmAndNotWord s.bitmap frameIndex }
    pmmDecrementUsed { s with freeFrames := s.freeFrames + 1#32 }

/-- `for (uint64_t frame = first; frame < last; frame++) mark((uint32_t)frame);` -/
def pmmForFrames (mark : PmmState → BitVec 32 → PmmState) (s : PmmState)
    (firstFrame lastFrame : BitVec 64) : PmmState :=
  (List.range' firstFrame.toNat (lastFrame.toNat - firstFrame.toNat)).foldl
    (fun s frame => mark s (BitVec.ofNat 32 frame)) s

/-- The clamping shared by `pmm_mark_range_free` and `pmm_mark_range_used`,
which differ in the rounding of the two ends and in the marking helper. -/
def pmmMarkRange (mark : PmmState → BitVec 32 → PmmState) (s : PmmState)
    (firstFrame lastFrame : BitVec 64) : PmmState :=
  if s.totalFrames.setWidth 64 ≤ firstFrame then s
  else
    let lastFrame :=
      if s.totalFrames.setWidth 64 < lastFrame then s.totalFrames.setWidth 64 else lastFrame
    pmmForFrames mark s firstFrame lastFrame

def pmmMarkRangeFree (s : PmmState) (baseAddress length : BitVec 64) : PmmState :=
  let endAddress := pmmRangeEnd baseAddress length
  let firstFrame := pmmAlignUp baseAddress / pmmFrameSizeU64
  let lastFrame := pmmAlignDown endAddress / pmmFrameSizeU64
  pmmMarkRange pmmMarkFrameFree s firstFrame lastFrame

def pmmMarkRangeUsed (s : PmmState) (baseAddress length : BitVec 64) : PmmState :=
  let endAddress := pmmRangeEnd baseAddress length
  let firstFrame := pmmAlignDown baseAddress / pmmFrameSizeU64
  let lastFrame := pmmAlignUp endAddress / pmmFrameSizeU64
  pmmMarkRange pmmMarkFrameUsed s firstFrame lastFrame

/-- The indices `0 .. memory_get_region_count() - 1`. -/
def memoryRegionIndices (m : MemoryState) : List (BitVec 32) :=
  (List.range (memoryGetRegionCount m).toNat).map (BitVec.ofNat 32)

/-- The loop over all regions shared by `pmm_find_highest_physical_address`
and `pmm_release_usable_memory_regions`. A null region is skipped. -/
def pmmForRegions {β : Type} (m : MemoryState) (body : β → MemoryRegion → β) (start : β) : β :=
  (memoryRegionIndices m).foldl (fun acc i =>
    match memoryGetRegion m i with
    | none => acc
    | some region => body acc region) start

def pmmFindHighestPhysicalAddress (m : MemoryState) : BitVec 64 :=
  let highestAddress := pmmForRegions m (fun highestAddress region =>
    let endAddress := pmmRangeEnd region.baseAddress region.length
    if highestAddress < endAddress then endAddress else highestAddress) 0#64
  let highestAddress :=
    if pmmMaxPhysicalMemoryBytes < highestAddress then pmmMaxPhysicalMemoryBytes else highestAddress
  pmmAlignUp highestAddress

/-- Every index of the two arrays is below `PMM_BITMAP_WORD_COUNT`. -/
def pmmResetBitmap (s : PmmState) : PmmState :=
  { s with bitmap := fun _ => 0xFFFFFFFF#32, allocatedBitmap := fun _ => 0#32 }

def pmmReleaseUsableMemoryRegions (m : MemoryState) (s : PmmState) : PmmState :=
  pmmForRegions m (fun s region =>
    if region.type ≠ .usable then s
    else pmmMarkRangeFree s region.baseAddress region.length) s

def pmmReserveLowMemory (s : PmmState) : PmmState :=
  pmmMarkRangeUsed s 0#64 pmmLowMemoryReservedBytes

def pmmReserveKernelImage (image : KernelImage) (s : PmmState) : PmmState :=
  if image.kernelEnd ≤ image.kernelStart then s
  else pmmMarkRangeUsed s (image.kernelStart.setWidth 64)
    ((image.kernelEnd - image.kernelStart).setWidth 64)

def pmmReserveBitmapStorage (image : KernelImage) (s : PmmState) : PmmState :=
  let s := pmmMarkRangeUsed s (image.pmmBitmap.setWidth 64) pmmBitmapBytes
  pmmMarkRangeUsed s (image.pmmAllocatedBitmap.setWidth 64) pmmBitmapBytes

def pmmReserveMultibootInformation (memory : PhysicalMemory) (multibootInfoAddress : BitVec 32)
    (s : PmmState) : PmmState :=
  if multibootInfoAddress = 0#32 then s
  else
    let s := pmmMarkRangeUsed s (multibootInfoAddress.setWidth 64) MultibootInfo.size
    let mmapAddr := MultibootInfo.mmapAddr memory multibootInfoAddress
    let mmapLength := MultibootInfo.mmapLength memory multibootInfoAddress
    if MultibootInfo.hasMemoryMap memory multibootInfoAddress ∧ mmapAddr ≠ 0#32 ∧
        0#32 < mmapLength then
      pmmMarkRangeUsed s (mmapAddr.setWidth 64) (mmapLength.setWidth 64)
    else s

/-- The four reservations of `pmm_initialize` in the order they are made. -/
def pmmReserve (image : KernelImage) (memory : PhysicalMemory) (multibootInfoAddress : BitVec 32)
    (s : PmmState) : PmmState :=
  pmmReserveMultibootInformation memory multibootInfoAddress
    (pmmReserveBitmapStorage image (pmmReserveKernelImage image (pmmReserveLowMemory s)))

def pmmInitialize (image : KernelImage) (m : MemoryState) (memory : PhysicalMemory)
    (multibootInfoAddress : BitVec 32) (s : PmmState) : KernelStatus × PmmState :=
  let s :=
    { s with
      initialized := false
      totalFrames := 0#32
      freeFrames := 0#32
      usedFrames := 0#32
      nextSearchFrame := 0#32 }
  if multibootInfoAddress = 0#32 then (.invalidArgument, s)
  else if !memoryIsInitialized m || memoryWasMapTruncated m then (.notReady, s)
  else
    let s := pmmResetBitmap s
    let highestAddress := pmmFindHighestPhysicalAddress m
    if highestAddress = 0#64 then (.unavailable, s)
    else
      let s := { s with totalFrames := (highestAddress / pmmFrameSizeU64).setWidth 32 }
      if s.totalFrames = 0#32 then (.unavailable, s)
      else
        let s := { s with usedFrames := s.totalFrames, freeFrames := 0#32 }
        let s := pmmReleaseUsableMemoryRegions m s
        let s := pmmReserve image memory multibootInfoAddress s
        if s.freeFrames = 0#32 then (.outOfMemory, s)
        else (.ok, { s with initialized := true })

/-- One scan of `pmm_allocate_frame`: the first free frame from `first` on. -/
def pmmFindFreeFrame (s : PmmState) (first last : BitVec 32) : Option (BitVec 32) :=
  ((List.range' first.toNat (last.toNat - first.toNat)).map (BitVec.ofNat 32)).find?
    (fun frame => !pmmIsFrameIndexUsed s frame)

/-- The body of both scans once a free frame is found. -/
def pmmTakeFrame (s : PmmState) (frame : BitVec 32) : BitVec 32 × PmmState :=
  let s := pmmMarkFrameAllocated (pmmMarkFrameUsed s frame) frame
  (frame * pmmFrameSize, { s with nextSearchFrame := frame + 1#32 })

/-- The result is the address stored through the out pointer, or `none` when
the function returns false and leaves the out parameter alone. -/
def pmmAllocateFrame (outIsNull : Bool) (s : PmmState) : Option (BitVec 32) × PmmState :=
  if !s.initialized || outIsNull then (none, s)
  else
    match pmmFindFreeFrame s s.nextSearchFrame s.totalFrames with
    | some frame => (some (pmmTakeFrame s frame).1, (pmmTakeFrame s frame).2)
    | none =>
        match pmmFindFreeFrame s 0#32 s.nextSearchFrame with
        | some frame => (some (pmmTakeFrame s frame).1, (pmmTakeFrame s frame).2)
        | none => (none, s)

/-- The body of `pmm_free_frame` after its checks. -/
def pmmGiveFrame (s : PmmState) (frameIndex : BitVec 32) : PmmState :=
  let s := pmmMarkFrameFree (pmmMarkFrameUnallocated s frameIndex) frameIndex
  if frameIndex < s.nextSearchFrame then { s with nextSearchFrame := frameIndex } else s

def pmmFreeFrame (physicalAddress : BitVec 32) (s : PmmState) : Bool × PmmState :=
  if !s.initialized then (false, s)
  else if physicalAddress % pmmFrameSize ≠ 0#32 then (false, s)
  else
    let frameIndex := physicalAddress / pmmFrameSize
    if !pmmIsValidFrameIndex s frameIndex then (false, s)
    else if !pmmIsFrameAllocated s frameIndex then (false, s)
    else (true, pmmGiveFrame s frameIndex)

/-- Addresses outside the tracked frames count as used. -/
def pmmIsFrameUsed (s : PmmState) (physicalAddress : BitVec 32) : Bool :=
  let frameIndex := physicalAddress / pmmFrameSize
  if !pmmIsValidFrameIndex s frameIndex then true else pmmIsFrameIndexUsed s frameIndex

def pmmGetTotalFrameCount (s : PmmState) : BitVec 32 := s.totalFrames

def pmmGetFreeFrameCount (s : PmmState) : BitVec 32 := s.freeFrames

def pmmGetUsedFrameCount (s : PmmState) : BitVec 32 := s.usedFrames

def pmmRunBasicSelfTest (s : PmmState) : Bool × PmmState :=
  let freeBefore := pmmGetFreeFrameCount s
  let usedBefore := pmmGetUsedFrameCount s
  match pmmAllocateFrame false s with
  | (none, s) => (false, s)
  | (some physicalAddress, s) =>
      if !pmmIsFrameUsed s physicalAddress then (false, s)
      else if pmmGetFreeFrameCount s ≠ freeBefore - 1#32 then (false, s)
      else if pmmGetUsedFrameCount s ≠ usedBefore + 1#32 then (false, s)
      else
        let (freed, s) := pmmFreeFrame physicalAddress s
        if !freed then (false, s)
        else if pmmGetFreeFrameCount s ≠ freeBefore then (false, s)
        else if pmmGetUsedFrameCount s ≠ usedBefore then (false, s)
        else (true, s)

/-- One allocator call of a client together with its result. -/
inductive PmmEvent where
  | allocateFrame (outIsNull : Bool) (result : Option (BitVec 32))
  | freeFrame (physicalAddress : BitVec 32) (result : Bool)

/-- Any client may call next, with any arguments. -/
inductive PmmStep : PmmState → PmmEvent → PmmState → Prop where
  | allocateFrame (s : PmmState) (outIsNull : Bool) :
      PmmStep s (.allocateFrame outIsNull (pmmAllocateFrame outIsNull s).1)
        (pmmAllocateFrame outIsNull s).2
  | freeFrame (s : PmmState) (physicalAddress : BitVec 32) :
      PmmStep s (.freeFrame physicalAddress (pmmFreeFrame physicalAddress s).1)
        (pmmFreeFrame physicalAddress s).2

end WigOSX
