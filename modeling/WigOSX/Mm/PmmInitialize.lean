import WigOSX.Mm.PmmAccounting

/-! The state that `pmm_initialize` builds. Releasing the usable regions and
then reserving the fixed ranges leaves exactly those frames free that lie
inside one usable region and touch no reserved range. -/
namespace WigOSX

/-- The regions that `memory_get_region` exposes, in index order. -/
def memoryRegionList (m : MemoryState) : List MemoryRegion :=
  (memoryRegionIndices m).filterMap (memoryGetRegion m)

/-- The exclusive end of a region, saturated like `pmm_range_end`. -/
def MemoryRegion.endAddress (region : MemoryRegion) : Nat :=
  min (region.baseAddress.toNat + region.length.toNat) (2 ^ 64 - 1)

/-- The largest region end. -/
def memoryHighestEnd (m : MemoryState) : Nat :=
  ((memoryRegionList m).map MemoryRegion.endAddress).foldl max 0

/-- The ranges reserved after the release, as base and length. -/
def pmmReservedRanges (image : KernelImage) (memory : PhysicalMemory)
    (multibootInfoAddress : BitVec 32) : List (BitVec 64 × BitVec 64) :=
  [(0#64, pmmLowMemoryReservedBytes)] ++
  (if image.kernelEnd ≤ image.kernelStart then []
    else [(image.kernelStart.setWidth 64, (image.kernelEnd - image.kernelStart).setWidth 64)]) ++
  [(image.pmmBitmap.setWidth 64, pmmBitmapBytes),
    (image.pmmAllocatedBitmap.setWidth 64, pmmBitmapBytes),
    (multibootInfoAddress.setWidth 64, MultibootInfo.size)] ++
  (if MultibootInfo.hasMemoryMap memory multibootInfoAddress ∧
      MultibootInfo.mmapAddr memory multibootInfoAddress ≠ 0#32 ∧
      0#32 < MultibootInfo.mmapLength memory multibootInfoAddress then
    [((MultibootInfo.mmapAddr memory multibootInfoAddress).setWidth 64,
      (MultibootInfo.mmapLength memory multibootInfoAddress).setWidth 64)]
    else [])

/-- The frame lies inside a single usable region. -/
def FrameUsable (m : MemoryState) (i : Nat) : Prop :=
  ∃ region ∈ memoryRegionList m, region.type = .usable ∧
    frameBytes i ⊆ byteRange region.baseAddress.toNat region.length.toNat

/-- The frame touches a range that is reserved after the release. -/
def FrameReserved (image : KernelImage) (memory : PhysicalMemory)
    (multibootInfoAddress : BitVec 32) (i : Nat) : Prop :=
  ∃ range ∈ pmmReservedRanges image memory multibootInfoAddress,
    ¬Disjoint (frameBytes i) (byteRange range.1.toNat range.2.toNat)

/-- The frame meets none of the ranges that `pmm_initialize` reserves. -/
structure PmmFrameUnreserved (image : KernelImage) (memory : PhysicalMemory)
    (multibootInfoAddress : BitVec 32) (i : Nat) : Prop where
  low : Disjoint (frameBytes i) (Set.Ico 0 (2 ^ 20))
  kernel : image.kernelStart < image.kernelEnd →
    Disjoint (frameBytes i) (Set.Ico image.kernelStart.toNat image.kernelEnd.toNat)
  bitmap : Disjoint (frameBytes i) (byteRange image.pmmBitmap.toNat 131072)
  allocatedBitmap : Disjoint (frameBytes i) (byteRange image.pmmAllocatedBitmap.toNat 131072)
  info : Disjoint (frameBytes i) (byteRange multibootInfoAddress.toNat 52)
  map : MultibootInfo.hasMemoryMap memory multibootInfoAddress = true →
    MultibootInfo.mmapAddr memory multibootInfoAddress ≠ 0#32 →
    MultibootInfo.mmapLength memory multibootInfoAddress ≠ 0#32 →
    Disjoint (frameBytes i) (byteRange (MultibootInfo.mmapAddr memory multibootInfoAddress).toNat
      (MultibootInfo.mmapLength memory multibootInfoAddress).toNat)

/-- The kernel's range ends at the address that the linker script gives. -/
theorem KernelImage.kernel_length (image : KernelImage) (h : ¬image.kernelEnd ≤ image.kernelStart) :
    image.kernelStart.toNat + (image.kernelEnd - image.kernelStart).toNat = image.kernelEnd.toNat := by
  have hEnd := image.kernelEnd.isLt
  rw [BitVec.le_def, Nat.not_le] at h
  rw [BitVec.toNat_sub]
  omega

/-- The list of reservations, range by range. -/
theorem not_frameReserved_iff {image : KernelImage} {memory : PhysicalMemory}
    {multibootInfoAddress : BitVec 32} {i : Nat} :
    ¬FrameReserved image memory multibootInfoAddress i ↔
      PmmFrameUnreserved image memory multibootInfoAddress i := by
  have hLow : (0#64).toNat = 0 ∧ pmmLowMemoryReservedBytes.toNat = 2 ^ 20 := by decide
  have hBitmap : pmmBitmapBytes.toNat = 131072 := by decide
  have hInfo : MultibootInfo.size.toNat = 52 := by decide
  have hList : ¬FrameReserved image memory multibootInfoAddress i ↔
      ∀ range ∈ pmmReservedRanges image memory multibootInfoAddress,
        Disjoint (frameBytes i) (byteRange range.1.toNat range.2.toNat) := by
    rw [FrameReserved]
    push Not
    rfl
  rw [hList]
  simp only [pmmReservedRanges, List.forall_mem_append, List.forall_mem_cons,
    toNat_setWidth_64, hLow, hBitmap, hInfo]
  constructor
  · rintro ⟨⟨⟨⟨hFirst, -⟩, hImage⟩, hUsed, hAllocated, hHeader, -⟩, hMap⟩
    refine ⟨?_, fun hAbove => ?_, hUsed, hAllocated, hHeader, fun hFlag hAddress hLength => ?_⟩
    · rwa [byteRange, Nat.zero_add] at hFirst
    · have hNotLe : ¬image.kernelEnd ≤ image.kernelStart := BitVec.not_le.mpr hAbove
      rw [if_neg hNotLe] at hImage
      have h := hImage _ List.mem_cons_self
      rwa [toNat_setWidth_64, toNat_setWidth_64, byteRange, image.kernel_length hNotLe] at h
    · have hPos : 0#32 < MultibootInfo.mmapLength memory multibootInfoAddress := by
        rw [ne_eq, ← BitVec.toNat_inj, BitVec.toNat_ofNat] at hLength
        rw [BitVec.lt_def, BitVec.toNat_ofNat]
        omega
      rw [if_pos ⟨hFlag, hAddress, hPos⟩] at hMap
      have h := hMap _ List.mem_cons_self
      rwa [toNat_setWidth_64, toNat_setWidth_64] at h
  · rintro ⟨hFirst, hImage, hUsed, hAllocated, hHeader, hMap⟩
    refine ⟨⟨⟨⟨?_, by simp⟩, ?_⟩, hUsed, hAllocated, hHeader, by simp⟩, ?_⟩
    · rwa [byteRange, Nat.zero_add]
    · split_ifs with hEmpty
      · simp
      · rw [List.forall_mem_singleton, toNat_setWidth_64, toNat_setWidth_64, byteRange,
          image.kernel_length hEmpty]
        exact hImage (BitVec.not_le.mp hEmpty)
    · split_ifs with hPresent
      · rw [List.forall_mem_singleton, toNat_setWidth_64, toNat_setWidth_64]
        refine hMap hPresent.1 hPresent.2.1 fun hZero => ?_
        rw [hZero] at hPresent
        exact absurd hPresent.2.2 (by decide)
      · simp

/-- A loop over the parsed regions is a fold over their list. -/
theorem pmmForRegions_eq {β : Type} (m : MemoryState) (body : β → MemoryRegion → β) (start : β) :
    pmmForRegions m body start = (memoryRegionList m).foldl body start := by
  rw [memoryRegionList, List.foldl_filterMap, pmmForRegions]
  congr 1
  funext acc i
  cases memoryGetRegion m i <;> rfl

section Highest

/-- The running maximum of `pmm_find_highest_physical_address`. -/
def pmmHigherEnd (highestAddress : BitVec 64) (region : MemoryRegion) : BitVec 64 :=
  if highestAddress < pmmRangeEnd region.baseAddress region.length then
    pmmRangeEnd region.baseAddress region.length else highestAddress

/-- One step of the search for the highest end takes the larger of two ends. -/
theorem pmmHigherEnd_toNat (highestAddress : BitVec 64) (region : MemoryRegion) :
    (pmmHigherEnd highestAddress region).toNat = max highestAddress.toNat region.endAddress := by
  have hEnd := pmmRangeEnd_toNat region.baseAddress region.length
  rw [← MemoryRegion.endAddress] at hEnd
  rw [pmmHigherEnd]
  split_ifs with hLt
  · rw [BitVec.lt_def] at hLt
    omega
  · rw [BitVec.lt_def] at hLt
    omega

/-- The search over the whole table finds the largest end. -/
theorem pmmHigherEnd_fold (regions : List MemoryRegion) (start : BitVec 64) :
    (regions.foldl pmmHigherEnd start).toNat =
      (regions.map MemoryRegion.endAddress).foldl max start.toNat := by
  induction regions generalizing start with
  | nil => rfl
  | cons region rest ih =>
      rw [List.foldl_cons, List.map_cons, List.foldl_cons, ih, pmmHigherEnd_toNat]

/-- The rounded limit covers the highest region end up to 4 GiB. -/
theorem pmmFindHighestPhysicalAddress_toNat (m : MemoryState) :
    (pmmFindHighestPhysicalAddress m).toNat =
      min ((memoryHighestEnd m + 4095) / 4096) (2 ^ 20) * 4096 := by
  have hFold : (pmmForRegions m pmmHigherEnd 0#64).toNat = memoryHighestEnd m := by
    rw [pmmForRegions_eq, pmmHigherEnd_fold]
    rfl
  have hLimit : pmmMaxPhysicalMemoryBytes.toNat = 2 ^ 32 := by decide
  have hEq : pmmFindHighestPhysicalAddress m =
      pmmAlignUp (if pmmMaxPhysicalMemoryBytes < pmmForRegions m pmmHigherEnd 0#64 then
        pmmMaxPhysicalMemoryBytes else pmmForRegions m pmmHigherEnd 0#64) := rfl
  rw [hEq, pmmAlignUp_toNat]
  split_ifs with hAbove
  · rw [BitVec.lt_def, hFold, hLimit] at hAbove
    rw [hLimit]
    omega
  · rw [BitVec.lt_def, hFold, hLimit] at hAbove
    rw [hFold]
    omega

theorem le_foldl_max {x : Nat} (values : List Nat) (start : Nat) (h : x ≤ start ∨ x ∈ values) :
    x ≤ values.foldl max start := by
  induction values generalizing start with
  | nil => simpa using h
  | cons value rest ih =>
      apply ih
      rw [List.mem_cons] at h
      rcases h with hStart | rfl | hRest
      · exact Or.inl (hStart.trans (Nat.le_max_left _ _))
      · exact Or.inl (Nat.le_max_right _ _)
      · exact Or.inr hRest

theorem MemoryRegion.endAddress_le_highest {m : MemoryState} {region : MemoryRegion}
    (h : region ∈ memoryRegionList m) : region.endAddress ≤ memoryHighestEnd m :=
  le_foldl_max _ 0 (Or.inr (List.mem_map_of_mem h))

/-- `pmm_total_frames` as computed from the map. -/
def pmmTotalFor (m : MemoryState) : BitVec 32 :=
  (pmmFindHighestPhysicalAddress m / pmmFrameSizeU64).setWidth 32

/-- The number of managed frames covers the highest end, rounded up, and is
cut off at 4 GiB. -/
theorem pmmTotalFor_toNat (m : MemoryState) :
    (pmmTotalFor m).toNat = min ((memoryHighestEnd m + 4095) / 4096) (2 ^ 20) := by
  rw [pmmTotalFor, BitVec.toNat_setWidth, toNat_div_frameSize, pmmFindHighestPhysicalAddress_toNat]
  omega

/-- A frame inside a region of the map is tracked, up to the 4 GiB limit. -/
theorem FrameUsable.lt_total {m : MemoryState} {i : Nat} (h : FrameUsable m i) (hi : i < 2 ^ 20) :
    i < (pmmTotalFor m).toNat := by
  obtain ⟨region, hMem, -, hInside⟩ := h
  have hHighest := MemoryRegion.endAddress_le_highest hMem
  rw [frameBytes_subset_iff] at hInside
  rw [MemoryRegion.endAddress] at hHighest
  rw [pmmTotalFor_toNat]
  omega

end Highest

section Populate

/-- The counters right after entry to `pmm_initialize`. -/
def pmmCleared (s : PmmState) : PmmState :=
  { s with
    initialized := false
    totalFrames := 0#32
    freeFrames := 0#32
    usedFrames := 0#32
    nextSearchFrame := 0#32 }

/-- Every tracked frame used, nothing allocated. -/
def pmmPrepared (s : PmmState) (total : BitVec 32) : PmmState :=
  { pmmResetBitmap (pmmCleared s) with totalFrames := total, usedFrames := total }

/-- The state after the release and the reservations. -/
def pmmPopulated (image : KernelImage) (m : MemoryState) (memory : PhysicalMemory)
    (multibootInfoAddress : BitVec 32) (s : PmmState) : PmmState :=
  pmmReserve image memory multibootInfoAddress
    (pmmReleaseUsableMemoryRegions m (pmmPrepared s (pmmTotalFor m)))

/-- Before any region is freed, every frame counts as used. -/
theorem pmmPrepared_used (s : PmmState) (total : BitVec 32) (i : Nat) :
    (pmmPrepared s total).used i = true := by
  have hBit : ∀ k < 32, (0xFFFFFFFF#32).getLsbD k = true := by decide
  rw [PmmState.used, WordBitmap.test_eq_getLsbD (by decide)]
  exact hBit _ (Nat.mod_lt i (by decide))

/-- At that point none has been handed out. -/
theorem pmmPrepared_allocated (s : PmmState) (total : BitVec 32) (i : Nat) :
    (pmmPrepared s total).allocated i = false := by
  rw [PmmState.allocated, WordBitmap.test_eq_getLsbD (by decide)]
  exact BitVec.getLsbD_zero

theorem pmmPrepared_counts (s : PmmState) {total : BitVec 32} (hTotal : total.toNat ≤ 2 ^ 20) :
    PmmCounts s.suppressedUpdates (pmmPrepared s total) where
  total_le := hTotal
  free_eq := by
    have hNone : Nat.count (fun i => ¬(pmmPrepared s total).used i = true) total.toNat = 0 := by
      rw [Nat.count_iff_forall_not]
      intro i _
      simp [pmmPrepared_used]
    exact hNone.symm
  used_eq := by
    have hAll : Nat.count (fun i => (pmmPrepared s total).used i = true) total.toNat =
        total.toNat := by
      rw [Nat.count_iff_forall]
      intro i _
      exact pmmPrepared_used s total i
    exact hAll.symm
  suppressed := rfl

/-- What the fold over the regions does to counters, frames and the rest. -/
theorem pmmRelease_spec (regions : List MemoryRegion) {skipped : Nat} {s : PmmState}
    (h : PmmCounts skipped s) :
    let t := regions.foldl (fun s region =>
      if region.type ≠ .usable then s
      else pmmMarkRangeFree s region.baseAddress region.length) s
    PmmCounts skipped t ∧ PmmFramed s t ∧ ∀ i < s.totalFrames.toNat,
      (t.used i = false ↔ s.used i = false ∨ ∃ region ∈ regions, region.type = .usable ∧
        frameBytes i ⊆ byteRange region.baseAddress.toNat region.length.toNat) := by
  induction regions generalizing s with
  | nil => exact ⟨h, .refl s, fun i _ => by simp⟩
  | cons region rest ih =>
      by_cases hType : region.type = .usable
      · have hFramed := pmmMarkRangeFree_framed s region.baseAddress region.length
        obtain ⟨hCounts, hRest, hUsed⟩ := ih (h.markRangeFree region.baseAddress region.length)
        simp only [List.foldl_cons, hType, ne_eq, not_true, if_false]
        refine ⟨hCounts, hFramed.trans hRest, fun i hi => ?_⟩
        rw [hUsed i (by rwa [hFramed.total]), pmmMarkRangeFree_used h.total_le hi, or_assoc]
        simp [hType]
      · obtain ⟨hCounts, hRest, hUsed⟩ := ih h
        simp only [List.foldl_cons, hType, ne_eq, not_false_eq_true, if_true]
        refine ⟨hCounts, hRest, fun i hi => ?_⟩
        rw [hUsed i hi]
        simp [hType]

/-- What reserving a list of nonempty ranges does. -/
theorem pmmReserveRanges_spec (ranges : List (BitVec 64 × BitVec 64))
    (hLength : ∀ range ∈ ranges, 0 < range.2.toNat) {skipped : Nat} {s : PmmState}
    (h : PmmCounts skipped s) :
    let t := ranges.foldl (fun s range => pmmMarkRangeUsed s range.1 range.2) s
    PmmCounts skipped t ∧ PmmFramed s t ∧ ∀ i < s.totalFrames.toNat,
      (t.used i = true ↔ s.used i = true ∨ ∃ range ∈ ranges,
        ¬Disjoint (frameBytes i) (byteRange range.1.toNat range.2.toNat)) := by
  induction ranges generalizing s with
  | nil => exact ⟨h, .refl s, fun i _ => by simp⟩
  | cons range rest ih =>
      have hHead := hLength range List.mem_cons_self
      have hFramed := pmmMarkRangeUsed_framed s range.1 range.2
      obtain ⟨hCounts, hRest, hUsed⟩ := ih (fun r hr => hLength r (List.mem_cons_of_mem _ hr))
        (h.markRangeUsed range.1 range.2)
      refine ⟨hCounts, hFramed.trans hRest, fun i hi => ?_⟩
      rw [List.foldl_cons, hUsed i (by rwa [hFramed.total]),
        pmmMarkRangeUsed_used h.total_le hHead hi, or_assoc]
      simp

/-- Reserving is marking the ranges of one list as used, in order. -/
theorem pmmReserve_eq (image : KernelImage) (memory : PhysicalMemory)
    {multibootInfoAddress : BitVec 32} (h : multibootInfoAddress ≠ 0#32) (s : PmmState) :
    pmmReserve image memory multibootInfoAddress s =
      (pmmReservedRanges image memory multibootInfoAddress).foldl
        (fun s range => pmmMarkRangeUsed s range.1 range.2) s := by
  simp only [pmmReserve, pmmReserveMultibootInformation, pmmReserveBitmapStorage,
    pmmReserveKernelImage, pmmReserveLowMemory, pmmReservedRanges, if_neg h,
    List.foldl_append, List.foldl_cons, List.foldl_nil]
  split_ifs <;> simp only [List.foldl_cons, List.foldl_nil]

/-- None of the reserved ranges is empty. -/
theorem pmmReservedRanges_pos (image : KernelImage) (memory : PhysicalMemory)
    (multibootInfoAddress : BitVec 32) :
    ∀ range ∈ pmmReservedRanges image memory multibootInfoAddress, 0 < range.2.toNat := by
  have hLow : 0 < pmmLowMemoryReservedBytes.toNat := by decide
  have hBitmap : 0 < pmmBitmapBytes.toNat := by decide
  have hInfo : 0 < MultibootInfo.size.toNat := by decide
  simp only [pmmReservedRanges, List.forall_mem_append, List.forall_mem_cons]
  refine ⟨⟨⟨⟨hLow, by simp⟩, ?_⟩, hBitmap, hBitmap, hInfo, by simp⟩, ?_⟩
  · split_ifs with hEmpty
    · simp
    · rw [BitVec.le_def, Nat.not_le] at hEmpty
      simp only [List.mem_singleton, forall_eq]
      rw [BitVec.toNat_setWidth, BitVec.toNat_sub]
      have hEnd := image.kernelEnd.isLt
      omega
  · split_ifs with hPresent
    · have hPos := BitVec.lt_def.mp hPresent.2.2
      rw [BitVec.toNat_ofNat] at hPos
      simp only [List.mem_singleton, forall_eq]
      rw [BitVec.toNat_setWidth]
      omega
    · simp

/-- A freshly populated allocator: consistent counters, nothing allocated,
and exactly the unreserved usable frames free. -/
structure PmmFresh (image : KernelImage) (m : MemoryState) (memory : PhysicalMemory)
    (multibootInfoAddress : BitVec 32) (skipped : Nat) (t : PmmState) : Prop where
  counts : PmmCounts skipped t
  total : t.totalFrames = pmmTotalFor m
  allocated : ∀ i, t.allocated i = false
  next : t.nextSearchFrame = 0#32
  free_iff : ∀ i < t.totalFrames.toNat, t.used i = false ↔
    FrameUsable m i ∧ ¬FrameReserved image memory multibootInfoAddress i

/-- Once the regions are freed and the reserved ranges taken back, the bitmap
is as the map and the reservations say. -/
theorem pmmPopulated_fresh (image : KernelImage) (m : MemoryState) (memory : PhysicalMemory)
    {multibootInfoAddress : BitVec 32} (hAddress : multibootInfoAddress ≠ 0#32) (s : PmmState) :
    PmmFresh image m memory multibootInfoAddress s.suppressedUpdates
      (pmmPopulated image m memory multibootInfoAddress s) ∧
    (pmmPopulated image m memory multibootInfoAddress s).initialized = false := by
  have hTotal : (pmmTotalFor m).toNat ≤ 2 ^ 20 := by
    rw [pmmTotalFor_toNat]
    exact Nat.min_le_right _ _
  have hPrepared := pmmPrepared_counts s hTotal
  obtain ⟨hReleased, hReleaseFramed, hReleaseUsed⟩ := pmmRelease_spec (memoryRegionList m) hPrepared
  obtain ⟨hCounts, hReserveFramed, hReserveUsed⟩ := pmmReserveRanges_spec _
    (pmmReservedRanges_pos image memory multibootInfoAddress) hReleased
  have hFramed := hReleaseFramed.trans hReserveFramed
  have hTotalEq := hReleaseFramed.total
  rw [← pmmForRegions_eq, ← pmmReleaseUsableMemoryRegions, ← pmmReserve_eq image memory hAddress,
    ← pmmPopulated] at hCounts hFramed hReserveUsed
  rw [← pmmForRegions_eq, ← pmmReleaseUsableMemoryRegions] at hReleaseUsed hTotalEq
  refine ⟨⟨hCounts, hFramed.total, fun i => ?_, hFramed.next, fun i hi => ?_⟩, hFramed.initialized⟩
  · rw [PmmState.allocated, hFramed.allocatedBitmap]
    exact pmmPrepared_allocated s _ i
  · rw [hFramed.total] at hi
    have hUsed := hReserveUsed i (by rwa [hTotalEq])
    have hFree := hReleaseUsed i hi
    rw [pmmPrepared_used, Bool.true_eq_false, false_or] at hFree
    rw [← FrameReserved] at hUsed
    rw [← FrameUsable] at hFree
    rw [← Bool.not_eq_true, hUsed, not_or, Bool.not_eq_true, hFree]

/-- `pmm_initialize` as a table of its exits. The second `UNAVAILABLE` exit
of the source is covered by the first: a nonzero limit is at least a frame. -/
theorem pmmInitialize_eq (image : KernelImage) (m : MemoryState) (memory : PhysicalMemory)
    (multibootInfoAddress : BitVec 32) (s : PmmState) :
    pmmInitialize image m memory multibootInfoAddress s =
      if multibootInfoAddress = 0#32 then (.invalidArgument, pmmCleared s)
      else if !memoryIsInitialized m || memoryWasMapTruncated m then (.notReady, pmmCleared s)
      else if memoryHighestEnd m = 0 then (.unavailable, pmmResetBitmap (pmmCleared s))
      else
        let t := pmmPopulated image m memory multibootInfoAddress s
        if t.freeFrames = 0#32 then (.outOfMemory, t) else (.ok, { t with initialized := true }) := by
  have hHighest : pmmFindHighestPhysicalAddress m = 0#64 ↔ memoryHighestEnd m = 0 := by
    rw [← BitVec.toNat_inj, pmmFindHighestPhysicalAddress_toNat, BitVec.toNat_ofNat]
    omega
  have hTotal : pmmTotalFor m = 0#32 ↔ memoryHighestEnd m = 0 := by
    rw [← BitVec.toNat_inj, pmmTotalFor_toNat, BitVec.toNat_ofNat]
    omega
  unfold pmmInitialize
  split_ifs with hAddress hReady hZero
  · rfl
  · rfl
  · simp only [hHighest, hZero, if_true]
    rfl
  · have hTotalNe : ¬(pmmFindHighestPhysicalAddress m / pmmFrameSizeU64).setWidth 32 = 0#32 := by
      rw [← pmmTotalFor, hTotal]
      exact hZero
    simp only [hHighest, hZero, hTotalNe, if_false]
    rfl

/-- Some frame is free exactly when the map has an unreserved usable one. -/
theorem PmmFresh.free_ne_zero_iff {image : KernelImage} {m : MemoryState} {memory : PhysicalMemory}
    {multibootInfoAddress : BitVec 32} {skipped : Nat} {t : PmmState}
    (h : PmmFresh image m memory multibootInfoAddress skipped t) :
    t.freeFrames ≠ 0#32 ↔
      ∃ i < 2 ^ 20, FrameUsable m i ∧ ¬FrameReserved image memory multibootInfoAddress i := by
  have hTotal := h.counts.total_le
  have hFrame : ∀ i < t.totalFrames.toNat, ¬t.used i = true ↔
      FrameUsable m i ∧ ¬FrameReserved image memory multibootInfoAddress i := by
    intro i hi
    rw [Bool.not_eq_true, h.free_iff i hi]
  rw [ne_eq, ← BitVec.toNat_inj, h.counts.free_eq, BitVec.toNat_ofNat, Nat.zero_mod, ← ne_eq,
    Nat.count_ne_iff_exists]
  constructor
  · rintro ⟨i, hi, hNot⟩
    exact ⟨i, by omega, (hFrame i hi).mp hNot⟩
  · rintro ⟨i, hi, hFree⟩
    have hTracked : i < t.totalFrames.toNat := by
      rw [h.total]
      exact hFree.1.lt_total hi
    exact ⟨i, hTracked, (hFrame i hTracked).mpr hFree⟩

/-- `pmm_initialize` succeeds exactly on a complete map with a frame left. -/
theorem pmmInitialize_ok_iff (image : KernelImage) (m : MemoryState) (memory : PhysicalMemory)
    (multibootInfoAddress : BitVec 32) (s : PmmState) :
    (pmmInitialize image m memory multibootInfoAddress s).1 = .ok ↔
      multibootInfoAddress ≠ 0#32 ∧ memoryIsInitialized m = true ∧ memoryWasMapTruncated m = false ∧
      ∃ i < 2 ^ 20, FrameUsable m i ∧ ¬FrameReserved image memory multibootInfoAddress i := by
  rw [pmmInitialize_eq]
  by_cases hAddress : multibootInfoAddress = 0#32
  · simp [hAddress]
  obtain ⟨hFresh, -⟩ := pmmPopulated_fresh image m memory hAddress s
  have hComplete : ¬(!memoryIsInitialized m || memoryWasMapTruncated m) = true ↔
      memoryIsInitialized m = true ∧ memoryWasMapTruncated m = false := by
    cases memoryIsInitialized m <;> simp
  rw [if_neg hAddress, ← hFresh.free_ne_zero_iff, ← and_assoc (a := memoryIsInitialized m = true),
    ← hComplete]
  dsimp only
  split_ifs with hReady hHighest hFree
  · exact iff_of_false not_false fun h => h.2.1 hReady
  · refine iff_of_false not_false fun h => ?_
    obtain ⟨i, hi, hUsable, -⟩ := hFresh.free_ne_zero_iff.mp h.2.2
    have hTracked := hUsable.lt_total hi
    rw [pmmTotalFor_toNat, hHighest] at hTracked
    omega
  · exact iff_of_false not_false fun h => h.2.2 hFree
  · exact iff_of_true rfl ⟨hAddress, hReady, hFree⟩

/-- The state a successful `pmm_initialize` leaves behind. -/
theorem pmmInitialize_fresh {image : KernelImage} {m : MemoryState} {memory : PhysicalMemory}
    {multibootInfoAddress : BitVec 32} {s : PmmState}
    (hOk : (pmmInitialize image m memory multibootInfoAddress s).1 = .ok) :
    (pmmInitialize image m memory multibootInfoAddress s).2.initialized = true ∧
      PmmFresh image m memory multibootInfoAddress s.suppressedUpdates
        (pmmInitialize image m memory multibootInfoAddress s).2 := by
  have hAddress := ((pmmInitialize_ok_iff image m memory multibootInfoAddress s).mp hOk).1
  obtain ⟨hFresh, -⟩ := pmmPopulated_fresh image m memory hAddress s
  rw [pmmInitialize_eq, if_neg hAddress] at hOk ⊢
  dsimp only at hOk ⊢
  split_ifs at hOk ⊢
  exact ⟨rfl, hFresh.counts.congr rfl rfl rfl rfl rfl, hFresh.total, hFresh.allocated, hFresh.next,
    hFresh.free_iff⟩

end Populate
end WigOSX
