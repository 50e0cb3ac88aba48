import WigOSX.Mm.PmmOwnership

/-! The exact free set after `pmm_initialize`, stated on the region list and
the linker's addresses alone: no rounding, no saturation and no order of
marking is left in the statement. -/
namespace WigOSX

variable {image : KernelImage} {m : MemoryState} {memory : PhysicalMemory}
  {multibootInfoAddress : BitVec 32}

/-- The frame lies inside a single usable region and is not reserved. -/
structure PmmFrameAvailable (image : KernelImage) (m : MemoryState) (memory : PhysicalMemory)
    (multibootInfoAddress : BitVec 32) (i : Nat) : Prop where
  usable : ∃ region ∈ memoryRegionList m, region.type = .usable ∧
    region.baseAddress.toNat ≤ 4096 * i ∧ 4096 * (i + 1) ≤ region.endAddress
  unreserved : PmmFrameUnreserved image memory multibootInfoAddress i

/-- Below 4 GiB the saturation of a region end is invisible. -/
theorem frameUsable_iff {i : Nat} (hi : i < 2 ^ 20) :
    FrameUsable m i ↔ ∃ region ∈ memoryRegionList m, region.type = .usable ∧
      region.baseAddress.toNat ≤ 4096 * i ∧ 4096 * (i + 1) ≤ region.endAddress := by
  refine exists_congr fun region => and_congr_right fun _ => and_congr_right fun _ => ?_
  rw [frameBytes_subset_iff, MemoryRegion.endAddress]
  omega

theorem pmmFrameAvailable_iff {i : Nat} (hi : i < 2 ^ 20) :
    PmmFrameAvailable image m memory multibootInfoAddress i ↔
      FrameUsable m i ∧ ¬FrameReserved image memory multibootInfoAddress i := by
  rw [frameUsable_iff hi, not_frameReserved_iff]
  exact ⟨fun h => ⟨h.usable, h.unreserved⟩, fun h => ⟨h.1, h.2⟩⟩

/-- With a complete map the status is decided by the highest region end and
by the set of available frames. -/
theorem pmmInitialize_outOfMemory_iff (hAddress : multibootInfoAddress ≠ 0#32)
    (hReady : memoryIsInitialized m = true) (hComplete : memoryWasMapTruncated m = false)
    (s : PmmState) :
    (pmmInitialize image m memory multibootInfoAddress s).1 = .outOfMemory ↔
      0 < memoryHighestEnd m ∧ ∀ i < min ((memoryHighestEnd m + 4095) / 4096) (2 ^ 20),
        ¬PmmFrameAvailable image m memory multibootInfoAddress i := by
  obtain ⟨hFresh, -⟩ := pmmPopulated_fresh image m memory hAddress s
  have hSome : (pmmPopulated image m memory multibootInfoAddress s).freeFrames = 0#32 ↔
      ∀ i < min ((memoryHighestEnd m + 4095) / 4096) (2 ^ 20),
        ¬PmmFrameAvailable image m memory multibootInfoAddress i := by
    rw [← not_iff_not, ← ne_eq, hFresh.free_ne_zero_iff]
    push Not
    constructor
    · rintro ⟨i, hi, hFree⟩
      refine ⟨i, ?_, (pmmFrameAvailable_iff hi).mpr hFree⟩
      rw [← pmmTotalFor_toNat]
      exact hFree.1.lt_total hi
    · rintro ⟨i, hi, hFree⟩
      have hBound := hi.trans_le (Nat.min_le_right _ _)
      exact ⟨i, hBound, (pmmFrameAvailable_iff hBound).mp hFree⟩
  have hTaken : ¬(!memoryIsInitialized m || memoryWasMapTruncated m) = true := by
    rw [hReady, hComplete]
    decide
  rw [pmmInitialize_eq, if_neg hAddress, if_neg hTaken, ← hSome]
  dsimp only
  split_ifs with hZero hNone
  · simp [hZero]
  · simp [hNone, Nat.pos_of_ne_zero hZero]
  · simp [hNone]

/-- `pmm_initialize` tracks the memory up to the highest region end and
leaves exactly the available frames free, whatever the map and the earlier
state were. It runs out of memory exactly when there is no such frame. -/
theorem pmmInitialize_free_set (image : KernelImage) (m : MemoryState) (memory : PhysicalMemory)
    (multibootInfoAddress : BitVec 32) (s : PmmState) :
    let result := pmmInitialize image m memory multibootInfoAddress s
    (result.1 = .ok →
      result.2.totalFrames.toNat = min ((memoryHighestEnd m + 4095) / 4096) (2 ^ 20) ∧
      (∀ i < result.2.totalFrames.toNat,
        result.2.used i = false ↔ PmmFrameAvailable image m memory multibootInfoAddress i) ∧
      ∀ i, result.2.allocated i = false) ∧
    (multibootInfoAddress ≠ 0#32 → memoryIsInitialized m = true → memoryWasMapTruncated m = false →
      (result.1 = .outOfMemory ↔
        0 < memoryHighestEnd m ∧ ∀ i < min ((memoryHighestEnd m + 4095) / 4096) (2 ^ 20),
          ¬PmmFrameAvailable image m memory multibootInfoAddress i)) := by
  intro result
  refine ⟨fun hOk => ?_, fun hAddress hReady hComplete =>
    pmmInitialize_outOfMemory_iff hAddress hReady hComplete s⟩
  obtain ⟨-, hFresh⟩ := pmmInitialize_fresh hOk
  have hTotal := hFresh.counts.total_le
  refine ⟨?_, fun i hi => ?_, hFresh.allocated⟩
  · rw [hFresh.total, pmmTotalFor_toNat]
  · rw [pmmFrameAvailable_iff (hi.trans_le hTotal)]
    exact hFresh.free_iff i hi

/-- On the map of `overlappingBootMemory` 17 MiB are tracked, and the first
frame behind the kernel image is free. -/
theorem pmmInitialize_free_set_overlapping :
    let t := pmmInitialize exampleKernelImage overlappingMap overlappingBootMemory 0x9000#32 .boot
    t.2.totalFrames.toNat = 4352 ∧ t.2.used 768 = false ∧ t.1 ≠ .outOfMemory := by
  obtain ⟨hInit, hTruncated, hRegions⟩ := overlappingMap_spec
  have hFree : ¬FrameReserved exampleKernelImage overlappingBootMemory 0x9000#32 768 := by decide
  have hUsable : FrameUsable overlappingMap 768 := overlappingMap_usable (by decide) (by decide)
  have hHighest : memoryHighestEnd overlappingMap = 0x1100000 := by
    rw [memoryHighestEnd, hRegions]
    simp [MapEntry.regions, overlappingBootEntries, MapEntry.region, MemoryRegion.endAddress]
  have hEnd : min ((memoryHighestEnd overlappingMap + 4095) / 4096) (2 ^ 20) = 4352 := by
    rw [hHighest]
    norm_num
  have hAvailable := (pmmFrameAvailable_iff (by norm_num)).mpr ⟨hUsable, hFree⟩
  have hOk : (pmmInitialize exampleKernelImage overlappingMap overlappingBootMemory 0x9000#32
      .boot).1 = .ok := overlappingMap_ok (by decide) (by decide) hFree
  obtain ⟨hSuccess, hMemory⟩ := pmmInitialize_free_set exampleKernelImage overlappingMap
    overlappingBootMemory 0x9000#32 .boot
  obtain ⟨hTotal, hSet, -⟩ := hSuccess hOk
  rw [hEnd] at hTotal
  have hTracked := (hSet 768 (by rw [hTotal]; norm_num)).mpr hAvailable
  have hStatus := (hMemory (by decide) hInit hTruncated).not.mpr fun h =>
    h.2 768 (by rw [hEnd]; norm_num) hAvailable
  exact ⟨hTotal, hTracked, hStatus⟩

end WigOSX
