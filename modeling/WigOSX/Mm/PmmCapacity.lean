import WigOSX.Mm.PmmOwnership
import WigOSX.Core.MemoryTotals

/-! Free memory against reported memory. The parser adds up lengths, the
allocator counts bits. A free frame lies inside one usable region, and the
frames inside one region are together no longer than it, so the bits can never
claim more bytes than the lengths, however the regions overlap. -/
namespace WigOSX

section Capacity

/-- The frames inside one range of bytes are together no longer than it. -/
theorem card_frames_in_range_le {base length : Nat} (frames : Finset Nat)
    (hInside : ∀ i ∈ frames, frameBytes i ⊆ byteRange base length) :
    4096 * frames.card ≤ length := by
  have hSubset : frames ⊆ Finset.Ico ((base + 4095) / 4096) ((base + length) / 4096) := by
    intro i hi
    have hFrame := frameBytes_subset_iff.mp (hInside i hi)
    rw [Finset.mem_Ico]
    omega
  have hCard := Finset.card_le_card hSubset
  rw [Nat.card_Ico] at hCard
  omega

/-- The frame lies inside this region, and the region is usable. -/
def MemoryRegion.Offers (region : MemoryRegion) (i : Nat) : Prop :=
  region.type = .usable ∧ frameBytes i ⊆ byteRange region.baseAddress.toNat region.length.toNat

theorem card_offered_le (region : MemoryRegion) (frames : Finset Nat)
    (hOffers : ∀ i ∈ frames, region.Offers i) :
    4096 * frames.card ≤ if region.type = .usable then region.length.toNat else 0 := by
  split_ifs with hUsable
  · exact card_frames_in_range_le frames fun i hi => (hOffers i hi).2
  · have hNone : frames = ∅ :=
      Finset.eq_empty_of_forall_notMem fun i hi => hUsable (hOffers i hi).1
    rw [hNone, Finset.card_empty]

/-- Frames that each lie inside some usable region. The induction takes the
frames of one region out at a time, so overlaps are counted at most once. -/
theorem card_usable_frames_le (regions : List MemoryRegion) (frames : Finset Nat)
    (hOffers : ∀ i ∈ frames, ∃ region ∈ regions, region.Offers i) :
    4096 * frames.card ≤ regionBytes .usable regions := by
  classical
  induction regions generalizing frames with
  | nil =>
      have hNone : frames = ∅ := by
        apply Finset.eq_empty_of_forall_notMem
        intro i hi
        obtain ⟨region, hMem, -⟩ := hOffers i hi
        exact absurd hMem List.not_mem_nil
      rw [hNone, Finset.card_empty]
      exact Nat.zero_le _
  | cons region rest ih =>
      have hSplit := Finset.card_filter_add_card_filter_not (s := frames) region.Offers
      have hFirst := card_offered_le region (frames.filter region.Offers) fun i hi =>
        (Finset.mem_filter.mp hi).2
      have hRest := ih (frames.filter fun i => ¬region.Offers i) fun i hi => by
        rw [Finset.mem_filter] at hi
        obtain ⟨other, hMem, hOther⟩ := hOffers i hi.1
        rcases List.mem_cons.mp hMem with rfl | hMem
        · exact absurd hOther hi.2
        · exact ⟨other, hMem, hOther⟩
      rw [regionBytes_cons]
      omega

end Capacity

section Run

variable {image : KernelImage} {m : MemoryState} {memory : PhysicalMemory}
  {multibootInfoAddress : BitVec 32} {start s : PmmState} {events : List PmmEvent}

/-- No history of calls makes a frame free that the map does not offer:
whatever is available or held was available at the start. -/
theorem frameUsable_of_run
    (hOk : (pmmInitialize image m memory multibootInfoAddress start).1 = .ok)
    (run : TransitionSystem.Run PmmStep (pmmInitialize image m memory multibootInfoAddress start).2
      events s) {i : Nat} (hi : i < s.totalFrames.toNat) (hFree : s.used i = false) :
    FrameUsable m i := by
  obtain ⟨first, p, ⟨-, hFirst, rfl⟩, ⟨-, hs, rfl⟩, hTracks⟩ := pmm_tracks_of_run hOk run
  obtain ⟨-, hFresh⟩ := pmmInitialize_fresh hOk
  have hTotal := hs.counts.total_le
  have hAddress : (BitVec.ofNat 32 (4096 * i)).toNat = 4096 * i := by
    rw [BitVec.toNat_ofNat]
    omega
  have hAvailable : BitVec.ofNat 32 (4096 * i) ∈ hs.pool.available := ⟨i, hi, hAddress, hFree⟩
  have hStart : BitVec.ofNat 32 (4096 * i) ∈ hFirst.pool.available := by
    rw [← hTracks.conserved]
    exact Or.inl hAvailable
  obtain ⟨j, hj, hSame, hFreeJ⟩ := hStart
  have hEq : i = j := by omega
  subst hEq
  exact ((hFresh.free_iff i hj).mp hFreeJ).1

/-- The free frames of a reachable state fit into the usable regions. -/
theorem pmm_free_bytes_le_regions
    (hOk : (pmmInitialize image m memory multibootInfoAddress start).1 = .ok)
    (run : TransitionSystem.Run PmmStep (pmmInitialize image m memory multibootInfoAddress start).2
      events s) :
    4096 * (pmmGetFreeFrameCount s).toNat ≤ regionBytes .usable (memoryRegionList m) := by
  obtain ⟨-, -, -, ⟨-, hs, -⟩, -⟩ := pmm_tracks_of_run hOk run
  rw [pmmGetFreeFrameCount, hs.counts.free_eq, Nat.count_eq_card_filter_range]
  refine card_usable_frames_le _ _ fun i hi => ?_
  rw [Finset.mem_filter, Finset.mem_range, Bool.not_eq_true] at hi
  exact frameUsable_of_run hOk run hi.1 hi.2

end Run

/-- Free memory never exceeds the usable memory that the parser reports, if
the usable lengths do not wrap the report. -/
theorem pmm_free_bytes_le_usable {memory later : PhysicalMemory} {info address : BitVec 32}
    {previous : MemoryState} {image : KernelImage} {start s : PmmState} {events : List PmmEvent}
    (hParsed : (memoryInitialize memory info previous).1 = .ok)
    (hBytes : regionBytes .usable
      (memoryStoredRegions (memoryInitialize memory info previous).2) < 2 ^ 64)
    (hOk : (pmmInitialize image (memoryInitialize memory info previous).2 later address start).1 = .ok)
    (run : TransitionSystem.Run PmmStep
      (pmmInitialize image (memoryInitialize memory info previous).2 later address start).2 events s) :
    4096 * (pmmGetFreeFrameCount s).toNat ≤
      (memoryGetTotalUsableBytes (memoryInitialize memory info previous).2).toNat := by
  have hInfo := memoryInitialize_info_ne_zero hParsed
  obtain ⟨entries, h⟩ := (memoryInitialize_iff_grammar memory info previous hInfo).1.mp hParsed
  have hHolds := (memoryInitialize_of_grammar hInfo h previous).2.2.2
  have hTotal : (memoryGetTotalUsableBytes (memoryInitialize memory info previous).2).toNat =
      regionBytes .usable (MapEntry.regions entries) := by
    rw [hHolds.stored_eq, regionBytes_regions] at hBytes
    rw [regionBytes_regions]
    exact (memoryInitialize_total hInfo h previous .usable).trans (Nat.mod_eq_of_lt hBytes)
  rw [hTotal, ← memoryRegionList_of_holds hHolds]
  exact pmm_free_bytes_le_regions hOk run

/-- After one allocation on the map of `overlappingBootMemory`. -/
theorem pmm_free_bytes_le_usable_boot :
    let s := (pmmInitialize exampleKernelImage overlappingMap overlappingBootMemory 0x9000#32 .boot).2
    4096 * (pmmGetFreeFrameCount (pmmAllocateFrame false s).2).toNat ≤
      (memoryGetTotalUsableBytes overlappingMap).toNat := by
  intro s
  have hGrammar := overlappingBootMemory_grammar
  obtain ⟨hParsed, -, -, hHolds⟩ := memoryInitialize_of_grammar (by decide) hGrammar memoryResetSummary
  have hBytes : regionBytes .usable (memoryStoredRegions overlappingMap) < 2 ^ 64 := by
    rw [overlappingMap, hHolds.stored_eq]
    decide
  have hOk : (pmmInitialize exampleKernelImage overlappingMap overlappingBootMemory
      0x9000#32 .boot).1 = .ok :=
    overlappingMap_ok (i := 768) (by decide) (by decide) (by decide)
  exact pmm_free_bytes_le_usable hParsed hBytes hOk (.single (.allocateFrame s false))

end WigOSX
