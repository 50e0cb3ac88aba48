import WigOSX.Library.ResourcePool
import WigOSX.Mm.PmmLifecycle

/-! Ownership of frames. A consistent allocator is a pool of page addresses:
free frames are available, allocated frames are held. Every client call is a
step of the pool, so what the pool guarantees about a whole history holds of
the allocator. The pool starts with exactly the unreserved usable frames. -/
namespace WigOSX
open ResourcePool (Pool)

variable {skipped : Nat}

section Refinement

/-- The pool that a consistent state stands for. -/
def PmmConsistent.pool {s : PmmState} (h : PmmConsistent skipped s) : Pool (BitVec 32) where
  available := {a | ∃ i < s.totalFrames.toNat, a.toNat = 4096 * i ∧ s.used i = false}
  held := {a | ∃ i < s.totalFrames.toNat, a.toNat = 4096 * i ∧ s.allocated i = true}
  disjoint := by
    rw [Set.disjoint_left]
    rintro a ⟨i, hi, hA, hFree⟩ ⟨j, -, hA', hAllocated⟩
    have hEq : i = j := by omega
    subst hEq
    rw [h.allocated_used i hi hAllocated] at hFree
    exact Bool.noConfusion hFree

/-- The pool event of an allocator event. -/
def PmmEvent.toPool : PmmEvent → ResourcePool.Event (BitVec 32)
  | .allocateFrame _ (some a) => .acquired a
  | .allocateFrame false none => .exhausted
  | .allocateFrame true none => .ignored
  | .freeFrame a true => .released a
  | .freeFrame a false => .refused a

/-- An initialized consistent state and its pool. -/
def PmmRefines (skipped : Nat) (s : PmmState) (p : Pool (BitVec 32)) : Prop :=
  s.initialized = true ∧ ∃ h : PmmConsistent skipped s, p = h.pool

/-- Taking a free frame acquires its address. -/
theorem PmmTaken.acquire {s t : PmmState} {i : Nat} {a : BitVec 32}
    (h : PmmTaken skipped s i t) (hs : PmmConsistent skipped s) (ht : PmmConsistent skipped t)
    (hi : i < s.totalFrames.toNat) (hFree : s.used i = false) (hA : a.toNat = 4096 * i) :
    ResourcePool.Step hs.pool (.acquired a) ht.pool := by
  refine .acquire ⟨i, hi, hA, hFree⟩ ?_ ?_
  · ext b
    rw [Set.mem_sdiff, Set.mem_singleton_iff, ← BitVec.toNat_inj]
    constructor
    · rintro ⟨j, hj, hB, hFreeJ⟩
      rw [← Bool.not_eq_true, h.used, not_or, Bool.not_eq_true] at hFreeJ
      rw [h.total] at hj
      exact ⟨⟨j, hj, hB, hFreeJ.1⟩, by omega⟩
    · rintro ⟨⟨j, hj, hB, hFreeJ⟩, hNe⟩
      refine ⟨j, by rwa [h.total], hB, ?_⟩
      rw [← Bool.not_eq_true, h.used, not_or, Bool.not_eq_true]
      exact ⟨hFreeJ, by omega⟩
  · ext b
    rw [Set.mem_insert_iff, ← BitVec.toNat_inj]
    constructor
    · rintro ⟨j, hj, hB, hAllocated⟩
      rw [h.total] at hj
      rcases (h.allocated j).mp hAllocated with hOld | rfl
      · exact Or.inr ⟨j, hj, hB, hOld⟩
      · exact Or.inl (hB.trans hA.symm)
    · rintro (hEq | ⟨j, hj, hB, hOld⟩)
      · exact ⟨i, by rwa [h.total], hEq.trans hA, (h.allocated i).mpr (Or.inr rfl)⟩
      · exact ⟨j, by rwa [h.total], hB, (h.allocated j).mpr (Or.inl hOld)⟩

/-- Giving an allocated frame back releases its address. -/
theorem PmmGiven.release {s t : PmmState} {i : Nat} {a : BitVec 32}
    (h : PmmGiven skipped s i t) (hs : PmmConsistent skipped s) (ht : PmmConsistent skipped t)
    (hi : i < s.totalFrames.toNat) (hAllocated : s.allocated i = true) (hA : a.toNat = 4096 * i) :
    ResourcePool.Step hs.pool (.released a) ht.pool := by
  refine .release ⟨i, hi, hA, hAllocated⟩ ?_ ?_
  · ext b
    rw [Set.mem_insert_iff, ← BitVec.toNat_inj]
    constructor
    · rintro ⟨j, hj, hB, hFreeJ⟩
      rw [← Bool.not_eq_true, h.used, not_and_or, not_not, Bool.not_eq_true] at hFreeJ
      rw [h.total] at hj
      rcases hFreeJ with hOld | rfl
      · exact Or.inr ⟨j, hj, hB, hOld⟩
      · exact Or.inl (hB.trans hA.symm)
    · intro hMem
      rcases hMem with hEq | ⟨j, hj, hB, hFreeJ⟩
      · refine ⟨i, by rwa [h.total], hEq.trans hA, ?_⟩
        rw [← Bool.not_eq_true, h.used]
        exact fun hUsed => hUsed.2 rfl
      · refine ⟨j, by rwa [h.total], hB, ?_⟩
        rw [← Bool.not_eq_true, h.used, hFreeJ]
        exact fun hUsed => Bool.noConfusion hUsed.1
  · ext b
    rw [Set.mem_sdiff, Set.mem_singleton_iff, ← BitVec.toNat_inj]
    constructor
    · rintro ⟨j, hj, hB, hStill⟩
      rw [h.total] at hj
      obtain ⟨hOld, hNe⟩ := (h.allocated j).mp hStill
      exact ⟨⟨j, hj, hB, hOld⟩, by omega⟩
    · rintro ⟨⟨j, hj, hB, hOld⟩, hNe⟩
      exact ⟨j, by rwa [h.total], hB, (h.allocated j).mpr ⟨hOld, by omega⟩⟩

/-- Every client call is a step of the pool. -/
theorem PmmStep.refines {s t : PmmState} {event : PmmEvent} {p : Pool (BitVec 32)}
    (hStep : PmmStep s event t) (hRel : PmmRefines skipped s p) :
    ∃ q, ResourcePool.Step p event.toPool q ∧ PmmRefines skipped t q := by
  obtain ⟨hInit, hs, rfl⟩ := hRel
  have ht := hStep.consistent hs
  cases hStep with
  | allocateFrame outIsNull =>
      rcases hs.allocateFrame outIsNull with ⟨hNone, hFull⟩ |
        ⟨i, hi, a, -, -, hFree, hA, -, hSome, hTaken⟩
      · rw [hNone]
        refine ⟨hs.pool, ?_, hInit, hs, rfl⟩
        cases outIsNull with
        | true => exact .ignore
        | false =>
            refine .exhaust (Set.eq_empty_of_forall_notMem ?_)
            rintro a ⟨i, hi, -, hFree⟩
            rw [hFull hInit rfl i hi] at hFree
            exact Bool.noConfusion hFree
      · rw [hSome]
        exact ⟨ht.pool, hTaken.acquire hs ht hi hFree hA, hTaken.initialized.trans hInit, ht, rfl⟩
  | freeFrame physicalAddress =>
      rcases pmmFreeFrame_cases hs.counts physicalAddress with ⟨hSame, hNot⟩ |
        ⟨i, hi, -, hA, hAllocated, hTrue, hGiven⟩
      · rw [hSame]
        refine ⟨hs.pool, .refuse ?_, hInit, hs, rfl⟩
        rintro ⟨i, hi, hA, hAllocated⟩
        rw [hNot i hi hInit hA] at hAllocated
        exact Bool.noConfusion hAllocated
      · rw [hTrue]
        exact ⟨ht.pool, hGiven.release hs ht hi hAllocated hA, hGiven.initialized.trans hInit, ht, rfl⟩

end Refinement

section History

variable {image : KernelImage} {m : MemoryState} {memory : PhysicalMemory}
  {multibootInfoAddress : BitVec 32} {start s : PmmState} {events : List PmmEvent}

/-- An address is live if an allocation returned it and no later free of it
succeeded. -/
def PmmLive (events : List PmmEvent) (a : BitVec 32) : Prop :=
  ResourcePool.Live (fun event a => ∃ outIsNull, event = .allocateFrame outIsNull (some a))
    (fun event a => event = .freeFrame a true) events a

theorem PmmEvent.toPool_acquired (event : PmmEvent) (a : BitVec 32) :
    event.toPool = .acquired a ↔ ∃ outIsNull, event = .allocateFrame outIsNull (some a) := by
  rcases event with ⟨_ | _, _ | _⟩ | ⟨_, _ | _⟩ <;> simp [PmmEvent.toPool]

theorem PmmEvent.toPool_released (event : PmmEvent) (a : BitVec 32) :
    event.toPool = .released a ↔ event = .freeFrame a true := by
  rcases event with ⟨_ | _, _ | _⟩ | ⟨_, _ | _⟩ <;> simp [PmmEvent.toPool]

/-- The last call decides alone when it allocates or frees the address. -/
theorem pmmLive_snoc (events : List PmmEvent) (last : PmmEvent) (a : BitVec 32) :
    PmmLive (events ++ [last]) a ↔ (∃ outIsNull, last = .allocateFrame outIsNull (some a)) ∨
      (PmmLive events a ∧ last ≠ .freeFrame a true) :=
  ResourcePool.live_snoc _ _ events last a

/-- The pool sees the same live addresses as the calls. -/
theorem pmmLive_iff (events : List PmmEvent) (a : BitVec 32) :
    PmmLive events a ↔ ResourcePool.LiveEvent (events.map PmmEvent.toPool) a := by
  rw [ResourcePool.LiveEvent, ResourcePool.live_map, PmmLive]
  simp only [PmmEvent.toPool_acquired, PmmEvent.toPool_released]

/-- The pool after any run of client calls, tied to the history. -/
theorem pmm_tracks_of_run
    (hOk : (pmmInitialize image m memory multibootInfoAddress start).1 = .ok)
    (run : TransitionSystem.Run PmmStep (pmmInitialize image m memory multibootInfoAddress start).2
      events s) :
    ∃ first p, PmmRefines start.suppressedUpdates
        (pmmInitialize image m memory multibootInfoAddress start).2 first ∧
      PmmRefines start.suppressedUpdates s p ∧
      ResourcePool.Tracks first (events.map PmmEvent.toPool) p := by
  obtain ⟨hInit, hFresh⟩ := pmmInitialize_fresh hOk
  have hFirst : PmmRefines start.suppressedUpdates
      (pmmInitialize image m memory multibootInfoAddress start).2 hFresh.consistent.pool :=
    ⟨hInit, hFresh.consistent, rfl⟩
  have hHeld : hFresh.consistent.pool.held = ∅ := by
    apply Set.eq_empty_of_forall_notMem
    rintro a ⟨i, -, -, hAllocated⟩
    rw [hFresh.allocated i] at hAllocated
    exact Bool.noConfusion hAllocated
  obtain ⟨p, hPool, hLast⟩ := run.simulate PmmEvent.toPool hFirst
    fun _ _ _ _ hRel hStep => hStep.refines hRel
  exact ⟨_, p, hFirst, hLast, ResourcePool.tracks_of_run hHeld hPool⟩

/-- Whatever an allocation returns after a run is the address of an
unreserved usable frame that is not live. -/
theorem pmmAllocateFrame_of_run
    (hOk : (pmmInitialize image m memory multibootInfoAddress start).1 = .ok)
    (run : TransitionSystem.Run PmmStep (pmmInitialize image m memory multibootInfoAddress start).2
      events s)
    {outIsNull : Bool} {a : BitVec 32} (hSome : (pmmAllocateFrame outIsNull s).1 = some a) :
    ¬PmmLive events a ∧ ∃ i < 2 ^ 20, a.toNat = 4096 * i ∧ FrameUsable m i ∧
      ¬FrameReserved image memory multibootInfoAddress i := by
  obtain ⟨first, p, ⟨-, hFirst, rfl⟩, hLast, hTracks⟩ := pmm_tracks_of_run hOk run
  obtain ⟨-, hFresh⟩ := pmmInitialize_fresh hOk
  have hCall := PmmStep.allocateFrame s outIsNull
  rw [hSome] at hCall
  obtain ⟨q, hStep, -⟩ := hCall.refines hLast
  obtain ⟨⟨i, hi, hA, hFree⟩, hNotLive⟩ := hTracks.acquired hStep
  have hTotal := hFresh.counts.total_le
  refine ⟨?_, i, by omega, hA, (hFresh.free_iff i hi).mp hFree⟩
  rw [pmmLive_iff]
  exact hNotLive

/-- After any run a free succeeds exactly for the addresses that are live. -/
theorem pmmFreeFrame_of_run
    (hOk : (pmmInitialize image m memory multibootInfoAddress start).1 = .ok)
    (run : TransitionSystem.Run PmmStep (pmmInitialize image m memory multibootInfoAddress start).2
      events s) (a : BitVec 32) :
    (pmmFreeFrame a s).1 = true ↔ PmmLive events a := by
  obtain ⟨first, p, -, hLast, hTracks⟩ := pmm_tracks_of_run hOk run
  have hCall := PmmStep.freeFrame s a
  rw [pmmLive_iff]
  cases hResult : (pmmFreeFrame a s).1 with
  | true =>
      rw [hResult] at hCall
      obtain ⟨q, hStep, -⟩ := hCall.refines hLast
      exact iff_of_true rfl (hTracks.released hStep)
  | false =>
      rw [hResult] at hCall
      obtain ⟨q, hStep, -⟩ := hCall.refines hLast
      exact iff_of_false Bool.false_ne_true (hTracks.refused hStep)

/-- The search starts at frame zero, so the first allocation returns a frame
no higher than any frame that is free. -/
theorem pmmAllocateFrame_first
    (hOk : (pmmInitialize image m memory multibootInfoAddress start).1 = .ok) {f : Nat}
    (hf : f < 2 ^ 20) (hUsable : FrameUsable m f)
    (hFree : ¬FrameReserved image memory multibootInfoAddress f) :
    ∃ i ≤ f, ∃ a : BitVec 32, a.toNat = 4096 * i ∧
      (pmmAllocateFrame false (pmmInitialize image m memory multibootInfoAddress start).2).1 =
        some a := by
  obtain ⟨hInit, hFresh⟩ := pmmInitialize_fresh hOk
  have hTracked : f < (pmmInitialize image m memory multibootInfoAddress start).2.totalFrames.toNat := by
    rw [hFresh.total]
    exact hUsable.lt_total hf
  have hUnused := (hFresh.free_iff f hTracked).mpr ⟨hUsable, hFree⟩
  rcases hFresh.consistent.allocateFrame false with ⟨-, hFull⟩ |
    ⟨i, -, a, -, -, -, hA, hFirst, hSome, -⟩
  · rw [hFull hInit rfl f hTracked] at hUnused
    exact Bool.noConfusion hUnused
  · have hNext := hFresh.next
    rw [hNext] at hFirst
    exact ⟨i, (hFirst f (Nat.zero_le f) hTracked hUnused).2, a, hA, hSome⟩

/-- The search takes the frame that it meets first. -/
theorem PmmConsistent.allocateFrame_eq (hs : PmmConsistent skipped s) (hInit : s.initialized = true)
    {j : Nat} (hTracked : j < s.totalFrames.toNat) (hFree : s.used j = false)
    (hNext : s.nextSearchFrame.toNat ≤ j)
    (hBefore : ∀ i, s.nextSearchFrame.toNat ≤ i → i < j → s.used i = true) :
    (pmmAllocateFrame false s).1 = some (BitVec.ofNat 32 (4096 * j)) ∧
      PmmTaken skipped s j (pmmAllocateFrame false s).2 := by
  rcases hs.allocateFrame false with ⟨-, hFull⟩ | ⟨i, -, a, -, -, hUnused, hA, hFirst, hSome, hTaken⟩
  · rw [hFull hInit rfl j hTracked] at hFree
    exact Bool.noConfusion hFree
  · obtain ⟨hLow, hHigh⟩ := hFirst j hNext hTracked hFree
    have hSame : i = j := by
      by_contra hNe
      rw [hBefore i hLow (by omega)] at hUnused
      exact Bool.noConfusion hUnused
    subst hSame
    rw [hSome, ← hA, BitVec.ofNat_toNat, BitVec.setWidth_eq]
    exact ⟨rfl, hTaken⟩

/-- A live address is the address of a frame. -/
theorem PmmLive.aligned
    (hOk : (pmmInitialize image m memory multibootInfoAddress start).1 = .ok)
    (run : TransitionSystem.Run PmmStep (pmmInitialize image m memory multibootInfoAddress start).2
      events s) {a : BitVec 32} (h : PmmLive events a) : a.toNat % 4096 = 0 := by
  obtain ⟨first, p, -, ⟨-, hs, rfl⟩, hTracks⟩ := pmm_tracks_of_run hOk run
  rw [pmmLive_iff, ← hTracks.held_iff] at h
  obtain ⟨i, -, hA, -⟩ := h
  omega

end History

section Safety

/-- The bytes of the frame at address `a`. -/
def pageBytes (a : BitVec 32) : Set Nat := byteRange a.toNat 4096

theorem pageBytes_eq_frameBytes {a : BitVec 32} {i : Nat} (h : a.toNat = 4096 * i) :
    pageBytes a = frameBytes i := by
  rw [pageBytes, byteRange, frameBytes, h, Nat.mul_add, Nat.mul_one]

theorem pageBytes_disjoint {a b : BitVec 32} (hA : a.toNat % 4096 = 0) (hB : b.toNat % 4096 = 0)
    (hNe : a ≠ b) : Disjoint (pageBytes a) (pageBytes b) := by
  rw [ne_eq, ← BitVec.toNat_inj] at hNe
  rw [pageBytes, pageBytes, byteRange, byteRange, Set.Ico_disjoint_Ico]
  omega

/-- The frame at `a` is usable memory that nothing the kernel knows of
occupies. The memory-map buffer counts when its flag is set and its address
is not null. -/
structure PmmPageSafe (image : KernelImage) (m : MemoryState) (memory : PhysicalMemory)
    (multibootInfoAddress : BitVec 32) (a : BitVec 32) : Prop where
  aligned : a.toNat % 4096 = 0
  usable : ∃ region ∈ memoryRegionList m, region.type = .usable ∧
    pageBytes a ⊆ byteRange region.baseAddress.toNat region.length.toNat
  low : Disjoint (pageBytes a) (byteRange 0 (2 ^ 20))
  kernel : Disjoint (pageBytes a) (Set.Ico image.kernelStart.toNat image.kernelEnd.toNat)
  bitmap : Disjoint (pageBytes a) (byteRange image.pmmBitmap.toNat 131072)
  allocatedBitmap : Disjoint (pageBytes a) (byteRange image.pmmAllocatedBitmap.toNat 131072)
  info : Disjoint (pageBytes a) (byteRange multibootInfoAddress.toNat 52)
  map : MultibootInfo.hasMemoryMap memory multibootInfoAddress = true →
    MultibootInfo.mmapAddr memory multibootInfoAddress ≠ 0#32 →
    Disjoint (pageBytes a) (byteRange (MultibootInfo.mmapAddr memory multibootInfoAddress).toNat
      (MultibootInfo.mmapLength memory multibootInfoAddress).toNat)

/-- An unreserved usable frame is safe to hand out. -/
theorem pmmPageSafe_of_frame {image : KernelImage} {m : MemoryState} {memory : PhysicalMemory}
    {multibootInfoAddress : BitVec 32} {i : Nat} {a : BitVec 32} (hA : a.toNat = 4096 * i)
    (hUsable : FrameUsable m i) (hFree : ¬FrameReserved image memory multibootInfoAddress i) :
    PmmPageSafe image m memory multibootInfoAddress a := by
  obtain ⟨hLow, hKernel, hBitmap, hAllocated, hInfo, hMap⟩ := not_frameReserved_iff.mp hFree
  simp only [FrameUsable, ← pageBytes_eq_frameBytes hA] at hUsable hLow hKernel hBitmap hAllocated hInfo hMap
  refine ⟨by omega, hUsable, ?_, ?_, hBitmap, hAllocated, hInfo, fun hFlag hAddress => ?_⟩
  · rwa [byteRange, Nat.zero_add]
  · by_cases hAbove : image.kernelStart < image.kernelEnd
    · exact hKernel hAbove
    · rw [BitVec.lt_def, Nat.not_lt] at hAbove
      rw [Set.Ico_eq_empty_of_le hAbove]
      exact Set.disjoint_empty _
  · by_cases hLength : MultibootInfo.mmapLength memory multibootInfoAddress = 0#32
    · rw [hLength, byteRange, BitVec.toNat_zero, Nat.add_zero, Set.Ico_self]
      exact Set.disjoint_empty _
    · exact hMap hFlag hAddress hLength

/-- Ownership over whole runs. After a successful initialization and any
sequence of client calls, the next allocation returns a safe page that no
live page overlaps, and the next free succeeds exactly on a live address. -/
theorem pmm_ownership_of_run {image : KernelImage} {m : MemoryState} {memory : PhysicalMemory}
    {multibootInfoAddress : BitVec 32} {start s : PmmState} {events : List PmmEvent}
    (hOk : (pmmInitialize image m memory multibootInfoAddress start).1 = .ok)
    (run : TransitionSystem.Run PmmStep (pmmInitialize image m memory multibootInfoAddress start).2
      events s) :
    (∀ outIsNull a, (pmmAllocateFrame outIsNull s).1 = some a →
      PmmPageSafe image m memory multibootInfoAddress a ∧ ¬PmmLive events a ∧
      (∀ b, PmmLive events b → Disjoint (pageBytes a) (pageBytes b)) ∧
      (image.kernelStart ≤ image.kernelHeapStart → image.kernelHeapStart ≤ image.kernelHeapEnd →
        image.kernelHeapEnd ≤ image.kernelEnd →
        Disjoint (pageBytes a) (Set.Ico image.kernelHeapStart.toNat image.kernelHeapEnd.toNat))) ∧
    ∀ a, (pmmFreeFrame a s).1 = true ↔ PmmLive events a := by
  refine ⟨fun outIsNull a hSome => ?_, pmmFreeFrame_of_run hOk run⟩
  obtain ⟨hNotLive, i, -, hA, hUsable, hFree⟩ := pmmAllocateFrame_of_run hOk run hSome
  have hSafe := pmmPageSafe_of_frame hA hUsable hFree
  refine ⟨hSafe, hNotLive, fun b hB => ?_, fun hStart _ hEnd => ?_⟩
  · apply pageBytes_disjoint hSafe.aligned (hB.aligned hOk run)
    rintro rfl
    exact hNotLive hB
  · exact hSafe.kernel.mono_right (Set.Ico_subset_Ico hStart hEnd)

end Safety

section Examples

theorem frameReserved_iff {image : KernelImage} {memory : PhysicalMemory}
    {multibootInfoAddress : BitVec 32} {i : Nat} :
    FrameReserved image memory multibootInfoAddress i ↔
      ∃ range ∈ pmmReservedRanges image memory multibootInfoAddress,
        range.1.toNat < 4096 * (i + 1) ∧ 4096 * i < range.1.toNat + range.2.toNat := by
  refine exists_congr fun range => and_congr_right fun hMem => ?_
  rw [disjoint_frameBytes_iff (pmmReservedRanges_pos image memory multibootInfoAddress range hMem)]
  omega

instance (image : KernelImage) (memory : PhysicalMemory) (multibootInfoAddress : BitVec 32)
    (i : Nat) : Decidable (FrameReserved image memory multibootInfoAddress i) :=
  decidable_of_iff' _ frameReserved_iff

/-- The allocator reads the table that the parser stored. -/
theorem memoryRegionList_of_holds {m : MemoryState} {regions : List MemoryRegion}
    (h : MemoryHolds m regions) : memoryRegionList m = regions := by
  have hAll : ∀ regions : List MemoryRegion,
      (List.range regions.length).filterMap (fun i => regions[i]?) = regions := by
    intro regions
    induction regions with
    | nil => rfl
    | cons region rest ih =>
        rw [List.length_cons, List.range_succ_eq_map, List.filterMap_cons, List.filterMap_map]
        simpa using ih
  obtain ⟨hCount, hGet⟩ := h.getters
  rw [memoryRegionList, memoryRegionIndices, List.filterMap_map, hCount]
  refine (List.filterMap_congr fun i hMem => ?_).trans (hAll regions)
  have hLt := List.mem_range.mp hMem
  have hCapacity := h.capacity
  rw [Function.comp_apply, hGet, BitVec.toNat_ofNat, Nat.mod_eq_of_lt (by omega)]

/-- The map of `overlappingBootMemory` as the allocator sees it. -/
def overlappingMap : MemoryState :=
  (memoryInitialize overlappingBootMemory 0x9000#32 memoryResetSummary).2

/-- The parser reads the example's map into its two regions. -/
theorem overlappingMap_spec :
    overlappingMap.initialized = true ∧ overlappingMap.mapTruncated = false ∧
      memoryRegionList overlappingMap = MapEntry.regions overlappingBootEntries := by
  obtain ⟨-, hInit, hTruncated, hHolds⟩ := memoryInitialize_of_grammar (by decide)
    overlappingBootMemory_grammar memoryResetSummary
  exact ⟨hInit, hTruncated, memoryRegionList_of_holds hHolds⟩

theorem overlappingMap_usable {i : Nat} (hFirst : 256 ≤ i) (hLast : i < 4352) :
    FrameUsable overlappingMap i := by
  refine ⟨⟨0x100000#64, 0x1000000#64, .usable⟩, ?_, rfl, ?_⟩
  · rw [overlappingMap_spec.2.2]
    decide
  · rw [frameBytes_subset_iff]
    simp only [BitVec.toNat_ofNat]
    omega

/-- Initialization succeeds as long as one frame of the map is left. -/
theorem overlappingMap_ok {image : KernelImage} {memory : PhysicalMemory} {i : Nat}
    (hFirst : 256 ≤ i) (hLast : i < 4352) (hFree : ¬FrameReserved image memory 0x9000#32 i) :
    (pmmInitialize image overlappingMap memory 0x9000#32 .boot).1 = .ok := by
  obtain ⟨hInit, hTruncated, -⟩ := overlappingMap_spec
  rw [pmmInitialize_ok_iff]
  exact ⟨by decide, hInit, hTruncated, i, by omega, overlappingMap_usable hFirst hLast, hFree⟩

/-- The frames below the end of the image are reserved. -/
theorem exampleKernelImage_reserved {memory : PhysicalMemory} {multibootInfoAddress : BitVec 32}
    {i : Nat} (h : i < 768) : FrameReserved exampleKernelImage memory multibootInfoAddress i := by
  by_contra hFree
  obtain ⟨hLow, hKernel, -⟩ := not_frameReserved_iff.mp hFree
  have hFirstByte : 4096 * i ∈ frameBytes i := Set.left_mem_Ico.mpr (by omega)
  by_cases hBelow : i < 256
  · exact Set.disjoint_left.mp hLow hFirstByte ⟨Nat.zero_le _, by omega⟩
  · refine Set.disjoint_left.mp (hKernel (by decide)) hFirstByte ⟨?_, ?_⟩
    · show 0x100000 ≤ 4096 * i
      omega
    · show 4096 * i < 0x300000
      omega

/-- The first two allocations on this map return the two pages behind the
kernel image. -/
theorem overlappingMap_allocations {s : PmmState}
    (hStart : s = (pmmInitialize exampleKernelImage overlappingMap overlappingBootMemory
      0x9000#32 .boot).2) :
    (pmmAllocateFrame false s).1 = some 0x300000#32 ∧
      (pmmAllocateFrame false (pmmAllocateFrame false s).2).1 = some 0x301000#32 := by
  have hReserved : ∀ i, 768 ≤ i → i < 770 →
      ¬FrameReserved exampleKernelImage overlappingBootMemory 0x9000#32 i := by
    intro i hLow hHigh
    interval_cases i <;> decide
  obtain ⟨hInit, hFresh⟩ := pmmInitialize_fresh
    (overlappingMap_ok (by decide) (by decide) (hReserved 768 (by decide) (by decide)))
  rw [← hStart] at hInit hFresh
  have hAvailable : ∀ i, 768 ≤ i → i < 770 → i < s.totalFrames.toNat ∧ s.used i = false := by
    intro i hLow hHigh
    have hUsable : FrameUsable overlappingMap i := overlappingMap_usable (by omega) (by omega)
    have hTracked : i < s.totalFrames.toNat := by
      rw [hFresh.total]
      exact hUsable.lt_total (by omega)
    exact ⟨hTracked, (hFresh.free_iff i hTracked).mpr ⟨hUsable, hReserved i hLow hHigh⟩⟩
  have hBefore : ∀ i, s.nextSearchFrame.toNat ≤ i → i < 768 → s.used i = true := by
    intro i _ hLow
    by_contra hFree
    have hTracked := hLow.trans (hAvailable 768 (by decide) (by decide)).1
    exact ((hFresh.free_iff i hTracked).mp (Bool.not_eq_true _ ▸ hFree)).2
      (exampleKernelImage_reserved hLow)
  have hNext : s.nextSearchFrame.toNat = 0 := congrArg BitVec.toNat hFresh.next
  obtain ⟨hTracked, hFree⟩ := hAvailable 768 (by decide) (by decide)
  obtain ⟨hFirst, hTaken⟩ := hFresh.consistent.allocateFrame_eq hInit hTracked hFree
    (hNext.le.trans (Nat.zero_le 768)) hBefore
  obtain ⟨hTrackedNext, hFreeNext⟩ := hAvailable 769 (by decide) (by decide)
  have hFreeStill : (pmmAllocateFrame false s).2.used 769 = false := by
    rw [← Bool.not_eq_true, hTaken.used, hFreeNext]
    decide
  have hStepped := (PmmStep.allocateFrame s false).consistent hFresh.consistent
  have hSecond := (hStepped.allocateFrame_eq (hTaken.initialized.trans hInit)
    (hTaken.total ▸ hTrackedNext) hFreeStill hTaken.next.le
    fun i hLow hHigh => absurd hHigh (by rw [hTaken.next] at hLow; omega)).1
  exact ⟨hFirst, hSecond⟩

/-- Two allocations and a free: the second page is safe and apart from the
first one, which is live and can be freed once, and the second stays live. -/
theorem pmm_ownership_of_run_boot :
    let s := (pmmInitialize exampleKernelImage overlappingMap overlappingBootMemory 0x9000#32 .boot).2
    let t := (pmmAllocateFrame false s).2
    let u := (pmmAllocateFrame false t).2
    let v := (pmmFreeFrame 0x300000#32 u).2
    (pmmAllocateFrame false s).1 = some 0x300000#32 ∧ (pmmAllocateFrame false t).1 = some 0x301000#32 ∧
      PmmPageSafe exampleKernelImage overlappingMap overlappingBootMemory 0x9000#32 0x301000#32 ∧
      Disjoint (pageBytes 0x301000#32) (pageBytes 0x300000#32) ∧
      (pmmFreeFrame 0x300000#32 u).1 = true ∧ (pmmFreeFrame 0x300000#32 v).1 = false ∧
      (pmmFreeFrame 0x301000#32 v).1 = true := by
  intro s t u v
  have hOk : (pmmInitialize exampleKernelImage overlappingMap overlappingBootMemory
      0x9000#32 .boot).1 = .ok :=
    overlappingMap_ok (i := 768) (by decide) (by decide) (by decide)
  obtain ⟨hFirst, hSecond⟩ := overlappingMap_allocations (s := s) rfl
  have hAllocateFirst : PmmStep s (.allocateFrame false (some 0x300000#32)) t :=
    hFirst ▸ PmmStep.allocateFrame s false
  have hAllocateSecond : PmmStep t (.allocateFrame false (some 0x301000#32)) u :=
    hSecond ▸ PmmStep.allocateFrame t false
  have runT := TransitionSystem.Run.nil.snoc hAllocateFirst
  have hLiveT := (pmmLive_snoc [] (.allocateFrame false (some 0x300000#32)) 0x300000#32).mpr
    (Or.inl ⟨false, rfl⟩)
  obtain ⟨hSafe, -, hApart, -⟩ := (pmm_ownership_of_run hOk runT).1 false _ hSecond
  have runU := runT.snoc hAllocateSecond
  have hLiveU := (pmmLive_snoc _ (.allocateFrame false (some 0x301000#32)) 0x300000#32).mpr
    (Or.inr ⟨hLiveT, by simp⟩)
  have hFreed := ((pmm_ownership_of_run hOk runU).2 0x300000#32).mpr hLiveU
  have hFree : PmmStep u (.freeFrame 0x300000#32 true) v := hFreed ▸ PmmStep.freeFrame u 0x300000#32
  have hFrees := (pmm_ownership_of_run hOk (runU.snoc hFree)).2
  refine ⟨hFirst, hSecond, hSafe, hApart _ hLiveT, hFreed, ?_, (hFrees _).mpr ?_⟩
  · rw [← Bool.not_eq_true, hFrees, pmmLive_snoc]
    simp
  · rw [pmmLive_snoc, pmmLive_snoc]
    simp

/-- An info structure whose flag announces a map of 4 MiB at address zero. -/
def nullMapMemory : PhysicalMemory := fun address =>
  if address = 0x9000#32 then 0x40#8 else if address = 0x902E#32 then 0x40#8 else 0#8

/-- The buffer at a null address is not reserved: the first page handed out
lies in the announced range. -/
theorem pmm_ownership_null_map :
    let t := pmmInitialize exampleKernelImage overlappingMap nullMapMemory 0x9000#32 .boot
    t.1 = .ok ∧ MultibootInfo.hasMemoryMap nullMapMemory 0x9000#32 = true ∧
      ∃ a, (pmmAllocateFrame false t.2).1 = some a ∧
        ¬Disjoint (pageBytes a) (byteRange (MultibootInfo.mmapAddr nullMapMemory 0x9000#32).toNat
          (MultibootInfo.mmapLength nullMapMemory 0x9000#32).toNat) := by
  have hFree : ¬FrameReserved exampleKernelImage nullMapMemory 0x9000#32 768 := by decide
  have hOk : (pmmInitialize exampleKernelImage overlappingMap nullMapMemory 0x9000#32 .boot).1 = .ok :=
    overlappingMap_ok (by decide) (by decide) hFree
  obtain ⟨i, hLe, a, hA, hSome⟩ := pmmAllocateFrame_first hOk (by decide)
    (overlappingMap_usable (by decide) (by decide)) hFree
  have hAddress : (MultibootInfo.mmapAddr nullMapMemory 0x9000#32).toNat = 0 := by decide
  have hLength : (MultibootInfo.mmapLength nullMapMemory 0x9000#32).toNat = 0x400000 := by decide
  refine ⟨hOk, by decide, a, hSome, ?_⟩
  rw [pageBytes_eq_frameBytes hA, hAddress, hLength, disjoint_frameBytes_iff (by decide)]
  omega

end Examples
end WigOSX
