import WigOSX.Mm.PmmOwnership

/-! Overlapping maps. Only the usable regions of the map steer
`pmm_initialize`; a reserved region is not reserved again when a usable one
covers the same frame. Every free frame can be reached by allocating often
enough, so reserved memory stays in the kernel's hands exactly when the map
and the fixed reservations leave no such frame free. -/
namespace WigOSX

variable {skipped : Nat} {image : KernelImage} {m : MemoryState} {memory : PhysicalMemory}
  {multibootInfoAddress : BitVec 32} {start : PmmState}

/-- Repeated allocation reaches every free frame at or above the search
hint. The induction is on the distance from the hint to the frame. -/
theorem pmmAllocateFrame_reaches {s : PmmState} (hs : PmmConsistent skipped s)
    (hInit : s.initialized = true) {f : Nat} (hf : f < s.totalFrames.toNat)
    (hNext : s.nextSearchFrame.toNat ≤ f) (hFree : s.used f = false) :
    ∃ events t, TransitionSystem.Run PmmStep s events t ∧
      ∃ a : BitVec 32, a.toNat = 4096 * f ∧ (pmmAllocateFrame false t).1 = some a := by
  induction hDistance : f - s.nextSearchFrame.toNat using Nat.strongRecOn generalizing s with
  | _ distance ih =>
      rcases hs.allocateFrame false with ⟨-, hFull⟩ |
        ⟨i, hi, a, -, -, -, hA, hFirst, hSome, hTaken⟩
      · rw [hFull hInit rfl f hf] at hFree
        exact Bool.noConfusion hFree
      obtain ⟨hLow, hLe⟩ := hFirst f hNext hf hFree
      rcases Nat.lt_or_eq_of_le hLe with hLt | rfl
      · have hStep := PmmStep.allocateFrame s false
        have hStill : (pmmAllocateFrame false s).2.used f = false := by
          rw [← Bool.not_eq_true, hTaken.used, not_or, Bool.not_eq_true]
          exact ⟨hFree, by omega⟩
        have hHint := hTaken.next
        obtain ⟨events, t, run, hLast⟩ := ih (f - (pmmAllocateFrame false s).2.nextSearchFrame.toNat)
          (by omega) (hTaken.consistent hi hs) (hTaken.initialized.trans hInit)
          (by rw [hTaken.total]; exact hf) (by omega) hStill rfl
        exact ⟨_, t, .cons hStep run, hLast⟩
      · exact ⟨[], s, .nil, a, hA, hSome⟩

/-- After initialization every unreserved usable frame can be handed out. -/
theorem pmmInitialize_reaches
    (hOk : (pmmInitialize image m memory multibootInfoAddress start).1 = .ok) {f : Nat}
    (hf : f < 2 ^ 20) (hUsable : FrameUsable m f)
    (hFree : ¬FrameReserved image memory multibootInfoAddress f) :
    ∃ events s, TransitionSystem.Run PmmStep
      (pmmInitialize image m memory multibootInfoAddress start).2 events s ∧
      ∃ a : BitVec 32, a.toNat = 4096 * f ∧ (pmmAllocateFrame false s).1 = some a := by
  obtain ⟨hInit, hFresh⟩ := pmmInitialize_fresh hOk
  have hTracked : f < (pmmInitialize image m memory multibootInfoAddress start).2.totalFrames.toNat := by
    rw [hFresh.total]
    exact hUsable.lt_total hf
  refine pmmAllocateFrame_reaches hFresh.consistent hInit hTracked ?_ ?_
  · rw [hFresh.next]
    exact Nat.zero_le f
  · exact (hFresh.free_iff f hTracked).mpr ⟨hUsable, hFree⟩

/-- No reserved region of the map reaches into these bytes. -/
def AvoidsReserved (m : MemoryState) (bytes : Set Nat) : Prop :=
  ∀ region ∈ memoryRegionList m, region.type = .reserved →
    Disjoint bytes (byteRange region.baseAddress.toNat region.length.toNat)

/-- Allocation keeps away from the reserved regions in every run exactly when
each frame below 4 GiB that lies in a usable region and outside the fixed
reservations does. -/
theorem pmm_avoids_reserved_iff
    (hOk : (pmmInitialize image m memory multibootInfoAddress start).1 = .ok) :
    (∀ events s, TransitionSystem.Run PmmStep
        (pmmInitialize image m memory multibootInfoAddress start).2 events s →
      ∀ outIsNull a, (pmmAllocateFrame outIsNull s).1 = some a → AvoidsReserved m (pageBytes a)) ↔
    ∀ i < 2 ^ 20, FrameUsable m i → ¬FrameReserved image memory multibootInfoAddress i →
      AvoidsReserved m (frameBytes i) := by
  constructor
  · intro hRuns i hi hUsable hFree
    obtain ⟨events, s, run, a, hA, hSome⟩ := pmmInitialize_reaches hOk hi hUsable hFree
    rw [← pageBytes_eq_frameBytes hA]
    exact hRuns events s run false a hSome
  · intro hFrames events s run outIsNull a hSome
    obtain ⟨-, i, hi, hA, hUsable, hFree⟩ := pmmAllocateFrame_of_run hOk run hSome
    rw [pageBytes_eq_frameBytes hA]
    exact hFrames i hi hUsable hFree

/-- With the kernel image over the reserved page nothing goes wrong. -/
theorem pmm_avoids_reserved_iff_covered :
    let image := { exampleKernelImage with kernelEnd := 0x500000#32 }
    ∀ events s, TransitionSystem.Run PmmStep
        (pmmInitialize image overlappingMap overlappingBootMemory 0x9000#32 .boot).2 events s →
      ∀ outIsNull a, (pmmAllocateFrame outIsNull s).1 = some a →
        AvoidsReserved overlappingMap (pageBytes a) := by
  refine (pmm_avoids_reserved_iff (overlappingMap_ok (i := 1280) (by decide) (by decide)
    (by decide))).mpr ?_
  intro i _ _ hFree region hMem hReserved
  rw [overlappingMap_spec.2.2] at hMem
  have hRegion : region = ⟨0x400000#64, 0x1000#64, .reserved⟩ := by
    revert region
    decide
  rw [hRegion, disjoint_frameBytes_iff (by decide)]
  by_contra hTouch
  have hPage : i = 1024 := by
    simp only [BitVec.toNat_ofNat] at hTouch
    omega
  subst hPage
  exact hFree (by decide)

/-- A parsed map whose reserved page is handed out. -/
theorem pmm_hands_out_reserved :
    (memoryInitialize overlappingBootMemory 0x9000#32 memoryResetSummary).1 = .ok ∧
    (pmmInitialize exampleKernelImage overlappingMap overlappingBootMemory 0x9000#32 .boot).1 = .ok ∧
    ∃ events s, TransitionSystem.Run PmmStep
        (pmmInitialize exampleKernelImage overlappingMap overlappingBootMemory 0x9000#32 .boot).2
        events s ∧
      ∃ a, (pmmAllocateFrame false s).1 = some a ∧ ¬AvoidsReserved overlappingMap (pageBytes a) := by
  have hFree : ¬FrameReserved exampleKernelImage overlappingBootMemory 0x9000#32 1024 := by decide
  have hOk : (pmmInitialize exampleKernelImage overlappingMap overlappingBootMemory
      0x9000#32 .boot).1 = .ok := overlappingMap_ok (by decide) (by decide) hFree
  obtain ⟨events, s, run, a, hA, hSome⟩ := pmmInitialize_reaches hOk (by decide)
    (overlappingMap_usable (by decide) (by decide)) hFree
  have hParsed := (memoryInitialize_of_grammar (by decide) overlappingBootMemory_grammar
    memoryResetSummary).1
  refine ⟨hParsed, hOk, events, s, run, a, hSome, fun hAvoids => ?_⟩
  have hDisjoint := hAvoids ⟨0x400000#64, 0x1000#64, .reserved⟩
    (by rw [overlappingMap_spec.2.2]; decide) rfl
  rw [pageBytes_eq_frameBytes hA, disjoint_frameBytes_iff (by decide)] at hDisjoint
  simp only [BitVec.toNat_ofNat] at hDisjoint
  omega

end WigOSX
