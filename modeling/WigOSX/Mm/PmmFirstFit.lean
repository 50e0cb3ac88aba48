import WigOSX.Mm.PmmOwnership

/-! The search hint. No frame below `pmm_next_search_frame` is ever free, so
the two scans of `pmm_allocate_frame` together are one scan from frame zero. -/
namespace WigOSX

variable {skipped : Nat}

/-- An initialized allocator whose hint has no free frame below it. -/
structure PmmHinted (skipped : Nat) (s : PmmState) : Prop where
  consistent : PmmConsistent skipped s
  initialized : s.initialized = true
  below : ∀ i < s.nextSearchFrame.toNat, s.used i = true

/-- Initialization puts the hint to zero. -/
theorem pmmInitialize_hinted {image : KernelImage} {m : MemoryState} {memory : PhysicalMemory}
    {multibootInfoAddress : BitVec 32} {s : PmmState}
    (hOk : (pmmInitialize image m memory multibootInfoAddress s).1 = .ok) :
    PmmHinted s.suppressedUpdates (pmmInitialize image m memory multibootInfoAddress s).2 := by
  obtain ⟨hInit, hFresh⟩ := pmmInitialize_fresh hOk
  refine ⟨hFresh.consistent, hInit, fun i hi => ?_⟩
  rw [hFresh.next] at hi
  exact absurd hi (Nat.not_lt_zero i)

/-- The frame below which everything is used moves up behind the frame that
was taken: the scan found nothing between the hint and that frame. -/
theorem PmmTaken.hinted {s t : PmmState} {i : Nat} (h : PmmTaken skipped s i t)
    (hs : PmmHinted skipped s) (hi : i < s.totalFrames.toNat)
    (hFirst : ∀ j, s.nextSearchFrame.toNat ≤ j → j < s.totalFrames.toNat → s.used j = false →
      s.nextSearchFrame.toNat ≤ i ∧ i ≤ j) : PmmHinted skipped t where
  consistent := h.consistent hi hs.consistent
  initialized := h.initialized.trans hs.initialized
  below := by
    intro j hj
    rw [h.next] at hj
    rw [h.used]
    rcases Nat.lt_or_eq_of_le (Nat.le_of_lt_succ hj) with hBefore | hSame
    · left
      by_cases hHint : j < s.nextSearchFrame.toNat
      · exact hs.below j hHint
      · by_contra hFree
        have hLe := (hFirst j (by omega) (by omega) (Bool.not_eq_true _ ▸ hFree)).2
        omega
    · exact Or.inr hSame

/-- A frame that is given back lowers the hint if it lies below. -/
theorem PmmGiven.hinted {s t : PmmState} {i : Nat} (h : PmmGiven skipped s i t)
    (hs : PmmHinted skipped s) : PmmHinted skipped t where
  consistent := h.consistent hs.consistent
  initialized := h.initialized.trans hs.initialized
  below := by
    intro j hj
    rw [h.next] at hj
    rw [h.used]
    exact ⟨hs.below j (by omega), by omega⟩

/-- No call of a client leaves a free frame below the search hint. -/
theorem PmmStep.hinted {s t : PmmState} {event : PmmEvent} (hStep : PmmStep s event t)
    (hs : PmmHinted skipped s) : PmmHinted skipped t := by
  cases hStep with
  | allocateFrame outIsNull =>
      rcases hs.consistent.allocateFrame outIsNull with ⟨hNone, -⟩ |
        ⟨i, hi, a, -, -, -, -, hFirst, -, hTaken⟩
      · rw [hNone]
        exact hs
      · exact hTaken.hinted hs hi hFirst
  | freeFrame physicalAddress =>
      rcases pmmFreeFrame_cases hs.consistent.counts physicalAddress with ⟨hSame, -⟩ |
        ⟨i, -, -, -, -, -, hGiven⟩
      · rw [hSame]
        exact hs
      · exact hGiven.hinted hs

theorem pmmHinted_of_run {image : KernelImage} {m : MemoryState} {memory : PhysicalMemory}
    {multibootInfoAddress : BitVec 32} {start s : PmmState} {events : List PmmEvent}
    (hOk : (pmmInitialize image m memory multibootInfoAddress start).1 = .ok)
    (run : TransitionSystem.Run PmmStep (pmmInitialize image m memory multibootInfoAddress start).2
      events s) : PmmHinted start.suppressedUpdates s :=
  run.invariant (PmmHinted start.suppressedUpdates) (pmmInitialize_hinted hOk)
    fun _ _ _ hs hStep => hStep.hinted hs

section FirstFit

variable {s : PmmState}

/-- The scan below the hint finds nothing. -/
theorem PmmHinted.wraps_to_none (hs : PmmHinted skipped s) :
    pmmFindFreeFrame s 0#32 s.nextSearchFrame = none := by
  cases hScan : pmmFindFreeFrame s 0#32 s.nextSearchFrame with
  | none => rfl
  | some frame =>
      obtain ⟨-, hBelow, hFree, -⟩ := pmmFindFreeFrame_eq_some hScan
      rw [hs.below _ hBelow] at hFree
      exact Bool.noConfusion hFree

/-- Starting at the hint or at zero makes no difference to a scan. -/
theorem PmmHinted.scan_eq (hs : PmmHinted skipped s) :
    pmmFindFreeFrame s s.nextSearchFrame s.totalFrames = pmmFindFreeFrame s 0#32 s.totalFrames := by
  have hSplit : List.range' 0 s.totalFrames.toNat =
      List.range' 0 s.nextSearchFrame.toNat ++ List.range' s.nextSearchFrame.toNat
        (s.totalFrames.toNat - s.nextSearchFrame.toNat) := by
    have hLe := hs.consistent.next_le
    rw [← Nat.sub_add_cancel hLe, Nat.add_comm, ← List.range'_append_1]
    simp
  have hBelow := hs.wraps_to_none
  simp only [pmmFindFreeFrame, BitVec.toNat_ofNat, Nat.zero_mod, Nat.sub_zero] at hBelow ⊢
  rw [hSplit, List.map_append, List.find?_append, hBelow, Option.none_or]

/-- The counter of free frames is zero exactly when every frame is used. -/
theorem PmmHinted.free_eq_zero_iff (hs : PmmHinted skipped s) :
    pmmGetFreeFrameCount s = 0#32 ↔ ∀ i < s.totalFrames.toNat, s.used i = true := by
  rw [pmmGetFreeFrameCount, ← BitVec.toNat_inj, hs.consistent.counts.free_eq, BitVec.toNat_ofNat,
    Nat.zero_mod, Nat.count_iff_forall_not]
  simp only [not_not]

/-- `pmm_allocate_frame` as the plain scan from frame zero. -/
theorem PmmHinted.allocateFrame_eq (hs : PmmHinted skipped s) :
    pmmAllocateFrame false s =
      match pmmFindFreeFrame s 0#32 s.totalFrames with
      | none => (none, s)
      | some frame => (some (frame * pmmFrameSize), (pmmTakeFrame s frame).2) := by
  simp only [pmmAllocateFrame, hs.initialized, hs.scan_eq, hs.wraps_to_none]
  cases pmmFindFreeFrame s 0#32 s.totalFrames <;> rfl

/-- What the plain scan returns. -/
theorem PmmHinted.plain_scan (hs : PmmHinted skipped s) :
    (pmmFindFreeFrame s 0#32 s.totalFrames = none ∧ pmmGetFreeFrameCount s = 0#32) ∨
    ∃ frame, pmmFindFreeFrame s 0#32 s.totalFrames = some frame ∧ pmmGetFreeFrameCount s ≠ 0#32 ∧
      frame.toNat < s.totalFrames.toNat ∧ s.used frame.toNat = false ∧
      ∀ i < frame.toNat, s.used i = true := by
  cases hScan : pmmFindFreeFrame s 0#32 s.totalFrames with
  | none =>
      refine Or.inl ⟨rfl, hs.free_eq_zero_iff.mpr fun i hi => ?_⟩
      exact pmmFindFreeFrame_eq_none hScan (Nat.zero_le i) hi
  | some frame =>
      obtain ⟨-, hTracked, hFree, hBefore⟩ := pmmFindFreeFrame_eq_some hScan
      refine Or.inr ⟨frame, rfl, fun hZero => ?_, hTracked, hFree,
        fun i hi => hBefore i (Nat.zero_le i) hi⟩
      rw [hs.free_eq_zero_iff.mp hZero _ hTracked] at hFree
      exact Bool.noConfusion hFree

end FirstFit

/-- Allocation is first-fit in every state that a run can reach: the hint
never hides a free frame, the scan below it finds nothing, and the result is
that of a plain scan, which is the smallest free frame if there is one. -/
theorem pmm_first_fit_of_run {image : KernelImage} {m : MemoryState} {memory : PhysicalMemory}
    {multibootInfoAddress : BitVec 32} {start s : PmmState} {events : List PmmEvent}
    (hOk : (pmmInitialize image m memory multibootInfoAddress start).1 = .ok)
    (run : TransitionSystem.Run PmmStep (pmmInitialize image m memory multibootInfoAddress start).2
      events s) :
    (∀ i < s.nextSearchFrame.toNat, s.used i = true) ∧
    pmmFindFreeFrame s 0#32 s.nextSearchFrame = none ∧
    ((pmmAllocateFrame false s).1 = none ↔ pmmGetFreeFrameCount s = 0#32) ∧
    ((pmmAllocateFrame false s).1 = none → (pmmAllocateFrame false s).2 = s) ∧
    (∀ a, (pmmAllocateFrame false s).1 = some a →
      ∃ i < s.totalFrames.toNat, a.toNat = 4096 * i ∧ s.used i = false ∧
        ∀ j < i, s.used j = true) ∧
    (pmmAllocateFrame false s).1 =
      (pmmFindFreeFrame s 0#32 s.totalFrames).map fun frame => frame * pmmFrameSize := by
  have hs := pmmHinted_of_run hOk run
  have hTotal := hs.consistent.counts.total_le
  refine ⟨hs.below, hs.wraps_to_none, ?_⟩
  rw [hs.allocateFrame_eq]
  rcases hs.plain_scan with ⟨hNone, hZero⟩ | ⟨frame, hSome, hPos, hTracked, hFree, hBefore⟩
  · rw [hNone]
    exact ⟨iff_of_true rfl hZero, fun _ => rfl, by simp, rfl⟩
  · rw [hSome]
    refine ⟨iff_of_false (by simp) hPos, by simp, fun a hA => ?_, rfl⟩
    cases hA
    exact ⟨frame.toNat, hTracked, pmmFrameAddress_toNat (by omega), hFree, hBefore⟩

/-- On the map of `overlappingBootMemory` no frame below the hint is free. -/
theorem pmm_first_fit_of_run_boot :
    let s := (pmmInitialize exampleKernelImage overlappingMap overlappingBootMemory 0x9000#32 .boot).2
    let t := (pmmFreeFrame 0x400000#32 (pmmAllocateFrame false s).2).2
    pmmFindFreeFrame t 0#32 t.nextSearchFrame = none := by
  intro s t
  have hOk : (pmmInitialize exampleKernelImage overlappingMap overlappingBootMemory
      0x9000#32 .boot).1 = .ok :=
    overlappingMap_ok (i := 768) (by decide) (by decide) (by decide)
  have run : TransitionSystem.Run PmmStep s _ t :=
    (TransitionSystem.Run.single (.allocateFrame s false)).snoc (.freeFrame _ 0x400000#32)
  exact (pmm_first_fit_of_run hOk run).2.1

end WigOSX
