import WigOSX.Core.MemoryGrammar
import WigOSX.Mm.PmmInitialize

/-! The allocator over its whole life. From boot, initializations with any
map and client calls may follow each other in any order. The counters, the
two bitmaps and the search hint agree in every state between two calls. -/
namespace WigOSX

/-- A call of the life cycle together with its result. -/
inductive PmmCall where
  | pmmInitialize (status : KernelStatus)
  | client (event : PmmEvent)

inductive PmmLifecycle : PmmState → PmmCall → PmmState → Prop where
  | pmmInitialize (s : PmmState) (image : KernelImage) (m : MemoryState) (memory : PhysicalMemory)
      (multibootInfoAddress : BitVec 32) :
      PmmLifecycle s (.pmmInitialize (pmmInitialize image m memory multibootInfoAddress s).1)
        (pmmInitialize image m memory multibootInfoAddress s).2
  | client {s t : PmmState} {event : PmmEvent} (hStep : PmmStep s event t) :
      PmmLifecycle s (.client event) t

/-- What holds between any two calls. -/
structure PmmConsistent (skipped : Nat) (s : PmmState) : Prop where
  counts : PmmCounts skipped s
  allocated_used : ∀ i < s.totalFrames.toNat, s.allocated i = true → s.used i = true
  next_le : s.nextSearchFrame.toNat ≤ s.totalFrames.toNat

variable {skipped : Nat}

/-- A state that tracks no frame is consistent. -/
theorem pmmConsistent_of_empty {s : PmmState} (hTotal : s.totalFrames = 0#32)
    (hFree : s.freeFrames = 0#32) (hUsed : s.usedFrames = 0#32) (hNext : s.nextSearchFrame = 0#32)
    (hSkipped : s.suppressedUpdates = skipped) : PmmConsistent skipped s := by
  have hZero : s.totalFrames.toNat = 0 := by
    rw [hTotal]
    rfl
  refine ⟨⟨?_, ?_, ?_, hSkipped⟩, ?_, ?_⟩
  · omega
  · rw [hZero, hFree, Nat.count_zero]
    rfl
  · rw [hZero, hUsed, Nat.count_zero]
    rfl
  · intro i hi
    omega
  · rw [hNext, hTotal]

/-- The allocator's zeroed state at boot is consistent. -/
theorem pmmConsistent_boot : PmmConsistent 0 PmmState.boot :=
  pmmConsistent_of_empty rfl rfl rfl rfl rfl

/-- An initialized allocator is consistent, as nothing has been handed out
yet. -/
theorem PmmFresh.consistent {image : KernelImage} {m : MemoryState} {memory : PhysicalMemory}
    {multibootInfoAddress : BitVec 32} {t : PmmState}
    (h : PmmFresh image m memory multibootInfoAddress skipped t) : PmmConsistent skipped t where
  counts := h.counts
  allocated_used := by
    intro i _ hAllocated
    rw [h.allocated i] at hAllocated
    exact Bool.noConfusion hAllocated
  next_le := by
    rw [h.next]
    exact Nat.zero_le _

/-- Initialization is consistent whatever state it starts from, and on each
of its exits. -/
theorem pmmInitialize_consistent (image : KernelImage) (m : MemoryState) (memory : PhysicalMemory)
    (multibootInfoAddress : BitVec 32) (s : PmmState) :
    PmmConsistent s.suppressedUpdates (pmmInitialize image m memory multibootInfoAddress s).2 := by
  have hCleared : PmmConsistent s.suppressedUpdates (pmmCleared s) :=
    pmmConsistent_of_empty rfl rfl rfl rfl rfl
  have hReset : PmmConsistent s.suppressedUpdates (pmmResetBitmap (pmmCleared s)) :=
    pmmConsistent_of_empty rfl rfl rfl rfl rfl
  rw [pmmInitialize_eq]
  by_cases hAddress : multibootInfoAddress = 0#32
  · rw [if_pos hAddress]
    exact hCleared
  have hPopulated := (pmmPopulated_fresh image m memory hAddress s).1.consistent
  rw [if_neg hAddress]
  dsimp only
  split_ifs
  · exact hCleared
  · exact hReset
  · exact hPopulated
  · exact ⟨hPopulated.counts.congr rfl rfl rfl rfl rfl, hPopulated.allocated_used,
      hPopulated.next_le⟩

/-- A frame that is taken was free and counts as used from then on. -/
theorem PmmTaken.consistent {s t : PmmState} {i : Nat} (h : PmmTaken skipped s i t)
    (hi : i < s.totalFrames.toNat) (hs : PmmConsistent skipped s) : PmmConsistent skipped t where
  counts := h.counts
  allocated_used := by
    intro j hj hAllocated
    rw [h.total] at hj
    rw [h.used]
    rcases (h.allocated j).mp hAllocated with hOld | hNew
    · exact Or.inl (hs.allocated_used j hj hOld)
    · exact Or.inr hNew
  next_le := by
    rw [h.next, h.total]
    exact hi

/-- A frame that comes back was handed out and is free again. -/
theorem PmmGiven.consistent {s t : PmmState} {i : Nat} (h : PmmGiven skipped s i t)
    (hs : PmmConsistent skipped s) : PmmConsistent skipped t where
  counts := h.counts
  allocated_used := by
    intro j hj hAllocated
    rw [h.total] at hj
    obtain ⟨hOld, hNe⟩ := (h.allocated j).mp hAllocated
    exact (h.used j).mpr ⟨hs.allocated_used j hj hOld, hNe⟩
  next_le := by
    rw [h.next, h.total]
    exact (Nat.min_le_left _ _).trans hs.next_le

/-- One allocation of a consistent state: no frame is free, or the frame
handed out was free and is now taken. -/
theorem PmmConsistent.allocateFrame {s : PmmState} (hs : PmmConsistent skipped s)
    (outIsNull : Bool) :
    (pmmAllocateFrame outIsNull s = (none, s) ∧
      (s.initialized = true → outIsNull = false → ∀ i < s.totalFrames.toNat, s.used i = true)) ∨
    (∃ i < s.totalFrames.toNat, ∃ a : BitVec 32, s.initialized = true ∧ outIsNull = false ∧
      s.used i = false ∧ a.toNat = 4096 * i ∧
      (∀ j, s.nextSearchFrame.toNat ≤ j → j < s.totalFrames.toNat → s.used j = false →
        s.nextSearchFrame.toNat ≤ i ∧ i ≤ j) ∧
      (pmmAllocateFrame outIsNull s).1 = some a ∧
      PmmTaken skipped s i (pmmAllocateFrame outIsNull s).2) := by
  have hTotal := hs.counts.total_le
  rcases pmmAllocateFrame_cases s outIsNull with ⟨hNone, hFull⟩ |
    ⟨frame, hInit, hOut, hTracked, hFree, hFirst, hSome⟩
  · exact Or.inl ⟨hNone, fun hInit hOut => hFull hInit hOut hs.next_le⟩
  · have hLt := hTracked hs.next_le
    refine Or.inr ⟨frame.toNat, hLt, frame * pmmFrameSize, hInit, hOut, hFree,
      pmmFrameAddress_toNat (by omega), hFirst, ?_, ?_⟩
    · rw [hSome]
    · rw [hSome]
      exact pmmTakeFrame_taken hs.counts ⟨hLt, by omega⟩

/-- Every call of a client keeps the allocator consistent. -/
theorem PmmStep.consistent {s t : PmmState} {event : PmmEvent} (hStep : PmmStep s event t)
    (hs : PmmConsistent skipped s) : PmmConsistent skipped t := by
  cases hStep with
  | allocateFrame outIsNull =>
      rcases hs.allocateFrame outIsNull with ⟨hNone, -⟩ | ⟨i, hi, a, -, -, -, -, -, -, hTaken⟩
      · rw [hNone]
        exact hs
      · exact hTaken.consistent hi hs
  | freeFrame physicalAddress =>
      rcases pmmFreeFrame_cases hs.counts physicalAddress with ⟨hSame, -⟩ |
        ⟨i, -, -, -, -, -, hGiven⟩
      · rw [hSame]
        exact hs
      · exact hGiven.consistent hs

/-- So does every call at all, another initialization included. -/
theorem PmmLifecycle.consistent {s t : PmmState} {call : PmmCall} (hStep : PmmLifecycle s call t)
    (hs : PmmConsistent skipped s) : PmmConsistent skipped t := by
  cases hStep with
  | pmmInitialize image m memory multibootInfoAddress =>
      have h := pmmInitialize_consistent image m memory multibootInfoAddress s
      rw [hs.counts.suppressed] at h
      exact h
  | client hClient => exact hClient.consistent hs

/-- In every state between calls the counters count the bits of the usage
bitmap, allocated frames are used, and no update was ever suppressed. -/
theorem pmm_accounting_of_run {calls : List PmmCall} {t : PmmState}
    (run : TransitionSystem.Run PmmLifecycle PmmState.boot calls t) :
    t.totalFrames.toNat ≤ 2 ^ 20 ∧
    t.freeFrames.toNat = Nat.count (fun i => t.used i = false) t.totalFrames.toNat ∧
    t.usedFrames.toNat = Nat.count (fun i => t.used i = true) t.totalFrames.toNat ∧
    t.freeFrames.toNat + t.usedFrames.toNat = t.totalFrames.toNat ∧
    (∀ i < t.totalFrames.toNat, t.allocated i = true → t.used i = true) ∧
    t.nextSearchFrame.toNat ≤ t.totalFrames.toNat ∧
    t.suppressedUpdates = 0 := by
  have h : PmmConsistent 0 t :=
    run.invariant (PmmConsistent 0) pmmConsistent_boot fun s call u hs hStep => hStep.consistent hs
  have hFree := h.counts.free_eq
  simp only [Bool.not_eq_true] at hFree
  exact ⟨h.counts.total_le, hFree, h.counts.used_eq, h.counts.free_add_used, h.allocated_used,
    h.next_le, h.counts.suppressed⟩

/-- A kernel linked at 1 MiB with its heap and bitmaps inside the image. -/
def exampleKernelImage : KernelImage where
  kernelStart := 0x100000#32
  kernelEnd := 0x300000#32
  kernelHeapStart := 0x200000#32
  kernelHeapEnd := 0x300000#32
  pmmBitmap := 0x120000#32
  pmmAllocatedBitmap := 0x140000#32

theorem pmm_accounting_of_run_boot :
    let m := (memoryInitialize overlappingBootMemory 0x9000#32 memoryResetSummary).2
    let s := (pmmInitialize exampleKernelImage m overlappingBootMemory 0x9000#32 .boot).2
    let t := (pmmFreeFrame 0x400000#32 (pmmAllocateFrame false s).2).2
    t.freeFrames.toNat + t.usedFrames.toNat = t.totalFrames.toNat ∧ t.suppressedUpdates = 0 := by
  intro m s t
  have run : TransitionSystem.Run PmmLifecycle PmmState.boot _ t :=
    ((TransitionSystem.Run.nil.snoc
      (.pmmInitialize _ exampleKernelImage m overlappingBootMemory 0x9000#32)).snoc
      (.client (.allocateFrame s false))).snoc (.client (.freeFrame _ 0x400000#32))
  obtain ⟨-, -, -, hSum, -, -, hSkipped⟩ := pmm_accounting_of_run run
  exact ⟨hSum, hSkipped⟩

end WigOSX
