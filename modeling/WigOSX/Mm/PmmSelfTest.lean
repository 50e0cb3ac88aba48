import WigOSX.Mm.PmmFirstFit

/-! Allocating a frame and freeing it again. Two allocator states that differ
in the search hint alone answer every later request alike, and the self-test
of the kernel moves from a state to such a twin. -/
namespace WigOSX

variable {skipped : Nat}

section Requests

/-- What a client can ask the allocator for. -/
inductive PmmRequest where
  | allocateFrame (outIsNull : Bool)
  | freeFrame (physicalAddress : BitVec 32)
  | isFrameUsed (physicalAddress : BitVec 32)
  | getTotalFrameCount
  | getFreeFrameCount
  | getUsedFrameCount

inductive PmmReply where
  | address (result : Option (BitVec 32))
  | flag (result : Bool)
  | count (result : BitVec 32)

def pmmServe : PmmRequest → PmmState → PmmReply × PmmState
  | .allocateFrame outIsNull, s =>
      (.address (pmmAllocateFrame outIsNull s).1, (pmmAllocateFrame outIsNull s).2)
  | .freeFrame physicalAddress, s =>
      (.flag (pmmFreeFrame physicalAddress s).1, (pmmFreeFrame physicalAddress s).2)
  | .isFrameUsed physicalAddress, s => (.flag (pmmIsFrameUsed s physicalAddress), s)
  | .getTotalFrameCount, s => (.count (pmmGetTotalFrameCount s), s)
  | .getFreeFrameCount, s => (.count (pmmGetFreeFrameCount s), s)
  | .getUsedFrameCount, s => (.count (pmmGetUsedFrameCount s), s)

end Requests

section Twins

/-- The second state is the first one up to the search hint. -/
structure PmmTwin (skipped : Nat) (s t : PmmState) : Prop where
  left : PmmHinted skipped s
  right : PmmHinted skipped t
  alike : t = { s with nextSearchFrame := t.nextSearchFrame }

/-- The counters are a function of the usage bits. -/
theorem PmmCounts.counters_eq {s t : PmmState} (hs : PmmCounts skipped s) (ht : PmmCounts skipped t)
    (hUsed : t.used = s.used) (hTotal : t.totalFrames = s.totalFrames) :
    t.freeFrames = s.freeFrames ∧ t.usedFrames = s.usedFrames := by
  constructor
  · rw [← BitVec.toNat_inj, ht.free_eq, hs.free_eq, hUsed, hTotal]
  · rw [← BitVec.toNat_inj, ht.used_eq, hs.used_eq, hUsed, hTotal]

/-- Equal bits make twins. -/
theorem PmmHinted.twin {s t : PmmState} (hs : PmmHinted skipped s) (ht : PmmHinted skipped t)
    (hTotal : t.totalFrames = s.totalFrames) (hUsed : ∀ i, t.used i = true ↔ s.used i = true)
    (hAllocated : ∀ i, t.allocated i = true ↔ s.allocated i = true) : PmmTwin skipped s t := by
  refine ⟨hs, ht, ?_⟩
  have hBits : t.used = s.used := funext fun i => Bool.eq_iff_iff.mpr (hUsed i)
  have hBitmap : t.bitmap = s.bitmap := WordBitmap.ext (by decide) fun i => congrFun hBits i
  have hOwners : t.allocatedBitmap = s.allocatedBitmap :=
    WordBitmap.ext (by decide) fun i => Bool.eq_iff_iff.mpr (hAllocated i)
  obtain ⟨hFree, hUsedFrames⟩ := hs.consistent.counts.counters_eq ht.consistent.counts hBits hTotal
  have hInit := ht.initialized.trans hs.initialized.symm
  have hSkipped := ht.consistent.counts.suppressed.trans hs.consistent.counts.suppressed.symm
  cases s
  cases t
  simp_all

namespace PmmTwin

variable {s t : PmmState}

theorem total (h : PmmTwin skipped s t) : t.totalFrames = s.totalFrames := by
  rw [h.alike]

theorem used (h : PmmTwin skipped s t) (i : Nat) : t.used i = s.used i := by
  rw [h.alike]
  rfl

theorem allocated (h : PmmTwin skipped s t) (i : Nat) : t.allocated i = s.allocated i := by
  rw [h.alike]
  rfl

/-- The plain scan reads the usage bits only. -/
theorem scan_eq (h : PmmTwin skipped s t) :
    pmmFindFreeFrame t 0#32 t.totalFrames = pmmFindFreeFrame s 0#32 s.totalFrames := by
  rw [h.alike]
  rfl

theorem allocateFrame (h : PmmTwin skipped s t) (outIsNull : Bool) :
    (pmmAllocateFrame outIsNull t).1 = (pmmAllocateFrame outIsNull s).1 ∧
      PmmTwin skipped (pmmAllocateFrame outIsNull s).2 (pmmAllocateFrame outIsNull t).2 := by
  cases outIsNull with
  | true =>
      have hNull : ∀ u : PmmState, pmmAllocateFrame true u = (none, u) := by
        intro u
        simp [pmmAllocateFrame]
      rw [hNull, hNull]
      exact ⟨rfl, h⟩
  | false =>
      have hLeft := (PmmStep.allocateFrame s false).hinted h.left
      have hRight := (PmmStep.allocateFrame t false).hinted h.right
      rw [h.left.allocateFrame_eq] at hLeft ⊢
      rw [h.right.allocateFrame_eq, h.scan_eq] at hRight ⊢
      rcases h.left.plain_scan with ⟨hNone, -⟩ | ⟨frame, hSome, -, hTracked, -, -⟩
      · rw [hNone]
        exact ⟨rfl, h⟩
      · rw [hSome] at hLeft hRight ⊢
        have hTotal := h.left.consistent.counts.total_le
        have hValid : s.Valid frame.toNat := ⟨hTracked, by omega⟩
        have hValid' : t.Valid frame.toNat := by
          rw [PmmState.Valid, h.total]
          exact hValid
        have hTakenLeft := pmmTakeFrame_taken h.left.consistent.counts hValid
        have hTakenRight := pmmTakeFrame_taken h.right.consistent.counts hValid'
        refine ⟨rfl, hLeft.twin hRight ?_ (fun i => ?_) (fun i => ?_)⟩
        · exact hTakenRight.total.trans (h.total.trans hTakenLeft.total.symm)
        · rw [hTakenRight.used, hTakenLeft.used, h.used]
        · rw [hTakenRight.allocated, hTakenLeft.allocated, h.allocated]

/-- Whether a free succeeds is decided by the allocation bits alone. -/
theorem freeFrame (h : PmmTwin skipped s t) (physicalAddress : BitVec 32) :
    (pmmFreeFrame physicalAddress t).1 = (pmmFreeFrame physicalAddress s).1 ∧
      PmmTwin skipped (pmmFreeFrame physicalAddress s).2 (pmmFreeFrame physicalAddress t).2 := by
  have hLeft := (PmmStep.freeFrame s physicalAddress).hinted h.left
  have hRight := (PmmStep.freeFrame t physicalAddress).hinted h.right
  rcases pmmFreeFrame_cases h.left.consistent.counts physicalAddress with ⟨hRefused, hNone⟩ |
      ⟨i, hi, hInit, hA, hOwned, hFreed, hGiven⟩ <;>
    rcases pmmFreeFrame_cases h.right.consistent.counts physicalAddress with ⟨hRefused', hNone'⟩ |
      ⟨j, hj, hInit', hA', hOwned', hFreed', hGiven'⟩
  · rw [hRefused, hRefused']
    exact ⟨rfl, h⟩
  · rw [h.total] at hj
    rw [h.allocated, hNone j hj h.left.initialized hA'] at hOwned'
    exact Bool.noConfusion hOwned'
  · rw [← h.total] at hi
    rw [← h.allocated, hNone' i hi h.right.initialized hA] at hOwned
    exact Bool.noConfusion hOwned
  · obtain rfl : j = i := by omega
    refine ⟨hFreed'.trans hFreed.symm, hLeft.twin hRight ?_ (fun k => ?_) (fun k => ?_)⟩
    · exact hGiven'.total.trans (h.total.trans hGiven.total.symm)
    · rw [hGiven'.used, hGiven.used, h.used]
    · rw [hGiven'.allocated, hGiven.allocated, h.allocated]

/-- Twins answer every request alike and stay twins. -/
theorem serve (h : PmmTwin skipped s t) (request : PmmRequest) :
    (pmmServe request t).1 = (pmmServe request s).1 ∧
      PmmTwin skipped (pmmServe request s).2 (pmmServe request t).2 := by
  cases request with
  | allocateFrame outIsNull =>
      obtain ⟨hReply, hNext⟩ := h.allocateFrame outIsNull
      exact ⟨congrArg PmmReply.address hReply, hNext⟩
  | freeFrame physicalAddress =>
      obtain ⟨hReply, hNext⟩ := h.freeFrame physicalAddress
      exact ⟨congrArg PmmReply.flag hReply, hNext⟩
  | isFrameUsed physicalAddress =>
      refine ⟨congrArg PmmReply.flag ?_, h⟩
      rw [h.alike]
      rfl
  | getTotalFrameCount => exact ⟨congrArg PmmReply.count h.total, h⟩
  | getFreeFrameCount =>
      refine ⟨congrArg PmmReply.count ?_, h⟩
      rw [h.alike]
      rfl
  | getUsedFrameCount =>
      refine ⟨congrArg PmmReply.count ?_, h⟩
      rw [h.alike]
      rfl

end PmmTwin
end Twins

section SelfTest

/-- Taking a free frame moves the two counters by one. -/
theorem PmmTaken.counters {s t : PmmState} {i : Nat} (h : PmmTaken skipped s i t)
    (hs : PmmCounts skipped s) (hi : i < s.totalFrames.toNat) (hFree : s.used i = false) :
    t.freeFrames = s.freeFrames - 1#32 ∧ t.usedFrames = s.usedFrames + 1#32 := by
  have hFreeCount : t.freeFrames.toNat + 1 = s.freeFrames.toNat := by
    rw [h.counts.free_eq, hs.free_eq, h.total]
    refine WordBitmap.count_remove hi (by simp [hFree]) fun j => ?_
    rw [h.used, not_or]
  have hUsedCount : t.usedFrames.toNat = s.usedFrames.toNat + 1 := by
    rw [h.counts.used_eq, hs.used_eq, h.total]
    exact WordBitmap.count_insert hi (by simp [hFree]) h.used
  have hSum := hs.free_add_used
  have hTotal := hs.total_le
  constructor
  · rw [← BitVec.toNat_inj, BitVec.toNat_sub, BitVec.toNat_ofNat]
    omega
  · rw [← BitVec.toNat_inj, BitVec.toNat_add, BitVec.toNat_ofNat]
    omega

/-- Giving a frame back right after it was taken restores all bits. -/
theorem PmmTaken.given_twin {s t u : PmmState} {i : Nat} (hs : PmmHinted skipped s)
    (hu : PmmHinted skipped u) (hTaken : PmmTaken skipped s i t) (hGiven : PmmGiven skipped t i u)
    (hi : i < s.totalFrames.toNat) (hFree : s.used i = false) : PmmTwin skipped s u := by
  have hNotOwned : ¬s.allocated i = true := by
    intro hOwned
    rw [hs.consistent.allocated_used i hi hOwned] at hFree
    exact Bool.noConfusion hFree
  refine hs.twin hu (hGiven.total.trans hTaken.total) (fun j => ?_) (fun j => ?_)
  · rw [hGiven.used, hTaken.used]
    by_cases hj : j = i
    · simp [hj, hFree]
    · simp [hj]
  · rw [hGiven.allocated, hTaken.allocated]
    by_cases hj : j = i
    · simp [hj, hNotOwned]
    · simp [hj]

/-- The self-test fails on a full allocator and changes nothing there. In all
other states it succeeds and leaves a twin behind. -/
theorem PmmHinted.runBasicSelfTest {s : PmmState} (hs : PmmHinted skipped s) :
    (pmmGetFreeFrameCount s = 0#32 ∧ pmmRunBasicSelfTest s = (false, s)) ∨
    (pmmGetFreeFrameCount s ≠ 0#32 ∧ (pmmRunBasicSelfTest s).1 = true ∧
      PmmTwin skipped s (pmmRunBasicSelfTest s).2) := by
  have hTotal := hs.consistent.counts.total_le
  rcases hs.plain_scan with ⟨hNone, hZero⟩ | ⟨frame, hSome, hPos, hTracked, hFree, -⟩
  · refine Or.inl ⟨hZero, ?_⟩
    simp only [pmmRunBasicSelfTest, hs.allocateFrame_eq, hNone]
  refine Or.inr ⟨hPos, ?_⟩
  have hAllocate := hs.allocateFrame_eq
  rw [hSome] at hAllocate
  dsimp only at hAllocate
  have hValid : s.Valid frame.toNat := ⟨hTracked, by omega⟩
  have hTaken := pmmTakeFrame_taken hs.consistent.counts hValid
  have hNext := (PmmStep.allocateFrame s false).hinted hs
  rw [hAllocate] at hNext
  generalize (pmmTakeFrame s frame).2 = t at hAllocate hTaken hNext
  obtain ⟨hFreeFrames, hUsedFrames⟩ := hTaken.counters hs.consistent.counts hTracked hFree
  have hA : (frame * pmmFrameSize).toNat = 4096 * frame.toNat := pmmFrameAddress_toNat (by omega)
  have hIndex : frame * pmmFrameSize / pmmFrameSize = frame := by
    have hSize : pmmFrameSize.toNat = 4096 := rfl
    rw [← BitVec.toNat_inj, BitVec.toNat_udiv, hA, hSize]
    omega
  have hUsed : pmmIsFrameUsed t (frame * pmmFrameSize) = true := by
    have hBit : t.used frame.toNat = true := (hTaken.used _).mpr (Or.inr rfl)
    simp only [pmmIsFrameUsed, hIndex, pmmIsFrameIndexUsed_eq, hBit, ite_self]
  have hGoneOwned : t.allocated frame.toNat = true := (hTaken.allocated _).mpr (Or.inr rfl)
  rcases pmmFreeFrame_cases hTaken.counts (frame * pmmFrameSize) with ⟨-, hRefused⟩ |
    ⟨i, -, -, hA', -, hFreed, hGiven⟩
  · rw [hRefused frame.toNat (by rw [hTaken.total]; exact hTracked) hNext.initialized hA] at hGoneOwned
    exact Bool.noConfusion hGoneOwned
  obtain rfl : i = frame.toNat := by omega
  have hLast := (PmmStep.freeFrame t (frame * pmmFrameSize)).hinted hNext
  have hTwin := hTaken.given_twin hs hLast hGiven hTracked hFree
  have hBack := hTwin.alike
  have hResult : pmmRunBasicSelfTest s = (true, (pmmFreeFrame (frame * pmmFrameSize) t).2) := by
    have hFreeBack : (pmmFreeFrame (frame * pmmFrameSize) t).2.freeFrames = s.freeFrames := by
      rw [hBack]
    have hUsedBack : (pmmFreeFrame (frame * pmmFrameSize) t).2.usedFrames = s.usedFrames := by
      rw [hBack]
    simp only [pmmRunBasicSelfTest, hAllocate, hUsed, pmmGetFreeFrameCount, pmmGetUsedFrameCount,
      hFreeFrames, hUsedFrames, hFreed, hFreeBack, hUsedBack, Bool.not_true, Bool.false_eq_true,
      ne_eq, not_true, if_false]
  rw [hResult]
  exact ⟨rfl, hTwin⟩

end SelfTest

/-- In every state that a run can reach, the self-test succeeds exactly when
a frame is free. It restores both bitmaps and all counters, and no sequence
of later requests can tell that it ran. -/
theorem pmm_self_test_of_run {image : KernelImage} {m : MemoryState} {memory : PhysicalMemory}
    {multibootInfoAddress : BitVec 32} {start s : PmmState} {events : List PmmEvent}
    (hOk : (pmmInitialize image m memory multibootInfoAddress start).1 = .ok)
    (run : TransitionSystem.Run PmmStep (pmmInitialize image m memory multibootInfoAddress start).2
      events s) :
    ((pmmRunBasicSelfTest s).1 = true ↔ 0#32 < pmmGetFreeFrameCount s) ∧
    (pmmRunBasicSelfTest s).2.bitmap = s.bitmap ∧
    (pmmRunBasicSelfTest s).2.allocatedBitmap = s.allocatedBitmap ∧
    (pmmRunBasicSelfTest s).2.totalFrames = s.totalFrames ∧
    (pmmRunBasicSelfTest s).2.freeFrames = s.freeFrames ∧
    (pmmRunBasicSelfTest s).2.usedFrames = s.usedFrames ∧
    ∀ requests, TransitionSystem.replies pmmServe requests (pmmRunBasicSelfTest s).2 =
      TransitionSystem.replies pmmServe requests s := by
  have hPos : 0#32 < pmmGetFreeFrameCount s ↔ pmmGetFreeFrameCount s ≠ 0#32 := by
    rw [BitVec.lt_def, ne_eq, ← BitVec.toNat_inj, BitVec.toNat_ofNat]
    omega
  rcases (pmmHinted_of_run hOk run).runBasicSelfTest with ⟨hZero, hFail⟩ | ⟨hSome, hPass, hTwin⟩
  · rw [hFail]
    refine ⟨iff_of_false Bool.false_ne_true ?_, rfl, rfl, rfl, rfl, rfl, fun _ => rfl⟩
    rw [hPos]
    exact not_not.mpr hZero
  · refine ⟨iff_of_true hPass (hPos.mpr hSome), ?_, ?_, ?_, ?_, ?_, fun requests => ?_⟩
    · rw [hTwin.alike]
    · rw [hTwin.alike]
    · rw [hTwin.alike]
    · rw [hTwin.alike]
    · rw [hTwin.alike]
    · exact TransitionSystem.replies_eq_of_bisimulation (PmmTwin start.suppressedUpdates)
        (fun _ _ h request => h.serve request) requests hTwin

/-- After boot on the map of `overlappingBootMemory` and one allocation. -/
theorem pmm_self_test_of_run_boot :
    let start := (pmmInitialize exampleKernelImage overlappingMap overlappingBootMemory
      0x9000#32 .boot).2
    let s := (pmmAllocateFrame false start).2
    (pmmRunBasicSelfTest s).2.bitmap = s.bitmap := by
  intro start s
  have hOk : (pmmInitialize exampleKernelImage overlappingMap overlappingBootMemory
      0x9000#32 .boot).1 = .ok :=
    overlappingMap_ok (i := 768) (by decide) (by decide) (by decide)
  exact (pmm_self_test_of_run hOk (.single (.allocateFrame start false))).2.1

end WigOSX
