import WigOSX.Library.TransitionSystem
import WigOSX.Mm.PmmFrames

/-! Counters against bitmaps. The two frame counters are tied to the usage
bitmap by one invariant that every marking step preserves. Each allocator
call is then described once, and the invariant of the whole allocator follows
for every history of initializations and client calls. -/
namespace WigOSX

/-- The counters count the bits, and `skipped` guarded updates were left out
in the past. Every helper keeps the invariant with the same `skipped`. -/
structure PmmCounts (skipped : Nat) (s : PmmState) : Prop where
  total_le : s.totalFrames.toNat ≤ 2 ^ 20
  free_eq : s.freeFrames.toNat = Nat.count (fun i => ¬s.used i = true) s.totalFrames.toNat
  used_eq : s.usedFrames.toNat = Nat.count (fun i => s.used i = true) s.totalFrames.toNat
  suppressed : s.suppressedUpdates = skipped

variable {skipped : Nat}

/-- The two counters add up to the number of managed frames. -/
theorem PmmCounts.free_add_used {s : PmmState} (h : PmmCounts skipped s) :
    s.freeFrames.toNat + s.usedFrames.toNat = s.totalFrames.toNat := by
  rw [h.free_eq, h.used_eq, Nat.add_comm]
  exact WordBitmap.count_add_count_not _

/-- Marking a frame as used keeps the counters in step with the bitmap. -/
theorem PmmCounts.markFrameUsed {s : PmmState} (h : PmmCounts skipped s) (frame : BitVec 32) :
    PmmCounts skipped (pmmMarkFrameUsed s frame) := by
  rcases pmmMarkFrameUsed_cases s frame with ⟨hSame, -⟩ | ⟨hValid, hFree, hTake⟩
  · rwa [hSame]
  have hUsed : ∀ i, (pmmMarkFrameUsed s frame).used i = true ↔ s.used i = true ∨ i = frame.toNat := by
    intro i
    by_cases hEq : i = frame.toNat
    · simp [hEq, pmmMarkFrameUsed_marks.hit s frame hValid]
    · simp [hEq, pmmMarkFrameUsed_marks.miss s frame i hEq]
  have hFreeCount : Nat.count (fun i => ¬(pmmMarkFrameUsed s frame).used i = true) s.totalFrames.toNat + 1 =
      s.freeFrames.toNat := by
    rw [h.free_eq]
    refine WordBitmap.count_remove hValid.1 (by simp [hFree]) fun i => ?_
    rw [hUsed, not_or]
  have hUsedCount : Nat.count (fun i => (pmmMarkFrameUsed s frame).used i = true) s.totalFrames.toNat =
      s.usedFrames.toNat + 1 := by
    rw [h.used_eq]
    exact WordBitmap.count_insert hValid.1 (by simp [hFree]) hUsed
  -- the frame itself is still counted as free, so the guard of the decrement holds
  have hGuard : 0#32 < s.freeFrames := by
    rw [BitVec.lt_def, BitVec.toNat_ofNat]
    omega
  have hFreeFrames : (pmmMarkFrameUsed s frame).freeFrames = s.freeFrames - 1#32 := by
    rw [hTake, pmmDecrementFree, if_pos hGuard]
  have hUsedFrames : (pmmMarkFrameUsed s frame).usedFrames = s.usedFrames + 1#32 := by
    rw [hTake, pmmDecrementFree, if_pos hGuard]
  have hSuppressed : (pmmMarkFrameUsed s frame).suppressedUpdates = s.suppressedUpdates := by
    rw [hTake, pmmDecrementFree, if_pos hGuard]
  have hTotalFrames := (pmmMarkFrameUsed_marks.framed s frame).total
  have hSum := h.free_add_used
  have hTotal := h.total_le
  refine ⟨by rw [hTotalFrames]; exact hTotal, ?_, ?_, hSuppressed.trans h.suppressed⟩
  · rw [hFreeFrames, hTotalFrames, BitVec.toNat_sub, BitVec.toNat_ofNat]
    omega
  · rw [hUsedFrames, hTotalFrames, BitVec.toNat_add, BitVec.toNat_ofNat]
    omega

theorem PmmCounts.markFrameFree {s : PmmState} (h : PmmCounts skipped s) (frame : BitVec 32) :
    PmmCounts skipped (pmmMarkFrameFree s frame) := by
  rcases pmmMarkFrameFree_cases s frame with ⟨hSame, -⟩ | ⟨hValid, hTaken, hGive⟩
  · rwa [hSame]
  have hUsed : ∀ i, (pmmMarkFrameFree s frame).used i = true ↔ s.used i = true ∧ i ≠ frame.toNat := by
    intro i
    by_cases hEq : i = frame.toNat
    · simp [hEq, pmmMarkFrameFree_marks.hit s frame hValid]
    · simp [hEq, pmmMarkFrameFree_marks.miss s frame i hEq]
  have hFreeCount : Nat.count (fun i => ¬(pmmMarkFrameFree s frame).used i = true) s.totalFrames.toNat =
      s.freeFrames.toNat + 1 := by
    rw [h.free_eq]
    refine WordBitmap.count_insert hValid.1 (by simp [hTaken]) fun i => ?_
    rw [hUsed, not_and_or, not_not]
  have hUsedCount : Nat.count (fun i => (pmmMarkFrameFree s frame).used i = true) s.totalFrames.toNat + 1 =
      s.usedFrames.toNat := by
    rw [h.used_eq]
    exact WordBitmap.count_remove hValid.1 hTaken hUsed
  have hGuard : 0#32 < s.usedFrames := by
    rw [BitVec.lt_def, BitVec.toNat_ofNat]
    omega
  have hFreeFrames : (pmmMarkFrameFree s frame).freeFrames = s.freeFrames + 1#32 := by
    rw [hGive, pmmDecrementUsed, if_pos hGuard]
  have hUsedFrames : (pmmMarkFrameFree s frame).usedFrames = s.usedFrames - 1#32 := by
    rw [hGive, pmmDecrementUsed, if_pos hGuard]
  have hSuppressed : (pmmMarkFrameFree s frame).suppressedUpdates = s.suppressedUpdates := by
    rw [hGive, pmmDecrementUsed, if_pos hGuard]
  have hTotalFrames := (pmmMarkFrameFree_marks.framed s frame).total
  have hSum := h.free_add_used
  have hTotal := h.total_le
  refine ⟨by rw [hTotalFrames]; exact hTotal, ?_, ?_, hSuppressed.trans h.suppressed⟩
  · rw [hFreeFrames, hTotalFrames, BitVec.toNat_add, BitVec.toNat_ofNat]
    omega
  · rw [hUsedFrames, hTotalFrames, BitVec.toNat_sub, BitVec.toNat_ofNat]
    omega

/-- A range keeps the counters in step, since each of its frames does. -/
theorem PmmCounts.markRangeUsed {s : PmmState} (h : PmmCounts skipped s) (base length : BitVec 64) :
    PmmCounts skipped (pmmMarkRangeUsed s base length) :=
  pmmMarkRange_induction (PmmCounts skipped) (fun _ frame hCounts => hCounts.markFrameUsed frame) h _ _

theorem PmmCounts.markRangeFree {s : PmmState} (h : PmmCounts skipped s) (base length : BitVec 64) :
    PmmCounts skipped (pmmMarkRangeFree s base length) :=
  pmmMarkRange_induction (PmmCounts skipped) (fun _ frame hCounts => hCounts.markFrameFree frame) h _ _

section Scan

/-- A scan returns the first free frame of its interval, if there is one. -/
theorem pmmFindFreeFrame_eq_some {s : PmmState} {first last frame : BitVec 32}
    (h : pmmFindFreeFrame s first last = some frame) :
    first.toNat ≤ frame.toNat ∧ frame.toNat < last.toNat ∧ s.used frame.toNat = false ∧
      ∀ i, first.toNat ≤ i → i < frame.toNat → s.used i = true := by
  rw [pmmFindFreeFrame, List.find?_map, Option.map_eq_some_iff] at h
  obtain ⟨i, hFind, rfl⟩ := h
  rw [List.find?_range'_eq_some] at hFind
  obtain ⟨hFree, hMem, hBefore⟩ := hFind
  rw [List.mem_range'_1] at hMem
  have hLast := last.isLt
  have hToNat : ∀ j, j ≤ i → (BitVec.ofNat 32 j).toNat = j := by
    intro j hj
    rw [BitVec.toNat_ofNat, Nat.mod_eq_of_lt (by omega)]
  have hi := hToNat i (Nat.le_refl i)
  simp only [Function.comp_apply, pmmIsFrameIndexUsed_eq, hi] at hFree
  refine ⟨by omega, by omega, ?_, ?_⟩
  · rw [hi]
    simpa using hFree
  · intro j hFirst hLt
    rw [hi] at hLt
    have hUsed := hBefore j hFirst hLt
    simp only [Function.comp_apply, pmmIsFrameIndexUsed_eq, hToNat j (by omega)] at hUsed
    simpa using hUsed

/-- A search that finds nothing has passed over used frames only. -/
theorem pmmFindFreeFrame_eq_none {s : PmmState} {first last : BitVec 32}
    (h : pmmFindFreeFrame s first last = none) {i : Nat} (hFirst : first.toNat ≤ i)
    (hLast : i < last.toNat) : s.used i = true := by
  have hBound := last.isLt
  have hMem : BitVec.ofNat 32 i ∈
      (List.range' first.toNat (last.toNat - first.toNat)).map (BitVec.ofNat 32) := by
    refine List.mem_map_of_mem ?_
    rw [List.mem_range'_1]
    omega
  have hNot := List.find?_eq_none.mp h _ hMem
  rw [pmmIsFrameIndexUsed_eq, BitVec.toNat_ofNat, Nat.mod_eq_of_lt (by omega)] at hNot
  simpa using hNot

end Scan

section Calls

/-- The state after frame `i` was handed out. -/
structure PmmTaken (skipped : Nat) (s : PmmState) (i : Nat) (t : PmmState) : Prop where
  used : ∀ j, t.used j = true ↔ s.used j = true ∨ j = i
  allocated : ∀ j, t.allocated j = true ↔ s.allocated j = true ∨ j = i
  total : t.totalFrames = s.totalFrames
  initialized : t.initialized = s.initialized
  next : t.nextSearchFrame.toNat = i + 1
  counts : PmmCounts skipped t

/-- The state after frame `i` was given back. -/
structure PmmGiven (skipped : Nat) (s : PmmState) (i : Nat) (t : PmmState) : Prop where
  used : ∀ j, t.used j = true ↔ s.used j = true ∧ j ≠ i
  allocated : ∀ j, t.allocated j = true ↔ s.allocated j = true ∧ j ≠ i
  total : t.totalFrames = s.totalFrames
  initialized : t.initialized = s.initialized
  next : t.nextSearchFrame.toNat = min s.nextSearchFrame.toNat i
  counts : PmmCounts skipped t

/-- The ownership helpers change one bit of the allocation bitmap. -/
theorem pmmMarkFrameAllocated_eq {s : PmmState} {frame : BitVec 32} (h : s.Valid frame.toNat) :
    pmmMarkFrameAllocated s frame =
      { s with allocatedBitmap := pmmOrWord s.allocatedBitmap frame } := by
  rw [pmmMarkFrameAllocated, if_pos ((pmmIsValidFrameIndex_iff s frame).mpr h)]

theorem pmmMarkFrameUnallocated_eq {s : PmmState} {frame : BitVec 32} (h : s.Valid frame.toNat) :
    pmmMarkFrameUnallocated s frame =
      { s with allocatedBitmap := pmmAndNotWord s.allocatedBitmap frame } := by
  rw [pmmMarkFrameUnallocated, if_pos ((pmmIsValidFrameIndex_iff s frame).mpr h)]

/-- The counters do not depend on ownership or the search hint. -/
theorem PmmCounts.congr {s t : PmmState} (h : PmmCounts skipped s) (hBitmap : t.bitmap = s.bitmap)
    (hTotal : t.totalFrames = s.totalFrames) (hFree : t.freeFrames = s.freeFrames)
    (hUsed : t.usedFrames = s.usedFrames) (hSuppressed : t.suppressedUpdates = s.suppressedUpdates) :
    PmmCounts skipped t := by
  have hBits : t.used = s.used := by
    funext i
    rw [PmmState.used, PmmState.used, hBitmap]
  refine ⟨?_, ?_, ?_, ?_⟩
  · rw [hTotal]
    exact h.total_le
  · rw [hFree, hTotal, hBits]
    exact h.free_eq
  · rw [hUsed, hTotal, hBits]
    exact h.used_eq
  · rw [hSuppressed]
    exact h.suppressed

/-- Taking a frame marks it in both bitmaps and moves the hint behind it. -/
theorem pmmTakeFrame_taken {s : PmmState} (h : PmmCounts skipped s) {frame : BitVec 32}
    (hValid : s.Valid frame.toNat) :
    PmmTaken skipped s frame.toNat (pmmTakeFrame s frame).2 := by
  have hFramed := pmmMarkFrameUsed_marks.framed s frame
  have hCounts := h.markFrameUsed frame
  have hValid' : (pmmMarkFrameUsed s frame).Valid frame.toNat := by
    rw [PmmState.Valid, hFramed.total]
    exact hValid
  have hState : (pmmTakeFrame s frame).2 =
      { pmmMarkFrameUsed s frame with
        allocatedBitmap := pmmOrWord s.allocatedBitmap frame
        nextSearchFrame := frame + 1#32 } := by
    simp only [pmmTakeFrame, pmmMarkFrameAllocated_eq hValid', hFramed.allocatedBitmap]
  rw [hState]
  refine ⟨fun j => ?_, fun j => ?_, hFramed.total, hFramed.initialized, ?_,
    hCounts.congr rfl rfl rfl rfl rfl⟩
  · show (pmmMarkFrameUsed s frame).used j = true ↔ _
    by_cases hEq : j = frame.toNat
    · simp [hEq, pmmMarkFrameUsed_marks.hit s frame hValid]
    · simp [hEq, pmmMarkFrameUsed_marks.miss s frame j hEq]
  · rw [PmmState.allocated, test_pmmOrWord]
    simp [PmmState.allocated, or_comm]
  · show (frame + 1#32).toNat = _
    have hSmall := hValid.2
    rw [BitVec.toNat_add, BitVec.toNat_ofNat]
    omega

/-- Freeing a valid frame clears both of its bits and lowers the search hint
to it if the hint was above. -/
theorem pmmGiveFrame_given {s : PmmState} (h : PmmCounts skipped s) {frame : BitVec 32}
    (hValid : s.Valid frame.toNat) : PmmGiven skipped s frame.toNat (pmmGiveFrame s frame) := by
  have hOwner := pmmMarkFrameUnallocated_eq hValid
  simp only [pmmGiveFrame]
  generalize pmmMarkFrameUnallocated s frame = u at hOwner ⊢
  have hFramed := pmmMarkFrameFree_marks.framed u frame
  have hCounts : PmmCounts skipped (pmmMarkFrameFree u frame) := by
    refine PmmCounts.markFrameFree (h.congr ?_ ?_ ?_ ?_ ?_) frame
    all_goals rw [hOwner]
  have hTotal : (pmmMarkFrameFree u frame).totalFrames = s.totalFrames := by
    rw [hFramed.total, hOwner]
  have hInit : (pmmMarkFrameFree u frame).initialized = s.initialized := by
    rw [hFramed.initialized, hOwner]
  have hNext : (pmmMarkFrameFree u frame).nextSearchFrame = s.nextSearchFrame := by
    rw [hFramed.next, hOwner]
  have hUsed : ∀ j, (pmmMarkFrameFree u frame).used j = true ↔ s.used j = true ∧ j ≠ frame.toNat := by
    intro j
    by_cases hEq : j = frame.toNat
    · rw [hEq, pmmMarkFrameFree_marks.hit u frame (by rw [hOwner]; exact hValid)]
      simp
    · rw [pmmMarkFrameFree_marks.miss u frame j hEq, hOwner]
      simp [hEq, PmmState.used]
  have hAllocated : ∀ j, (pmmMarkFrameFree u frame).allocated j = true ↔
      s.allocated j = true ∧ j ≠ frame.toNat := by
    intro j
    rw [PmmState.allocated, hFramed.allocatedBitmap, hOwner, test_pmmAndNotWord]
    simp [PmmState.allocated, and_comm]
  split_ifs with hLower
  · rw [hNext, BitVec.lt_def] at hLower
    refine ⟨hUsed, hAllocated, hTotal, hInit, ?_, hCounts.congr rfl rfl rfl rfl rfl⟩
    show frame.toNat = _
    omega
  · rw [hNext, BitVec.lt_def] at hLower
    refine ⟨hUsed, hAllocated, hTotal, hInit, ?_, hCounts⟩
    rw [hNext]
    omega

/-- The address of a frame below 4 GiB is its index times the frame size. -/
theorem pmmFrameAddress_toNat {frame : BitVec 32} (h : frame.toNat < 2 ^ 20) :
    (frame * pmmFrameSize).toNat = 4096 * frame.toNat := by
  have hSize : pmmFrameSize.toNat = 4096 := rfl
  rw [BitVec.toNat_mul, hSize]
  omega

/-- Allocation either leaves the state alone, because it may not or cannot
succeed, or takes the frame its two scans find first. -/
theorem pmmAllocateFrame_cases (s : PmmState) (outIsNull : Bool) :
    (pmmAllocateFrame outIsNull s = (none, s) ∧
      (s.initialized = true → outIsNull = false → s.nextSearchFrame.toNat ≤ s.totalFrames.toNat →
        ∀ i < s.totalFrames.toNat, s.used i = true)) ∨
    (∃ frame : BitVec 32, s.initialized = true ∧ outIsNull = false ∧
      (s.nextSearchFrame.toNat ≤ s.totalFrames.toNat → frame.toNat < s.totalFrames.toNat) ∧
      s.used frame.toNat = false ∧
      (∀ i, s.nextSearchFrame.toNat ≤ i → i < s.totalFrames.toNat → s.used i = false →
        s.nextSearchFrame.toNat ≤ frame.toNat ∧ frame.toNat ≤ i) ∧
      pmmAllocateFrame outIsNull s =
        (some (frame * pmmFrameSize), (pmmTakeFrame s frame).2)) := by
  unfold pmmAllocateFrame
  cases hInit : s.initialized with
  | false => exact Or.inl ⟨rfl, by simp⟩
  | true =>
      cases outIsNull with
      | true => exact Or.inl ⟨rfl, by simp⟩
      | false =>
          cases hFirst : pmmFindFreeFrame s s.nextSearchFrame s.totalFrames with
          | some frame =>
              obtain ⟨hFrom, hTo, hFree, hBefore⟩ := pmmFindFreeFrame_eq_some hFirst
              refine Or.inr ⟨frame, rfl, rfl, fun _ => hTo, hFree, ?_, rfl⟩
              intro i hi _ hFreeI
              refine ⟨hFrom, ?_⟩
              by_contra hLt
              rw [hBefore i hi (by omega)] at hFreeI
              exact Bool.noConfusion hFreeI
          | none =>
              have hAbove := fun i => pmmFindFreeFrame_eq_none (i := i) hFirst
              cases hSecond : pmmFindFreeFrame s 0#32 s.nextSearchFrame with
              | some frame =>
                  obtain ⟨-, hTo, hFree, -⟩ := pmmFindFreeFrame_eq_some hSecond
                  refine Or.inr ⟨frame, rfl, rfl, fun hNext => by omega, hFree, ?_, rfl⟩
                  intro i hi hLt hFreeI
                  rw [hAbove i hi hLt] at hFreeI
                  exact Bool.noConfusion hFreeI
              | none =>
                  refine Or.inl ⟨rfl, fun _ _ _ i hi => ?_⟩
                  by_cases hNext : s.nextSearchFrame.toNat ≤ i
                  · exact hAbove i hNext hi
                  · exact pmmFindFreeFrame_eq_none hSecond (Nat.zero_le i) (by omega)

/-- Freeing succeeds exactly on the address of an allocated tracked frame. -/
theorem pmmFreeFrame_cases {s : PmmState} (h : PmmCounts skipped s) (physicalAddress : BitVec 32) :
    (pmmFreeFrame physicalAddress s = (false, s) ∧
      ∀ i < s.totalFrames.toNat, s.initialized = true → physicalAddress.toNat = 4096 * i →
        s.allocated i = false) ∨
    (∃ i < s.totalFrames.toNat, s.initialized = true ∧ physicalAddress.toNat = 4096 * i ∧
      s.allocated i = true ∧ (pmmFreeFrame physicalAddress s).1 = true ∧
      PmmGiven skipped s i (pmmFreeFrame physicalAddress s).2) := by
  have hMod : (physicalAddress % pmmFrameSize).toNat = physicalAddress.toNat % 4096 := by
    rw [BitVec.toNat_umod]
    rfl
  have hDiv : (physicalAddress / pmmFrameSize).toNat = physicalAddress.toNat / 4096 := by
    rw [BitVec.toNat_udiv]
    rfl
  have hTotal := h.total_le
  unfold pmmFreeFrame
  cases hInit : s.initialized with
  | false => exact Or.inl ⟨rfl, by simp⟩
  | true =>
      by_cases hAligned : physicalAddress % pmmFrameSize = 0#32
      swap
      · refine Or.inl ⟨by simp [hAligned], fun i _ _ hEq => ?_⟩
        rw [← BitVec.toNat_inj, hMod, BitVec.toNat_ofNat] at hAligned
        omega
      have hAddress : physicalAddress.toNat = 4096 * (physicalAddress / pmmFrameSize).toNat := by
        rw [← BitVec.toNat_inj, hMod, BitVec.toNat_ofNat] at hAligned
        omega
      cases hValid : pmmIsValidFrameIndex s (physicalAddress / pmmFrameSize) with
      | false =>
          refine Or.inl ⟨by simp [hAligned, hValid], fun i hi _ hEq => ?_⟩
          have hIndex : (physicalAddress / pmmFrameSize).toNat = i := by omega
          rw [Bool.eq_false_iff, ne_eq, pmmIsValidFrameIndex_iff, hIndex] at hValid
          exact absurd ⟨hi, by omega⟩ hValid
      | true =>
          rw [pmmIsValidFrameIndex_iff] at hValid
          cases hAllocated : pmmIsFrameAllocated s (physicalAddress / pmmFrameSize) with
          | false =>
              refine Or.inl ⟨?_, fun i hi _ hEq => ?_⟩
              · simp [hAligned, (pmmIsValidFrameIndex_iff _ _).mpr hValid, hAllocated]
              · have hIndex : (physicalAddress / pmmFrameSize).toNat = i := by omega
                rw [pmmIsFrameAllocated_eq, hIndex] at hAllocated
                exact hAllocated
          | true =>
              refine Or.inr ⟨_, hValid.1, rfl, hAddress, ?_, ?_⟩
              · rw [← pmmIsFrameAllocated_eq, hAllocated]
              · simp only [hAligned, (pmmIsValidFrameIndex_iff _ _).mpr hValid, hAllocated]
                exact ⟨rfl, pmmGiveFrame_given h hValid⟩

end Calls
end WigOSX
