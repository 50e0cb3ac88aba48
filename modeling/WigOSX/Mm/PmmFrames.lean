import WigOSX.Library.WordBitmap
import WigOSX.Mm.Pmm

/-! What the helpers of `pmm.c` do to individual frames. Address rounding is
reduced to natural-number division, the two bitmaps to one Boolean for each
frame index, and a marked range to the frames it touches or contains. -/
namespace WigOSX

/-- The bytes of frame `i`. -/
def frameBytes (i : Nat) : Set Nat := Set.Ico (4096 * i) (4096 * (i + 1))

/-- The bytes of `[base, base + length)`. -/
def byteRange (base length : Nat) : Set Nat := Set.Ico base (base + length)

/-- A frame misses a nonempty range of bytes when it ends at or below the
range, or starts at or above its end. -/
theorem disjoint_frameBytes_iff {i base length : Nat} (hLength : 0 < length) :
    Disjoint (frameBytes i) (byteRange base length) ↔
      4096 * (i + 1) ≤ base ∨ base + length ≤ 4096 * i := by
  rw [frameBytes, byteRange, Set.Ico_disjoint_Ico]
  omega

/-- A frame lies in a range of bytes when both of its ends do. -/
theorem frameBytes_subset_iff {i base length : Nat} :
    frameBytes i ⊆ byteRange base length ↔ base ≤ 4096 * i ∧ 4096 * (i + 1) ≤ base + length := by
  rw [frameBytes, byteRange, Set.Ico_subset_Ico_iff (by omega)]

section Rounding

theorem toNat_setWidth_64 (v : BitVec 32) : (v.setWidth 64).toNat = v.toNat := by
  have hv := v.isLt
  rw [BitVec.toNat_setWidth]
  omega

/-- Clearing the twelve low bits rounds down to a multiple of 4096. -/
theorem toNat_and_not_mask (v : BitVec 64) :
    (v &&& ~~~(pmmFrameSizeU64 - 1#64)).toNat = v.toNat / 4096 * 4096 := by
  have hMask : v &&& ~~~(pmmFrameSizeU64 - 1#64) = (v >>> 12) <<< 12 := by
    apply BitVec.eq_of_getLsbD_eq
    intro i hi
    have hBit : (~~~(pmmFrameSizeU64 - 1#64)).getLsbD i = decide (12 ≤ i) := by
      revert i
      decide
    rw [BitVec.getLsbD_and, hBit, BitVec.getLsbD_shiftLeft, BitVec.getLsbD_ushiftRight]
    by_cases h12 : 12 ≤ i
    · have hNot : ¬i < 12 := by omega
      simp [h12, hi, hNot]
    · have hLt : i < 12 := by omega
      simp [h12, hLt]
  have hv := v.isLt
  rw [hMask, BitVec.toNat_shiftLeft, BitVec.toNat_ushiftRight, Nat.shiftRight_eq_div_pow,
    Nat.shiftLeft_eq, Nat.mod_eq_of_lt (by omega)]

/-- `pmm_align_down` goes to the start of the frame that holds the address. -/
@[simp] theorem pmmAlignDown_toNat (v : BitVec 64) :
    (pmmAlignDown v).toNat = v.toNat / 4096 * 4096 :=
  toNat_and_not_mask v

/-- The test by mask asks whether the address is a multiple of the frame size. -/
theorem and_mask_eq_zero_iff (v : BitVec 64) :
    v &&& (pmmFrameSizeU64 - 1#64) = 0#64 ↔ v.toNat % 4096 = 0 := by
  have hLow : (v &&& (pmmFrameSizeU64 - 1#64)).toNat = v.toNat % 4096 := by
    rw [BitVec.toNat_and]
    exact Nat.and_two_pow_sub_one_eq_mod _ 12
  rw [← BitVec.toNat_inj, hLow, BitVec.toNat_ofNat, Nat.zero_mod]

/-- Rounding up saturates at the last frame boundary below `2 ^ 64`. -/
@[simp] theorem pmmAlignUp_toNat (v : BitVec 64) :
    (pmmAlignUp v).toNat = min ((v.toNat + 4095) / 4096 * 4096) (2 ^ 64 - 4096) := by
  have hv := v.isLt
  have hLimit : (uint64Max - (pmmFrameSizeU64 - 1#64)).toNat = 2 ^ 64 - 4096 := by decide
  have hTop : (uint64Max &&& ~~~(pmmFrameSizeU64 - 1#64)).toNat = 2 ^ 64 - 4096 := by decide
  have hMask : (pmmFrameSizeU64 - 1#64).toNat = 4095 := by decide
  simp only [pmmAlignUp]
  by_cases hZero : v &&& (pmmFrameSizeU64 - 1#64) = 0#64
  · rw [if_pos hZero]
    rw [and_mask_eq_zero_iff] at hZero
    omega
  · rw [if_neg hZero]
    rw [and_mask_eq_zero_iff] at hZero
    by_cases hHigh : uint64Max - (pmmFrameSizeU64 - 1#64) < v
    · rw [if_pos hHigh, hTop]
      rw [BitVec.lt_def, hLimit] at hHigh
      omega
    · rw [if_neg hHigh, toNat_and_not_mask, BitVec.toNat_add, hMask]
      rw [BitVec.lt_def, hLimit] at hHigh
      omega

/-- The end of a range is its sum where that fits 64 bits, and the largest
address where it does not. -/
@[simp] theorem pmmRangeEnd_toNat (base length : BitVec 64) :
    (pmmRangeEnd base length).toNat = min (base.toNat + length.toNat) (2 ^ 64 - 1) := by
  have hMax : uint64Max.toNat = 2 ^ 64 - 1 := by decide
  have hSub : (uint64Max - length).toNat = 2 ^ 64 - 1 - length.toNat := by
    rw [BitVec.toNat_sub, hMax]
    have hLength := length.isLt
    omega
  have hBase := base.isLt
  rw [pmmRangeEnd]
  by_cases hSaturate : uint64Max - length < base
  · rw [if_pos hSaturate, hMax]
    rw [BitVec.lt_def, hSub] at hSaturate
    omega
  · rw [if_neg hSaturate, BitVec.toNat_add]
    rw [BitVec.lt_def, hSub] at hSaturate
    omega

theorem toNat_div_frameSize (v : BitVec 64) : (v / pmmFrameSizeU64).toNat = v.toNat / 4096 := by
  rw [BitVec.toNat_udiv]
  rfl

/-- Below the 4 GiB limit the outward-rounded frame interval of a nonempty
range is exactly the set of frames it touches. -/
theorem touched_iff {base length : BitVec 64} {i : Nat} (hLength : 0 < length.toNat)
    (hi : i < 2 ^ 20) :
    (pmmAlignDown base / pmmFrameSizeU64).toNat ≤ i ∧
        i < (pmmAlignUp (pmmRangeEnd base length) / pmmFrameSizeU64).toNat ↔
      ¬Disjoint (frameBytes i) (byteRange base.toNat length.toNat) := by
  rw [disjoint_frameBytes_iff hLength, toNat_div_frameSize, toNat_div_frameSize,
    pmmAlignDown_toNat, pmmAlignUp_toNat, pmmRangeEnd_toNat]
  have hBase := base.isLt
  omega

/-- The inward-rounded frame interval is the set of frames it contains. -/
theorem contained_iff {base length : BitVec 64} {i : Nat} (hi : i < 2 ^ 20) :
    (pmmAlignUp base / pmmFrameSizeU64).toNat ≤ i ∧
        i < (pmmAlignDown (pmmRangeEnd base length) / pmmFrameSizeU64).toNat ↔
      frameBytes i ⊆ byteRange base.toNat length.toNat := by
  rw [frameBytes_subset_iff, toNat_div_frameSize, toNat_div_frameSize,
    pmmAlignDown_toNat, pmmAlignUp_toNat, pmmRangeEnd_toNat]
  have hBase := base.isLt
  omega

end Rounding

namespace PmmState

/-- The usage bit of frame `i`. -/
def used (s : PmmState) (i : Nat) : Bool := WordBitmap.test s.bitmap i

/-- The allocation bit of frame `i`. -/
def allocated (s : PmmState) (i : Nat) : Bool := WordBitmap.test s.allocatedBitmap i

/-- A valid index is tracked and fits the bitmaps. -/
def Valid (s : PmmState) (i : Nat) : Prop := i < s.totalFrames.toNat ∧ i < 2 ^ 20

end PmmState

section Bits

theorem pmmBitmapWordIndex_eq (frame : BitVec 32) : pmmBitmapWordIndex frame = frame.toNat / 32 := by
  rw [pmmBitmapWordIndex, BitVec.toNat_udiv]
  rfl

theorem pmmBitmapBitMask_eq (frame : BitVec 32) :
    pmmBitmapBitMask frame = 1#32 <<< (frame.toNat % 32) := by
  have hMod : (frame % pmmBitsPerWord).toNat = frame.toNat % 32 := by
    rw [BitVec.toNat_umod]
    rfl
  rw [pmmBitmapBitMask, BitVec.shiftLeft_eq', hMod]

/-- The check by word and mask reads the frame's bit in the bitmap of used
frames. -/
theorem pmmIsFrameIndexUsed_eq (s : PmmState) (frame : BitVec 32) :
    pmmIsFrameIndexUsed s frame = s.used frame.toNat := by
  rw [pmmIsFrameIndexUsed, pmmBitmapWordIndex_eq, pmmBitmapBitMask_eq]
  rfl

/-- The same check on the bitmap of frames that were handed out. -/
theorem pmmIsFrameAllocated_eq (s : PmmState) (frame : BitVec 32) :
    pmmIsFrameAllocated s frame = s.allocated frame.toNat := by
  rw [pmmIsFrameAllocated, pmmBitmapWordIndex_eq, pmmBitmapBitMask_eq]
  rfl

/-- Setting a bit through its word sets that bit and keeps every other one. -/
theorem test_pmmOrWord (bitmap : Nat → BitVec 32) (frame : BitVec 32) (i : Nat) :
    WordBitmap.test (pmmOrWord bitmap frame) i =
      (decide (i = frame.toNat) || WordBitmap.test bitmap i) := by
  rw [pmmOrWord, pmmBitmapWordIndex_eq, pmmBitmapBitMask_eq]
  exact WordBitmap.test_set (by decide) bitmap frame.toNat i

/-- Clearing a bit through its word clears that bit and keeps every other one. -/
theorem test_pmmAndNotWord (bitmap : Nat → BitVec 32) (frame : BitVec 32) (i : Nat) :
    WordBitmap.test (pmmAndNotWord bitmap frame) i =
      (!decide (i = frame.toNat) && WordBitmap.test bitmap i) := by
  rw [pmmAndNotWord, pmmBitmapWordIndex_eq, pmmBitmapBitMask_eq]
  exact WordBitmap.test_clear (by decide) bitmap frame.toNat i

theorem pmmMaxFrames_toNat : pmmMaxFrames.toNat = 2 ^ 20 := by decide

/-- The bounds check of an index is that the frame is one of those under
management. -/
theorem pmmIsValidFrameIndex_iff (s : PmmState) (frame : BitVec 32) :
    pmmIsValidFrameIndex s frame = true ↔ s.Valid frame.toNat := by
  unfold PmmState.Valid
  rw [pmmIsValidFrameIndex, Bool.and_eq_true, decide_eq_true_iff, decide_eq_true_iff,
    BitVec.lt_def, BitVec.lt_def, pmmMaxFrames_toNat]

end Bits

section Marking

/-- The marking helpers leave everything but the usage bitmap and the two
counters alone. -/
structure PmmFramed (s t : PmmState) : Prop where
  total : t.totalFrames = s.totalFrames
  allocatedBitmap : t.allocatedBitmap = s.allocatedBitmap
  initialized : t.initialized = s.initialized
  next : t.nextSearchFrame = s.nextSearchFrame

theorem PmmFramed.refl (s : PmmState) : PmmFramed s s := ⟨rfl, rfl, rfl, rfl⟩

/-- Two steps that each keep the frame conditions keep them together. -/
theorem PmmFramed.trans {s t u : PmmState} (h : PmmFramed s t) (h' : PmmFramed t u) :
    PmmFramed s u :=
  ⟨h'.total.trans h.total, h'.allocatedBitmap.trans h.allocatedBitmap,
    h'.initialized.trans h.initialized, h'.next.trans h.next⟩

/-- Decrementing the counter of free frames keeps the frame conditions and the
bitmap, also when the update is suppressed. -/
theorem pmmDecrementFree_framed (s : PmmState) :
    PmmFramed s (pmmDecrementFree s) ∧ (pmmDecrementFree s).bitmap = s.bitmap := by
  unfold pmmDecrementFree
  split_ifs <;> exact ⟨⟨rfl, rfl, rfl, rfl⟩, rfl⟩

theorem pmmDecrementUsed_framed (s : PmmState) :
    PmmFramed s (pmmDecrementUsed s) ∧ (pmmDecrementUsed s).bitmap = s.bitmap := by
  unfold pmmDecrementUsed
  split_ifs <;> exact ⟨⟨rfl, rfl, rfl, rfl⟩, rfl⟩

/-- Marking a frame used either changes nothing or takes a valid free frame. -/
theorem pmmMarkFrameUsed_cases (s : PmmState) (frame : BitVec 32) :
    (pmmMarkFrameUsed s frame = s ∧ (s.Valid frame.toNat → s.used frame.toNat = true)) ∨
    (s.Valid frame.toNat ∧ s.used frame.toNat = false ∧
      pmmMarkFrameUsed s frame =
        let t := pmmDecrementFree { s with bitmap := pmmOrWord s.bitmap frame }
        { t with usedFrames := t.usedFrames + 1#32 }) := by
  rw [pmmMarkFrameUsed, ← pmmIsValidFrameIndex_iff, ← pmmIsFrameIndexUsed_eq]
  cases hValid : pmmIsValidFrameIndex s frame with
  | false => exact Or.inl ⟨rfl, by simp⟩
  | true =>
      cases hUsed : pmmIsFrameIndexUsed s frame with
      | true => exact Or.inl ⟨rfl, fun _ => rfl⟩
      | false => exact Or.inr ⟨rfl, rfl, rfl⟩

/-- Marking a frame free either changes nothing or gives back a valid used
frame. -/
theorem pmmMarkFrameFree_cases (s : PmmState) (frame : BitVec 32) :
    (pmmMarkFrameFree s frame = s ∧ (s.Valid frame.toNat → s.used frame.toNat = false)) ∨
    (s.Valid frame.toNat ∧ s.used frame.toNat = true ∧
      pmmMarkFrameFree s frame = pmmDecrementUsed
        { s with bitmap := pmmAndNotWord s.bitmap frame, freeFrames := s.freeFrames + 1#32 }) := by
  rw [pmmMarkFrameFree, ← pmmIsValidFrameIndex_iff, ← pmmIsFrameIndexUsed_eq]
  cases hValid : pmmIsValidFrameIndex s frame with
  | false => exact Or.inl ⟨rfl, by simp⟩
  | true =>
      cases hUsed : pmmIsFrameIndexUsed s frame with
      | false => exact Or.inl ⟨rfl, fun _ => rfl⟩
      | true => exact Or.inr ⟨rfl, rfl, rfl⟩

/-- A marking helper writes one value into the usage bits of valid frames. -/
structure PmmMarks (value : Bool) (mark : PmmState → BitVec 32 → PmmState) : Prop where
  framed : ∀ s frame, PmmFramed s (mark s frame)
  hit : ∀ s frame, s.Valid frame.toNat → (mark s frame).used frame.toNat = value
  miss : ∀ s frame i, i ≠ frame.toNat → (mark s frame).used i = s.used i

/-- `pmm_mark_frame_used` sets the bit of its frame and moves the counters
with it. -/
theorem pmmMarkFrameUsed_marks : PmmMarks true pmmMarkFrameUsed where
  framed := by
    intro s frame
    rcases pmmMarkFrameUsed_cases s frame with ⟨hSame, -⟩ | ⟨-, -, hTake⟩
    · rw [hSame]
      exact .refl s
    · rw [hTake]
      have h := (pmmDecrementFree_framed { s with bitmap := pmmOrWord s.bitmap frame }).1
      exact ⟨h.total, h.allocatedBitmap, h.initialized, h.next⟩
  hit := by
    intro s frame hValid
    rcases pmmMarkFrameUsed_cases s frame with ⟨hSame, hUsed⟩ | ⟨-, -, hTake⟩
    · rw [hSame, hUsed hValid]
    · rw [hTake, PmmState.used, (pmmDecrementFree_framed _).2, test_pmmOrWord]
      simp
  miss := by
    intro s frame i hNe
    rcases pmmMarkFrameUsed_cases s frame with ⟨hSame, -⟩ | ⟨-, -, hTake⟩
    · rw [hSame]
    · rw [hTake, PmmState.used, (pmmDecrementFree_framed _).2, test_pmmOrWord]
      simp [hNe, PmmState.used]

theorem pmmMarkFrameFree_marks : PmmMarks false pmmMarkFrameFree where
  framed := by
    intro s frame
    rcases pmmMarkFrameFree_cases s frame with ⟨hSame, -⟩ | ⟨-, -, hGive⟩
    · rw [hSame]
      exact .refl s
    · rw [hGive]
      have h := (pmmDecrementUsed_framed
        { s with bitmap := pmmAndNotWord s.bitmap frame, freeFrames := s.freeFrames + 1#32 }).1
      exact ⟨h.total, h.allocatedBitmap, h.initialized, h.next⟩
  hit := by
    intro s frame hValid
    rcases pmmMarkFrameFree_cases s frame with ⟨hSame, hFree⟩ | ⟨-, -, hGive⟩
    · rw [hSame, hFree hValid]
    · rw [hGive, PmmState.used, (pmmDecrementUsed_framed _).2, test_pmmAndNotWord]
      simp
  miss := by
    intro s frame i hNe
    rcases pmmMarkFrameFree_cases s frame with ⟨hSame, -⟩ | ⟨-, -, hGive⟩
    · rw [hSame]
    · rw [hGive, PmmState.used, (pmmDecrementUsed_framed _).2, test_pmmAndNotWord]
      simp [hNe, PmmState.used]

/-- What one marking step preserves, marking a whole range preserves. -/
theorem pmmMarkRange_induction {mark : PmmState → BitVec 32 → PmmState} (inv : PmmState → Prop)
    (hMark : ∀ s frame, inv s → inv (mark s frame)) {s : PmmState} (h : inv s)
    (firstFrame lastFrame : BitVec 64) : inv (pmmMarkRange mark s firstFrame lastFrame) := by
  have hFold : ∀ (frames : List Nat) (s : PmmState), inv s →
      inv (frames.foldl (fun s frame => mark s (BitVec.ofNat 32 frame)) s) := by
    intro frames
    induction frames with
    | nil => exact fun _ h => h
    | cons frame rest ih => exact fun s h => ih _ (hMark s _ h)
  simp only [pmmMarkRange, pmmForFrames]
  split_ifs
  · exact h
  · exact hFold _ s h
  · exact hFold _ s h

namespace PmmMarks

variable {value : Bool} {mark : PmmState → BitVec 32 → PmmState} (hMark : PmmMarks value mark)
include hMark

/-- A loop over frames keeps what each of its steps keeps. -/
theorem range_framed (s : PmmState) (firstFrame lastFrame : BitVec 64) :
    PmmFramed s (pmmMarkRange mark s firstFrame lastFrame) :=
  pmmMarkRange_induction (PmmFramed s) (fun t frame h => h.trans (hMark.framed t frame))
    (.refl s) firstFrame lastFrame

/-- Marking a list of valid frames writes the bits of its members. -/
theorem frames_used (frames : List Nat) (s : PmmState)
    (hValid : ∀ frame ∈ frames, s.Valid frame) (i : Nat) :
    (i ∈ frames →
      (frames.foldl (fun s frame => mark s (BitVec.ofNat 32 frame)) s).used i = value) ∧
    (i ∉ frames →
      (frames.foldl (fun s frame => mark s (BitVec.ofNat 32 frame)) s).used i = s.used i) := by
  induction frames generalizing s with
  | nil => exact ⟨fun h => absurd h List.not_mem_nil, fun _ => rfl⟩
  | cons frame rest ih =>
      have hHead := hValid frame List.mem_cons_self
      have hFrame : (BitVec.ofNat 32 frame).toNat = frame := by
        rw [BitVec.toNat_ofNat, Nat.mod_eq_of_lt (by have := hHead.2; omega)]
      have hTotal := (hMark.framed s (BitVec.ofNat 32 frame)).total
      have hRest : ∀ f ∈ rest, (mark s (BitVec.ofNat 32 frame)).Valid f := by
        intro f hf
        rw [PmmState.Valid, hTotal]
        exact hValid f (List.mem_cons_of_mem _ hf)
      obtain ⟨hIn, hOut⟩ := ih (mark s (BitVec.ofNat 32 frame)) hRest
      have hMiss : i ≠ frame → (mark s (BitVec.ofNat 32 frame)).used i = s.used i := by
        intro hNe
        exact hMark.miss s _ i (by rwa [hFrame])
      have hHit : (mark s (BitVec.ofNat 32 frame)).used frame = value := by
        have h := hMark.hit s (BitVec.ofNat 32 frame) (by rwa [hFrame])
        rwa [hFrame] at h
      rw [List.foldl_cons, List.mem_cons]
      refine ⟨?_, ?_⟩
      · rintro hMem
        by_cases hRestMem : i ∈ rest
        · exact hIn hRestMem
        · rw [hOut hRestMem, hMem.resolve_right hRestMem, hHit]
      · intro hNot
        rw [not_or] at hNot
        rw [hOut hNot.2, hMiss hNot.1]

/-- On tracked frames, marking a range writes the bits between its bounds. -/
theorem range_used {s : PmmState} (hTotal : s.totalFrames.toNat ≤ 2 ^ 20)
    (firstFrame lastFrame : BitVec 64) {i : Nat} (hi : i < s.totalFrames.toNat) :
    (firstFrame.toNat ≤ i ∧ i < lastFrame.toNat →
      (pmmMarkRange mark s firstFrame lastFrame).used i = value) ∧
    (¬(firstFrame.toNat ≤ i ∧ i < lastFrame.toNat) →
      (pmmMarkRange mark s firstFrame lastFrame).used i = s.used i) := by
  have hWide := toNat_setWidth_64 s.totalFrames
  have hLoop : ∀ last : BitVec 64, last.toNat ≤ s.totalFrames.toNat →
      (firstFrame.toNat ≤ i ∧ i < last.toNat →
        (pmmForFrames mark s firstFrame last).used i = value) ∧
      (¬(firstFrame.toNat ≤ i ∧ i < last.toNat) →
        (pmmForFrames mark s firstFrame last).used i = s.used i) := by
    intro last hLast
    have h := hMark.frames_used (List.range' firstFrame.toNat (last.toNat - firstFrame.toNat)) s
      (by
        intro frame hMem
        rw [List.mem_range'_1] at hMem
        exact ⟨by omega, by omega⟩) i
    rw [List.mem_range'_1] at h
    exact ⟨fun hIn => h.1 (by omega), fun hOut => h.2 (by omega)⟩
  simp only [pmmMarkRange]
  split_ifs with hOutside hClamp
  · rw [BitVec.le_def, hWide] at hOutside
    exact ⟨fun hIn => by omega, fun _ => rfl⟩
  · rw [BitVec.lt_def, hWide] at hClamp
    have h := hLoop (s.totalFrames.setWidth 64) (by omega)
    rw [hWide] at h
    exact ⟨fun hIn => h.1 ⟨hIn.1, hi⟩, fun hOut => h.2 (by omega)⟩
  · rw [BitVec.lt_def, hWide] at hClamp
    exact hLoop lastFrame (by omega)

end PmmMarks

/-- Reserving a nonempty range sets the bits of the frames it touches. -/
theorem pmmMarkRangeUsed_used {s : PmmState} (hTotal : s.totalFrames.toNat ≤ 2 ^ 20)
    {base length : BitVec 64} (hLength : 0 < length.toNat) {i : Nat}
    (hi : i < s.totalFrames.toNat) :
    (pmmMarkRangeUsed s base length).used i = true ↔
      s.used i = true ∨ ¬Disjoint (frameBytes i) (byteRange base.toNat length.toNat) := by
  have h := pmmMarkFrameUsed_marks.range_used hTotal
    (pmmAlignDown base / pmmFrameSizeU64) (pmmAlignUp (pmmRangeEnd base length) / pmmFrameSizeU64) hi
  rw [touched_iff hLength (by omega)] at h
  by_cases hTouch : Disjoint (frameBytes i) (byteRange base.toNat length.toNat)
  · rw [pmmMarkRangeUsed, h.2 (not_not.mpr hTouch)]
    simp [hTouch]
  · rw [pmmMarkRangeUsed, h.1 hTouch]
    simp [hTouch]

/-- Releasing a range clears the bits of the frames it contains. -/
theorem pmmMarkRangeFree_used {s : PmmState} (hTotal : s.totalFrames.toNat ≤ 2 ^ 20)
    {base length : BitVec 64} {i : Nat} (hi : i < s.totalFrames.toNat) :
    (pmmMarkRangeFree s base length).used i = false ↔
      s.used i = false ∨ frameBytes i ⊆ byteRange base.toNat length.toNat := by
  have h := pmmMarkFrameFree_marks.range_used hTotal
    (pmmAlignUp base / pmmFrameSizeU64) (pmmAlignDown (pmmRangeEnd base length) / pmmFrameSizeU64) hi
  rw [contained_iff (by omega)] at h
  by_cases hInside : frameBytes i ⊆ byteRange base.toNat length.toNat
  · rw [pmmMarkRangeFree, h.1 hInside]
    simp [hInside]
  · rw [pmmMarkRangeFree, h.2 hInside]
    simp [hInside]

/-- Marking a range of bytes as used touches bits and counters only. -/
theorem pmmMarkRangeUsed_framed (s : PmmState) (base length : BitVec 64) :
    PmmFramed s (pmmMarkRangeUsed s base length) :=
  pmmMarkFrameUsed_marks.range_framed s _ _

/-- Marking a range of bytes as free touches bits and counters only. -/
theorem pmmMarkRangeFree_framed (s : PmmState) (base length : BitVec 64) :
    PmmFramed s (pmmMarkRangeFree s base length) :=
  pmmMarkFrameFree_marks.range_framed s _ _

end Marking
end WigOSX
