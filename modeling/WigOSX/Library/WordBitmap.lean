import Mathlib

/-! Bitmaps stored in fixed-width words. Bit `i` is bit `i % w` of word
`i / w`. The laws describe single-bit updates and how they move the number
of indices below a bound that satisfy a predicate. -/
namespace WordBitmap

variable {w : Nat}

def test (words : Nat → BitVec w) (i : Nat) : Bool :=
  words (i / w) &&& (1#w <<< (i % w)) != 0#w

def set (words : Nat → BitVec w) (i : Nat) : Nat → BitVec w :=
  Function.update words (i / w) (words (i / w) ||| (1#w <<< (i % w)))

def clear (words : Nat → BitVec w) (i : Nat) : Nat → BitVec w :=
  Function.update words (i / w) (words (i / w) &&& ~~~(1#w <<< (i % w)))

theorem getLsbD_mask {j k : Nat} (hj : j < w) :
    (1#w <<< k).getLsbD j = decide (j = k) := by
  simp only [BitVec.getLsbD_shiftLeft, BitVec.getLsbD_one]
  grind

/-- A one-bit mask selects exactly that bit of a word. -/
theorem and_mask_ne_zero (word : BitVec w) {k : Nat} (hk : k < w) :
    (word &&& (1#w <<< k) != 0#w) = word.getLsbD k := by
  rw [Bool.eq_iff_iff, bne_iff_ne]
  constructor
  · intro hne
    by_contra hBit
    apply hne
    apply BitVec.eq_of_getLsbD_eq
    intro j hj
    rw [BitVec.getLsbD_and, getLsbD_mask hj]
    by_cases hjk : j = k
    · subst hjk
      simp_all
    · simp [hjk]
  · intro hBit hZero
    have h := congrArg (fun v => v.getLsbD k) hZero
    simp [getLsbD_mask hk, hBit] at h

theorem test_eq_getLsbD (hw : 0 < w) (words : Nat → BitVec w) (i : Nat) :
    test words i = (words (i / w)).getLsbD (i % w) :=
  and_mask_ne_zero _ (Nat.mod_lt i hw)

/-- A bitmap is determined by its bits. -/
theorem ext (hw : 0 < w) {words others : Nat → BitVec w}
    (h : ∀ i, test others i = test words i) : others = words := by
  funext k
  apply BitVec.eq_of_getLsbD_eq
  intro j hj
  have hBit := h (w * k + j)
  have hDiv : (w * k + j) / w = k := by
    rw [Nat.mul_add_div hw, Nat.div_eq_of_lt hj, Nat.add_zero]
  have hMod : (w * k + j) % w = j := by
    rw [Nat.mul_add_mod, Nat.mod_eq_of_lt hj]
  rwa [test_eq_getLsbD hw, test_eq_getLsbD hw, hDiv, hMod] at hBit

/-- Different indices inside one word have different bit positions. -/
theorem mod_ne_of_div_eq {i j : Nat} (hne : j ≠ i) (hDiv : j / w = i / w) : j % w ≠ i % w := by
  intro hMod
  apply hne
  rw [← Nat.div_add_mod j w, ← Nat.div_add_mod i w, hDiv, hMod]

theorem test_set (hw : 0 < w) (words : Nat → BitVec w) (i j : Nat) :
    test (set words i) j = (decide (j = i) || test words j) := by
  have hj := Nat.mod_lt j hw
  rw [test_eq_getLsbD hw, test_eq_getLsbD hw, set]
  by_cases hDiv : j / w = i / w
  · rw [hDiv, Function.update_self, BitVec.getLsbD_or, getLsbD_mask hj, Bool.or_comm]
    by_cases hEq : j = i
    · simp [hEq]
    · simp [hEq, mod_ne_of_div_eq hEq hDiv]
  · have hEq : j ≠ i := fun h => hDiv (by rw [h])
    simp [Function.update_of_ne hDiv, hEq]

theorem test_clear (hw : 0 < w) (words : Nat → BitVec w) (i j : Nat) :
    test (clear words i) j = (!decide (j = i) && test words j) := by
  have hj := Nat.mod_lt j hw
  rw [test_eq_getLsbD hw, test_eq_getLsbD hw, clear]
  by_cases hDiv : j / w = i / w
  · rw [hDiv, Function.update_self, BitVec.getLsbD_and, BitVec.getLsbD_not,
      getLsbD_mask hj, Bool.and_comm]
    by_cases hEq : j = i
    · simp [hEq]
    · simp [hEq, mod_ne_of_div_eq hEq hDiv, hj]
  · have hEq : j ≠ i := fun h => hDiv (by rw [h])
    simp [Function.update_of_ne hDiv, hEq]

section Counting

variable {p q : Nat → Prop} [DecidablePred p] [DecidablePred q] {i n : Nat}

/-- Adding one index below the bound raises the count by one. -/
theorem count_insert (hi : i < n) (hp : ¬p i) (h : ∀ j, q j ↔ p j ∨ j = i) :
    Nat.count q n = Nat.count p n + 1 := by
  rw [Nat.count_eq_card_filter_range, Nat.count_eq_card_filter_range]
  have hInsert : (Finset.range n).filter q = insert i ((Finset.range n).filter p) := by
    ext j
    simp only [Finset.mem_filter, Finset.mem_range, Finset.mem_insert, h]
    grind
  rw [hInsert, Finset.card_insert_of_notMem (by simp [hp])]

/-- Removing one index below the bound lowers the count by one. -/
theorem count_remove (hi : i < n) (hp : p i) (h : ∀ j, q j ↔ p j ∧ j ≠ i) :
    Nat.count q n + 1 = Nat.count p n := by
  have hNot : ¬q i := by simp [h]
  refine (count_insert hi hNot fun j => ?_).symm
  rw [h]
  by_cases hj : j = i
  · subst hj
    simpa using hp
  · simp [hj]

/-- A predicate and its negation partition the indices below the bound. -/
theorem count_add_count_not (n : Nat) : Nat.count p n + Nat.count (fun i => ¬p i) n = n := by
  rw [Nat.count_eq_card_filter_range, Nat.count_eq_card_filter_range,
    Finset.card_filter_add_card_filter_not, Finset.card_range]

end Counting
end WordBitmap
