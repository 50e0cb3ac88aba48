import Mathlib

/-! The limits of the fixed-width C types, shared by the overflow guards. -/
namespace WigOSX

/-- `UINT32_MAX`. -/
def uint32Max : BitVec 32 := 0xFFFFFFFF#32

/-- `UINT64_MAX`. -/
def uint64Max : BitVec 64 := 0xFFFFFFFFFFFFFFFF#64

/-- `if (counter != UINT32_MAX) counter++;` -/
def incrementSaturating (counter : BitVec 32) : BitVec 32 :=
  if counter ≠ uint32Max then counter + 1#32 else counter

/-- A saturating counter counts exactly up to its limit. -/
theorem incrementSaturating_toNat {counter : BitVec 32} {n : Nat}
    (h : counter.toNat = min n (2 ^ 32 - 1)) :
    (incrementSaturating counter).toNat = min (n + 1) (2 ^ 32 - 1) := by
  have hMax : uint32Max.toNat = 2 ^ 32 - 1 := rfl
  rw [incrementSaturating]
  split_ifs with hBelow
  · rw [ne_eq, ← BitVec.toNat_inj, hMax] at hBelow
    rw [BitVec.toNat_add, BitVec.toNat_ofNat]
    omega
  · rw [ne_eq, not_not, ← BitVec.toNat_inj, hMax] at hBelow
    omega

end WigOSX
