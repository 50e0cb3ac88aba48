import WigOSX.Library.CountedLoop
import WigOSX.Machine.PhysicalMemory

/-! Stores to physical memory. A word read back at the address it was stored
to is that word, and a store leaves every word alone that does not overlap
it. -/
namespace WigOSX
namespace PhysicalMemory

/-- A little-endian store of one word. -/
def writeUint32 (memory : PhysicalMemory) (address word : BitVec 32) : PhysicalMemory := fun a =>
  if (a - address).toNat < 4 then word.extractLsb' (8 * (a - address).toNat) 8 else memory a

/-- The words at the two addresses share no byte. -/
def Apart (a b : BitVec 32) : Prop := 4 ≤ (a - b).toNat ∧ 4 ≤ (b - a).toNat

variable {memory other : PhysicalMemory} {a b word : BitVec 32}

theorem Apart.symm (h : Apart a b) : Apart b a := ⟨h.2, h.1⟩

/-- A word is its four bytes. -/
theorem readUint32_congr (h : ∀ k < 4, other (a + BitVec.ofNat 32 k) = memory (a + BitVec.ofNat 32 k)) :
    other.readUint32 a = memory.readUint32 a := by
  have hFirst := h 0 (by omega)
  rw [BitVec.add_zero] at hFirst
  rw [readUint32, readUint32, hFirst, h 1 (by omega), h 2 (by omega), h 3 (by omega)]

theorem writeUint32_offset (memory : PhysicalMemory) (a word : BitVec 32) {k : Nat} (hk : k < 4) :
    memory.writeUint32 a word (a + BitVec.ofNat 32 k) = word.extractLsb' (8 * k) 8 := by
  have hOffset : (a + BitVec.ofNat 32 k - a).toNat = k := by
    rw [BitVec.add_comm, BitVec.add_sub_cancel, BitVec.toNat_ofNat]
    omega
  rw [writeUint32, hOffset, if_pos hk]

@[simp] theorem readUint32_writeUint32 (memory : PhysicalMemory) (a word : BitVec 32) :
    (memory.writeUint32 a word).readUint32 a = word := by
  have hFirst := writeUint32_offset memory a word (k := 0) (by omega)
  rw [BitVec.add_zero] at hFirst
  rw [readUint32, hFirst, writeUint32_offset memory a word (by omega),
    writeUint32_offset memory a word (by omega), writeUint32_offset memory a word (by omega)]
  rw [BitVec.extractLsb'_append_extractLsb'_eq_extractLsb' (by omega),
    BitVec.extractLsb'_append_extractLsb'_eq_extractLsb' (by omega),
    BitVec.extractLsb'_append_extractLsb'_eq_extractLsb' (by omega), BitVec.extractLsb'_eq_self]

/-- A store leaves the words that share no byte with it alone. -/
theorem readUint32_writeUint32_of_apart (h : Apart a b) :
    (memory.writeUint32 b word).readUint32 a = memory.readUint32 a := by
  refine readUint32_congr fun k hk => ?_
  have hOutside : ¬(a + BitVec.ofNat 32 k - b).toNat < 4 := by
    obtain ⟨hAbove, hBelow⟩ := h
    have hSum : (a + BitVec.ofNat 32 k - b).toNat = (a - b).toNat + k := by
      bv_omega
    omega
  rw [writeUint32, if_neg hOutside]

/-- Two different words at aligned addresses share no byte. -/
theorem apart_of_ne (hA : a.toNat % 4 = 0) (hB : b.toNat % 4 = 0) (hNe : a.toNat ≠ b.toNat) :
    Apart a b := by
  rw [Apart, BitVec.toNat_sub, BitVec.toNat_sub]
  omega

/-- The word at one address as the observation of a loop of stores. -/
theorem read_rounds_same {body : PhysicalMemory → Nat → PhysicalMemory} {n : Nat}
    (hSame : ∀ i < n, ∀ memory, (body memory i).readUint32 a = memory.readUint32 a)
    (memory : PhysicalMemory) : (CountedLoop.rounds body n memory).readUint32 a = memory.readUint32 a :=
  CountedLoop.observe_same (fun memory => memory.readUint32 a) hSame memory

theorem read_rounds_set {body : PhysicalMemory → Nat → PhysicalMemory} {n j : Nat} (hj : j < n)
    (hSet : ∀ memory, (body memory j).readUint32 a = word)
    (hAfter : ∀ i, j < i → i < n → ∀ memory, (body memory i).readUint32 a = memory.readUint32 a)
    (memory : PhysicalMemory) : (CountedLoop.rounds body n memory).readUint32 a = word :=
  CountedLoop.observe_set (fun memory => memory.readUint32 a) hj hSet hAfter memory

end PhysicalMemory
end WigOSX
