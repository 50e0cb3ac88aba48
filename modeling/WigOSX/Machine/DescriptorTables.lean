import WigOSX.Machine.I386

/-! The descriptor tables of `gdt.c` and `idt.c`, stored field by field, and
how the processor reads them. Segments are flat and the low memory is mapped
to itself, so the processor finds the tables at the addresses the kernel gave
it. -/
namespace WigOSX

namespace PhysicalMemory

/-- A store of one byte. -/
def writeUint8 (memory : PhysicalMemory) (address : BitVec 32) (byte : BitVec 8) : PhysicalMemory :=
  Function.update memory address byte

/-- A little-endian store of a half word. -/
def writeUint16 (memory : PhysicalMemory) (address : BitVec 32) (word : BitVec 16) : PhysicalMemory :=
  (memory.writeUint8 address (word.extractLsb' 0 8)).writeUint8 (address + 1#32) (word.extractLsb' 8 8)

def readUint16 (memory : PhysicalMemory) (address : BitVec 32) : BitVec 16 :=
  memory (address + 1#32) ++ memory address

/-- The byte is not one of the `size` bytes from `address` on. -/
def Outside (x address : BitVec 32) (size : Nat) : Prop := size ≤ (x - address).toNat

/-- The regions share no byte. -/
def SharesNoByte (a : BitVec 32) (n : Nat) (b : BitVec 32) (m : Nat) : Prop :=
  ∀ j < n, Outside (a + BitVec.ofNat 32 j) b m

end PhysicalMemory

open PhysicalMemory (Outside SharesNoByte)

section Gdt

/-- Where the linker puts the static variables of `gdt.c` and `idt.c`. -/
structure DescriptorImage where
  gdtEntries : BitVec 32
  gdtPtr : BitVec 32
  idtEntries : BitVec 32
  idtPtr : BitVec 32
  gdt_ptr : SharesNoByte gdtPtr 6 gdtEntries 24
  idt_ptr : SharesNoByte idtPtr 6 idtEntries 2048
  gdt_idt : SharesNoByte gdtEntries 24 idtEntries 2048
  gdt_idt_ptr : SharesNoByte gdtEntries 24 idtPtr 6

/-- What `lgdt` and `lidt` load. -/
structure DescriptorRegister where
  limit : BitVec 16
  base : BitVec 32
deriving DecidableEq

/-- `lgdt` and `lidt` with the address of `struct gdt_pointer` or
`struct idt_pointer`. -/
def DescriptorRegister.load (memory : PhysicalMemory) (address : BitVec 32) : DescriptorRegister where
  limit := memory.readUint16 address
  base := memory.readUint32 (address + 2#32)

def gdtEntryCount : BitVec 32 := 3#32
def gdtDescriptorSize : BitVec 32 := 8#32
def gdtNullIndex : BitVec 32 := 0#32
def gdtKernelCodeIndex : BitVec 32 := 1#32
def gdtKernelDataIndex : BitVec 32 := 2#32
def gdtFlatBase : BitVec 32 := 0x00000000#32
def gdtFlatLimit : BitVec 32 := 0xFFFFF#32
def gdtAccessPresent : BitVec 8 := 0x80#8
def gdtAccessRing0 : BitVec 8 := 0x00#8
def gdtAccessDescriptor : BitVec 8 := 0x10#8
def gdtAccessExecutable : BitVec 8 := 0x08#8
def gdtAccessReadableWritable : BitVec 8 := 0x02#8

def gdtAccessKernelCode : BitVec 8 :=
  gdtAccessPresent ||| gdtAccessRing0 ||| gdtAccessDescriptor ||| gdtAccessExecutable |||
    gdtAccessReadableWritable

def gdtAccessKernelData : BitVec 8 :=
  gdtAccessPresent ||| gdtAccessRing0 ||| gdtAccessDescriptor ||| gdtAccessReadableWritable

def gdtGranularity4k : BitVec 8 := 0x80#8
def gdtGranularity32bit : BitVec 8 := 0x40#8

/-- `GDT_GRANULARITY_4K_32BIT`. -/
def gdtGranularity4k32bit : BitVec 8 := gdtGranularity4k ||| gdtGranularity32bit

/-- `&gdt_entries[index]`, and the same for the other table. -/
def descriptorAddress (table index : BitVec 32) : BitVec 32 := table + 8#32 * index

def gdtSetEntry (image : DescriptorImage) (index base limit : BitVec 32) (access granularity : BitVec 8)
    (memory : PhysicalMemory) : PhysicalMemory :=
  let entry := descriptorAddress image.gdtEntries index
  let memory := memory.writeUint16 (entry + 2#32) ((base &&& 0xFFFF#32).setWidth 16)
  let memory := memory.writeUint8 (entry + 4#32) (((base >>> 16) &&& 0xFF#32).setWidth 8)
  let memory := memory.writeUint8 (entry + 7#32) (((base >>> 24) &&& 0xFF#32).setWidth 8)
  let memory := memory.writeUint16 entry ((limit &&& 0xFFFF#32).setWidth 16)
  let memory := memory.writeUint8 (entry + 6#32) (((limit >>> 16) &&& 0x0F#32).setWidth 8)
  let memory := memory.writeUint8 (entry + 6#32) (memory (entry + 6#32) ||| (granularity &&& 0xF0#8))
  memory.writeUint8 (entry + 5#32) access

/-- The stores to `gdt_ptr`. -/
def gdtSetPointer (image : DescriptorImage) (memory : PhysicalMemory) : PhysicalMemory :=
  (memory.writeUint16 image.gdtPtr ((gdtEntryCount * gdtDescriptorSize - 1#32).setWidth 16)).writeUint32
    (image.gdtPtr + 2#32) image.gdtEntries

/-- `gdt_initialize` up to `gdt_flush`, and what that loads into the register. -/
def gdtInitialize (image : DescriptorImage) (memory : PhysicalMemory) : PhysicalMemory × DescriptorRegister :=
  let memory := gdtSetPointer image memory
  let memory := gdtSetEntry image gdtNullIndex 0#32 0#32 0#8 0#8 memory
  let memory := gdtSetEntry image gdtKernelCodeIndex gdtFlatBase gdtFlatLimit gdtAccessKernelCode
    gdtGranularity4k32bit memory
  let memory := gdtSetEntry image gdtKernelDataIndex gdtFlatBase gdtFlatLimit gdtAccessKernelData
    gdtGranularity4k32bit memory
  (memory, .load memory image.gdtPtr)

end Gdt

section Idt

/-- The addresses of the stubs. -/
structure InterruptStubs where
  isr : Fin 32 → BitVec 32
  irq : Fin 16 → BitVec 32

def idtEntryCount : Nat := 256
def idtKernelCodeSelector : BitVec 16 := 0x08#16
def idtInterruptGateRing0 : BitVec 8 := 0x8E#8

def idtSetGate (image : DescriptorImage) (index handlerAddress : BitVec 32) (selector : BitVec 16)
    (flags : BitVec 8) (memory : PhysicalMemory) : PhysicalMemory :=
  let entry := descriptorAddress image.idtEntries index
  let memory := memory.writeUint16 entry ((handlerAddress &&& 0xFFFF#32).setWidth 16)
  let memory := memory.writeUint16 (entry + 2#32) selector
  let memory := memory.writeUint8 (entry + 4#32) 0#8
  let memory := memory.writeUint8 (entry + 5#32) flags
  memory.writeUint16 (entry + 6#32) (((handlerAddress >>> 16) &&& 0xFFFF#32).setWidth 16)

/-- Calls of `idt_set_gate` with stubs for consecutive vectors. -/
def idtInstallGates {n : Nat} [NeZero n] (image : DescriptorImage) (first : Nat) (stubs : Fin n → BitVec 32)
    (memory : PhysicalMemory) : PhysicalMemory :=
  CountedLoop.rounds (fun memory i => idtSetGate image (BitVec.ofNat 32 (first + i)) (stubs (Fin.ofNat n i))
    idtKernelCodeSelector idtInterruptGateRing0 memory) n memory

/-- The calls with `0` and `isr0` to `31` and `isr31`. -/
def idtInstallCpuExceptions (image : DescriptorImage) (stubs : InterruptStubs) :
    PhysicalMemory → PhysicalMemory :=
  idtInstallGates image 0 stubs.isr

/-- The calls with `32` and `irq0` to `47` and `irq15`. -/
def idtInstallHardwareInterrupts (image : DescriptorImage) (stubs : InterruptStubs) :
    PhysicalMemory → PhysicalMemory :=
  idtInstallGates image 32 stubs.irq

/-- The stores to `idt_ptr`. -/
def idtSetPointer (image : DescriptorImage) (memory : PhysicalMemory) : PhysicalMemory :=
  (memory.writeUint16 image.idtPtr (BitVec.ofNat 16 (8 * idtEntryCount - 1))).writeUint32
    (image.idtPtr + 2#32) image.idtEntries

/-- The loop of `idt_initialize`. -/
def idtClear (image : DescriptorImage) (memory : PhysicalMemory) : PhysicalMemory :=
  CountedLoop.rounds (fun memory i => idtSetGate image (BitVec.ofNat 32 i) 0#32 0#16 0#8 memory)
    idtEntryCount memory

/-- `idt_initialize` with what `idt_flush` loads into the register. -/
def idtInitialize (image : DescriptorImage) (stubs : InterruptStubs) (memory : PhysicalMemory) :
    PhysicalMemory × DescriptorRegister :=
  let memory := idtSetPointer image memory
  let memory := idtClear image memory
  let memory := idtInstallCpuExceptions image stubs memory
  let memory := idtInstallHardwareInterrupts image stubs memory
  (memory, .load memory image.idtPtr)

end Idt

section Processor

/-- A segment descriptor, taken apart. -/
structure SegmentDescriptor where
  base : BitVec 32
  limit : BitVec 20
  access : BitVec 8
  flags : BitVec 4
deriving DecidableEq

/-- The processor reads the descriptor at an address. -/
def SegmentDescriptor.read (memory : PhysicalMemory) (address : BitVec 32) : SegmentDescriptor where
  base := memory (address + 7#32) ++ memory (address + 4#32) ++ memory (address + 3#32) ++
    memory (address + 2#32)
  limit := (memory (address + 6#32)).extractLsb' 0 4 ++ memory (address + 1#32) ++ memory address
  access := memory (address + 5#32)
  flags := (memory (address + 6#32)).extractLsb' 4 4

/-- The last offset inside the segment. -/
def SegmentDescriptor.lastByte (d : SegmentDescriptor) : BitVec 32 :=
  if d.flags.getLsbD 3 then d.limit ++ 0xFFF#12 else d.limit.setWidth 32

/-- The descriptor that a selector loads. There is no local table, and the
null selector loads nothing. -/
def i386Segment (memory : PhysicalMemory) (gdtr : DescriptorRegister) (selector : BitVec 16) :
    Option SegmentDescriptor :=
  let index := (selector >>> 3).toNat
  if selector.getLsbD 2 ∨ index = 0 ∨ gdtr.limit.toNat < 8 * index + 7 then none
  else some (.read memory (descriptorAddress gdtr.base (BitVec.ofNat 32 index)))

/-- Where the processor goes with a vector. -/
inductive I386Delivery where
  | generalProtection
  | segmentNotPresent
  | interruptGate (selector : BitVec 16) (offset : BitVec 32)
  | otherGate
deriving DecidableEq

/-- The fields of a gate that the processor reads. -/
structure InterruptGate where
  offset : BitVec 32
  selector : BitVec 16
  flags : BitVec 8
deriving DecidableEq

def InterruptGate.read (memory : PhysicalMemory) (address : BitVec 32) : InterruptGate where
  offset := memory.readUint16 (address + 6#32) ++ memory.readUint16 address
  selector := memory.readUint16 (address + 2#32)
  flags := memory (address + 5#32)

/-- The gate decides. A type that is no gate is a general protection fault,
checked before presence. -/
def InterruptGate.deliver (gate : InterruptGate) : I386Delivery :=
  if gate.flags.extractLsb' 0 5 ∉ [0x05#5, 0x06#5, 0x07#5, 0x0E#5, 0x0F#5] then .generalProtection
  else if gate.flags.getLsbD 7 = false then .segmentNotPresent
  else if gate.flags.extractLsb' 0 5 = 0x0E#5 then .interruptGate gate.selector gate.offset
  else .otherGate

/-- Hardware interrupts and exceptions. -/
def i386Deliver (memory : PhysicalMemory) (idtr : DescriptorRegister) (vector : BitVec 8) : I386Delivery :=
  if idtr.limit.toNat < 8 * vector.toNat + 7 then .generalProtection
  else (InterruptGate.read memory (descriptorAddress idtr.base (vector.setWidth 32))).deliver

/-- A gate with the flags that the kernel uses delivers to its handler with
interrupts off. -/
theorem InterruptGate.deliver_ring0 (offset : BitVec 32) (selector : BitVec 16) :
    InterruptGate.deliver ⟨offset, selector, idtInterruptGateRing0⟩ = .interruptGate selector offset := by
  have hType : ¬idtInterruptGateRing0.extractLsb' 0 5 ∉ [0x05#5, 0x06#5, 0x07#5, 0x0E#5, 0x0F#5] := by decide
  have hPresent : ¬idtInterruptGateRing0.getLsbD 7 = false := by decide
  have hKind : idtInterruptGateRing0.extractLsb' 0 5 = 0x0E#5 := by decide
  rw [deliver, if_neg hType, if_neg hPresent, if_pos hKind]

/-- A vector whose gate was cleared raises a general protection fault instead. -/
theorem InterruptGate.deliver_empty : InterruptGate.deliver ⟨0#32, 0#16, 0#8⟩ = .generalProtection := by
  decide

end Processor

section Bytes

namespace PhysicalMemory

variable {memory : PhysicalMemory} {x entry : BitVec 32}

theorem writeUint8_same (address : BitVec 32) (byte : BitVec 8) :
    memory.writeUint8 address byte address = byte :=
  Function.update_self ..

theorem writeUint8_other {address : BitVec 32} (h : x ≠ address) (byte : BitVec 8) :
    memory.writeUint8 address byte x = memory x :=
  Function.update_of_ne h ..

/-- An address outside an entry is none of the bytes of that entry. -/
theorem Outside.ne {size : Nat} (h : Outside x entry size) {k : Nat} (hk : k < size) (hWord : k < 2 ^ 32) :
    x ≠ entry + BitVec.ofNat 32 k := by
  rintro rfl
  rw [Outside, BitVec.add_comm, BitVec.add_sub_cancel, BitVec.toNat_ofNat, Nat.mod_eq_of_lt hWord] at h
  omega

end PhysicalMemory

theorem setWidth_shift_byte (w : BitVec 32) (k : Nat) :
    ((w >>> k) &&& 0xFF#32).setWidth 8 = w.extractLsb' k 8 := by
  have hMask : (0xFF#32).setWidth 8 = BitVec.allOnes 8 := rfl
  rw [BitVec.setWidth_and, hMask, BitVec.and_allOnes]
  ext i hi
  simp

theorem setWidth_shift_half (w : BitVec 32) (k : Nat) :
    ((w >>> k) &&& 0xFFFF#32).setWidth 16 = w.extractLsb' k 16 := by
  have hMask : (0xFFFF#32).setWidth 16 = BitVec.allOnes 16 := rfl
  rw [BitVec.setWidth_and, hMask, BitVec.and_allOnes]
  ext i hi
  simp

theorem setWidth_half (w : BitVec 32) : (w &&& 0xFFFF#32).setWidth 16 = w.extractLsb' 0 16 :=
  setWidth_shift_half w 0

/-- The byte that a limit and the granularity share. -/
theorem granularity_low (limit : BitVec 32) (granularity : BitVec 8) :
    (((limit >>> 16) &&& 0x0F#32).setWidth 8 ||| granularity &&& 0xF0#8).extractLsb' 0 4 =
      limit.extractLsb' 16 4 := by
  ext i hi
  interval_cases i
  all_goals simp

/-- The flags of a granularity byte stand in its high half, so the limit bits
beside them do not matter. -/
theorem granularity_high (limit : BitVec 32) (granularity : BitVec 8) :
    (((limit >>> 16) &&& 0x0F#32).setWidth 8 ||| granularity &&& 0xF0#8).extractLsb' 4 4 =
      granularity.extractLsb' 4 4 := by
  ext i hi
  interval_cases i
  all_goals simp

variable (image : DescriptorImage) (memory : PhysicalMemory)

/-- A descriptor of the global table leaves every other byte alone. -/
theorem gdtSetEntry_outside {index base limit : BitVec 32} {access granularity : BitVec 8} {x : BitVec 32}
    (h : Outside x (descriptorAddress image.gdtEntries index) 8) :
    gdtSetEntry image index base limit access granularity memory x = memory x := by
  have hNe := fun k (hk : k < 8) => h.ne hk (by omega)
  have hFirst := hNe 0 (by decide)
  rw [BitVec.add_zero] at hFirst
  simp only [gdtSetEntry, PhysicalMemory.writeUint16, BitVec.add_assoc, BitVec.reduceAdd]
  rw [PhysicalMemory.writeUint8_other (hNe 5 (by decide)), PhysicalMemory.writeUint8_other (hNe 6 (by decide)),
    PhysicalMemory.writeUint8_other (hNe 6 (by decide)), PhysicalMemory.writeUint8_other (hNe 1 (by decide)),
    PhysicalMemory.writeUint8_other hFirst, PhysicalMemory.writeUint8_other (hNe 7 (by decide)),
    PhysicalMemory.writeUint8_other (hNe 4 (by decide)), PhysicalMemory.writeUint8_other (hNe 3 (by decide)),
    PhysicalMemory.writeUint8_other (hNe 2 (by decide))]

/-- A descriptor is read back as it was set. -/
theorem gdtSetEntry_read (index base limit : BitVec 32) (access granularity : BitVec 8) :
    SegmentDescriptor.read (gdtSetEntry image index base limit access granularity memory)
        (descriptorAddress image.gdtEntries index) =
      { base := base, limit := limit.setWidth 20, access := access, flags := granularity.extractLsb' 4 4 } := by
  have hBase : base.extractLsb' 24 8 ++ base.extractLsb' 16 8 ++ (base.extractLsb' 0 16).extractLsb' 8 8 ++
      (base.extractLsb' 0 16).extractLsb' 0 8 = base := by
    rw [BitVec.extractLsb'_extractLsb'_of_le (by decide), BitVec.extractLsb'_extractLsb'_of_le (by decide),
      BitVec.extractLsb'_append_extractLsb'_eq_extractLsb' (by decide),
      BitVec.extractLsb'_append_extractLsb'_eq_extractLsb' (by decide),
      BitVec.extractLsb'_append_extractLsb'_eq_extractLsb' (by decide), BitVec.extractLsb'_eq_self]
  have hLimit : limit.extractLsb' 16 4 ++ (limit.extractLsb' 0 16).extractLsb' 8 8 ++
      (limit.extractLsb' 0 16).extractLsb' 0 8 = limit.setWidth 20 := by
    rw [BitVec.extractLsb'_extractLsb'_of_le (by decide), BitVec.extractLsb'_extractLsb'_of_le (by decide),
      BitVec.extractLsb'_append_extractLsb'_eq_extractLsb' (by decide),
      BitVec.extractLsb'_append_extractLsb'_eq_extractLsb' (by decide), BitVec.setWidth_eq_extractLsb' (by decide)]
  simp only [SegmentDescriptor.read, gdtSetEntry, PhysicalMemory.writeUint16, PhysicalMemory.writeUint8,
    BitVec.add_assoc, BitVec.reduceAdd, Function.update_apply, BitVec.add_right_inj, add_eq_left, left_eq_add,
    BitVec.reduceEq, if_true, if_false, setWidth_shift_byte, setWidth_half, granularity_low, granularity_high,
    hBase, hLimit]

/-- What a gate reads as depends on its own eight bytes alone. -/
theorem InterruptGate.read_congr {memory other : PhysicalMemory} {address : BitVec 32}
    (h : ∀ k < 8, other (address + BitVec.ofNat 32 k) = memory (address + BitVec.ofNat 32 k)) :
    InterruptGate.read other address = InterruptGate.read memory address := by
  have hFirst := h 0 (by decide)
  rw [BitVec.add_zero] at hFirst
  simp only [InterruptGate.read, PhysicalMemory.readUint16, BitVec.add_assoc, BitVec.reduceAdd]
  rw [hFirst, h 1 (by decide), h 2 (by decide), h 3 (by decide), h 5 (by decide), h 6 (by decide),
    h 7 (by decide)]

/-- What a segment descriptor reads as depends on its own eight bytes alone. -/
theorem SegmentDescriptor.read_congr {memory other : PhysicalMemory} {address : BitVec 32}
    (h : ∀ k < 8, other (address + BitVec.ofNat 32 k) = memory (address + BitVec.ofNat 32 k)) :
    SegmentDescriptor.read other address = SegmentDescriptor.read memory address := by
  have hFirst := h 0 (by decide)
  rw [BitVec.add_zero] at hFirst
  simp only [SegmentDescriptor.read]
  rw [hFirst, h 1 (by decide), h 2 (by decide), h 3 (by decide), h 4 (by decide), h 5 (by decide),
    h 6 (by decide), h 7 (by decide)]

/-- Setting a gate writes the eight bytes of its entry and no other byte of
memory. -/
theorem idtSetGate_outside {index handlerAddress : BitVec 32} {selector : BitVec 16} {flags : BitVec 8}
    {x : BitVec 32} (h : Outside x (descriptorAddress image.idtEntries index) 8) :
    idtSetGate image index handlerAddress selector flags memory x = memory x := by
  have hNe := fun k (hk : k < 8) => h.ne hk (by omega)
  have hFirst := hNe 0 (by decide)
  rw [BitVec.add_zero] at hFirst
  simp only [idtSetGate, PhysicalMemory.writeUint16, BitVec.add_assoc, BitVec.reduceAdd]
  rw [PhysicalMemory.writeUint8_other (hNe 7 (by decide)), PhysicalMemory.writeUint8_other (hNe 6 (by decide)),
    PhysicalMemory.writeUint8_other (hNe 5 (by decide)), PhysicalMemory.writeUint8_other (hNe 4 (by decide)),
    PhysicalMemory.writeUint8_other (hNe 3 (by decide)), PhysicalMemory.writeUint8_other (hNe 2 (by decide)),
    PhysicalMemory.writeUint8_other (hNe 1 (by decide)), PhysicalMemory.writeUint8_other hFirst]

/-- A gate is read back as it was set. -/
theorem idtSetGate_read (index handlerAddress : BitVec 32) (selector : BitVec 16) (flags : BitVec 8) :
    InterruptGate.read (idtSetGate image index handlerAddress selector flags memory)
        (descriptorAddress image.idtEntries index) =
      { offset := handlerAddress, selector := selector, flags := flags } := by
  have hHalf (w : BitVec 16) : w.extractLsb' 8 8 ++ w.extractLsb' 0 8 = w := by
    rw [BitVec.extractLsb'_append_extractLsb'_eq_extractLsb' (by decide), BitVec.extractLsb'_eq_self]
  have hOffset : (handlerAddress >>> 16).extractLsb' 0 16 ++ handlerAddress.extractLsb' 0 16 = handlerAddress := by
    rw [← setWidth_half, setWidth_shift_half,
      BitVec.extractLsb'_append_extractLsb'_eq_extractLsb' (by decide), BitVec.extractLsb'_eq_self]
  simp only [InterruptGate.read, idtSetGate, PhysicalMemory.readUint16, PhysicalMemory.writeUint16,
    PhysicalMemory.writeUint8, BitVec.add_assoc, BitVec.reduceAdd, Function.update_apply, BitVec.add_right_inj,
    add_eq_left, left_eq_add, BitVec.reduceEq, if_true, if_false, setWidth_half, hHalf, hOffset]

end Bytes

section Tables

/-- The bytes of an entry of a table are not those of another. -/
theorem descriptor_outside (table : BitVec 32) {i j k : Nat} (hi : i < 256) (hj : j < 256) (hNe : i ≠ j)
    (hk : k < 8) : Outside (descriptorAddress table (BitVec.ofNat 32 j) + BitVec.ofNat 32 k)
      (descriptorAddress table (BitVec.ofNat 32 i)) 8 := by
  rw [PhysicalMemory.Outside, descriptorAddress, descriptorAddress]
  simp only [BitVec.toNat_sub, BitVec.toNat_add, BitVec.toNat_mul, BitVec.toNat_ofNat]
  omega

/-- The bytes of an entry lie in the table. -/
theorem descriptorAddress_offset (table : BitVec 32) (i k : Nat) :
    descriptorAddress table (BitVec.ofNat 32 i) + BitVec.ofNat 32 k = table + BitVec.ofNat 32 (8 * i + k) := by
  rw [descriptorAddress, BitVec.ofNat_add, BitVec.ofNat_mul, BitVec.add_assoc]

/-- What lies outside a whole table lies outside each of its entries. -/
theorem outside_descriptor {x table : BitVec 32} {n i : Nat} (h : Outside x table (8 * n)) (hi : i < n)
    (hSize : 8 * n < 2 ^ 32) : Outside x (descriptorAddress table (BitVec.ofNat 32 i)) 8 := by
  rw [PhysicalMemory.Outside, BitVec.toNat_sub] at h ⊢
  rw [descriptorAddress]
  simp only [BitVec.toNat_add, BitVec.toNat_mul, BitVec.toNat_ofNat]
  omega

variable (image : DescriptorImage) (memory : PhysicalMemory)

/-- Setting a gate leaves every other gate of the table as it was. -/
theorem idtSetGate_other {i j : Nat} (hi : i < 256) (hj : j < 256) (hNe : i ≠ j) {handlerAddress : BitVec 32}
    {selector : BitVec 16} {flags : BitVec 8} :
    InterruptGate.read (idtSetGate image (BitVec.ofNat 32 i) handlerAddress selector flags memory)
        (descriptorAddress image.idtEntries (BitVec.ofNat 32 j)) =
      InterruptGate.read memory (descriptorAddress image.idtEntries (BitVec.ofNat 32 j)) :=
  InterruptGate.read_congr fun _ hk => idtSetGate_outside image memory (descriptor_outside _ hi hj hNe hk)

/-- Behind a run of installs the vectors in its range deliver to their stubs,
and the others are as before; by induction on the count. -/
theorem idtInstallGates_read {n : Nat} [NeZero n] {first j : Nat} (hFit : first + n ≤ 256) (hj : j < 256)
    (stubs : Fin n → BitVec 32) :
    InterruptGate.read (idtInstallGates image first stubs memory)
        (descriptorAddress image.idtEntries (BitVec.ofNat 32 j)) =
      if first ≤ j ∧ j < first + n then ⟨stubs (Fin.ofNat n (j - first)), idtKernelCodeSelector, idtInterruptGateRing0⟩
      else InterruptGate.read memory (descriptorAddress image.idtEntries (BitVec.ofNat 32 j)) := by
  by_cases hInside : first ≤ j ∧ j < first + n
  · rw [if_pos hInside]
    refine CountedLoop.observe_set (fun memory => InterruptGate.read memory
      (descriptorAddress image.idtEntries (BitVec.ofNat 32 j))) (by omega : j - first < n) ?_ ?_ memory
    · intro memory
      rw [Nat.add_sub_cancel' hInside.1]
      exact idtSetGate_read image memory _ _ _ _
    · intro i hAfter hi memory
      exact idtSetGate_other image memory (by omega) hj (by omega)
  · rw [if_neg hInside]
    refine CountedLoop.observe_same (fun memory => InterruptGate.read memory
      (descriptorAddress image.idtEntries (BitVec.ofNat 32 j))) ?_ memory
    intro i hi memory
    exact idtSetGate_other image memory (by omega) hj (by omega)

theorem idtInstallGates_outside {n : Nat} [NeZero n] {first : Nat} (hFit : first + n ≤ 256)
    (stubs : Fin n → BitVec 32) {x : BitVec 32} (h : Outside x image.idtEntries 2048) :
    idtInstallGates image first stubs memory x = memory x := by
  refine CountedLoop.observe_same (fun memory => memory x) ?_ memory
  intro i hi memory
  exact idtSetGate_outside image memory (outside_descriptor (n := 256) h (by omega) (by decide))

theorem idtClear_read {j : Nat} (hj : j < 256) :
    InterruptGate.read (idtClear image memory) (descriptorAddress image.idtEntries (BitVec.ofNat 32 j)) =
      ⟨0#32, 0#16, 0#8⟩ := by
  refine CountedLoop.observe_set (fun memory => InterruptGate.read memory
    (descriptorAddress image.idtEntries (BitVec.ofNat 32 j))) hj ?_ ?_ memory
  · exact fun memory => idtSetGate_read image memory _ _ _ _
  · exact fun i hAfter hi memory => idtSetGate_other image memory hi hj (by omega)

theorem idtClear_outside {x : BitVec 32} (h : Outside x image.idtEntries 2048) :
    idtClear image memory x = memory x := by
  refine CountedLoop.observe_same (fun memory => memory x) ?_ memory
  intro i hi memory
  exact idtSetGate_outside image memory (outside_descriptor (n := 256) h hi (by decide))

/-- A pointer structure is loaded as it was stored, when its six bytes are
left alone in between. -/
theorem DescriptorRegister.load_stored (memory : PhysicalMemory) {later : PhysicalMemory} {address base : BitVec 32}
    {limit : BitVec 16}
    (h : ∀ k < 6, later (address + BitVec.ofNat 32 k) =
      ((memory.writeUint16 address limit).writeUint32 (address + 2#32) base) (address + BitVec.ofNat 32 k)) :
    DescriptorRegister.load later address = ⟨limit, base⟩ := by
  have hLimit : later.readUint16 address = limit := by
    have hLow : ¬(address - (address + 2#32)).toNat < 4 := by bv_omega
    have hHigh : ¬(address + 1#32 - (address + 2#32)).toNat < 4 := by bv_omega
    have hFirst := h 0 (by decide)
    rw [BitVec.add_zero] at hFirst
    rw [PhysicalMemory.readUint16, hFirst, h 1 (by decide), PhysicalMemory.writeUint32, if_neg hHigh,
      PhysicalMemory.writeUint32, if_neg hLow, PhysicalMemory.writeUint16, PhysicalMemory.writeUint8_same,
      PhysicalMemory.writeUint8_other (by bv_omega), PhysicalMemory.writeUint8_same,
      BitVec.extractLsb'_append_extractLsb'_eq_extractLsb' (by decide), BitVec.extractLsb'_eq_self]
  have hBase : later.readUint32 (address + 2#32) = base := by
    refine (PhysicalMemory.readUint32_congr fun k hk => ?_).trans
      (PhysicalMemory.readUint32_writeUint32 (memory.writeUint16 address limit) (address + 2#32) base)
    have hSame := h (2 + k) (by omega)
    rwa [BitVec.ofNat_add, ← BitVec.add_assoc] at hSame
  rw [DescriptorRegister.load, hLimit, hBase]

theorem idtInitialize_eq (stubs : InterruptStubs) :
    (idtInitialize image stubs memory).1 =
      idtInstallHardwareInterrupts image stubs
        (idtInstallCpuExceptions image stubs (idtClear image (idtSetPointer image memory))) := rfl

/-- The tables grow only inside their own bytes. -/
theorem idtInitialize_table (stubs : InterruptStubs) {x : BitVec 32} (h : Outside x image.idtEntries 2048) :
    (idtInitialize image stubs memory).1 x = idtSetPointer image memory x := by
  rw [idtInitialize_eq, idtInstallHardwareInterrupts, idtInstallGates_outside image _ (by decide) stubs.irq h,
    idtInstallCpuExceptions, idtInstallGates_outside image _ (by decide) stubs.isr h, idtClear_outside image _ h]

/-- The register that `lidt` loads names the table and its last byte. -/
theorem idtInitialize_register (stubs : InterruptStubs) :
    (idtInitialize image stubs memory).2 = ⟨2047#16, image.idtEntries⟩ := by
  have hLoad : (idtInitialize image stubs memory).2 = .load (idtInitialize image stubs memory).1 image.idtPtr := rfl
  have hLimit : BitVec.ofNat 16 (8 * idtEntryCount - 1) = 2047#16 := by decide
  rw [hLoad]
  refine DescriptorRegister.load_stored memory fun k hk => ?_
  rw [idtInitialize_table image memory stubs (image.idt_ptr k hk), idtSetPointer, hLimit]

/-- `idt_initialize` writes the table and its pointer, and nothing else in
memory. -/
theorem idtInitialize_outside (stubs : InterruptStubs) {x : BitVec 32} (h : Outside x image.idtEntries 2048)
    (hPtr : Outside x image.idtPtr 6) : (idtInitialize image stubs memory).1 x = memory x := by
  have hNe := fun k (hk : k < 6) => hPtr.ne hk (by omega)
  have hFirst := hNe 0 (by decide)
  rw [BitVec.add_zero] at hFirst
  have hWord : ¬(x - (image.idtPtr + 2#32)).toNat < 4 := by
    rw [PhysicalMemory.Outside] at hPtr
    bv_omega
  rw [idtInitialize_table image memory stubs h, idtSetPointer, PhysicalMemory.writeUint32, if_neg hWord,
    PhysicalMemory.writeUint16, PhysicalMemory.writeUint8_other (hNe 1 (by decide)),
    PhysicalMemory.writeUint8_other hFirst]

/-- The whole table at once: exceptions at 0 to 31, hardware interrupts at 32
to 47, and empty gates above. -/
theorem idtInitialize_read (stubs : InterruptStubs) {j : Nat} (hj : j < 256) :
    InterruptGate.read (idtInitialize image stubs memory).1
        (descriptorAddress image.idtEntries (BitVec.ofNat 32 j)) =
      if 32 ≤ j ∧ j < 48 then
        ⟨stubs.irq (Fin.ofNat 16 (j - 32)), idtKernelCodeSelector, idtInterruptGateRing0⟩
      else if j < 32 then ⟨stubs.isr (Fin.ofNat 32 j), idtKernelCodeSelector, idtInterruptGateRing0⟩
      else ⟨0#32, 0#16, 0#8⟩ := by
  rw [idtInitialize_eq, idtInstallHardwareInterrupts, idtInstallGates_read image _ (by decide) hj stubs.irq]
  by_cases hIrq : 32 ≤ j ∧ j < 48
  · rw [if_pos hIrq, if_pos hIrq]
  · rw [if_neg hIrq, if_neg hIrq, idtInstallCpuExceptions, idtInstallGates_read image _ (by decide) hj stubs.isr]
    by_cases hIsr : j < 32
    · rw [if_pos ⟨Nat.zero_le j, by omega⟩, if_pos hIsr, Nat.sub_zero]
    · rw [if_neg (by omega), if_neg hIsr]
      exact idtClear_read image _ hj

/-- The memory before the last entry of the global table. -/
def gdtCodeSet : PhysicalMemory :=
  gdtSetEntry image gdtKernelCodeIndex gdtFlatBase gdtFlatLimit gdtAccessKernelCode gdtGranularity4k32bit
    (gdtSetEntry image gdtNullIndex 0#32 0#32 0#8 0#8 (gdtSetPointer image memory))

theorem gdtInitialize_eq :
    (gdtInitialize image memory).1 =
      gdtSetEntry image gdtKernelDataIndex gdtFlatBase gdtFlatLimit gdtAccessKernelData gdtGranularity4k32bit
        (gdtCodeSet image memory) := rfl

/-- The register that `lgdt` loads names the table of three descriptors and
its last byte. -/
theorem gdtInitialize_register : (gdtInitialize image memory).2 = ⟨23#16, image.gdtEntries⟩ := by
  refine DescriptorRegister.load_stored memory fun k hk => ?_
  have hEntry (index : BitVec 32) {i : Nat} (hi : i < 3) (hIndex : index = BitVec.ofNat 32 i) :
      Outside (image.gdtPtr + BitVec.ofNat 32 k) (descriptorAddress image.gdtEntries index) 8 :=
    hIndex ▸ outside_descriptor (n := 3) (image.gdt_ptr k hk) hi (by decide)
  show (gdtInitialize image memory).1 _ = _
  rw [gdtInitialize_eq, gdtSetEntry_outside image _ (hEntry gdtKernelDataIndex (by decide : 2 < 3) rfl),
    gdtCodeSet, gdtSetEntry_outside image _ (hEntry gdtKernelCodeIndex (by decide : 1 < 3) rfl),
    gdtSetEntry_outside image _ (hEntry gdtNullIndex (by decide : 0 < 3) rfl)]
  rfl

/-- A flat segment of the kernel. -/
def kernelSegment (access : BitVec 8) : SegmentDescriptor where
  base := gdtFlatBase
  limit := 0xFFFFF#20
  access := access
  flags := 0xC#4

/-- Both kernel segments cover all of the address space from zero. -/
theorem gdtInitialize_read :
    SegmentDescriptor.read (gdtInitialize image memory).1
        (descriptorAddress image.gdtEntries gdtKernelCodeIndex) = kernelSegment gdtAccessKernelCode ∧
    SegmentDescriptor.read (gdtInitialize image memory).1
        (descriptorAddress image.gdtEntries gdtKernelDataIndex) = kernelSegment gdtAccessKernelData := by
  rw [gdtInitialize_eq]
  refine ⟨?_, gdtSetEntry_read image _ _ _ _ _ _⟩
  have hCode : SegmentDescriptor.read (gdtCodeSet image memory)
      (descriptorAddress image.gdtEntries gdtKernelCodeIndex) = kernelSegment gdtAccessKernelCode :=
    gdtSetEntry_read image _ _ _ _ _ _
  refine Eq.trans (SegmentDescriptor.read_congr fun k hk => ?_) hCode
  have hOutside : Outside (descriptorAddress image.gdtEntries gdtKernelCodeIndex + BitVec.ofNat 32 k)
      (descriptorAddress image.gdtEntries gdtKernelDataIndex) 8 :=
    descriptor_outside image.gdtEntries (by decide : 2 < 256) (by decide : 1 < 256) (by decide) hk
  exact gdtSetEntry_outside image _ hOutside

end Tables

section Result

variable (image : DescriptorImage) (stubs : InterruptStubs)

/-- The `size` bytes from an address on are the same in both memories. -/
def KeepsBytes (address : BitVec 32) (size : Nat) (memory later : PhysicalMemory) : Prop :=
  ∀ k < size, later (address + BitVec.ofNat 32 k) = memory (address + BitVec.ofNat 32 k)

/-- The global table, with bytes that are still those of `gdt_initialize`. -/
theorem i386Segment_kernel (memory later : PhysicalMemory)
    (hGdt : KeepsBytes image.gdtEntries 24 (gdtInitialize image memory).1 later) (selector : BitVec 16) :
    i386Segment later (gdtInitialize image memory).2 selector =
      if selector.toNat / 4 = 2 then some (kernelSegment gdtAccessKernelCode)
      else if selector.toNat / 4 = 4 then some (kernelSegment gdtAccessKernelData)
      else none := by
  obtain ⟨hCode, hData⟩ := gdtInitialize_read image memory
  have hEntry : ∀ index < 3, SegmentDescriptor.read later (descriptorAddress image.gdtEntries (BitVec.ofNat 32 index)) =
      SegmentDescriptor.read (gdtInitialize image memory).1
        (descriptorAddress image.gdtEntries (BitVec.ofNat 32 index)) := by
    intro index hIndex
    refine SegmentDescriptor.read_congr fun k hk => ?_
    rw [descriptorAddress_offset]
    exact hGdt _ (by omega)
  have hIndex : (selector >>> 3).toNat = selector.toNat / 8 := by
    rw [BitVec.toNat_ushiftRight, Nat.shiftRight_eq_div_pow]
  have hLocal : selector.getLsbD 2 = true ↔ selector.toNat / 4 % 2 = 1 := by
    rw [BitVec.getLsbD, Nat.testBit_eq_decide_div_mod_eq, decide_eq_true_eq]
  rw [gdtInitialize_register, i386Segment]
  simp only [hIndex, hLocal, BitVec.toNat_ofNat]
  by_cases hFirst : selector.toNat / 4 = 2
  · rw [if_pos hFirst, if_neg (by omega), show selector.toNat / 8 = 1 by omega, hEntry 1 (by decide)]
    exact congrArg some hCode
  · rw [if_neg hFirst]
    by_cases hSecond : selector.toNat / 4 = 4
    · rw [if_pos hSecond, if_neg (by omega), show selector.toNat / 8 = 2 by omega, hEntry 2 (by decide)]
      exact congrArg some hData
    · rw [if_neg hSecond, if_pos (by omega)]

/-- The interrupt table, with bytes that are still those of `idt_initialize`. -/
theorem i386Deliver_installed (between later : PhysicalMemory)
    (hIdt : KeepsBytes image.idtEntries 2048 (idtInitialize image stubs between).1 later) (vector : BitVec 8) :
    i386Deliver later (idtInitialize image stubs between).2 vector =
      if 32 ≤ vector.toNat ∧ vector.toNat < 48 then
        .interruptGate idtKernelCodeSelector (stubs.irq (Fin.ofNat 16 (vector.toNat - 32)))
      else if vector.toNat < 32 then
        .interruptGate idtKernelCodeSelector (stubs.isr (Fin.ofNat 32 vector.toNat))
      else .generalProtection := by
  have hGate : InterruptGate.read later (descriptorAddress image.idtEntries (vector.setWidth 32)) =
      InterruptGate.read (idtInitialize image stubs between).1
        (descriptorAddress image.idtEntries (BitVec.ofNat 32 vector.toNat)) := by
    have hIndex : vector.setWidth 32 = BitVec.ofNat 32 vector.toNat := by bv_omega
    rw [hIndex]
    refine InterruptGate.read_congr fun k hk => ?_
    rw [descriptorAddress_offset]
    exact hIdt _ (by omega)
  have hInside : ¬(2047#16).toNat < 8 * vector.toNat + 7 := by
    have hVector := vector.isLt
    show ¬2047 < _
    omega
  rw [idtInitialize_register, i386Deliver, if_neg hInside, hGate,
    idtInitialize_read image between stubs vector.isLt]
  split_ifs
  · exact InterruptGate.deliver_ring0 _ _
  · exact InterruptGate.deliver_ring0 _ _
  · exact InterruptGate.deliver_empty

/-- Whatever memory held before, and as long as nothing overwrites the
tables: a selector loads the flat code segment, the flat data segment or
nothing; each exception and each hardware vector enters its own stub in the
code segment; every other vector is a protection fault. -/
theorem descriptor_tables_installed (memory between later : PhysicalMemory)
    (hBetween : KeepsBytes image.gdtEntries 24 (gdtInitialize image memory).1 between)
    (hGdt : KeepsBytes image.gdtEntries 24 (idtInitialize image stubs between).1 later)
    (hIdt : KeepsBytes image.idtEntries 2048 (idtInitialize image stubs between).1 later) :
    (∀ selector, i386Segment later (gdtInitialize image memory).2 selector =
      if selector.toNat / 4 = 2 then some (kernelSegment gdtAccessKernelCode)
      else if selector.toNat / 4 = 4 then some (kernelSegment gdtAccessKernelData)
      else none) ∧
    (∀ n : Fin 32, i386Deliver later (idtInitialize image stubs between).2 (BitVec.ofNat 8 n.val) =
      .interruptGate idtKernelCodeSelector (stubs.isr n)) ∧
    (∀ n : Fin 16, i386Deliver later (idtInitialize image stubs between).2 (BitVec.ofNat 8 (32 + n.val)) =
      .interruptGate idtKernelCodeSelector (stubs.irq n)) ∧
    ∀ vector, 48 ≤ vector.toNat →
      i386Deliver later (idtInitialize image stubs between).2 vector = .generalProtection := by
  have hDeliver := i386Deliver_installed image stubs between later hIdt
  refine ⟨fun selector => ?_, fun n => ?_, fun n => ?_, fun vector hVector => ?_⟩
  · refine i386Segment_kernel image memory later (fun k hk => ?_) selector
    have hOutside := idtInitialize_outside image between stubs (image.gdt_idt k hk) (image.gdt_idt_ptr k hk)
    exact (hGdt k hk).trans (hOutside.trans (hBetween k hk))
  · have hValue : (BitVec.ofNat 8 n.val).toNat = n.val := by
      rw [BitVec.toNat_ofNat, Nat.mod_eq_of_lt (by omega)]
    rw [hDeliver, hValue, if_neg (by omega), if_pos n.isLt, Fin.ofNat_val_eq_self]
  · have hValue : (BitVec.ofNat 8 (32 + n.val)).toNat = 32 + n.val := by
      rw [BitVec.toNat_ofNat, Nat.mod_eq_of_lt (by omega)]
    rw [hDeliver, hValue, if_pos (by omega), Nat.add_sub_cancel_left, Fin.ofNat_val_eq_self]
  · rw [hDeliver, if_neg (by omega), if_neg (by omega)]

/-- Tables one after the other, in memory full of ones. -/
def exampleDescriptorImage : DescriptorImage where
  gdtEntries := 0x00106000#32
  gdtPtr := 0x00106020#32
  idtEntries := 0x00106040#32
  idtPtr := 0x00106840#32
  gdt_ptr := by
    unfold PhysicalMemory.SharesNoByte PhysicalMemory.Outside
    decide
  idt_ptr := by
    unfold PhysicalMemory.SharesNoByte PhysicalMemory.Outside
    decide
  gdt_idt := by
    unfold PhysicalMemory.SharesNoByte PhysicalMemory.Outside
    decide
  gdt_idt_ptr := by
    unfold PhysicalMemory.SharesNoByte PhysicalMemory.Outside
    decide

def exampleInterruptStubs : InterruptStubs where
  isr n := 0x00101000#32 + BitVec.ofNat 32 (16 * n.val)
  irq n := 0x00101200#32 + BitVec.ofNat 32 (16 * n.val)

/-- The keyboard's gate and the code selector. -/
theorem descriptor_tables_installed_keyboard :
    i386Deliver (idtInitialize exampleDescriptorImage exampleInterruptStubs
        (gdtInitialize exampleDescriptorImage fun _ => 0xFF#8).1).1
      (idtInitialize exampleDescriptorImage exampleInterruptStubs
        (gdtInitialize exampleDescriptorImage fun _ => 0xFF#8).1).2 33#8 =
      .interruptGate 0x08#16 0x00101210#32 ∧
    (kernelSegment gdtAccessKernelCode).lastByte = 0xFFFFFFFF#32 := by
  obtain ⟨-, -, hIrq, -⟩ := descriptor_tables_installed exampleDescriptorImage exampleInterruptStubs
    (fun _ => 0xFF#8) _ _ (fun _ _ => rfl) (fun _ _ => rfl) fun _ _ => rfl
  exact ⟨hIrq 1, by decide⟩

end Result
end WigOSX
