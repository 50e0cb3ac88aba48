import WigOSX.Machine.I386

/-! The interrupt stubs of `isr_stubs.s`. A stub lays out a frame that the C
handler reads as `struct interrupt_frame`, and takes it down again. If the
handler follows the C calling convention and leaves the frame alone, the
interrupted code cannot tell that it was interrupted. -/
namespace WigOSX

/-- `irq_common_stub`. -/
def irqCommonStub (returnAddress : BitVec 32) : List I386Instruction :=
  [.pusha,
    .movDsAx, .pushEax,
    .movImmediateAx 0x10#16,
    .movAxSegment .ds, .movAxSegment .es, .movAxSegment .fs, .movAxSegment .gs,
    .pushEsp, .call returnAddress, .addEsp 4#32,
    .popEax,
    .movAxSegment .ds, .movAxSegment .es, .movAxSegment .fs, .movAxSegment .gs,
    .popa,
    .addEsp 8#32,
    .iret]

/-- The macro `IRQ`; the jump to the common stub is the concatenation. -/
def irqMacro (vector returnAddress : BitVec 32) : List I386Instruction :=
  [.cli, .pushImmediate 0#32, .pushImmediate vector] ++ irqCommonStub returnAddress

/-- The vectors of `irq0` to `irq15`. -/
def irqVectors : Vector (BitVec 32) 16 :=
  #v[32#32, 33#32, 34#32, 35#32, 36#32, 37#32, 38#32, 39#32, 40#32, 41#32, 42#32, 43#32, 44#32,
    45#32, 46#32, 47#32]

/-- The stub `irq<n>`. -/
def irqStubCode (n : Fin 16) (returnAddress : BitVec 32) : List I386Instruction :=
  irqMacro irqVectors[n] returnAddress

/-- `struct interrupt_frame`. -/
structure InterruptFrame where
  ds : BitVec 32
  edi : BitVec 32
  esi : BitVec 32
  ebp : BitVec 32
  esp : BitVec 32
  ebx : BitVec 32
  edx : BitVec 32
  ecx : BitVec 32
  eax : BitVec 32
  interruptNumber : BitVec 32
  errorCode : BitVec 32
  eip : BitVec 32
  cs : BitVec 32
  eflags : BitVec 32

/-- The word at index `k` of a packed structure of words. -/
def packedWord (memory : PhysicalMemory) (frame : BitVec 32) (k : Nat) : BitVec 32 :=
  memory.readUint32 (frame + BitVec.ofNat 32 (4 * k))

/-- The frame at an address, field by field in the order of the structure. -/
def InterruptFrame.read (memory : PhysicalMemory) (frame : BitVec 32) : InterruptFrame where
  ds := packedWord memory frame 0
  edi := packedWord memory frame 1
  esi := packedWord memory frame 2
  ebp := packedWord memory frame 3
  esp := packedWord memory frame 4
  ebx := packedWord memory frame 5
  edx := packedWord memory frame 6
  ecx := packedWord memory frame 7
  eax := packedWord memory frame 8
  interruptNumber := packedWord memory frame 9
  errorCode := packedWord memory frame 10
  eip := packedWord memory frame 11
  cs := packedWord memory frame 12
  eflags := packedWord memory frame 13

/-- `sizeof(struct interrupt_frame)`. -/
def InterruptFrame.size : Nat := 56

/-- The frame shows the interrupted state `s` and IRQ `n`. -/
structure InterruptFrame.Shows (frame : InterruptFrame) (s : I386State) (padding : BitVec 16)
    (n : Fin 16) : Prop where
  interruptNumber : frame.interruptNumber = BitVec.ofNat 32 (32 + n)
  errorCode : frame.errorCode = 0#32
  ds : frame.ds.setWidth 16 = s.ds
  eax : frame.eax = s.eax
  ecx : frame.ecx = s.ecx
  edx : frame.edx = s.edx
  ebx : frame.ebx = s.ebx
  ebp : frame.ebp = s.ebp
  esi : frame.esi = s.esi
  edi : frame.edi = s.edi
  eip : frame.eip = s.eip
  cs : frame.cs = padding ++ s.cs
  eflags : frame.eflags = s.eflags

/-- The bytes of the frame are the same before and after. -/
def FrameUnmodified (frame : BitVec 32) (s t : I386State) : Prop :=
  ∀ k < InterruptFrame.size, t.memory (frame + BitVec.ofNat 32 k) = s.memory (frame + BitVec.ofNat 32 k)

/-- The data segment registers agree, as `gdt_flush` leaves them. -/
def FlatDataSegments (s : I386State) : Prop := s.es = s.ds ∧ s.fs = s.ds ∧ s.gs = s.ds

/-- The segment loads of `gdt_flush`; the stack segment is not modelled. -/
def gdtFlushSegments : List I386Instruction :=
  [.movImmediateAx 0x10#16, .movAxSegment .ds, .movAxSegment .es, .movAxSegment .fs, .movAxSegment .gs]

/-- Behind `gdt_flush` the data segments are the flat ones that the stubs rely
on. -/
theorem gdtFlush_flat (callee : I386State → I386State) (s : I386State) :
    FlatDataSegments (i386Run callee gdtFlushSegments s) := ⟨rfl, rfl, rfl⟩

section Entry

variable (s : I386State) (selector padding : BitVec 16) (offset vector returnAddress : BitVec 32)

/-- The address of the frame. -/
def frameAddress (s : I386State) : BitVec 32 := s.esp - 56#32

/-- The word that holds the data segment register. -/
def savedDs (s : I386State) : BitVec 32 := s.eax.extractLsb' 16 16 ++ s.ds

/-- What the processor and the stub push before the handler runs. -/
def stubWords : List (BitVec 32) :=
  [s.eflags, padding ++ s.cs, s.eip, 0#32, vector, s.eax, s.ecx, s.edx, s.ebx, s.esp - 20#32,
    s.ebp, s.esi, s.edi, savedDs s, frameAddress s, returnAddress]

/-- The part of the stub in front of the call. -/
def irqEntry : List I386Instruction :=
  [.cli, .pushImmediate 0#32, .pushImmediate vector, .pusha, .movDsAx, .pushEax,
    .movImmediateAx 0x10#16, .movAxSegment .ds, .movAxSegment .es, .movAxSegment .fs,
    .movAxSegment .gs, .pushEsp]

/-- The part of the stub behind the call. -/
def irqExit : List I386Instruction :=
  [.addEsp 4#32, .popEax, .movAxSegment .ds, .movAxSegment .es, .movAxSegment .fs, .movAxSegment .gs,
    .popa, .addEsp 8#32, .iret]

theorem irqMacro_eq :
    irqMacro vector returnAddress = irqEntry vector ++ .call returnAddress :: irqExit := rfl

/-- The state in which the stub enters `irq_handler`. -/
def stubCall : I386State :=
  (i386Run id (irqEntry vector) (s.interrupt selector padding offset)).push returnAddress

/-- The stub calls `irq_handler` exactly once, on the frame that it has built. -/
theorem stub_calls (irqHandler : I386State → I386State) :
    i386Calls irqHandler (irqMacro vector returnAddress) (s.interrupt selector padding offset) =
      [stubCall s selector padding offset vector returnAddress] := rfl

/-- A run of the stub is its entry, the call, and its exit on whatever state
the handler returns. -/
theorem stub_run (irqHandler : I386State → I386State) :
    i386Run irqHandler (irqMacro vector returnAddress) (s.interrupt selector padding offset) =
      i386Run irqHandler irqExit
        (irqHandler (stubCall s selector padding offset vector returnAddress)) := by
  rw [irqMacro_eq, i386Run, List.foldl_append, List.foldl_cons]
  rfl

theorem stubCall_esp : (stubCall s selector padding offset vector returnAddress).esp = s.esp - 64#32 := by
  simp only [stubCall, irqEntry, i386Run, List.foldl_cons, List.foldl_nil, i386Execute,
    I386State.interrupt, I386State.pusha, I386State.push, I386State.setAx, I386State.setSegment,
    BitVec.sub_sub, BitVec.reduceAdd]

/-- At the call the stack holds the words of the frame and nothing else has
been written. -/
theorem stubCall_memory : (stubCall s selector padding offset vector returnAddress).memory =
    pushWords (stubWords s padding vector returnAddress) s.esp s.memory := by
  simp only [stubCall, irqEntry, i386Run, List.foldl_cons, List.foldl_nil, i386Execute,
    I386State.interrupt, I386State.pusha, I386State.push, I386State.setAx, I386State.setSegment,
    stubWords, pushWords, savedDs, frameAddress, BitVec.sub_sub, BitVec.reduceAdd]

/-- Reading the stack of the handler word by word. -/
theorem stubCall_word {j : Nat} (hj : j < 16) :
    (stubCall s selector padding offset vector returnAddress).memory.readUint32
      (s.esp - BitVec.ofNat 32 (4 * (j + 1))) =
        (stubWords s padding vector returnAddress).getD j 0#32 := by
  have hLength : (stubWords s padding vector returnAddress).length = 16 := rfl
  rw [stubCall_memory, List.getD_eq_getElem _ _ (by rwa [hLength])]
  exact readUint32_pushWords _ s.esp s.memory _ (by rw [hLength]; decide)

/-- The argument of the call is the address of the frame. -/
theorem stubCall_argument :
    (stubCall s selector padding offset vector returnAddress).cArgument = frameAddress s := by
  have hSlot : s.esp - 64#32 + BitVec.ofNat 32 (4 * 1) = s.esp - BitVec.ofNat 32 (4 * (14 + 1)) := by
    bv_omega
  rw [I386State.cArgument, I386State.slot, stubCall_esp, hSlot]
  exact stubCall_word s selector padding offset vector returnAddress (by omega)

/-- The words of the frame, in the order of the structure. -/
theorem stubCall_frame {k : Nat} (hk : k < 14) :
    packedWord (stubCall s selector padding offset vector returnAddress).memory (frameAddress s) k =
      (stubWords s padding vector returnAddress).getD (13 - k) 0#32 := by
  have hWord : frameAddress s + BitVec.ofNat 32 (4 * k) =
      s.esp - BitVec.ofNat 32 (4 * (13 - k + 1)) := by
    rw [frameAddress]
    bv_omega
  rw [packedWord, hWord]
  exact stubCall_word s selector padding offset vector returnAddress (by omega)

end Entry

section Exit

/-- The registers after the exit path, read from the frame on the stack. -/
theorem irqExit_registers (callee : I386State → I386State) (t : I386State) {frame : BitVec 32}
    (hEsp : t.esp + 4#32 = frame) :
    (i386Run callee irqExit t).toI386Registers =
      { eax := packedWord t.memory frame 8
        ecx := packedWord t.memory frame 7
        edx := packedWord t.memory frame 6
        ebx := packedWord t.memory frame 5
        esp := frame + 56#32
        ebp := packedWord t.memory frame 3
        esi := packedWord t.memory frame 2
        edi := packedWord t.memory frame 1
        ds := (packedWord t.memory frame 0).setWidth 16
        es := (packedWord t.memory frame 0).setWidth 16
        fs := (packedWord t.memory frame 0).setWidth 16
        gs := (packedWord t.memory frame 0).setWidth 16
        cs := (packedWord t.memory frame 12).setWidth 16
        eip := packedWord t.memory frame 11
        eflags := packedWord t.memory frame 13 } := by
  subst hEsp
  simp only [irqExit, i386Run, List.foldl_cons, List.foldl_nil, i386Execute, I386State.setSegment,
    I386State.popa, I386State.iret, I386State.slot, packedWord, BitVec.add_assoc, BitVec.ofNat_add_ofNat]

/-- An untouched frame is read the same. -/
theorem FrameUnmodified.word {frame : BitVec 32} {s t : I386State} (h : FrameUnmodified frame s t)
    {k : Nat} (hk : k < 14) : packedWord t.memory frame k = packedWord s.memory frame k := by
  apply PhysicalMemory.readUint32_congr
  intro j hj
  rw [BitVec.add_assoc, BitVec.ofNat_add_ofNat]
  apply h
  rw [InterruptFrame.size]
  omega

end Exit

/-- The low half of the pushed word is the data segment that was interrupted. -/
theorem savedDs_low (s : I386State) : (savedDs s).setWidth 16 = s.ds := by
  rw [savedDs]
  exact BitVec.setWidth_append_eq_right

/-- The stub of line n pushes vector 32 + n. -/
theorem irqVectors_get (n : Fin 16) : irqVectors[n] = BitVec.ofNat 32 (32 + n) := by
  revert n
  decide

/-- Entry and exit of `irq<n>` are transparent. The stub calls `irq_handler`
once, with a frame that shows the interrupted state; if the handler follows
the calling convention and leaves the frame alone, every register is back at
its interrupted value after the `iret`. -/
theorem irq_stub_transparent (irqHandler : I386State → I386State) (n : Fin 16) (s : I386State)
    (selector padding : BitVec 16) (offset returnAddress : BitVec 32) (hFlat : FlatDataSegments s) :
    ∃ call, i386Calls irqHandler (irqStubCode n returnAddress)
        (s.interrupt selector padding offset) = [call] ∧
      (InterruptFrame.read call.memory call.cArgument).Shows s padding n ∧
      (FollowsCConvention call (irqHandler call) →
        FrameUnmodified call.cArgument call (irqHandler call) →
        (i386Run irqHandler (irqStubCode n returnAddress)
          (s.interrupt selector padding offset)).toI386Registers = s.toI386Registers) := by
  have hCallFrame := fun k (hk : k < 14) =>
    stubCall_frame s selector padding offset irqVectors[n] returnAddress hk
  refine ⟨_, stub_calls s selector padding offset irqVectors[n] returnAddress irqHandler, ?_, ?_⟩
  · rw [stubCall_argument]
    constructor
    · exact (hCallFrame 9 (by decide)).trans (irqVectors_get n)
    · exact hCallFrame 10 (by decide)
    · show (packedWord _ _ 0).setWidth 16 = s.ds
      rw [hCallFrame 0 (by decide)]
      exact savedDs_low s
    · exact hCallFrame 8 (by decide)
    · exact hCallFrame 7 (by decide)
    · exact hCallFrame 6 (by decide)
    · exact hCallFrame 5 (by decide)
    · exact hCallFrame 3 (by decide)
    · exact hCallFrame 2 (by decide)
    · exact hCallFrame 1 (by decide)
    · exact hCallFrame 11 (by decide)
    · exact hCallFrame 12 (by decide)
    · exact hCallFrame 13 (by decide)
  · intro hConvention hFrame
    rw [stubCall_argument] at hFrame
    have hEsp : (irqHandler (stubCall s selector padding offset irqVectors[n] returnAddress)).esp + 4#32 =
        frameAddress s := by
      rw [hConvention.esp, stubCall_esp, frameAddress]
      bv_omega
    have hWord := fun k (hk : k < 14) => (hFrame.word hk).trans (hCallFrame k hk)
    have hDs : (packedWord (irqHandler (stubCall s selector padding offset irqVectors[n]
        returnAddress)).memory (frameAddress s) 0).setWidth 16 = s.ds := by
      rw [hWord 0 (by decide)]
      exact savedDs_low s
    rw [irqStubCode, stub_run, irqExit_registers irqHandler _ hEsp]
    apply I386Registers.ext
    · exact hWord 8 (by decide)
    · exact hWord 7 (by decide)
    · exact hWord 6 (by decide)
    · exact hWord 5 (by decide)
    · exact BitVec.sub_add_cancel s.esp 56#32
    · exact hWord 3 (by decide)
    · exact hWord 2 (by decide)
    · exact hWord 1 (by decide)
    · exact hDs
    · exact hDs.trans hFlat.1.symm
    · exact hDs.trans hFlat.2.1.symm
    · exact hDs.trans hFlat.2.2.symm
    · show (packedWord _ _ 12).setWidth 16 = s.cs
      rw [hWord 12 (by decide)]
      exact BitVec.setWidth_append_eq_right
    · exact hWord 11 (by decide)
    · exact hWord 13 (by decide)

/-- Interrupted code with a stack that wraps round the end of memory. -/
def exampleInterrupted : I386State where
  eax := 0x11111111#32
  ecx := 0x22222222#32
  edx := 0x33333333#32
  ebx := 0x44444444#32
  esp := 0x00000018#32
  ebp := 0x55555555#32
  esi := 0x66666666#32
  edi := 0x77777777#32
  ds := 0x23#16
  es := 0x2B#16
  fs := 0#16
  gs := 0#16
  cs := 0x08#16
  eip := 0x00101234#32
  eflags := 0x246#32
  memory := fun _ => 0#8

/-- A handler that returns with the scratch registers and the flags changed. -/
def clobberingHandler (s : I386State) : I386State :=
  { s with
    esp := s.esp + 4#32
    eax := 0#32
    ecx := s.esp
    edx := 0xFFFFFFFF#32
    eflags := 0x2#32 }

/-- The keyboard line interrupts code that runs after `gdt_flush`. -/
theorem irq_stub_transparent_keyboard :
    (i386Run clobberingHandler (irqStubCode 1 0x00100ABC#32)
      ((i386Run id gdtFlushSegments exampleInterrupted).interrupt 0x08#16 0xBEEF#16
        0x00100A00#32)).toI386Registers =
    (i386Run id gdtFlushSegments exampleInterrupted).toI386Registers := by
  obtain ⟨call, -, -, hReturn⟩ := irq_stub_transparent clobberingHandler 1
    (i386Run id gdtFlushSegments exampleInterrupted) 0x08#16 0xBEEF#16 0x00100A00#32 0x00100ABC#32
    (gdtFlush_flat id exampleInterrupted)
  exact hReturn ⟨rfl, rfl, rfl, rfl, rfl⟩ fun _ _ => rfl

end WigOSX
