import WigOSX.Machine.IrqStub

/-! The exception stubs of `isr_stubs.s`. The processor pushes an error code
for some exceptions only; the stubs make up for the difference, so that the C
handler always finds the same frame. -/
namespace WigOSX

/-- `isr_common_stub`. -/
def isrCommonStub (returnAddress : BitVec 32) : List I386Instruction :=
  [.pusha,
    .movDsAx, .pushEax,
    .movImmediateAx 0x10#16,
    .movAxSegment .ds, .movAxSegment .es, .movAxSegment .fs, .movAxSegment .gs,
    .pushEsp, .call returnAddress, .addEsp 4#32,
    .popEax,
    .movAxSegment .ds, .movAxSegment .es, .movAxSegment .fs, .movAxSegment .gs,
    .popa,
    .addEsp 8#32,
    .iret]

/-- The macro `ISR_NO_ERROR_CODE`. -/
def isrNoErrorCode (number returnAddress : BitVec 32) : List I386Instruction :=
  [.cli, .pushImmediate 0#32, .pushImmediate number] ++ isrCommonStub returnAddress

/-- The macro `ISR_ERROR_CODE`. -/
def isrErrorCode (number returnAddress : BitVec 32) : List I386Instruction :=
  [.cli, .pushImmediate number] ++ isrCommonStub returnAddress

/-- The vectors whose stub is made by `ISR_ERROR_CODE`. -/
def isrErrorCodeVectors : List Nat := [8, 10, 11, 12, 13, 14, 17, 29, 30]

/-- The stubs `isr0` to `isr31`. -/
def isrStubCode (n : Fin 32) : BitVec 32 → List I386Instruction :=
  if n.val ∈ isrErrorCodeVectors then isrErrorCode (BitVec.ofNat 32 n.val)
  else isrNoErrorCode (BitVec.ofNat 32 n.val)

/-- The exceptions for which the processor pushes an error code: double fault,
invalid TSS, segment not present, stack fault, general protection, page fault,
alignment check, VMM communication and security. Control protection pushes one
too, but needs a feature that the kernel does not turn on. -/
def i386PushesErrorCode (n : Fin 32) : Bool :=
  n.val ∈ [8, 10, 11, 12, 13, 14, 17, 29, 30]

/-- The processor takes an exception through an interrupt gate. -/
def I386State.exception (s : I386State) (n : Fin 32) (selector padding : BitVec 16)
    (offset errorCode : BitVec 32) : I386State :=
  if i386PushesErrorCode n then (s.interrupt selector padding offset).push errorCode
  else s.interrupt selector padding offset

/-- The error code that the frame shows. -/
def shownErrorCode (n : Fin 32) (errorCode : BitVec 32) : BitVec 32 :=
  if i386PushesErrorCode n then errorCode else 0#32

section Entry

variable (s : I386State) (selector padding : BitVec 16) (offset errorCode number returnAddress : BitVec 32)

/-- What stands on the stack before the handler runs, the first pushed first. -/
def exceptionWords : List (BitVec 32) :=
  [s.eflags, padding ++ s.cs, s.eip, errorCode, number, s.eax, s.ecx, s.edx, s.ebx, s.esp - 20#32,
    s.ebp, s.esi, s.edi, savedDs s, frameAddress s, returnAddress]

/-- The common part in front of the call. -/
def isrEntry : List I386Instruction :=
  [.pusha, .movDsAx, .pushEax, .movImmediateAx 0x10#16, .movAxSegment .ds, .movAxSegment .es,
    .movAxSegment .fs, .movAxSegment .gs, .pushEsp]

/-- The state in which the stub enters `isr_handler`. -/
def exceptionCall : I386State :=
  (i386Run id isrEntry
    ((i386Execute id .cli ((s.interrupt selector padding offset).push errorCode)).push number)).push returnAddress

/-- The source and the processor agree on which exceptions have an error code. -/
theorem isrErrorCodeVectors_pushed :
    ∀ n : Fin 32, n.val ∈ isrErrorCodeVectors ↔ i386PushesErrorCode n = true := by
  decide

theorem isrStubCode_eq (n : Fin 32) : isrStubCode n returnAddress =
    (if i386PushesErrorCode n then [.cli, .pushImmediate (BitVec.ofNat 32 n.val)]
      else [.cli, .pushImmediate 0#32, .pushImmediate (BitVec.ofNat 32 n.val)]) ++
      (isrEntry ++ .call returnAddress :: irqExit) := by
  rw [isrStubCode]
  by_cases hPushes : i386PushesErrorCode n = true
  · rw [if_pos ((isrErrorCodeVectors_pushed n).mpr hPushes), if_pos hPushes]
    rfl
  · rw [if_neg (mt (isrErrorCodeVectors_pushed n).mp hPushes), if_neg hPushes]
    rfl

theorem i386Execute_call (callee : I386State → I386State) (t : I386State) :
    i386Execute callee (.call returnAddress) t = callee (t.push returnAddress) := rfl

/-- The common part does not look at what its call does. -/
theorem isrEntry_run (isrHandler : I386State → I386State) (t : I386State) :
    i386Run isrHandler isrEntry t = i386Run id isrEntry t := rfl

/-- In front of the common part, both kinds of stub have the same stack. -/
theorem isrPrologue_run (n : Fin 32) (callee : I386State → I386State) :
    i386Run callee (if i386PushesErrorCode n then [.cli, .pushImmediate (BitVec.ofNat 32 n.val)]
        else [.cli, .pushImmediate 0#32, .pushImmediate (BitVec.ofNat 32 n.val)])
      (s.exception n selector padding offset errorCode) =
    (i386Execute id .cli ((s.interrupt selector padding offset).push (shownErrorCode n errorCode))).push
      (BitVec.ofNat 32 n.val) := by
  rw [I386State.exception, shownErrorCode]
  cases i386PushesErrorCode n with
  | true => rfl
  | false => rfl

/-- A run of an exception stub is its entry, the call, and its exit on
whatever state the handler returns. -/
theorem isrStub_run (n : Fin 32) (isrHandler : I386State → I386State) :
    i386Run isrHandler (isrStubCode n returnAddress) (s.exception n selector padding offset errorCode) =
      i386Run isrHandler irqExit (isrHandler
        (exceptionCall s selector padding offset (shownErrorCode n errorCode) (BitVec.ofNat 32 n.val)
          returnAddress)) := by
  have hPrologue := isrPrologue_run s selector padding offset errorCode n isrHandler
  have hEntry := isrEntry_run isrHandler
  rw [i386Run] at hPrologue
  simp only [i386Run] at hEntry
  rw [isrStubCode_eq, i386Run, List.foldl_append, hPrologue, List.foldl_append, hEntry, List.foldl_cons,
    i386Execute_call, exceptionCall, i386Run, i386Run]

/-- Straight code without a call enters no function. -/
theorem i386Calls_append (callee : I386State → I386State) (code rest : List I386Instruction)
    (hCalls : ∀ instruction ∈ code, ∀ returnAddress, instruction ≠ .call returnAddress) (t : I386State) :
    i386Calls callee (code ++ rest) t = i386Calls callee rest (i386Run callee code t) := by
  induction code generalizing t with
  | nil => rfl
  | cons instruction code ih =>
      have hRest := fun other hOther => hCalls other (List.mem_cons_of_mem _ hOther)
      rw [List.cons_append, i386Calls, ih hRest, i386Run, i386Run, List.foldl_cons]
      exact hCalls instruction List.mem_cons_self

/-- The stub calls `isr_handler` exactly once, with a zero in place of an
error code that the processor has not pushed. -/
theorem isrStub_calls (n : Fin 32) (isrHandler : I386State → I386State) :
    i386Calls isrHandler (isrStubCode n returnAddress) (s.exception n selector padding offset errorCode) =
      [exceptionCall s selector padding offset (shownErrorCode n errorCode) (BitVec.ofNat 32 n.val)
        returnAddress] := by
  rw [isrStubCode_eq, i386Calls_append, isrPrologue_run]
  · rfl
  · intro instruction hMem address hCall
    subst hCall
    cases hPushes : i386PushesErrorCode n with
    | true => simp [hPushes] at hMem
    | false => simp [hPushes] at hMem

theorem exceptionCall_esp :
    (exceptionCall s selector padding offset errorCode number returnAddress).esp = s.esp - 64#32 := by
  simp only [exceptionCall, isrEntry, i386Run, List.foldl_cons, List.foldl_nil, i386Execute,
    I386State.interrupt, I386State.pusha, I386State.push, I386State.setAx, I386State.setSegment,
    BitVec.sub_sub, BitVec.reduceAdd]

/-- At the call the stack holds the words of the frame and nothing else has
been written. -/
theorem exceptionCall_memory :
    (exceptionCall s selector padding offset errorCode number returnAddress).memory =
      pushWords (exceptionWords s padding errorCode number returnAddress) s.esp s.memory := by
  simp only [exceptionCall, isrEntry, i386Run, List.foldl_cons, List.foldl_nil, i386Execute,
    I386State.interrupt, I386State.pusha, I386State.push, I386State.setAx, I386State.setSegment,
    exceptionWords, pushWords, savedDs, frameAddress, BitVec.sub_sub, BitVec.reduceAdd]

/-- Every word of the frame, read at its place on the stack. -/
theorem exceptionCall_word {j : Nat} (hj : j < 16) :
    (exceptionCall s selector padding offset errorCode number returnAddress).memory.readUint32
      (s.esp - BitVec.ofNat 32 (4 * (j + 1))) =
        (exceptionWords s padding errorCode number returnAddress).getD j 0#32 := by
  have hLength : (exceptionWords s padding errorCode number returnAddress).length = 16 := rfl
  rw [exceptionCall_memory, List.getD_eq_getElem _ _ (by rwa [hLength])]
  exact readUint32_pushWords _ s.esp s.memory _ (by rw [hLength]; decide)

/-- The argument of the call is the address of the frame. -/
theorem exceptionCall_argument :
    (exceptionCall s selector padding offset errorCode number returnAddress).cArgument = frameAddress s := by
  have hSlot : s.esp - 64#32 + BitVec.ofNat 32 (4 * 1) = s.esp - BitVec.ofNat 32 (4 * (14 + 1)) := by
    bv_omega
  rw [I386State.cArgument, I386State.slot, exceptionCall_esp, hSlot]
  exact exceptionCall_word s selector padding offset errorCode number returnAddress (by omega)

/-- The fields of the packed structure are the words of the frame in the
opposite order. -/
theorem exceptionCall_frame {k : Nat} (hk : k < 14) :
    packedWord (exceptionCall s selector padding offset errorCode number returnAddress).memory
      (frameAddress s) k = (exceptionWords s padding errorCode number returnAddress).getD (13 - k) 0#32 := by
  have hWord : frameAddress s + BitVec.ofNat 32 (4 * k) = s.esp - BitVec.ofNat 32 (4 * (13 - k + 1)) := by
    rw [frameAddress]
    bv_omega
  rw [packedWord, hWord]
  exact exceptionCall_word s selector padding offset errorCode number returnAddress (by omega)

end Entry

/-- The frame shows exception `n` with its error code, and the state in which
it struck. -/
structure InterruptFrame.ShowsException (frame : InterruptFrame) (s : I386State) (padding : BitVec 16)
    (n : Fin 32) (errorCode : BitVec 32) : Prop where
  interruptNumber : frame.interruptNumber = BitVec.ofNat 32 n.val
  errorCode : frame.errorCode = shownErrorCode n errorCode
  ds : frame.ds.setWidth 16 = s.ds
  eax : frame.eax = s.eax
  ecx : frame.ecx = s.ecx
  edx : frame.edx = s.edx
  ebx : frame.ebx = s.ebx
  ebp : frame.ebp = s.ebp
  esi : frame.esi = s.esi
  edi : frame.edi = s.edi
  eip : frame.eip = s.eip
  cs : frame.cs = padding ++ s.cs
  eflags : frame.eflags = s.eflags

/-- For every exception, whatever the state it strikes in and wherever the
stack is: its stub calls `isr_handler` once, with a frame that shows the
exception, its error code if the processor pushed one, and the state. If the
handler came back as a C function does, the stub would take all of it down
again. -/
theorem isr_stub_shows (isrHandler : I386State → I386State) (n : Fin 32) (s : I386State)
    (selector padding : BitVec 16) (offset errorCode returnAddress : BitVec 32) :
    ∃ call, i386Calls isrHandler (isrStubCode n returnAddress)
        (s.exception n selector padding offset errorCode) = [call] ∧
      (InterruptFrame.read call.memory call.cArgument).ShowsException s padding n errorCode ∧
      (FlatDataSegments s → FollowsCConvention call (isrHandler call) →
        FrameUnmodified call.cArgument call (isrHandler call) →
        (i386Run isrHandler (isrStubCode n returnAddress)
          (s.exception n selector padding offset errorCode)).toI386Registers = s.toI386Registers) := by
  have hCallFrame := fun k (hk : k < 14) => exceptionCall_frame s selector padding offset
    (shownErrorCode n errorCode) (BitVec.ofNat 32 n.val) returnAddress hk
  refine ⟨_, isrStub_calls s selector padding offset errorCode returnAddress n isrHandler, ?_, ?_⟩
  · rw [exceptionCall_argument]
    constructor
    · exact hCallFrame 9 (by decide)
    · exact hCallFrame 10 (by decide)
    · show (packedWord _ _ 0).setWidth 16 = s.ds
      rw [hCallFrame 0 (by decide)]
      exact savedDs_low s
    · exact hCallFrame 8 (by decide)
    · exact hCallFrame 7 (by decide)
    · exact hCallFrame 6 (by decide)
    · exact hCallFrame 5 (by decide)
    · exact hCallFrame 3 (by decide)
    · exact hCallFrame 2 (by decide)
    · exact hCallFrame 1 (by decide)
    · exact hCallFrame 11 (by decide)
    · exact hCallFrame 12 (by decide)
    · exact hCallFrame 13 (by decide)
  · intro hFlat hConvention hFrame
    rw [exceptionCall_argument] at hFrame
    have hEsp : (isrHandler (exceptionCall s selector padding offset (shownErrorCode n errorCode)
        (BitVec.ofNat 32 n.val) returnAddress)).esp + 4#32 = frameAddress s := by
      rw [hConvention.esp, exceptionCall_esp, frameAddress]
      bv_omega
    have hWord := fun k (hk : k < 14) => (hFrame.word hk).trans (hCallFrame k hk)
    have hDs : (packedWord (isrHandler (exceptionCall s selector padding offset (shownErrorCode n errorCode)
        (BitVec.ofNat 32 n.val) returnAddress)).memory (frameAddress s) 0).setWidth 16 = s.ds := by
      rw [hWord 0 (by decide)]
      exact savedDs_low s
    rw [isrStub_run, irqExit_registers isrHandler _ hEsp]
    apply I386Registers.ext
    · exact hWord 8 (by decide)
    · exact hWord 7 (by decide)
    · exact hWord 6 (by decide)
    · exact hWord 5 (by decide)
    · exact BitVec.sub_add_cancel s.esp 56#32
    · exact hWord 3 (by decide)
    · exact hWord 2 (by decide)
    · exact hWord 1 (by decide)
    · exact hDs
    · exact hDs.trans hFlat.1.symm
    · exact hDs.trans hFlat.2.1.symm
    · exact hDs.trans hFlat.2.2.symm
    · show (packedWord _ _ 12).setWidth 16 = s.cs
      rw [hWord 12 (by decide)]
      exact BitVec.setWidth_append_eq_right
    · exact hWord 11 (by decide)
    · exact hWord 13 (by decide)

end WigOSX
