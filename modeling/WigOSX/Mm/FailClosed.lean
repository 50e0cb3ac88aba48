import WigOSX.Mm.PmmLifecycle

/-! Failed initialization. The memory module and the frame allocator are one
state here, and their four operations may be called in any order with any
arguments. A failed `memory_initialize` keeps `pmm_initialize` from
succeeding, and a failed `pmm_initialize` closes the allocator. -/
namespace WigOSX

/-- The static state of `memory.c` and `pmm.c`. -/
structure ManagerState where
  memory : MemoryState
  pmm : PmmState

/-- One call together with its result. -/
inductive ManagerCall where
  | memoryInitialize (status : KernelStatus)
  | pmmInitialize (status : KernelStatus)
  | pmmClient (event : PmmEvent)

/-- Physical memory and the linker's addresses may differ from call to call. -/
inductive ManagerStep : ManagerState → ManagerCall → ManagerState → Prop where
  | memoryInitialize (s : ManagerState) (memory : PhysicalMemory) (multibootInfoAddress : BitVec 32) :
      ManagerStep s (.memoryInitialize (memoryInitialize memory multibootInfoAddress s.memory).1)
        { s with memory := (memoryInitialize memory multibootInfoAddress s.memory).2 }
  | pmmInitialize (s : ManagerState) (image : KernelImage) (memory : PhysicalMemory)
      (multibootInfoAddress : BitVec 32) :
      ManagerStep s
        (.pmmInitialize (pmmInitialize image s.memory memory multibootInfoAddress s.pmm).1)
        { s with pmm := (pmmInitialize image s.memory memory multibootInfoAddress s.pmm).2 }
  | pmmClient {s : ManagerState} {event : PmmEvent} {t : PmmState} (hStep : PmmStep s.pmm event t) :
      ManagerStep s (.pmmClient event) { s with pmm := t }

def ManagerCall.memoryStatus : ManagerCall → Option KernelStatus
  | .memoryInitialize status => some status
  | _ => none

def ManagerCall.pmmStatus : ManagerCall → Option KernelStatus
  | .pmmInitialize status => some status
  | _ => none

/-- The result of the most recent call that reports a status. -/
def lastStatus (status : ManagerCall → Option KernelStatus) (calls : List ManagerCall) :
    Option KernelStatus :=
  (calls.filterMap status).getLast?

theorem lastStatus_snoc_some {status : ManagerCall → Option KernelStatus} {call : ManagerCall}
    {result : KernelStatus} (h : status call = some result) (calls : List ManagerCall) :
    lastStatus status (calls ++ [call]) = some result := by
  simp [lastStatus, List.filterMap_append, h]

theorem lastStatus_snoc_none {status : ManagerCall → Option KernelStatus} {call : ManagerCall}
    (h : status call = none) (calls : List ManagerCall) :
    lastStatus status (calls ++ [call]) = lastStatus status calls := by
  simp [lastStatus, List.filterMap_append, h]

section Closed

/-- Nothing can be taken from the allocator and nothing given back. -/
structure PmmClosed (s : PmmState) : Prop where
  uninitialized : s.initialized = false
  noneFree : s.freeFrames = 0#32
  allUsed : ∀ i < s.totalFrames.toNat, s.used i = true

/-- With no frame tracked the allocator is closed. -/
theorem pmmClosed_of_empty {s : PmmState} (hInit : s.initialized = false)
    (hFree : s.freeFrames = 0#32) (hTotal : s.totalFrames = 0#32) : PmmClosed s := by
  refine ⟨hInit, hFree, fun i hi => ?_⟩
  rw [hTotal] at hi
  exact absurd hi (Nat.not_lt_zero i)

/-- Every failure exit leaves the allocator closed. On the last one the
counters and the bitmaps are rebuilt already, and the free counter says that
no bit is left clear. -/
theorem pmmInitialize_closed {image : KernelImage} {m : MemoryState} {memory : PhysicalMemory}
    {multibootInfoAddress : BitVec 32} {s : PmmState}
    (hFail : (pmmInitialize image m memory multibootInfoAddress s).1 ≠ .ok) :
    PmmClosed (pmmInitialize image m memory multibootInfoAddress s).2 := by
  rw [pmmInitialize_eq] at hFail ⊢
  by_cases hAddress : multibootInfoAddress = 0#32
  · rw [if_pos hAddress]
    exact pmmClosed_of_empty rfl rfl rfl
  obtain ⟨hFresh, hInit⟩ := pmmPopulated_fresh image m memory hAddress s
  rw [if_neg hAddress] at hFail ⊢
  dsimp only at hFail ⊢
  split_ifs at hFail ⊢ with hReady hHighest hNone
  · exact pmmClosed_of_empty rfl rfl rfl
  · exact pmmClosed_of_empty rfl rfl rfl
  · refine ⟨hInit, hNone, fun i hi => ?_⟩
    have hCount := hFresh.counts.free_eq
    rw [hNone, BitVec.toNat_ofNat, Nat.zero_mod, eq_comm, Nat.count_iff_forall_not] at hCount
    exact not_not.mp (hCount i hi)
  · exact absurd rfl hFail

namespace PmmClosed

variable {s : PmmState} (h : PmmClosed s)
include h

theorem allocateFrame (outIsNull : Bool) : pmmAllocateFrame outIsNull s = (none, s) := by
  simp [pmmAllocateFrame, h.uninitialized]

theorem freeFrame (physicalAddress : BitVec 32) : pmmFreeFrame physicalAddress s = (false, s) := by
  simp [pmmFreeFrame, h.uninitialized]

theorem isFrameUsed (physicalAddress : BitVec 32) : pmmIsFrameUsed s physicalAddress = true := by
  simp only [pmmIsFrameUsed]
  cases hValid : pmmIsValidFrameIndex s (physicalAddress / pmmFrameSize) with
  | false => rfl
  | true =>
      have hTracked := ((pmmIsValidFrameIndex_iff _ _).mp hValid).1
      exact (pmmIsFrameIndexUsed_eq _ _).trans (h.allUsed _ hTracked)

/-- No client call gets through. -/
theorem client {event : PmmEvent} {t : PmmState} (hStep : PmmStep s event t) : t = s := by
  cases hStep with
  | allocateFrame outIsNull => rw [h.allocateFrame]
  | freeFrame physicalAddress => rw [h.freeFrame]

end PmmClosed

/-- Whatever happens before the last check, a failed `memory_initialize` does
not set the flag. -/
theorem memoryInitialize_closed {memory : PhysicalMemory} {multibootInfoAddress : BitVec 32}
    {previous : MemoryState}
    (hFail : (memoryInitialize memory multibootInfoAddress previous).1 ≠ .ok) :
    memoryIsInitialized (memoryInitialize memory multibootInfoAddress previous).2 = false := by
  by_cases hInfo : multibootInfoAddress = 0#32
  · rw [memoryInitialize, if_pos hInfo]
    rfl
  · obtain ⟨-, -, -, -, hReady⟩ := memoryInitialize_iff_grammar memory multibootInfoAddress previous hInfo
    rw [← Bool.not_eq_true]
    exact hReady.not.mpr hFail

/-- Without a parsed map the initializer fails, whatever else it was given. -/
theorem pmmInitialize_of_not_ready {m : MemoryState} (h : memoryIsInitialized m = false)
    (image : KernelImage) (memory : PhysicalMemory) (multibootInfoAddress : BitVec 32) (s : PmmState) :
    (pmmInitialize image m memory multibootInfoAddress s).1 = .invalidArgument ∨
      (pmmInitialize image m memory multibootInfoAddress s).1 = .notReady := by
  rw [pmmInitialize_eq]
  by_cases hAddress : multibootInfoAddress = 0#32
  · rw [if_pos hAddress]
    exact Or.inl rfl
  · rw [if_neg hAddress, h]
    exact Or.inr rfl

end Closed

/-- What the last statuses say about the state. -/
structure FailsClosed (calls : List ManagerCall) (s : ManagerState) : Prop where
  memory : ∀ status, lastStatus ManagerCall.memoryStatus calls = some status → status ≠ .ok →
    memoryIsInitialized s.memory = false
  pmm : ∀ status, lastStatus ManagerCall.pmmStatus calls = some status → status ≠ .ok →
    PmmClosed s.pmm

/-- One call, of either manager, keeps the two of them closed after a failure. -/
theorem ManagerStep.failsClosed {calls : List ManagerCall} {s t : ManagerState} {call : ManagerCall}
    (hStep : ManagerStep s call t) (hs : FailsClosed calls s) : FailsClosed (calls ++ [call]) t := by
  cases hStep with
  | memoryInitialize memory multibootInfoAddress =>
      refine ⟨fun status hLast hFail => ?_, fun status hLast hFail => ?_⟩
      · rw [lastStatus_snoc_some rfl] at hLast
        cases hLast
        exact memoryInitialize_closed hFail
      · rw [lastStatus_snoc_none rfl] at hLast
        exact hs.pmm status hLast hFail
  | pmmInitialize image memory multibootInfoAddress =>
      refine ⟨fun status hLast hFail => ?_, fun status hLast hFail => ?_⟩
      · rw [lastStatus_snoc_none rfl] at hLast
        exact hs.memory status hLast hFail
      · rw [lastStatus_snoc_some rfl] at hLast
        cases hLast
        exact pmmInitialize_closed hFail
  | pmmClient hClient =>
      refine ⟨fun status hLast hFail => ?_, fun status hLast hFail => ?_⟩
      · rw [lastStatus_snoc_none rfl] at hLast
        exact hs.memory status hLast hFail
      · rw [lastStatus_snoc_none rfl] at hLast
        have hClosed := hs.pmm status hLast hFail
        rw [hClosed.client hClient]
        exact hClosed

/-- Both managers fail closed after every sequence of calls, from any state. -/
theorem managers_fail_closed_of_run {start s : ManagerState} {calls : List ManagerCall}
    (run : TransitionSystem.Run ManagerStep start calls s) :
    (∀ status, lastStatus ManagerCall.memoryStatus calls = some status → status ≠ .ok →
      ∀ image memory multibootInfoAddress,
        (pmmInitialize image s.memory memory multibootInfoAddress s.pmm).1 = .invalidArgument ∨
        (pmmInitialize image s.memory memory multibootInfoAddress s.pmm).1 = .notReady) ∧
    ∀ status, lastStatus ManagerCall.pmmStatus calls = some status → status ≠ .ok →
      (∀ outIsNull, pmmAllocateFrame outIsNull s.pmm = (none, s.pmm)) ∧
      (∀ physicalAddress, pmmFreeFrame physicalAddress s.pmm = (false, s.pmm)) ∧
      pmmGetFreeFrameCount s.pmm = 0#32 ∧
      ∀ physicalAddress, pmmIsFrameUsed s.pmm physicalAddress = true := by
  have hNone : ∀ status, lastStatus status [] = none := fun _ => rfl
  have h : FailsClosed calls s := by
    refine run.history_invariant FailsClosed ⟨?_, ?_⟩ fun past u call t hu hStep => hStep.failsClosed hu
    · intro status hLast
      rw [hNone] at hLast
      cases hLast
    · intro status hLast
      rw [hNone] at hLast
      cases hLast
  refine ⟨fun status hLast hFail image memory multibootInfoAddress => ?_,
    fun status hLast hFail => ?_⟩
  · exact pmmInitialize_of_not_ready (h.memory status hLast hFail) image memory
      multibootInfoAddress s.pmm
  · have hClosed := h.pmm status hLast hFail
    exact ⟨hClosed.allocateFrame, hClosed.freeFrame, hClosed.noneFree, hClosed.isFrameUsed⟩

/-- A map is read, then `pmm_initialize` is called without its address. -/
theorem managers_fail_closed_of_run_null :
    let start : ManagerState := ⟨memoryResetSummary, .boot⟩
    let m := (memoryInitialize overlappingBootMemory 0x9000#32 start.memory).2
    let t := (pmmInitialize exampleKernelImage m overlappingBootMemory 0#32 start.pmm).2
    pmmAllocateFrame false t = (none, t) ∧ pmmGetFreeFrameCount t = 0#32 := by
  intro start m t
  have hStatus : (pmmInitialize exampleKernelImage m overlappingBootMemory 0#32 start.pmm).1 =
      .invalidArgument := by
    rw [pmmInitialize_eq, if_pos rfl]
  have run := (TransitionSystem.Run.single
    (ManagerStep.memoryInitialize start overlappingBootMemory 0x9000#32)).snoc
    (.pmmInitialize _ exampleKernelImage overlappingBootMemory 0#32)
  obtain ⟨hAllocate, -, hCount, -⟩ := (managers_fail_closed_of_run run).2 .invalidArgument
    (lastStatus_snoc_some (congrArg some hStatus) _) (by decide)
  exact ⟨hAllocate false, hCount⟩

end WigOSX
