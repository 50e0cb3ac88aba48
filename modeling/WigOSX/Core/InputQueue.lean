import WigOSX.Core.Input
import WigOSX.Library.CircularWindow
import WigOSX.Library.TransitionSystem

/-! First in, first out under preemption. The queued characters are a window
of the ring: a producer call extends it, the tail store of the consumer drops
its first cell, and the values that the consumer holds in locals stay true of
the window however often the producer runs in between. -/
namespace WigOSX

/-- The characters between tail and head, oldest first. -/
def inputQueued (s : InputState) : List (BitVec 8) :=
  (List.range (inputGetPendingCharacterCount s).toNat).map fun k =>
    s.queue (inputQueueIndex (s.queueTail + BitVec.ofNat 32 k))

def InputEvent.accepted : InputEvent → Option (BitVec 8)
  | .enqueued ascii true => some ascii
  | _ => none

def InputEvent.delivered : InputEvent → Option (BitVec 8)
  | .accessed (some (some ascii)) => some ascii
  | _ => none

def InputEvent.isRejected : InputEvent → Bool
  | .enqueued _ false => true
  | _ => false

section Window

/-- A position, which counts on modulo 2^32, is stored at its remainder by the
size of the queue. -/
theorem inputQueueIndex_eq (position : BitVec 32) : inputQueueIndex position = position.toNat % 64 := by
  have hMask : inputQueueIndexMask.toNat = 2 ^ 6 - 1 := by decide
  rw [inputQueueIndex, BitVec.toNat_and, hMask, Nat.and_two_pow_sub_one_eq_mod]

/-- The masked index survives the wrap of the positions because the capacity
divides `2 ^ 32`. -/
theorem inputQueueIndex_add (position : BitVec 32) (k : Nat) :
    inputQueueIndex (position + BitVec.ofNat 32 k) = (position.toNat + k) % 64 := by
  rw [inputQueueIndex_eq, BitVec.toNat_add, BitVec.toNat_ofNat]
  omega

theorem inputQueued_eq_window (s : InputState) :
    inputQueued s =
      CircularWindow.window s.queue 64 s.queueTail.toNat (inputGetPendingCharacterCount s).toNat := by
  rw [inputQueued, CircularWindow.window]
  apply List.map_congr_left
  intro k _
  rw [inputQueueIndex_add, CircularWindow.cell]

/-- As many characters wait as the two positions are apart. -/
@[simp] theorem inputQueued_length (s : InputState) :
    (inputQueued s).length = (inputGetPendingCharacterCount s).toNat := by
  rw [inputQueued_eq_window, CircularWindow.window_length]

/-- A call of the producer: refused without effect on the queue when 64
characters are pending, appended otherwise. -/
theorem inputEnqueueCharacter_cases (ascii : BitVec 8) {s : InputState}
    (hBound : (inputGetPendingCharacterCount s).toNat ≤ 64) :
    ((inputGetPendingCharacterCount s).toNat = 64 ∧ inputEnqueueCharacter ascii s =
      (false, { s with droppedCharacterCount := incrementSaturating s.droppedCharacterCount })) ∨
    ((inputGetPendingCharacterCount s).toNat < 64 ∧ (inputEnqueueCharacter ascii s).1 = true ∧
      (inputEnqueueCharacter ascii s).2.queueTail = s.queueTail ∧
      (inputEnqueueCharacter ascii s).2.droppedCharacterCount = s.droppedCharacterCount ∧
      (inputGetPendingCharacterCount (inputEnqueueCharacter ascii s).2).toNat =
        (inputGetPendingCharacterCount s).toNat + 1 ∧
      inputQueued (inputEnqueueCharacter ascii s).2 = inputQueued s ++ [ascii]) := by
  have hCapacity : inputQueueCapacity.toNat = 64 := rfl
  by_cases hFull : inputQueueCapacity ≤ s.queueHead - s.queueTail
  · have hLe := BitVec.le_def.mp hFull
    refine Or.inl ⟨by rw [inputGetPendingCharacterCount] at hBound ⊢; omega, ?_⟩
    rw [inputEnqueueCharacter, if_pos hFull]
  · have hRoom : (inputGetPendingCharacterCount s).toNat < 64 := by
      rw [BitVec.le_def, hCapacity, Nat.not_le] at hFull
      exact hFull
    have hPending : (s.queueHead + 1#32 - s.queueTail).toNat =
        (inputGetPendingCharacterCount s).toNat + 1 := by
      rw [inputGetPendingCharacterCount] at hRoom ⊢
      bv_omega
    have hSlot : inputQueueIndex s.queueHead =
        (s.queueTail.toNat + (inputGetPendingCharacterCount s).toNat) % 64 := by
      rw [← inputQueueIndex_add, inputGetPendingCharacterCount, BitVec.ofNat_toNat,
        BitVec.setWidth_eq, BitVec.add_comm, BitVec.sub_add_cancel]
    rw [inputEnqueueCharacter, if_neg hFull]
    refine Or.inr ⟨hRoom, rfl, rfl, rfl, hPending, ?_⟩
    rw [inputQueued_eq_window, inputQueued_eq_window]
    show CircularWindow.window _ 64 s.queueTail.toNat (s.queueHead + 1#32 - s.queueTail).toNat = _
    rw [hPending, hSlot]
    exact CircularWindow.window_push s.queue 64 s.queueTail.toNat hRoom ascii

/-- Moving the tail over a pending character drops the oldest one. -/
theorem inputQueued_pop {s : InputState} (hSome : s.queueTail ≠ s.queueHead) :
    inputQueued s = s.queue (inputQueueIndex s.queueTail) ::
      inputQueued { s with queueTail := s.queueTail + 1#32 } := by
  have hPending : (inputGetPendingCharacterCount s).toNat =
      (s.queueHead - (s.queueTail + 1#32)).toNat + 1 := by
    rw [inputGetPendingCharacterCount]
    bv_omega
  have hTail : (s.queueTail + 1#32).toNat % 64 = (s.queueTail.toNat + 1) % 64 := by
    rw [BitVec.toNat_add, BitVec.toNat_ofNat]
    omega
  rw [inputQueued_eq_window, hPending, CircularWindow.window_pop, inputQueued_eq_window,
    CircularWindow.cell, inputQueueIndex_eq, Nat.add_zero]
  show _ = _ :: CircularWindow.window s.queue 64 (s.queueTail + 1#32).toNat _
  rw [← CircularWindow.window_mod_start, ← hTail, CircularWindow.window_mod_start]
  rfl

end Window

section Run

/-- What the consumer's locals still say about the current queue. -/
def InputReader.Holds (s : InputState) : InputReader → Prop
  | .idle => True
  | .loadedTail tail => tail = s.queueTail
  | .loadedHead tail head => tail = s.queueTail ∧ (tail ≠ head → s.queueTail ≠ s.queueHead)
  | .loadedSlot tail ascii => tail = s.queueTail ∧ ∃ rest, inputQueued s = ascii :: rest

/-- The queue after a history of producer calls and consumer accesses. -/
structure InputTracks (events : List InputEvent) (s : InputState) (reader : InputReader) : Prop where
  bound : (inputGetPendingCharacterCount s).toNat ≤ 64
  fifo : events.filterMap InputEvent.delivered ++ inputQueued s =
    events.filterMap InputEvent.accepted
  dropped : s.droppedCharacterCount.toNat = min (events.countP InputEvent.isRejected) (2 ^ 32 - 1)
  reader : reader.Holds s

theorem queueTail_ne_queueHead_iff (s : InputState) :
    s.queueTail ≠ s.queueHead ↔ 0 < (inputGetPendingCharacterCount s).toNat := by
  rw [inputGetPendingCharacterCount, ne_eq, ← BitVec.toNat_inj]
  bv_omega

theorem inputQueued_eq_nil {s : InputState} (h : s.queueTail = s.queueHead) : inputQueued s = [] := by
  rw [← List.length_eq_zero_iff, inputQueued_length]
  exact Nat.eq_zero_of_not_pos fun hPos => (queueTail_ne_queueHead_iff s).mpr hPos h

/-- A producer call never invalidates what the consumer has loaded. -/
theorem InputReader.Holds.enqueue {s : InputState} {reader : InputReader} (h : reader.Holds s)
    (ascii : BitVec 8) (hBound : (inputGetPendingCharacterCount s).toNat ≤ 64) :
    reader.Holds (inputEnqueueCharacter ascii s).2 := by
  rcases inputEnqueueCharacter_cases ascii hBound with ⟨-, hFull⟩ |
    ⟨-, -, hTail, -, hPending, hQueued⟩
  · rw [hFull]
    cases reader with
    | idle => trivial
    | loadedTail tail => exact h
    | loadedHead tail head => exact h
    | loadedSlot tail ascii => exact h
  · cases reader with
    | idle => trivial
    | loadedTail tail => exact h.trans hTail.symm
    | loadedHead tail head =>
        refine ⟨h.1.trans hTail.symm, fun _ => ?_⟩
        rw [queueTail_ne_queueHead_iff]
        omega
    | loadedSlot tail first =>
        obtain ⟨rest, hFirst⟩ := h.2
        refine ⟨h.1.trans hTail.symm, rest ++ [ascii], ?_⟩
        rw [hQueued, hFirst, List.cons_append]

/-- An offer appends its character to those that wait, or is refused and
changes none of them. -/
theorem InputTracks.enqueue {events : List InputEvent} {s : InputState} {reader : InputReader}
    (h : InputTracks events s reader) (ascii : BitVec 8) :
    InputTracks (events ++ [.enqueued ascii (inputEnqueueCharacter ascii s).1])
      (inputEnqueueCharacter ascii s).2 reader := by
  have hReader := h.reader.enqueue ascii h.bound
  rcases inputEnqueueCharacter_cases ascii h.bound with ⟨-, hFull⟩ |
    ⟨hRoom, hTrue, -, hDropped, hPending, hQueued⟩
  · rw [hFull] at hReader ⊢
    refine ⟨h.bound, ?_, ?_, hReader⟩
    · rw [List.filterMap_append, List.filterMap_append]
      show _ ++ [] ++ inputQueued s = _ ++ []
      rw [List.append_nil, List.append_nil]
      exact h.fifo
    · rw [List.countP_append]
      exact incrementSaturating_toNat h.dropped
  · refine ⟨by omega, ?_, ?_, hReader⟩
    · rw [hTrue, List.filterMap_append, List.filterMap_append, hQueued]
      show _ ++ [] ++ (inputQueued s ++ [ascii]) = _ ++ [ascii]
      rw [List.append_nil, ← List.append_assoc, h.fifo]
    · rw [hTrue, List.countP_append, hDropped]
      exact h.dropped

/-- An access that delivers nothing leaves queue and counter alone. -/
theorem InputTracks.quiet {events : List InputEvent} {s : InputState} {reader next : InputReader}
    (h : InputTracks events s reader) {returned : Option (Option (BitVec 8))}
    (hQuiet : InputEvent.delivered (.accessed returned) = none) (hNext : next.Holds s) :
    InputTracks (events ++ [.accessed returned]) s next := by
  refine ⟨h.bound, ?_, ?_, hNext⟩
  · rw [List.filterMap_append, List.filterMap_append, List.filterMap_cons_none hQuiet]
    show _ ++ [] ++ inputQueued s = _ ++ []
    rw [List.append_nil, List.append_nil]
    exact h.fifo
  · rw [List.countP_append]
    exact h.dropped

/-- The tail store delivers the oldest queued character. -/
theorem InputTracks.deliver {events : List InputEvent} {s : InputState} {ascii : BitVec 8}
    (h : InputTracks events s (.loadedSlot s.queueTail ascii)) :
    InputTracks (events ++ [.accessed (some (some ascii))])
      { s with queueTail := s.queueTail + 1#32 } .idle := by
  obtain ⟨-, rest, hFirst⟩ := h.reader
  have hSome : s.queueTail ≠ s.queueHead := by
    rw [queueTail_ne_queueHead_iff, ← inputQueued_length, hFirst]
    exact Nat.succ_pos _
  have hPop := inputQueued_pop hSome
  have hLength := congrArg List.length hPop
  rw [List.length_cons, inputQueued_length, inputQueued_length] at hLength
  rw [hFirst] at hPop
  obtain ⟨hAscii, hRest⟩ := List.cons.inj hPop
  have hBound := h.bound
  refine ⟨by omega, ?_, ?_, trivial⟩
  · rw [List.filterMap_append, List.filterMap_append]
    show _ ++ [ascii] ++ inputQueued _ = _ ++ []
    rw [List.append_nil, ← hRest, List.append_assoc, List.singleton_append, ← hFirst]
    exact h.fifo
  · rw [List.countP_append]
    exact h.dropped

/-- One access of the reader, which may be any step of a read that an offer
interrupts. -/
theorem InputTracks.access {events : List InputEvent} {s : InputState} {reader : InputReader}
    (h : InputTracks events s reader) :
    InputTracks (events ++ [.accessed (inputReaderStep s reader).2.2]) (inputReaderStep s reader).1
      (inputReaderStep s reader).2.1 := by
  have hReader := h.reader
  cases reader with
  | idle => exact h.quiet rfl rfl
  | loadedTail tail =>
      obtain rfl : tail = s.queueTail := hReader
      exact h.quiet rfl ⟨rfl, id⟩
  | loadedHead tail head =>
      obtain ⟨rfl, hSome⟩ := hReader
      by_cases hEmpty : s.queueTail = head
      · rw [inputReaderStep, if_pos hEmpty]
        exact h.quiet rfl trivial
      · rw [inputReaderStep, if_neg hEmpty]
        exact h.quiet rfl ⟨rfl, _, inputQueued_pop (hSome hEmpty)⟩
  | loadedSlot tail ascii =>
      obtain rfl : tail = s.queueTail := hReader.1
      exact h.deliver

/-- A call that nothing interrupts is a run of its accesses, the last of which
returns. -/
theorem inputTryReadCharacter_run (s : InputState) :
    ∃ silent, (∀ event ∈ silent, event = InputEvent.accessed none) ∧
      TransitionSystem.Run InputStep { input := s, reader := .idle }
        (silent ++ [.accessed (some (inputTryReadCharacter false s).1)])
        { input := (inputTryReadCharacter false s).2, reader := .idle } := by
  have hTail := TransitionSystem.Run.single (InputStep.access { input := s, reader := .idle })
  have hHead := hTail.snoc (.access { input := s, reader := .loadedTail s.queueTail })
  have hSlot := InputStep.access { input := s, reader := .loadedHead s.queueTail s.queueHead }
  by_cases hEmpty : s.queueTail = s.queueHead
  · have hCall : inputTryReadCharacter false s = (none, s) := by
      simp [inputTryReadCharacter, hEmpty]
    rw [hCall]
    simp only [inputReaderStep, if_pos hEmpty] at hSlot
    exact ⟨_, by simp [inputReaderStep], hHead.snoc hSlot⟩
  · have hCall : inputTryReadCharacter false s =
        (some (s.queue (inputQueueIndex s.queueTail)), { s with queueTail := s.queueTail + 1#32 }) := by
      simp [inputTryReadCharacter, hEmpty]
    rw [hCall]
    simp only [inputReaderStep, if_neg hEmpty] at hSlot
    exact ⟨_, by simp [inputReaderStep], (hHead.snoc hSlot).snoc (.access _)⟩

/-- The queue starts empty, with no read under way. -/
theorem inputTracks_reset (s : InputState) : InputTracks [] (inputInitialize s) .idle := by
  have hPending : inputGetPendingCharacterCount (inputInitialize s) = 0#32 := BitVec.sub_self _
  refine ⟨?_, ?_, rfl, trivial⟩
  · rw [hPending]
    exact Nat.zero_le 64
  · rw [inputQueued_eq_window, hPending]
    rfl

/-- By induction on the run, the queue is tracked over every interleaving. -/
theorem inputTracks_of_run {s : InputState} {events : List InputEvent} {sys : InputSystem}
    (run : TransitionSystem.Run InputStep { input := inputInitialize s, reader := .idle } events sys) :
    InputTracks events sys.input sys.reader := by
  refine run.history_invariant (fun events sys => InputTracks events sys.input sys.reader)
    (inputTracks_reset s) fun past before event after h hStep => ?_
  cases hStep with
  | enqueue ascii => exact h.enqueue ascii
  | access => exact h.access

/-- From `input_initialize`, whatever the interleaving and however often the
positions wrap: at most 64 characters are pending, delivered and queued
characters together are the accepted ones in order, a character is refused
exactly when 64 are queued, and the dropped counter saturates. -/
theorem input_fifo_of_run {s : InputState} {events : List InputEvent} {sys : InputSystem}
    (run : TransitionSystem.Run InputStep { input := inputInitialize s, reader := .idle } events sys) :
    (sys.input.queueHead - sys.input.queueTail).toNat ≤ 64 ∧
    events.filterMap InputEvent.delivered ++ inputQueued sys.input =
      events.filterMap InputEvent.accepted ∧
    (∀ ascii, (inputEnqueueCharacter ascii sys.input).1 = false ↔
      (inputQueued sys.input).length = 64) ∧
    (inputGetDroppedCharacterCount sys.input).toNat =
      min (events.countP InputEvent.isRejected) (2 ^ 32 - 1) := by
  have h := inputTracks_of_run run
  refine ⟨h.bound, h.fifo, fun ascii => ?_, h.dropped⟩
  rw [inputQueued_length]
  rcases inputEnqueueCharacter_cases ascii h.bound with ⟨hFull, hFalse⟩ | ⟨hRoom, hTrue, -⟩
  · rw [hFalse]
    exact iff_of_true rfl hFull
  · rw [hTrue]
    exact iff_of_false Bool.noConfusion (by omega)

/-- A character arrives between the two loads of the positions. -/
theorem input_fifo_of_run_preempted :
    ∃ events sys, TransitionSystem.Run InputStep { input := inputInitialize .boot, reader := .idle }
        events sys ∧ events.length = 5 ∧
      events.filterMap InputEvent.delivered ++ inputQueued sys.input =
        events.filterMap InputEvent.accepted := by
  have hLoad := TransitionSystem.Run.single
    (InputStep.access { input := inputInitialize .boot, reader := .idle })
  have hArrive := hLoad.snoc (.enqueue _ 0x61#8)
  have run := ((hArrive.snoc (.access _)).snoc (.access _)).snoc (.access _)
  exact ⟨_, _, run, rfl, (input_fifo_of_run run).2.1⟩

end Run
end WigOSX
