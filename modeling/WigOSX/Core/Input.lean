import WigOSX.Machine.Limits

/-! The queued input service of `input.c`. The interrupt handler is the only
producer and runs to completion; the foreground is the only consumer and may
be interrupted between any two of its loads and stores. -/
namespace WigOSX

/-- `INPUT_QUEUE_CAPACITY`. -/
def inputQueueCapacity : BitVec 32 := 64#32

/-- `INPUT_QUEUE_INDEX_MASK`. -/
def inputQueueIndexMask : BitVec 32 := inputQueueCapacity - 1#32

/-- The static state of `input.c`. The two positions run freely and wrap. -/
structure InputState where
  queue : Nat → BitVec 8
  queueHead : BitVec 32
  queueTail : BitVec 32
  droppedCharacterCount : BitVec 32

/-- Static initialization at boot. -/
def InputState.boot : InputState where
  queue := fun _ => 0#8
  queueHead := 0#32
  queueTail := 0#32
  droppedCharacterCount := 0#32

/-- The slot of a queue position. -/
def inputQueueIndex (position : BitVec 32) : Nat :=
  (position &&& inputQueueIndexMask).toNat

/-- The characters stay in the array; only the positions are reset. -/
def inputInitialize (s : InputState) : InputState :=
  { s with queueHead := 0#32, queueTail := 0#32, droppedCharacterCount := 0#32 }

def inputEnqueueCharacter (ascii : BitVec 8) (s : InputState) : Bool × InputState :=
  if inputQueueCapacity ≤ s.queueHead - s.queueTail then
    (false, { s with droppedCharacterCount := incrementSaturating s.droppedCharacterCount })
  else
    (true,
      { s with
        queue := Function.update s.queue (inputQueueIndex s.queueHead) ascii
        queueHead := s.queueHead + 1#32 })

/-- Where the consumer stands between two of its memory accesses, with the
values it holds in locals. -/
inductive InputReader where
  | idle
  | loadedTail (tail : BitVec 32)
  | loadedHead (tail head : BitVec 32)
  | loadedSlot (tail : BitVec 32) (ascii : BitVec 8)

/-- One memory access of `input_try_read_character` on a non-null pointer. The
result of a call is there once it returns: `some none` for false, `some (some
ascii)` for a delivered character. -/
def inputReaderStep (s : InputState) : InputReader → InputState × InputReader × Option (Option (BitVec 8))
  | .idle => (s, .loadedTail s.queueTail, none)
  | .loadedTail tail => (s, .loadedHead tail s.queueHead, none)
  | .loadedHead tail head =>
      if tail = head then (s, .idle, some none)
      else (s, .loadedSlot tail (s.queue (inputQueueIndex tail)), none)
  | .loadedSlot tail ascii => ({ s with queueTail := tail + 1#32 }, .idle, some (some ascii))

/-- `input_try_read_character` without interruption. -/
def inputTryReadCharacter (outIsNull : Bool) (s : InputState) : Option (BitVec 8) × InputState :=
  if outIsNull then (none, s)
  else if s.queueTail = s.queueHead then (none, s)
  else
    (some (s.queue (inputQueueIndex s.queueTail)), { s with queueTail := s.queueTail + 1#32 })

def inputGetPendingCharacterCount (s : InputState) : BitVec 32 :=
  s.queueHead - s.queueTail

def inputGetDroppedCharacterCount (s : InputState) : BitVec 32 :=
  s.droppedCharacterCount

/-- The queue and the consumer that reads from it. -/
structure InputSystem where
  input : InputState
  reader : InputReader

/-- A complete producer call with its result, or one access of the consumer
with what it returned to its caller. -/
inductive InputEvent where
  | enqueued (ascii : BitVec 8) (accepted : Bool)
  | accessed (returned : Option (Option (BitVec 8)))

/-- The producer may run between any two accesses of the consumer. -/
inductive InputStep : InputSystem → InputEvent → InputSystem → Prop where
  | enqueue (sys : InputSystem) (ascii : BitVec 8) :
      InputStep sys (.enqueued ascii (inputEnqueueCharacter ascii sys.input).1)
        { sys with input := (inputEnqueueCharacter ascii sys.input).2 }
  | access (sys : InputSystem) :
      InputStep sys (.accessed (inputReaderStep sys.input sys.reader).2.2)
        { input := (inputReaderStep sys.input sys.reader).1
          reader := (inputReaderStep sys.input sys.reader).2.1 }

end WigOSX
