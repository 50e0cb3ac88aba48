import WigOSX.Machine.Limits

/-! The IRQ registry, context tracking and counters of `interrupts.c`. What a
registered handler is stays open. -/
namespace WigOSX

/-- `IRQ_HANDLER_COUNT`. -/
def irqHandlerCount : Nat := 16

/-- The static state of `interrupts.c`. A null handler is `none`. -/
structure InterruptsState (Handler : Type) where
  irqHandlers : Fin irqHandlerCount → Option Handler
  irqDispatchCounts : Fin irqHandlerCount → BitVec 32
  unhandledIrqCount : BitVec 32
  invalidIrqCount : BitVec 32
  interruptContextDepth : BitVec 32

variable {Handler : Type}

/-- Every static variable is overwritten, so the previous state is not read. -/
def interruptsInitialize : InterruptsState Handler where
  irqHandlers := fun _ => none
  irqDispatchCounts := fun _ => 0#32
  unhandledIrqCount := 0#32
  invalidIrqCount := 0#32
  interruptContextDepth := 0#32

def interruptsRegisterIrq (irq : BitVec 8) (handler : Option Handler) (s : InterruptsState Handler) :
    Bool × InterruptsState Handler :=
  if h : irqHandlerCount ≤ irq.toNat ∨ handler.isNone then (false, s)
  else
    let line : Fin irqHandlerCount := ⟨irq.toNat, Nat.not_le.mp (not_or.mp h).1⟩
    if (s.irqHandlers line).isSome then (false, s)
    else (true, { s with irqHandlers := Function.update s.irqHandlers line handler })

def interruptsContextEnter (s : InterruptsState Handler) : Bool × InterruptsState Handler :=
  if s.interruptContextDepth = uint32Max then (false, s)
  else (true, { s with interruptContextDepth := s.interruptContextDepth + 1#32 })

def interruptsContextExit (s : InterruptsState Handler) : Bool × InterruptsState Handler :=
  if s.interruptContextDepth = 0#32 then (false, s)
  else (true, { s with interruptContextDepth := s.interruptContextDepth - 1#32 })

def interruptsGetContextDepth (s : InterruptsState Handler) : BitVec 32 :=
  s.interruptContextDepth

/-- The counters of `interrupts_dispatch_irq`, with the handler that it calls
last, if any. -/
def interruptsDispatchIrq (irq : BitVec 8) (s : InterruptsState Handler) :
    Option Handler × InterruptsState Handler :=
  if h : irqHandlerCount ≤ irq.toNat then
    (none, { s with invalidIrqCount := incrementSaturating s.invalidIrqCount })
  else
    let line : Fin irqHandlerCount := ⟨irq.toNat, Nat.not_le.mp h⟩
    let s :=
      { s with
        irqDispatchCounts :=
          Function.update s.irqDispatchCounts line (incrementSaturating (s.irqDispatchCounts line)) }
    match s.irqHandlers line with
    | none => (none, { s with unhandledIrqCount := incrementSaturating s.unhandledIrqCount })
    | some handler => (some handler, s)

def interruptsGetIrqCount (irq : BitVec 8) (s : InterruptsState Handler) : BitVec 32 :=
  if h : irqHandlerCount ≤ irq.toNat then 0#32 else s.irqDispatchCounts ⟨irq.toNat, Nat.not_le.mp h⟩

def interruptsGetUnhandledIrqCount (s : InterruptsState Handler) : BitVec 32 :=
  s.unhandledIrqCount

def interruptsGetInvalidIrqCount (s : InterruptsState Handler) : BitVec 32 :=
  s.invalidIrqCount

/-- Dispatching counts and selects; it does not touch the depth. -/
@[simp] theorem interruptsDispatchIrq_depth (irq : BitVec 8) (s : InterruptsState Handler) :
    (interruptsDispatchIrq irq s).2.interruptContextDepth = s.interruptContextDepth := by
  rw [interruptsDispatchIrq]
  split
  · rfl
  · dsimp only
    split
    · rfl
    · rfl

/-- At depth 0 the context can be entered, and the depth is 1 inside. -/
theorem interruptsContextEnter_zero {s : InterruptsState Handler}
    (h : s.interruptContextDepth = 0#32) :
    interruptsContextEnter s = (true, { s with interruptContextDepth := 1#32 }) := by
  have hFree : s.interruptContextDepth ≠ uint32Max := by
    rw [h]
    decide
  rw [interruptsContextEnter, if_neg hFree, h, BitVec.zero_add]

/-- Leaving the only context that was entered. -/
theorem interruptsContextExit_one {s : InterruptsState Handler}
    (h : s.interruptContextDepth = 1#32) :
    interruptsContextExit s = (true, { s with interruptContextDepth := 0#32 }) := by
  have hInside : s.interruptContextDepth ≠ 0#32 := by
    rw [h]
    decide
  rw [interruptsContextExit, if_neg hInside, h, BitVec.sub_self]

end WigOSX
