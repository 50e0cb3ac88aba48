import WigOSX.Core.Interrupts

/-! The IRQ registry over whole runs. Calls of `interrupts_register_irq` and
`interrupts_dispatch_irq` follow each other in any order. What is registered
for a line, and what the three kinds of counters show, is a function of the
calls made so far. -/
namespace WigOSX

variable {Handler : Type}

/-- A call with its arguments. A null handler is `none`. -/
inductive IrqCall (Handler : Type) where
  | register (irq : BitVec 8) (handler : Option Handler)
  | dispatch (irq : BitVec 8)

namespace IrqCall

/-- The handler that the call would register for a line. -/
def offers (irq : BitVec 8) : IrqCall Handler → Option Handler
  | .register line handler => if line = irq then handler else none
  | .dispatch _ => none

def isDispatchOf (irq : BitVec 8) : IrqCall Handler → Bool
  | .register _ _ => false
  | .dispatch line => line = irq

def isInvalidDispatch : IrqCall Handler → Bool
  | .register _ _ => false
  | .dispatch irq => irqHandlerCount ≤ irq.toNat

end IrqCall

def irqCall (s : InterruptsState Handler) : IrqCall Handler → InterruptsState Handler
  | .register irq handler => (interruptsRegisterIrq irq handler s).2
  | .dispatch irq => (interruptsDispatchIrq irq s).2

/-- The state after `interrupts_initialize` and some calls. -/
def irqAfter (calls : List (IrqCall Handler)) : InterruptsState Handler :=
  calls.foldl irqCall interruptsInitialize

/-- The first handler that was offered for a line. -/
def registeredHandler (irq : BitVec 8) (calls : List (IrqCall Handler)) : Option Handler :=
  if irq.toNat < irqHandlerCount then calls.findSome? (IrqCall.offers irq) else none

/-- A dispatch of a line that nothing was registered for. -/
def IrqCall.isUnhandledAfter (past : List (IrqCall Handler)) : IrqCall Handler → Bool
  | .register _ _ => false
  | .dispatch irq => irq.toNat < irqHandlerCount && (registeredHandler irq past).isNone

/-- The dispatches of lines that were made before their registration. -/
def unhandledDispatches (calls : List (IrqCall Handler)) : Nat :=
  (List.range calls.length).countP fun i =>
    (calls[i]?).any (IrqCall.isUnhandledAfter (calls.take i))

section History

/-- A further call registers its handler only where none was registered
before. -/
theorem registeredHandler_snoc (irq : BitVec 8) (calls : List (IrqCall Handler))
    (call : IrqCall Handler) :
    registeredHandler irq (calls ++ [call]) =
      (registeredHandler irq calls).or
        (if irq.toNat < irqHandlerCount then call.offers irq else none) := by
  rw [registeredHandler, registeredHandler]
  split_ifs with hLine
  · rw [List.findSome?_append, List.findSome?_singleton]
  · rfl

theorem registeredHandler_dispatch (irq line : BitVec 8) (calls : List (IrqCall Handler)) :
    registeredHandler irq (calls ++ [.dispatch line]) = registeredHandler irq calls := by
  rw [registeredHandler_snoc]
  simp [IrqCall.offers]

theorem unhandledDispatches_snoc (calls : List (IrqCall Handler)) (call : IrqCall Handler) :
    unhandledDispatches (calls ++ [call]) =
      unhandledDispatches calls + if call.isUnhandledAfter calls then 1 else 0 := by
  have hBefore : ∀ i ∈ List.range calls.length,
      ((calls ++ [call])[i]?).any (IrqCall.isUnhandledAfter ((calls ++ [call]).take i)) =
        (calls[i]?).any (IrqCall.isUnhandledAfter (calls.take i)) := by
    intro i hi
    have hLt := List.mem_range.mp hi
    rw [List.getElem?_append_left hLt, List.take_append_of_le_length hLt.le]
  rw [unhandledDispatches, List.length_append, List.length_singleton, List.range_succ,
    List.countP_append, unhandledDispatches]
  congr 1
  · apply List.countP_congr
    intro i hi
    rw [hBefore i hi]
  · simp [List.countP_cons]

end History

section Run

/-- The registry after a history of calls. -/
structure IrqTracks (calls : List (IrqCall Handler)) (s : InterruptsState Handler) : Prop where
  handlers : ∀ irq (h : irq.toNat < irqHandlerCount),
    s.irqHandlers ⟨irq.toNat, h⟩ = registeredHandler irq calls
  counts : ∀ irq (h : irq.toNat < irqHandlerCount),
    (s.irqDispatchCounts ⟨irq.toNat, h⟩).toNat =
      min (calls.countP (IrqCall.isDispatchOf irq)) (2 ^ 32 - 1)
  unhandled : s.unhandledIrqCount.toNat = min (unhandledDispatches calls) (2 ^ 32 - 1)
  invalid : s.invalidIrqCount.toNat = min (calls.countP IrqCall.isInvalidDispatch) (2 ^ 32 - 1)

theorem irqTracks_initialize : IrqTracks [] (interruptsInitialize : InterruptsState Handler) := by
  refine ⟨fun irq h => ?_, fun irq h => rfl, rfl, rfl⟩
  rw [registeredHandler, if_pos h]
  rfl

variable {calls : List (IrqCall Handler)} {s : InterruptsState Handler}

/-- A registration fills an empty line and changes nothing else. -/
theorem interruptsRegisterIrq_spec (irq : BitVec 8) (handler : Option Handler)
    (s : InterruptsState Handler) :
    ∃ handlers, (interruptsRegisterIrq irq handler s).2 = { s with irqHandlers := handlers } ∧
      ∀ line (h : line.toNat < irqHandlerCount), handlers ⟨line.toNat, h⟩ =
        (s.irqHandlers ⟨line.toNat, h⟩).or (if irq = line then handler else none) := by
  rw [interruptsRegisterIrq]
  split_ifs with hRefused
  · refine ⟨s.irqHandlers, rfl, fun line h => ?_⟩
    split_ifs with hLine
    · subst hLine
      rw [Option.isNone_iff_eq_none] at hRefused
      rw [hRefused.resolve_left (Nat.not_le.mpr h), Option.or_none]
    · rw [Option.or_none]
  · rw [not_or, Nat.not_le] at hRefused
    dsimp only
    split_ifs with hTaken
    · refine ⟨s.irqHandlers, rfl, fun line h => ?_⟩
      split_ifs with hLine
      · subst hLine
        rw [Option.or_of_isSome hTaken]
      · rw [Option.or_none]
    · refine ⟨_, rfl, fun line h => ?_⟩
      split_ifs with hLine
      · subst hLine
        rw [Option.not_isSome_iff_eq_none] at hTaken
        rw [Function.update_self, hTaken, Option.none_or]
      · rw [Option.or_none, Function.update_of_ne]
        intro hEq
        exact hLine (BitVec.eq_of_toNat_eq (Fin.mk.inj hEq).symm)

/-- A registration, accepted or refused, keeps the table in step with the
calls. -/
theorem IrqTracks.register (h : IrqTracks calls s) (irq : BitVec 8) (handler : Option Handler) :
    IrqTracks (calls ++ [.register irq handler]) (interruptsRegisterIrq irq handler s).2 := by
  obtain ⟨handlers, hState, hHandlers⟩ := interruptsRegisterIrq_spec irq handler s
  rw [hState]
  refine ⟨fun line hLine => ?_, fun line hLine => ?_, ?_, ?_⟩
  · rw [registeredHandler_snoc, if_pos hLine, ← h.handlers line hLine]
    exact hHandlers line hLine
  · rw [List.countP_append]
    exact h.counts line hLine
  · rw [unhandledDispatches_snoc]
    exact h.unhandled
  · rw [List.countP_append]
    exact h.invalid

theorem countP_snoc (p : IrqCall Handler → Bool) (call : IrqCall Handler) :
    (calls ++ [call]).countP p = calls.countP p + if p call then 1 else 0 := by
  rw [List.countP_append, List.countP_singleton]

/-- A dispatch moves the counter of its line, or the one of invalid lines,
and the one of unhandled lines when nothing is registered. -/
theorem IrqTracks.dispatch (h : IrqTracks calls s) (irq : BitVec 8) :
    (interruptsDispatchIrq irq s).1 = registeredHandler irq calls ∧
    IrqTracks (calls ++ [.dispatch irq]) (interruptsDispatchIrq irq s).2 := by
  by_cases hInvalid : irqHandlerCount ≤ irq.toNat
  · have hNone : registeredHandler irq calls = none := if_neg (Nat.not_lt.mpr hInvalid)
    rw [interruptsDispatchIrq, dif_pos hInvalid]
    refine ⟨hNone.symm, fun line hLine => ?_, fun line hLine => ?_, ?_, ?_⟩
    · rw [registeredHandler_dispatch]
      exact h.handlers line hLine
    · have hOther : irq ≠ line := by
        rintro rfl
        exact absurd hLine (Nat.not_lt.mpr hInvalid)
      rw [countP_snoc]
      simpa [IrqCall.isDispatchOf, hOther] using h.counts line hLine
    · rw [unhandledDispatches_snoc]
      simpa [IrqCall.isUnhandledAfter, Nat.not_lt.mpr hInvalid] using h.unhandled
    · rw [countP_snoc]
      simpa [IrqCall.isInvalidDispatch, hInvalid] using incrementSaturating_toNat h.invalid
  · have hValid := Nat.not_le.mp hInvalid
    have hCounts : ∀ (line : BitVec 8) (hLine : line.toNat < irqHandlerCount),
        (Function.update s.irqDispatchCounts ⟨irq.toNat, hValid⟩
          (incrementSaturating (s.irqDispatchCounts ⟨irq.toNat, hValid⟩)) ⟨line.toNat, hLine⟩).toNat =
          min ((calls ++ [IrqCall.dispatch irq]).countP (IrqCall.isDispatchOf line)) (2 ^ 32 - 1) := by
      intro line hLine
      rw [countP_snoc]
      by_cases hSame : irq = line
      · subst hSame
        rw [Function.update_self]
        simpa [IrqCall.isDispatchOf] using incrementSaturating_toNat (h.counts irq hLine)
      · rw [Function.update_of_ne]
        · simpa [IrqCall.isDispatchOf, hSame] using h.counts line hLine
        · intro hEq
          exact hSame (BitVec.eq_of_toNat_eq (Fin.mk.inj hEq).symm)
    have hHandlers : ∀ line (hLine : line.toNat < irqHandlerCount),
        s.irqHandlers ⟨line.toNat, hLine⟩ = registeredHandler line (calls ++ [.dispatch irq]) := by
      intro line hLine
      rw [registeredHandler_dispatch]
      exact h.handlers line hLine
    have hInvalidCount : s.invalidIrqCount.toNat =
        min ((calls ++ [IrqCall.dispatch irq]).countP IrqCall.isInvalidDispatch) (2 ^ 32 - 1) := by
      rw [countP_snoc]
      simpa [IrqCall.isInvalidDispatch, hInvalid] using h.invalid
    have hLine := h.handlers irq hValid
    rw [interruptsDispatchIrq, dif_neg hInvalid]
    dsimp only
    split
    · rename_i hNone
      rw [hNone] at hLine
      refine ⟨hLine, hHandlers, hCounts, ?_, hInvalidCount⟩
      rw [unhandledDispatches_snoc]
      simpa [IrqCall.isUnhandledAfter, hValid, ← hLine] using incrementSaturating_toNat h.unhandled
    · rename_i handler hSome
      rw [hSome] at hLine
      refine ⟨hLine, hHandlers, hCounts, ?_, hInvalidCount⟩
      rw [unhandledDispatches_snoc]
      simpa [IrqCall.isUnhandledAfter, ← hLine] using h.unhandled

/-- By induction on the calls, the table and its counters are those that the
calls determine. -/
theorem irqTracks_after (calls : List (IrqCall Handler)) : IrqTracks calls (irqAfter calls) := by
  induction calls using List.reverseRecOn with
  | nil => exact irqTracks_initialize
  | append_singleton calls call ih =>
      rw [irqAfter, List.foldl_append]
      cases call with
      | register irq handler => exact ih.register irq handler
      | dispatch irq => exact (ih.dispatch irq).2

/-- After any calls: a registration succeeds exactly for a valid line and a
handler that is not null, when there was no such call for the line before; a
dispatch calls the handler of the first such call, and nothing without one;
and every counter shows its number of dispatches, up to its limit. -/
theorem irq_registry_exact (calls : List (IrqCall Handler)) :
    (∀ irq handler, (interruptsRegisterIrq irq handler (irqAfter calls)).1 = true ↔
      irq.toNat < irqHandlerCount ∧ handler ≠ none ∧ registeredHandler irq calls = none) ∧
    (∀ irq, (interruptsDispatchIrq irq (irqAfter calls)).1 = registeredHandler irq calls) ∧
    (∀ irq, irq.toNat < irqHandlerCount → (interruptsGetIrqCount irq (irqAfter calls)).toNat =
      min (calls.countP (IrqCall.isDispatchOf irq)) (2 ^ 32 - 1)) ∧
    (interruptsGetUnhandledIrqCount (irqAfter calls)).toNat =
      min (unhandledDispatches calls) (2 ^ 32 - 1) ∧
    (interruptsGetInvalidIrqCount (irqAfter calls)).toNat =
      min (calls.countP IrqCall.isInvalidDispatch) (2 ^ 32 - 1) := by
  have h := irqTracks_after calls
  refine ⟨fun irq handler => ?_, fun irq => (h.dispatch irq).1, fun irq hLine => ?_, h.unhandled,
    h.invalid⟩
  · rw [interruptsRegisterIrq]
    split_ifs with hRefused
    · rw [Option.isNone_iff_eq_none] at hRefused
      refine iff_of_false id fun hAccepted => ?_
      exact hRefused.elim (Nat.not_le.mpr hAccepted.1) hAccepted.2.1
    · rw [not_or, Nat.not_le, Option.isNone_iff_eq_none] at hRefused
      rw [← h.handlers irq hRefused.1]
      dsimp only
      split_ifs with hTaken
      · rw [Option.isSome_iff_ne_none] at hTaken
        exact iff_of_false id fun hAccepted => hTaken hAccepted.2.2
      · rw [Option.not_isSome_iff_eq_none] at hTaken
        exact iff_of_true rfl ⟨hRefused.1, hRefused.2, hTaken⟩
  · rw [interruptsGetIrqCount, dif_neg (Nat.not_le.mpr hLine)]
    exact h.counts irq hLine

end Run
end WigOSX
