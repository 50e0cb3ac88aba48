import WigOSX.Core.InputQueue
import WigOSX.Kernel.Footprint
import WigOSX.Kernel.Machine

/-! The guarantee of the IRQ path. A handler that interrupted a state keeps
the flag clear, enters the context once, and at its end has done no more to
the foreground than append accepted characters to the queue. -/
namespace WigOSX

open Interaction (Ensures)

section Predicates

/-- What a handler that interrupted `s` has done so far, with the flag and
the depth as they are now. -/
structure Preempted (s : KernelState) (flag : Bool) (depth : BitVec 32) (t : KernelState) : Prop where
  cpu : t.cpu = { interruptFlag := flag, stiShadow := false, halted := false }
  depth : t.interrupts.interruptContextDepth = depth
  panic : t.panicMessage = none
  given : t.given = s.given
  argument : t.shellArgument = s.shellArgument
  arrived : ∃ more, t.accepted = s.accepted ++ more ∧ inputQueued t.input = inputQueued s.input ++ more
  bound : (inputGetPendingCharacterCount t.input).toNat ≤ 64

/-- The foreground relies on interrupts to do no more than this. -/
def KernelRely (s t : KernelState) : Prop :=
  s = t ∨ (kernelProcessor.accepts s = true ∧ Preempted s true s.interrupts.interruptContextDepth t)

/-- Inside a handler. -/
def KernelMasked (s t : KernelState) : Prop :=
  Preempted s false 0#32 t ∨ Preempted s false 1#32 t

/-- What holds wherever the foreground stands. -/
structure ForegroundOk (s : KernelState) : Prop where
  depth : s.interrupts.interruptContextDepth = 0#32
  panic : s.panicMessage = none
  halted : s.cpu.halted = true → inputQueued s.input = []
  bound : (inputGetPendingCharacterCount s.input).toNat ≤ 64
  shell : ∀ ascii, s.shellArgument = some ascii → s.cpu.interruptFlag = true ∧
    ∃ handled, s.given = handled ++ [ascii] ∧ s.accepted = handled ++ ascii :: inputQueued s.input

end Predicates

section Requests

variable {ρ : Type} {device : BitVec 8} {s t : KernelState} {request : KernelRequest ρ} {reply : ρ}

/-- Only a running processor answers, and every answer ends the shadow. -/
theorem execute_eq_some (h : s.execute device request = some (reply, t)) :
    s.cpu.halted = false ∧ s.retire.serve device request = some (reply, t) := by
  rw [KernelState.execute] at h
  split at h
  · cases h
  · rename_i hRunning
    exact ⟨Bool.eq_false_iff.mpr hRunning, h⟩

/-- A quiet request changes neither the processor, shadow apart, nor the
depth, the queue and what is recorded about them. -/
structure QuietStep (s t : KernelState) : Prop where
  cpu : t.cpu = { s.cpu with stiShadow := false }
  running : s.cpu.halted = false
  depth : t.interrupts.interruptContextDepth = s.interrupts.interruptContextDepth
  input : t.input = s.input
  accepted : t.accepted = s.accepted
  given : t.given = s.given
  argument : t.shellArgument = s.shellArgument
  panic : t.panicMessage = s.panicMessage

/-- A quiet request is answered without touching what the two sides share. -/
theorem execute_quiet (h : s.execute device request = some (reply, t)) (hQuiet : request.Quiet) :
    QuietStep s t := by
  obtain ⟨hRunning, hServe⟩ := execute_eq_some h
  cases request with
  | interruptsDispatchIrq irq =>
      cases hServe
      exact ⟨rfl, hRunning, interruptsDispatchIrq_depth irq _, rfl, rfl, rfl, rfl, rfl⟩
  | cli => exact hQuiet.elim
  | sti => exact hQuiet.elim
  | hlt => exact hQuiet.elim
  | interruptsContextEnter => exact hQuiet.elim
  | interruptsContextExit => exact hQuiet.elim
  | inputStoreTail tail => exact hQuiet.elim
  | inputEnqueueCharacter ascii => exact hQuiet.elim
  | shellCall ascii => exact hQuiet.elim
  | shellReturn => exact hQuiet.elim
  | panicCall message => exact hQuiet.elim
  | haltForever => exact hQuiet.elim
  | _ =>
      cases hServe
      exact ⟨rfl, hRunning, rfl, rfl, rfl, rfl, rfl, rfl⟩

end Requests

section Handler

variable {s t u : KernelState} {flag : Bool} {depth : BitVec 32}

theorem Preempted.quiet (h : Preempted s flag depth t) (hStep : QuietStep t u) :
    Preempted s flag depth u where
  cpu := by rw [hStep.cpu, h.cpu]
  depth := hStep.depth.trans h.depth
  panic := hStep.panic.trans h.panic
  given := hStep.given.trans h.given
  argument := hStep.argument.trans h.argument
  arrived := by
    rw [hStep.accepted, hStep.input]
    exact h.arrived
  bound := by
    rw [hStep.input]
    exact h.bound

/-- A quiet program is run by a handler. -/
theorem Preempted.run_quiet {α : Type} {p : KernelProgram α} (h : Preempted s false depth t)
    (hQuiet : p.Only KernelRequest.Quiet) (hDepth : depth = 0#32 ∨ depth = 1#32) :
    Ensures KernelState.execute Eq (KernelMasked s) (fun _ u => Preempted s false depth u) p t := by
  refine hQuiet.ensures (Preempted s false depth) (fun u hKept => ?_) ?_ ?_ h
  · cases hDepth with
    | inl hZero => exact .inl (hZero ▸ hKept)
    | inr hOne => exact .inr (hOne ▸ hKept)
  · rintro u _ hKept rfl
    exact hKept
  · intro ρ device u request reply v hAllowed hKept hExec
    exact hKept.quiet (execute_quiet hExec hAllowed)

/-- The interrupt gate. -/
theorem preempted_enter (h : ForegroundOk s) : Preempted s false 0#32 s.enterInterrupt where
  cpu := rfl
  depth := h.depth
  panic := h.panic
  given := rfl
  argument := rfl
  arrived := ⟨[], (List.append_nil _).symm, (List.append_nil _).symm⟩
  bound := h.bound

/-- A character from the keyboard is accepted or dropped. -/
theorem Preempted.enqueue {ascii : BitVec 8} {device : BitVec 8} {reply : Bool}
    (h : Preempted s false depth t)
    (hExec : t.execute device (.inputEnqueueCharacter ascii) = some (reply, u)) :
    Preempted s false depth u := by
  obtain ⟨-, hServe⟩ := execute_eq_some hExec
  obtain ⟨more, hAccepted, hQueued⟩ := h.arrived
  cases hServe
  refine ⟨?_, h.depth, h.panic, h.given, h.argument, ?_, ?_⟩
  · show { t.cpu with stiShadow := false } = _
    rw [h.cpu]
  · cases inputEnqueueCharacter_cases ascii h.bound with
    | inl hFull =>
        refine ⟨more, ?_, ?_⟩
        · show (if (inputEnqueueCharacter ascii t.input).1 then _ else t.accepted) = _
          rw [hFull.2, if_neg Bool.noConfusion, hAccepted]
        · show inputQueued (inputEnqueueCharacter ascii t.input).2 = _
          rw [hFull.2]
          exact hQueued
    | inr hRoom =>
        obtain ⟨-, hTrue, -, -, -, hAppended⟩ := hRoom
        refine ⟨more ++ [ascii], ?_, ?_⟩
        · show (if (inputEnqueueCharacter ascii t.input).1 then t.accepted ++ [ascii] else _) = _
          rw [hTrue, if_pos rfl, hAccepted, List.append_assoc]
        · show inputQueued (inputEnqueueCharacter ascii t.input).2 = _
          rw [hAppended, hQueued, List.append_assoc]
  · show (inputGetPendingCharacterCount (inputEnqueueCharacter ascii t.input).2).toNat ≤ 64
    cases inputEnqueueCharacter_cases ascii h.bound with
    | inl hFull =>
        rw [hFull.2]
        exact h.bound
    | inr hRoom =>
        obtain ⟨hLess, -, -, -, hPending, -⟩ := hRoom
        omega

/-- Entering the context from depth 0. -/
theorem Preempted.contextEnter {device : BitVec 8} {reply : Bool} (h : Preempted s false 0#32 t)
    (hExec : t.execute device .interruptsContextEnter = some (reply, u)) :
    reply = true ∧ Preempted s false 1#32 u := by
  obtain ⟨-, hServe⟩ := execute_eq_some hExec
  have hEnter := interruptsContextEnter_zero h.depth
  cases hServe
  refine ⟨congrArg Prod.fst hEnter, ?_, ?_, h.panic, h.given, h.argument, h.arrived, h.bound⟩
  · show { t.cpu with stiShadow := false } = _
    rw [h.cpu]
  · exact congrArg (fun result => result.2.interruptContextDepth) hEnter

/-- Leaving it from depth 1. -/
theorem Preempted.contextExit {device : BitVec 8} {reply : Bool} (h : Preempted s false 1#32 t)
    (hExec : t.execute device .interruptsContextExit = some (reply, u)) :
    reply = true ∧ Preempted s false 0#32 u := by
  obtain ⟨-, hServe⟩ := execute_eq_some hExec
  have hExit := interruptsContextExit_one h.depth
  cases hServe
  refine ⟨congrArg Prod.fst hExit, ?_, ?_, h.panic, h.given, h.argument, h.arrived, h.bound⟩
  · show { t.cpu with stiShadow := false } = _
    rw [h.cpu]
  · exact congrArg (fun result => result.2.interruptContextDepth) hExit

/-- The keyboard's handler keeps its contract: what it offers goes behind the
characters that wait. -/
theorem inputHandleKeyboardInterrupt_ensures (h : Preempted s false 1#32 t) :
    Ensures KernelState.execute Eq (KernelMasked s) (fun _ u => Preempted s false 1#32 u)
      inputHandleKeyboardInterrupt t := by
  rintro t rfl
  refine ⟨.inr h, fun device rawScancode u hExec => ?_⟩
  have hPort := h.quiet (execute_quiet hExec trivial)
  rintro u rfl
  refine ⟨.inr hPort, fun device character v hExec => ?_⟩
  have hKey := hPort.quiet (execute_quiet hExec trivial)
  cases character with
  | none =>
      rintro v rfl
      exact ⟨.inr hKey, hKey⟩
  | some ascii =>
      rintro v rfl
      refine ⟨.inr hKey, fun device accepted w hExec => ?_⟩
      have hQueue := hKey.enqueue hExec
      rintro w rfl
      exact ⟨.inr hQueue, hQueue⟩

/-- Each registered handler keeps the contract of an interrupt. -/
theorem IrqHandler.run_ensures (handler : IrqHandler) (h : Preempted s false 1#32 t) :
    Ensures KernelState.execute Eq (KernelMasked s) (fun _ u => Preempted s false 1#32 u)
      handler.run t := by
  cases handler with
  | pitHandleInterrupt => exact h.run_quiet pitHandleInterrupt_quiet (.inr rfl)
  | inputHandleKeyboardInterrupt => exact inputHandleKeyboardInterrupt_ensures h

/-- So does the dispatcher, with a handler or without one. -/
theorem interruptsDispatch_ensures (irq : BitVec 8) (h : Preempted s false 1#32 t) :
    Ensures KernelState.execute Eq (KernelMasked s) (fun _ u => Preempted s false 1#32 u)
      (interruptsDispatch irq) t := by
  rintro t rfl
  refine ⟨.inr h, fun device handler u hExec => ?_⟩
  have hCounted := h.quiet (execute_quiet hExec trivial)
  cases handler with
  | none =>
      rintro u rfl
      exact ⟨.inr hCounted, hCounted⟩
  | some handler => exact handler.run_ensures hCounted

theorem picSendEoi_quiet (irq : BitVec 8) : (picSendEoi irq).Only KernelRequest.Quiet :=
  .ite trivial (.ite ⟨trivial, fun _ => ⟨trivial, fun _ => trivial⟩⟩ ⟨trivial, fun _ => trivial⟩)

/-- IRET from a handler that has left the context. -/
theorem Preempted.leave (h : Preempted s false 0#32 t) (hInv : ForegroundOk s)
    (hAccepts : kernelProcessor.accepts s = true) :
    KernelRely s (t.leaveInterrupt s.cpu.interruptFlag) := by
  have hFlag : s.cpu.interruptFlag = true := (Bool.and_eq_true_iff.mp hAccepts).1
  refine .inr ⟨hAccepts, ?_, ?_, h.panic, h.given, h.argument, h.arrived, h.bound⟩
  · show { t.cpu with interruptFlag := s.cpu.interruptFlag } = _
    rw [h.cpu, hFlag]
  · exact h.depth.trans hInv.depth.symm

theorem Preempted.clearFlag {device : BitVec 8} {reply : Unit} (h : Preempted s false depth t)
    (hExec : t.execute device .cli = some (reply, u)) : Preempted s false depth u := by
  obtain ⟨-, hServe⟩ := execute_eq_some hExec
  cases hServe
  refine ⟨?_, h.depth, h.panic, h.given, h.argument, h.arrived, h.bound⟩
  show { t.cpu with interruptFlag := false, stiShadow := false } = _
  rw [h.cpu]

/-- The stubs push no other vectors. -/
theorem irqStub_vector (line : Fin irqHandlerCount) :
    ¬(BitVec.ofNat 32 (32 + line.val) < 32#32 ∨ 47#32 < BitVec.ofNat 32 (32 + line.val)) := by
  have hLine : line.val < 16 := line.isLt
  rw [BitVec.lt_def, BitVec.lt_def, BitVec.toNat_ofNat, Nat.mod_eq_of_lt (by omega)]
  simp only [BitVec.toNat_ofNat]
  omega

/-- The IRQ path from the gate to IRET: none of its checks fails. -/
theorem irqStub_ensures (line : Fin irqHandlerCount) (hInv : ForegroundOk s)
    (hAccepts : kernelProcessor.accepts s = true) :
    Ensures KernelState.execute Eq (KernelMasked s)
      (fun _ t => KernelRely s (t.leaveInterrupt s.cpu.interruptFlag)) (irqStub line)
      s.enterInterrupt := by
  have hGate := preempted_enter hInv
  rintro t rfl
  refine ⟨.inl hGate, fun device reply u hExec => ?_⟩
  have hStub := hGate.clearFlag hExec
  show Ensures KernelState.execute Eq _ _ (irqHandler _) u
  rw [irqHandler, if_neg (irqStub_vector line)]
  rintro u rfl
  refine ⟨.inl hStub, fun device entered v hExec => ?_⟩
  obtain ⟨rfl, hEntered⟩ := hStub.contextEnter hExec
  show Ensures KernelState.execute Eq _ _ (interruptsDispatch _ >>= fun _ => picSendEoi _ >>= _) v
  refine Ensures.bind (fun _ => rfl) ((interruptsDispatch_ensures _ hEntered).mono ?_)
  intro _ w hDispatched
  refine Ensures.bind (fun _ => rfl)
    ((hDispatched.run_quiet (picSendEoi_quiet _) (.inr rfl)).mono ?_)
  intro _ x hAcknowledged
  rintro x rfl
  refine ⟨.inr hAcknowledged, fun device left y hExec => ?_⟩
  obtain ⟨rfl, hLeft⟩ := hAcknowledged.contextExit hExec
  rintro y rfl
  exact ⟨.inl hLeft, hLeft.leave hInv hAccepts⟩

end Handler

end WigOSX
