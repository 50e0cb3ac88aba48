import WigOSX.Kernel.IrqPath

/-! The guarantee of the foreground. Relying on no more than the IRQ path
guarantees, it is always at depth 0, halts on an empty queue only, and calls
the shell with interrupts enabled and the oldest character. -/
namespace WigOSX

open Interaction (Ensures)

/-- The foreground between two of its requests: its flag, the character that
it has taken from the queue and not yet given to the shell, and the argument
of the shell while that runs. -/
structure Working (flag : Bool) (taken : List (BitVec 8)) (argument : Option (BitVec 8))
    (s : KernelState) : Prop where
  flag : s.cpu.interruptFlag = flag
  halted : s.cpu.halted = true → inputQueued s.input = []
  depth : s.interrupts.interruptContextDepth = 0#32
  panic : s.panicMessage = none
  bound : (inputGetPendingCharacterCount s.input).toNat ≤ 64
  fifo : s.accepted = s.given ++ taken ++ inputQueued s.input
  shell : s.shellArgument = argument
  last : ∀ ascii, argument = some ascii → ∃ handled, s.given = handled ++ [ascii]

section Foreground

variable {s t u : KernelState} {flag : Bool} {taken : List (BitVec 8)} {argument : Option (BitVec 8)}

/-- Between two characters the foreground is in a state that its contract
allows. -/
theorem Working.ok (h : Working flag taken argument s)
    (hShell : argument = none ∨ flag = true ∧ taken = []) : ForegroundOk s where
  depth := h.depth
  panic := h.panic
  halted := h.halted
  bound := h.bound
  shell := by
    intro ascii hAscii
    rw [h.shell] at hAscii
    cases hShell with
    | inl hNone =>
        rw [hNone] at hAscii
        cases hAscii
    | inr hRunning =>
        obtain ⟨rfl, rfl⟩ := hRunning
        obtain ⟨handled, hGiven⟩ := h.last ascii hAscii
        refine ⟨h.flag, handled, hGiven, ?_⟩
        rw [h.fifo, hGiven, List.append_nil, List.append_assoc, List.singleton_append]

/-- Handlers leave the foreground's guarantee as it is. -/
theorem Working.rely (h : Working flag taken argument s) (hRely : KernelRely s t) :
    Working flag taken argument t := by
  cases hRely with
  | inl hSame => exact hSame ▸ h
  | inr hTaken =>
      obtain ⟨hAccepts, hPreempted⟩ := hTaken
      obtain ⟨more, hAccepted, hQueued⟩ := hPreempted.arrived
      have hFlag : s.cpu.interruptFlag = true := (Bool.and_eq_true_iff.mp hAccepts).1
      refine ⟨?_, ?_, hPreempted.depth.trans h.depth, hPreempted.panic, hPreempted.bound, ?_,
        hPreempted.argument.trans h.shell, ?_⟩
      · rw [hPreempted.cpu, ← h.flag, hFlag]
      · intro hHalted
        rw [hPreempted.cpu] at hHalted
        cases hHalted
      · rw [hAccepted, h.fifo, hPreempted.given, hQueued, List.append_assoc, List.append_assoc]
      · rw [hPreempted.given]
        exact h.last

/-- With the flag clear nothing intervenes. -/
theorem Working.masked (h : Working false taken argument s) (hRely : KernelRely s t) : s = t := by
  cases hRely with
  | inl hSame => exact hSame
  | inr hTaken =>
      have hFlag : s.cpu.interruptFlag = true := (Bool.and_eq_true_iff.mp hTaken.1).1
      rw [h.flag] at hFlag
      cases hFlag

theorem Working.quiet (h : Working flag taken argument s) (hStep : QuietStep s t) :
    Working flag taken argument t := by
  refine ⟨?_, ?_, hStep.depth.trans h.depth, hStep.panic.trans h.panic, ?_, ?_,
    hStep.argument.trans h.shell, ?_⟩
  · rw [hStep.cpu]
    exact h.flag
  · intro hHalted
    rw [hStep.cpu, hStep.running] at hHalted
    cases hHalted
  · rw [hStep.input]
    exact h.bound
  · rw [hStep.accepted, hStep.given, hStep.input]
    exact h.fifo
  · rw [hStep.given]
    exact h.last

/-- The guarantee of a foreground program in this development. -/
abbrev ForegroundEnsures {α : Type} (post : α → KernelState → Prop) (p : KernelProgram α)
    (s : KernelState) : Prop :=
  Ensures KernelState.execute KernelRely ForegroundOk post p s

/-- The rule for a request of the foreground. -/
theorem Working.ask {α ρ : Type} {request : KernelRequest ρ} {next : ρ → KernelProgram α}
    {post : α → KernelState → Prop} (h : Working flag taken argument s)
    (hShell : argument = none ∨ flag = true ∧ taken = [])
    (hNext : ∀ t device reply u, KernelRely s t → Working flag taken argument t →
      t.execute device request = some (reply, u) → ForegroundEnsures post (next reply) u) :
    ForegroundEnsures post (.ask request next) s := by
  intro t hRely
  have hWorking := h.rely hRely
  exact ⟨hWorking.ok hShell, fun device reply u hExec => hNext t device reply u hRely hWorking hExec⟩

/-- At the end of a program its result holds in the state that the interrupts
may have led to. -/
theorem Working.done {α : Type} {result : α} {post : α → KernelState → Prop}
    (h : Working flag taken argument s) (hShell : argument = none ∨ flag = true ∧ taken = [])
    (hPost : ∀ t, KernelRely s t → Working flag taken argument t → post result t) :
    ForegroundEnsures post (.done result) s := by
  intro t hRely
  have hWorking := h.rely hRely
  exact ⟨hWorking.ok hShell, hPost t hRely hWorking⟩

/-- The foreground is never in interrupt context. -/
theorem Working.notInContext {α : Type} {p q : KernelProgram α} {post : α → KernelState → Prop}
    (h : Working flag taken argument s) (hShell : argument = none ∨ flag = true ∧ taken = [])
    (hNext : ∀ u, Working flag taken argument u → ForegroundEnsures post q u) :
    ForegroundEnsures post (interruptsIsInContext >>= fun inside => if inside then p else q) s := by
  rw [interruptsIsInContext_bind]
  refine h.ask hShell fun t device depth u _ hWorking hExec => ?_
  have hStep := execute_quiet hExec trivial
  obtain ⟨-, hServe⟩ := execute_eq_some hExec
  have hDepth : depth = 0#32 := by
    cases hServe
    exact hWorking.depth
  rw [if_neg (by simp [hDepth])]
  exact hNext u (hWorking.quiet hStep)

section Instructions

variable {device : BitVec 8} {reply : Unit}

theorem Working.cli (h : Working flag taken none s)
    (hExec : s.execute device .cli = some (reply, t)) : Working false taken none t := by
  obtain ⟨hRunning, hServe⟩ := execute_eq_some hExec
  cases hServe
  refine ⟨rfl, fun hHalted => ?_, h.depth, h.panic, h.bound, h.fifo, h.shell, h.last⟩
  exact absurd (hRunning.symm.trans hHalted) Bool.noConfusion

/-- Behind `sti` they are on, one instruction later; the queue is as it was
before. -/
theorem Working.sti (h : Working flag taken none s)
    (hExec : s.execute device .sti = some (reply, t)) :
    Working true taken none t ∧ t.cpu.stiShadow = true ∧ t.input = s.input := by
  obtain ⟨hRunning, hServe⟩ := execute_eq_some hExec
  cases hServe
  refine ⟨⟨rfl, fun hHalted => ?_, h.depth, h.panic, h.bound, h.fifo, h.shell, h.last⟩, rfl, rfl⟩
  exact absurd (hRunning.symm.trans hHalted) Bool.noConfusion

/-- Halting is only allowed on an empty queue. -/
theorem Working.hlt (h : Working flag taken none s) (hEmpty : inputQueued s.input = [])
    (hExec : s.execute device .hlt = some (reply, t)) : Working flag taken none t := by
  obtain ⟨-, hServe⟩ := execute_eq_some hExec
  cases hServe
  exact ⟨h.flag, fun _ => hEmpty, h.depth, h.panic, h.bound, h.fifo, h.shell, h.last⟩

/-- The character taken from the queue is the one that the shell is called
with. -/
theorem Working.shellCall {ascii : BitVec 8} (h : Working flag [ascii] none s)
    (hExec : s.execute device (.shellCall ascii) = some (reply, t)) :
    Working flag [] (some ascii) t := by
  obtain ⟨-, hServe⟩ := execute_eq_some hExec
  cases hServe
  refine ⟨h.flag, h.halted, h.depth, h.panic, h.bound, ?_, rfl, ?_⟩
  · show s.accepted = s.given ++ [ascii] ++ [] ++ inputQueued s.input
    rw [List.append_nil]
    exact h.fifo
  · rintro other ⟨⟩
    exact ⟨s.given, rfl⟩

/-- Behind the call there is no character in the shell's hands. -/
theorem Working.shellReturn (h : Working flag taken argument s)
    (hExec : s.execute device .shellReturn = some (reply, t)) : Working flag taken none t := by
  obtain ⟨-, hServe⟩ := execute_eq_some hExec
  cases hServe
  exact ⟨h.flag, h.halted, h.depth, h.panic, h.bound, h.fifo, rfl, fun ascii => nofun⟩

/-- The tail store takes the oldest character out of the queue. -/
theorem Working.takeCharacter (h : Working flag [] none s)
    (hSome : s.input.queueTail ≠ s.input.queueHead)
    (hExec : s.execute device (.inputStoreTail (s.input.queueTail + 1#32)) = some (reply, t)) :
    Working flag [s.input.queue (inputQueueIndex s.input.queueTail)] none t := by
  obtain ⟨hRunning, hServe⟩ := execute_eq_some hExec
  have hPop := inputQueued_pop hSome
  have hLength := congrArg List.length hPop
  rw [List.length_cons, inputQueued_length, inputQueued_length] at hLength
  have hBound := h.bound
  have hFifo := h.fifo
  cases hServe
  refine ⟨h.flag, fun hHalted => ?_, h.depth, h.panic, ?_, ?_, h.shell, h.last⟩
  · exact absurd (hRunning.symm.trans hHalted) Bool.noConfusion
  · rw [hLength] at hBound
    exact Nat.le_of_succ_le hBound
  · rw [hPop, List.append_nil] at hFifo
    show s.accepted = s.given ++ [_] ++ inputQueued { s.input with queueTail := s.input.queueTail + 1#32 }
    rw [hFifo, List.append_assoc, List.singleton_append]

end Instructions

/-- `cpu_enable_interrupts`, up to its return. -/
theorem cpuEnableInterrupts_ensures (h : Working false taken none s) :
    ForegroundEnsures (fun _ t => Working true taken none t) cpuEnableInterrupts s := by
  refine h.ask (.inl rfl) fun t device reply u _ hWorking hExec => ?_
  obtain ⟨hEnabled, -, -⟩ := hWorking.sti hExec
  refine hEnabled.ask (.inl rfl) fun v device reply w _ hWorking hExec => ?_
  have hReturned := hWorking.quiet (execute_quiet hExec trivial)
  exact hReturned.done (.inl rfl) fun _ _ hDone => hDone

/-- The fused pair. The shadow of STI carries the emptiness of the queue over
to HLT. -/
theorem cpuEnableInterruptsAndHalt_ensures (h : Working false [] none s)
    (hEmpty : inputQueued s.input = []) :
    ForegroundEnsures (fun _ t => Working true [] none t) cpuEnableInterruptsAndHalt s := by
  refine h.ask (.inl rfl) fun t device reply u hRely hWorking hExec => ?_
  obtain rfl := h.masked hRely
  obtain ⟨hEnabled, hShadow, hInput⟩ := hWorking.sti hExec
  refine hEnabled.ask (.inl rfl) fun v device reply w hRely hWorking hExec => ?_
  have hSame : u = v := by
    cases hRely with
    | inl hSame => exact hSame
    | inr hTaken =>
        have hNoShadow := (Bool.and_eq_true_iff.mp hTaken.1).2
        rw [hShadow] at hNoShadow
        cases hNoShadow
  subst hSame
  have hHalted := hWorking.hlt (hInput ▸ hEmpty) hExec
  exact hHalted.done (.inl rfl) fun _ _ hDone => hDone

/-- What `input_try_read_character` leaves with interrupts disabled: the
oldest character in hand, or an empty queue. -/
def TryReadPost (result : Option (BitVec 8)) (s : KernelState) : Prop :=
  Working false result.toList none s ∧ (result = none → inputQueued s.input = [])

/-- A read of the queue with interrupts off takes one character, or returns
none and leaves the queue empty. -/
theorem inputTryRead_ensures (h : Working false [] none s) :
    ForegroundEnsures TryReadPost inputTryRead s := by
  refine h.ask (.inl rfl) fun t device tail u _ hWorking hExec => ?_
  have hTail := hWorking.quiet (execute_quiet hExec trivial)
  obtain rfl : tail = u.input.queueTail := by
    obtain ⟨-, hServe⟩ := execute_eq_some hExec
    cases hServe
    rfl
  refine hTail.ask (.inl rfl) fun v device head w hRely hWorking hExec => ?_
  obtain rfl := hTail.masked hRely
  have hHead := hWorking.quiet (execute_quiet hExec trivial)
  have hInput := (execute_quiet hExec trivial).input
  obtain rfl : head = w.input.queueHead := by
    obtain ⟨-, hServe⟩ := execute_eq_some hExec
    cases hServe
    rfl
  rw [← hInput]
  show ForegroundEnsures TryReadPost (if w.input.queueTail = w.input.queueHead then _ else _) w
  split
  · rename_i hEmpty
    refine hHead.done (.inl rfl) fun t hRely hDone => ?_
    obtain rfl := hHead.masked hRely
    exact ⟨hDone, fun _ => inputQueued_eq_nil hEmpty⟩
  · rename_i hSome
    refine hHead.ask (.inl rfl) fun x device ascii y hRely hWorking hExec => ?_
    obtain rfl := hHead.masked hRely
    have hSlot := hWorking.quiet (execute_quiet hExec trivial)
    have hInput := (execute_quiet hExec trivial).input
    obtain rfl : ascii = y.input.queue (inputQueueIndex y.input.queueTail) := by
      obtain ⟨-, hServe⟩ := execute_eq_some hExec
      cases hServe
      rfl
    rw [← hInput] at hSome ⊢
    refine hSlot.ask (.inl rfl) fun z device reply r hRely hWorking hExec => ?_
    obtain rfl := hSlot.masked hRely
    have hTaken := hWorking.takeCharacter hSome hExec
    exact hTaken.done (.inl rfl) fun _ _ hDone => ⟨hDone, nofun⟩

/-- The shell past its check, with interrupts enabled. -/
theorem shellEditLine_ensures {ascii : BitVec 8} (shell : ShellState)
    (h : Working true [] (some ascii) s) :
    ForegroundEnsures (fun _ t => Working true [] (some ascii) t) (shellEditLine ascii shell) s := by
  refine (shellEditLine_quiet ascii shell).ensures (Working true [] (some ascii))
    (fun t hKept => hKept.ok (.inr ⟨rfl, rfl⟩)) (fun t u hKept hRely => hKept.rely hRely) ?_ h
  intro ρ device t request reply u hQuiet hKept hExec
  exact hKept.quiet (execute_quiet hExec hQuiet)

/-- The shell is called with interrupts on and comes back with them on. -/
theorem shellHandleCharacterCall_ensures {ascii : BitVec 8} (shell : ShellState)
    (h : Working true [ascii] none s) :
    ForegroundEnsures (fun _ t => Working true [] none t) (shellHandleCharacterCall ascii shell) s := by
  refine h.ask (.inl rfl) fun t device reply u _ hWorking hExec => ?_
  have hCalled := hWorking.shellCall hExec
  show ForegroundEnsures _ (shellHandleCharacter ascii shell >>= _) u
  refine Ensures.bind (fun _ => .inl rfl) ?_
  refine hCalled.notInContext (.inr ⟨rfl, rfl⟩) fun v hInside => ?_
  refine (shellEditLine_ensures shell hInside).mono fun shell w hEdited => ?_
  refine hEdited.ask (.inr ⟨rfl, rfl⟩) fun x device reply y _ hWorking hExec => ?_
  have hReturned := hWorking.shellReturn hExec
  exact hReturned.done (.inl rfl) fun _ _ hDone => hDone

/-- One round of the foreground loop. -/
theorem kernelWorkRunOnce_ensures (shell : ShellState) (h : Working true [] none s) :
    ForegroundEnsures (fun _ t => Working true [] none t) (kernelWorkRunOnce shell) s := by
  refine h.notInContext (.inl rfl) fun t hOutside => ?_
  refine hOutside.ask (.inl rfl) fun u device reply v _ hWorking hExec => ?_
  have hDisabled := hWorking.cli hExec
  show ForegroundEnsures _ (inputTryRead >>= _) v
  refine Ensures.bind (fun _ => .inl rfl) ((inputTryRead_ensures hDisabled).mono ?_)
  intro result w hRead
  cases result with
  | none =>
      show ForegroundEnsures _ (cpuEnableInterruptsAndHalt >>= _) w
      refine Ensures.bind (fun _ => .inl rfl)
        ((cpuEnableInterruptsAndHalt_ensures hRead.1 (hRead.2 rfl)).mono ?_)
      intro _ x hIdle
      exact hIdle.done (.inl rfl) fun _ _ hDone => hDone
  | some ascii =>
      show ForegroundEnsures _ (cpuEnableInterrupts >>= _) w
      refine Ensures.bind (fun _ => .inl rfl) ((cpuEnableInterrupts_ensures hRead.1).mono ?_)
      intro _ x hEnabled
      exact shellHandleCharacterCall_ensures shell hEnabled

/-- From the point where `kernel_main` enables interrupts, every turn of its
loop starts in the same situation. -/
theorem kernelMainEnable_ensures (shell : ShellState) (h : Working false [] none s) :
    ForegroundEnsures (fun _ t => Working true [] none t) (kernelMainEnable shell) s := by
  refine Ensures.bind (fun _ => .inl rfl) ((cpuEnableInterrupts_ensures h).mono ?_)
  intro _ t hEnabled
  exact hEnabled.done (.inl rfl) fun _ _ hDone => hDone

/-- At that point interrupts are off and no character has been taken. -/
theorem kernelMainReady_working (prior : KernelState) : Working false [] none (kernelMainReady prior) := by
  have hEmpty : inputQueued (inputInitialize prior.input) = [] := inputQueued_eq_nil rfl
  refine ⟨rfl, nofun, rfl, rfl, ?_, hEmpty.symm, rfl, nofun⟩
  show (inputGetPendingCharacterCount (inputInitialize prior.input)).toNat ≤ 64
  rw [← inputQueued_length, hEmpty]
  exact Nat.zero_le 64

end Foreground

end WigOSX
