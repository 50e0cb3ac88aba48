import WigOSX.Kernel.Foreground

/-! The running kernel over every interleaving: interrupt context and the
idle loop. -/
namespace WigOSX

section Run

/-- Several interrupts in a row are to the foreground like one. -/
theorem KernelRely.trans {s t u : KernelState} (h : KernelRely s t) (hNext : KernelRely t u) :
    KernelRely s u := by
  cases h with
  | inl hSame => exact hSame ▸ hNext
  | inr hFirst =>
      cases hNext with
      | inl hSame => exact .inr (hSame ▸ hFirst)
      | inr hSecond =>
          obtain ⟨hAccepts, h⟩ := hFirst
          obtain ⟨-, hNext⟩ := hSecond
          obtain ⟨more, hAccepted, hQueued⟩ := h.arrived
          obtain ⟨still, hLater, hQueuedLater⟩ := hNext.arrived
          refine .inr ⟨hAccepts, hNext.cpu, hNext.depth.trans h.depth, hNext.panic,
            hNext.given.trans h.given, hNext.argument.trans h.argument, ⟨more ++ still, ?_, ?_⟩,
            hNext.bound⟩
          · rw [hLater, hAccepted, List.append_assoc]
          · rw [hQueuedLater, hQueued, List.append_assoc]

/-- The foreground and the handlers keep their contracts towards each other. -/
theorem kernel_discipline : kernelProcessor.Discipline kernelWorkRunOnce ForegroundOk KernelRely
    KernelMasked (fun _ s => Working true [] none s) where
  refl _ := .inl rfl
  trans _ _ _ := KernelRely.trans
  body shell _ h := kernelWorkRunOnce_ensures shell h
  handler line _ hInv hAccepts := irqStub_ensures line hInv hAccepts
  closed s t hMasked := by
    cases hMasked with
    | inl h =>
        show (t.cpu.interruptFlag && _) = false
        rw [h.cpu, Bool.false_and]
    | inr h =>
        show (t.cpu.interruptFlag && _) = false
        rw [h.cpu, Bool.false_and]

/-- Every configuration of the running kernel is covered. -/
theorem kernel_covered {prior : KernelState} {shell : ShellState}
    {pending : Fin irqHandlerCount → Bool} {actions : List (Schedule (Fin irqHandlerCount) (BitVec 8))}
    {c : KernelConfig} (run : TransitionSystem.Run KernelStep (kernelStart prior shell pending) actions c) :
    kernelProcessor.Covered ForegroundOk KernelRely KernelMasked (fun _ s => Working true [] none s) c :=
  kernel_discipline.covered_of_run
    (.foreground (kernelMainEnable_ensures shell (kernelMainReady_working prior))) run

/-- In every configuration of every interleaving: the flag is only set at
depth 0, the depth is at most 1, it is 0 when the foreground runs, and no
call of `kernel_panic` has been made. -/
theorem interrupt_context_discipline {prior : KernelState} {shell : ShellState}
    {pending : Fin irqHandlerCount → Bool} {actions : List (Schedule (Fin irqHandlerCount) (BitVec 8))}
    {c : KernelConfig} (run : TransitionSystem.Run KernelStep (kernelStart prior shell pending) actions c) :
    (c.state.cpu.interruptFlag = true → c.state.interrupts.interruptContextDepth = 0#32) ∧
    c.state.interrupts.interruptContextDepth.toNat ≤ 1 ∧
    (c.frames = [] → c.state.interrupts.interruptContextDepth = 0#32) ∧
    c.state.panicMessage = none := by
  cases kernel_covered run with
  | @foreground s p pending h =>
      have hOk := h.inv_of_refl fun _ => .inl rfl
      refine ⟨fun _ => hOk.depth, ?_, fun _ => hOk.depth, hOk.panic⟩
      show s.interrupts.interruptContextDepth.toNat ≤ 1
      rw [hOk.depth]
      decide
  | @handler s t p h pending hForeground hInv hAccepts hHandler =>
      obtain ⟨depth, hDepth, hPreempted⟩ : ∃ depth : BitVec 32, depth.toNat ≤ 1 ∧ Preempted s false depth t := by
        cases hHandler.inv_of_refl fun _ => rfl with
        | inl hOutside => exact ⟨0#32, by decide, hOutside⟩
        | inr hInside => exact ⟨1#32, by decide, hInside⟩
      refine ⟨fun hFlag => ?_, ?_, nofun, hPreempted.panic⟩
      · have hClear : t.cpu.interruptFlag = false := congrArg Cpu.interruptFlag hPreempted.cpu
        exact absurd (hClear.symm.trans hFlag) Bool.noConfusion
      · show t.interrupts.interruptContextDepth.toNat ≤ 1
        rw [hPreempted.depth]
        exact hDepth

/-- A key is pressed right after interrupts are enabled, and its handler has
just entered the context. -/
theorem interrupt_context_discipline_key : ∃ actions c,
    TransitionSystem.Run KernelStep (kernelStart .boot shellResetBuffer fun _ => false) actions c ∧
      c.state.interrupts.interruptContextDepth = 1#32 ∧ c.state.panicMessage = none := by
  obtain ⟨c, run, hDepth⟩ := kernelProcessor.exists_run_of_play kernelWorkRunOnce
    (kernelStart .boot shellResetBuffer fun _ => false)
    [.raise ⟨1, by decide⟩, .proceed 0#8, .proceed 0#8, .interrupt ⟨1, by decide⟩, .proceed 0#8,
      .proceed 0#8] (fun c => c.state.interrupts.interruptContextDepth) rfl
  exact ⟨_, c, run, hDepth, (interrupt_context_discipline run).2.2.2⟩

/-- Whenever the processor is halted the input queue is empty; whenever the
shell handles a character, interrupts are enabled, or will be again when the
handler that interrupted it returns, and the character is the oldest one that
was accepted and not handled before. -/
theorem no_lost_wakeup {prior : KernelState} {shell : ShellState}
    {pending : Fin irqHandlerCount → Bool} {actions : List (Schedule (Fin irqHandlerCount) (BitVec 8))}
    {c : KernelConfig} (run : TransitionSystem.Run KernelStep (kernelStart prior shell pending) actions c) :
    (c.state.cpu.halted = true → inputQueued c.state.input = []) ∧
    ∀ ascii, c.state.shellArgument = some ascii →
      (c.frames = [] → c.state.cpu.interruptFlag = true) ∧ (∀ frame ∈ c.frames, frame.1 = true) ∧
      ∃ handled, c.state.given = handled ++ [ascii] ∧
        c.state.accepted = handled ++ ascii :: inputQueued c.state.input := by
  cases kernel_covered run with
  | foreground h =>
      have hOk := h.inv_of_refl fun _ => .inl rfl
      refine ⟨hOk.halted, fun ascii hAscii => ?_⟩
      obtain ⟨hFlag, hOldest⟩ := hOk.shell ascii hAscii
      exact ⟨fun _ => hFlag, nofun, hOldest⟩
  | @handler s t p h pending hForeground hInv hAccepts hHandler =>
      obtain ⟨depth, hPreempted⟩ : ∃ depth, Preempted s false depth t := by
        cases hHandler.inv_of_refl fun _ => rfl with
        | inl hOutside => exact ⟨_, hOutside⟩
        | inr hInside => exact ⟨_, hInside⟩
      refine ⟨fun hHalted => ?_, fun ascii hAscii => ?_⟩
      · have hAwake : t.cpu.halted = false := congrArg Cpu.halted hPreempted.cpu
        exact absurd (hAwake.symm.trans hHalted) Bool.noConfusion
      · obtain ⟨hFlag, handled, hGiven, hAccepted⟩ := hInv.shell ascii (hPreempted.argument ▸ hAscii)
        obtain ⟨more, hMore, hQueued⟩ := hPreempted.arrived
        refine ⟨nofun, ?_, handled, hPreempted.given.trans hGiven, ?_⟩
        · intro frame hFrame
          obtain rfl := List.mem_singleton.mp hFrame
          exact hFlag
        · show t.accepted = handled ++ ascii :: inputQueued t.input
          rw [hMore, hAccepted, hQueued, List.append_assoc, List.cons_append]

/-- The same key reaches the shell. -/
theorem no_lost_wakeup_key : ∃ actions c,
    TransitionSystem.Run KernelStep (kernelStart .boot shellResetBuffer fun _ => false) actions c ∧
      c.state.shellArgument = some 0x61#8 ∧ ∃ handled, c.state.given = handled ++ [0x61#8] ∧
        c.state.accepted = handled ++ 0x61#8 :: inputQueued c.state.input := by
  obtain ⟨c, run, hShell⟩ := kernelProcessor.exists_run_of_play kernelWorkRunOnce
    (kernelStart .boot shellResetBuffer fun _ => false)
    ([.raise ⟨1, by decide⟩, .proceed 0#8, .proceed 0#8, .interrupt ⟨1, by decide⟩] ++
      List.replicate 19 (.proceed 0x1E#8)) (fun c => c.state.shellArgument) rfl
  exact ⟨_, c, run, hShell, ((no_lost_wakeup run).2 _ hShell).2.2⟩

end Run
end WigOSX
