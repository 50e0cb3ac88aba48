import WigOSX.Kernel.Service
import WigOSX.Library.Completion

/-! The kernel comes to rest. From every configuration of every run, when no
further interrupt is taken, the running handler returns, the shell handles all
characters that are queued, and the processor halts, whatever the devices
answer in the meantime. -/
namespace WigOSX

open Interaction (Completes Ensures Exchange Executes Only Orderly Returns only_perform_iff)
open TransitionSystem (Inevitable)

section Orderly

/-- The last loop of a panic. -/
def KernelRequest.EndsKernel : ∀ ⦃ρ : Type⦄, KernelRequest ρ → Prop
  | _, .haltForever => True
  | _, _ => False

def KernelRequest.Panics : ∀ ⦃ρ : Type⦄, KernelRequest ρ → Prop
  | _, .panicCall _ => True
  | _, _ => False

def KernelRequest.Sleeps : ∀ ⦃ρ : Type⦄, KernelRequest ρ → Prop
  | _, .hlt => True
  | _, _ => False

/-- A program that halts forever in a panic only, and sleeps at its end only. -/
abbrev KernelOrderly {α : Type} (p : KernelProgram α) : Prop :=
  p.Orderly (fun _ r => ¬r.EndsKernel) KernelRequest.Panics KernelRequest.Sleeps

/-- A request that neither halts nor sleeps. -/
def KernelRequest.Plain ⦃ρ : Type⦄ (r : KernelRequest ρ) : Prop := ¬r.EndsKernel ∧ ¬r.Sleeps

theorem KernelRequest.Quiet.plain {ρ : Type} {r : KernelRequest ρ} (h : r.Quiet) : r.Plain := by
  cases r with
  | haltForever => exact h.elim
  | hlt => exact h.elim
  | _ => exact ⟨id, id⟩

/-- A program of plain requests can stand before an orderly one. -/
theorem orderly_bind {α β : Type} {p : KernelProgram α} {f : α → KernelProgram β}
    (h : p.Only KernelRequest.Plain) (hNext : ∀ a, KernelOrderly (f a)) : KernelOrderly (p >>= f) :=
  h.orderly_bind hNext

theorem orderly_quiet {α β : Type} {p : KernelProgram α} {f : α → KernelProgram β}
    (h : p.Only KernelRequest.Quiet) (hNext : ∀ a, KernelOrderly (f a)) : KernelOrderly (p >>= f) :=
  orderly_bind (h.mono fun _ _ hQuiet => hQuiet.plain) hNext

theorem orderly_perform {α ρ : Type} {r : KernelRequest ρ} {f : ρ → KernelProgram α} (h : r.Plain)
    (hNext : ∀ reply, KernelOrderly (f reply)) : KernelOrderly (Interaction.perform r >>= f) :=
  orderly_bind (only_perform_iff.mpr h) hNext

/-- A panic is orderly: it announces itself, and from then on it may stop. -/
theorem kernelPanic_orderly {α : Type} (message : String) :
    KernelOrderly (kernelPanic message : KernelProgram α) :=
  ⟨id, .inl trivial, fun hSleeps => hSleeps.elim⟩

/-- What stands behind a panic is never reached, so it need not be orderly. -/
theorem kernelPanic_bind_orderly {α β : Type} (message : String) (f : α → KernelProgram β) :
    KernelOrderly ((kernelPanic message : KernelProgram α) >>= f) :=
  ⟨id, .inl trivial, fun hSleeps => hSleeps.elim⟩

/-- The keyboard's handler reads its port and offers a character, without
halting. -/
theorem inputHandleKeyboardInterrupt_plain : inputHandleKeyboardInterrupt.Only KernelRequest.Plain := by
  refine ⟨⟨id, id⟩, fun raw => ⟨⟨id, id⟩, fun character => ?_⟩⟩
  cases character with
  | none => trivial
  | some ascii => exact ⟨⟨id, id⟩, fun _ => trivial⟩

/-- Whichever handler is registered, its requests are plain. -/
theorem interruptsDispatch_plain (irq : BitVec 8) : (interruptsDispatch irq).Only KernelRequest.Plain := by
  refine ⟨⟨id, id⟩, fun handler => ?_⟩
  cases handler with
  | none => trivial
  | some handler =>
      cases handler with
      | pitHandleInterrupt => exact pitHandleInterrupt_quiet.mono fun _ _ hQuiet => hQuiet.plain
      | inputHandleKeyboardInterrupt => exact inputHandleKeyboardInterrupt_plain

/-- The stub of every line is orderly. -/
theorem irqStub_orderly (line : Fin irqHandlerCount) : KernelOrderly (irqStub line) := by
  refine orderly_perform ⟨id, id⟩ fun _ => .ite (kernelPanic_orderly _) ?_
  refine orderly_perform ⟨id, id⟩ fun _ => .ite ?_ (kernelPanic_orderly _)
  refine orderly_bind (interruptsDispatch_plain _) fun _ => orderly_quiet (picSendEoi_quiet _) fun _ => ?_
  exact orderly_perform ⟨id, id⟩ fun _ => .ite trivial (kernelPanic_orderly _)

/-- The shell is orderly on every character, with the panic in interrupt
context as its only stop. -/
theorem shellHandleCharacter_orderly {α : Type} (ascii : BitVec 8) (shell : ShellState)
    {f : ShellState → KernelProgram α} (h : ∀ later, KernelOrderly (f later)) :
    KernelOrderly (shellHandleCharacter ascii shell >>= f) := by
  show KernelOrderly (interruptsIsInContext >>= _ >>= f)
  rw [Interaction.bind_assoc]
  refine orderly_bind ⟨⟨id, id⟩, fun _ => trivial⟩ fun inContext => ?_
  cases inContext with
  | true => exact kernelPanic_bind_orderly _ f
  | false => exact orderly_quiet (shellEditLine_quiet ascii shell) h

/-- A round is orderly: it halts the processor only as its last request. -/
theorem kernelWorkRunOnce_orderly (shell : ShellState) : KernelOrderly (kernelWorkRunOnce shell) := by
  refine orderly_bind ⟨⟨id, id⟩, fun _ => trivial⟩ fun _ => .ite (kernelPanic_orderly _) ?_
  refine orderly_perform ⟨id, id⟩ fun _ => orderly_bind ?_ fun result => ?_
  · refine ⟨⟨id, id⟩, fun tail => ⟨⟨id, id⟩, fun head => .ite trivial ?_⟩⟩
    exact ⟨⟨id, id⟩, fun ascii => ⟨⟨id, id⟩, fun _ => trivial⟩⟩
  · cases result with
    | none =>
        -- HLT is the last request of the round
        refine orderly_perform ⟨id, id⟩ fun _ => ⟨id, .inr fun _ => trivial, fun _ _ => ⟨shell, rfl⟩⟩
    | some ascii =>
        refine orderly_perform ⟨id, id⟩ fun _ => orderly_perform ⟨id, id⟩ fun _ => ?_
        refine orderly_perform ⟨id, id⟩ fun _ => shellHandleCharacter_orderly ascii shell fun later => ?_
        exact orderly_perform ⟨id, id⟩ fun _ => trivial

theorem kernelMainEnable_orderly (shell : ShellState) : KernelOrderly (kernelMainEnable shell) :=
  orderly_bind ⟨⟨id, id⟩, fun _ => ⟨⟨id, id⟩, fun _ => trivial⟩⟩ fun _ => trivial

end Orderly

section Requests

variable {ρ : Type} {device : BitVec 8} {s t : KernelState} {r : KernelRequest ρ} {reply : ρ}

/-- A running processor answers everything but the end of a panic. -/
theorem execute_answers (s : KernelState) (h : ¬r.EndsKernel) :
    s.cpu.halted = true ∨ ∀ device, ∃ reply t, s.execute device r = some (reply, t) := by
  cases hHalted : s.cpu.halted with
  | true => exact .inl rfl
  | false =>
      refine .inr fun device => ?_
      rw [KernelState.execute, if_neg (by rw [hHalted]; exact Bool.false_ne_true)]
      cases r with
      | haltForever => exact (h trivial).elim
      | _ => exact ⟨_, _, rfl⟩

theorem execute_panics (h : r.Panics) (hExec : s.execute device r = some (reply, t)) :
    t.panicMessage ≠ none := by
  obtain ⟨-, hServe⟩ := execute_eq_some hExec
  cases r with
  | panicCall message =>
      cases hServe
      exact Option.some_ne_none _
  | _ => exact h.elim

/-- Only HLT halts, and it ends the shadow of the STI before it. -/
theorem execute_halts (hExec : s.execute device r = some (reply, t)) (hHalted : t.cpu.halted = true) :
    r.Sleeps ∧ t.cpu.stiShadow = false := by
  obtain ⟨hRunning, hServe⟩ := execute_eq_some hExec
  cases r with
  | hlt =>
      cases hServe
      exact ⟨trivial, rfl⟩
  | haltForever => cases hServe
  | _ =>
      cases hServe
      exact absurd (hRunning.symm.trans hHalted) Bool.noConfusion

end Requests

section Run

abbrev KernelCovered (c : KernelConfig) : Prop :=
  kernelProcessor.Covered ForegroundOk KernelRely KernelMasked (fun _ s => Working true [] none s) c

/-- In a covered configuration no panic has been called. -/
theorem KernelCovered.panic {c : KernelConfig} (h : KernelCovered c) : c.state.panicMessage = none := by
  cases h with
  | foreground h => exact (h.inv_of_refl fun _ => .inl rfl).panic
  | handler hForeground hInv hAccepts hHandler =>
      cases hHandler.inv_of_refl fun _ => rfl with
      | inl hOutside => exact hOutside.panic
      | inr hInside => exact hInside.panic

/-- While a handler runs the processor is not halted. -/
theorem KernelCovered.running {c : KernelConfig} (h : KernelCovered c) (hFrames : c.frames ≠ []) :
    c.state.cpu.halted = false := by
  cases h with
  | foreground h => exact absurd rfl hFrames
  | @handler s t p h pending hForeground hInv hAccepts hHandler =>
      show t.cpu.halted = false
      cases hHandler.inv_of_refl fun _ => rfl with
      | inl hOutside => rw [hOutside.cpu]
      | inr hInside => rw [hInside.cpu]

/-- The programs of a configuration are orderly, and the processor halts only
where it can be woken and when everything that was accepted has been given to
the shell. -/
structure KernelRests (c : KernelConfig) : Prop where
  covered : KernelCovered c
  foreground : KernelOrderly c.foreground
  frames : ∀ frame ∈ c.frames, KernelOrderly frame.2
  asleep : c.state.cpu.halted = true →
    kernelProcessor.accepts c.state = true ∧ c.frames = [] ∧ c.state.given = c.state.accepted

/-- The rest of an orderly program behind an answered request. -/
theorem orderly_next {α ρ : Type} {r : KernelRequest ρ} {next : ρ → KernelProgram α} {device : BitVec 8}
    {s t : KernelState} {reply : ρ} (h : KernelOrderly (.ask r next))
    (hExec : s.execute device r = some (reply, t)) (hPanic : t.panicMessage = none) :
    KernelOrderly (next reply) := by
  obtain ⟨-, hSafe, -⟩ := h
  cases hSafe with
  | inl hPanics => exact absurd hPanic (execute_panics hPanics hExec)
  | inr hNext => exact hNext reply

/-- What the argument needs of a configuration is kept by every move of the
recorded kernel. -/
theorem KernelRests.move {x y : KernelRecorded} (h : KernelRests x.config) (hCovered : KernelCovered y.config)
    {action : Schedule (Fin irqHandlerCount) (BitVec 8)}
    (hMove : kernelProcessor.Move kernelWorkRunOnce kernelRecorder x action y) : KernelRests y.config := by
  cases hMove with
  | raise => exact ⟨hCovered, h.foreground, h.frames, h.asleep⟩
  | interrupt line hAccepts =>
      refine ⟨hCovered, h.foreground, fun frame hFrame => ?_, nofun⟩
      cases List.mem_cons.mp hFrame with
      | inl hNew => exact hNew ▸ irqStub_orderly line
      | inr hOld => exact h.frames frame hOld
  | again carried => exact ⟨hCovered, kernelWorkRunOnce_orderly carried, h.frames, h.asleep⟩
  | @work ρ r next device s t reply pending record hExec =>
      refine ⟨hCovered, orderly_next h.foreground hExec hCovered.panic, nofun, fun hHalted => ?_⟩
      -- the round is over, so its guarantee is about this state
      obtain ⟨hSleeps, hShadow⟩ := execute_halts hExec hHalted
      obtain ⟨shell, hEnd⟩ := h.foreground.2.2 hSleeps reply
      dsimp only at hCovered hHalted ⊢
      rw [hEnd] at hCovered
      cases hCovered with
      | foreground hEnsures =>
          have hWorking : Working true [] none t := (hEnsures t (.inl rfl)).2
          refine ⟨?_, rfl, ?_⟩
          · show (t.cpu.interruptFlag && !t.cpu.stiShadow) = true
            rw [hWorking.flag, hShadow]
            rfl
          · rw [hWorking.fifo, hWorking.halted hHalted, List.append_nil, List.append_nil]
  | leave =>
      refine ⟨hCovered, h.foreground, fun frame hFrame => h.frames frame (List.mem_cons_of_mem _ hFrame),
        fun hHalted => ?_⟩
      exact absurd (h.asleep hHalted).2.1 (List.cons_ne_nil _ _)
  | @serve ρ r next device s t reply p frames pending record saved hExec =>
      refine ⟨hCovered, h.foreground, fun frame hFrame => ?_, fun hHalted => ?_⟩
      · cases List.mem_cons.mp hFrame with
        | inl hNew =>
            rw [hNew]
            exact orderly_next (h.frames _ List.mem_cons_self) hExec hCovered.panic
        | inr hOld => exact h.frames frame (List.mem_cons_of_mem _ hOld)
      · have hRunning : t.cpu.halted = false := hCovered.running (List.cons_ne_nil _ _)
        exact absurd (hRunning.symm.trans hHalted) Bool.noConfusion

variable {prior : KernelState} {shell : ShellState} {pending : Fin irqHandlerCount → Bool}
  {actions : List (Schedule (Fin irqHandlerCount) (BitVec 8))} {c d : KernelConfig}

/-- The same for a step of the kernel without its record. -/
theorem KernelRests.step {action : Schedule (Fin irqHandlerCount) (BitVec 8)} (h : KernelRests c)
    (hStep : KernelStep c action d) : KernelRests d := by
  have hCovered : KernelCovered d := kernel_discipline.step h.covered hStep
  have hRecorded : KernelRecordedStep ⟨c, []⟩ action
      ⟨d, kernelProcessor.events kernelRecorder c action⟩ := ⟨hStep, rfl⟩
  exact KernelRests.move h hCovered hRecorded.move

/-- So it holds in every configuration of every run. -/
theorem kernelRests_of_run
    (run : TransitionSystem.Run KernelStep (kernelStart prior shell pending) actions c) : KernelRests c := by
  refine run.invariant KernelRests ?_ fun _ _ _ h hStep => h.step hStep
  exact ⟨.foreground (kernelMainEnable_ensures shell (kernelMainReady_working prior)),
    kernelMainEnable_orderly shell, nofun, nofun⟩

end Run

section Drain

/-- The processor sleeps, and no handler runs. -/
def KernelAsleep (c : KernelConfig) : Prop := c.frames = [] ∧ c.state.cpu.halted = true

abbrev KernelInevitable (c : KernelConfig) : Prop :=
  Inevitable (kernelProcessor.Step kernelWorkRunOnce) .proceed KernelAsleep c

theorem executes_append {s u : KernelState} {first second : List (Exchange KernelRequest)}
    (h : Executes KernelState.execute s (first ++ second) u) :
    ∃ t, Executes KernelState.execute s first t ∧ Executes KernelState.execute t second u := by
  induction first generalizing s with
  | nil => exact ⟨s, .nil s, h⟩
  | cons exchange rest ih =>
      cases h with
      | cons hExec hRest =>
          obtain ⟨t, hFirst, hSecond⟩ := ih hRest
          exact ⟨t, .cons hExec hFirst, hSecond⟩

/-- The books follow a whole program that runs undisturbed, with the events
that its trace notes. -/
theorem executes_books {keyboard : KeyboardState} {record : List KernelEvent} {s t : KernelState}
    {trace : List (Exchange KernelRequest)} (h : Executes KernelState.execute s trace t)
    (hBooks : KernelBooks keyboard s record) :
    KernelBooks keyboard t (record ++ kernelRecorder.noteAll trace) := by
  induction h generalizing record with
  | nil s =>
      rw [Recorder.noteAll_nil, List.append_nil]
      exact hBooks
  | cons hExec _ ih =>
      rw [Recorder.noteAll_cons, ← List.append_assoc]
      exact ih (kernelBooks_execute hBooks hExec)

/-- A foreground program that relies on nothing gets to its end, or sleeps. -/
theorem foreground_completes {p : KernelProgram ShellState} {s : KernelState} (hOrderly : KernelOrderly p)
    (h : ForegroundEnsures (fun _ t => Working true [] none t) p s) :
    Completes KernelState.execute (fun t => t.cpu.halted = true)
      (fun shell t => Working true [] none t ∧
        ∃ trace, p.Returns trace shell ∧ Executes KernelState.execute s trace t) p s :=
  h.completes (fun _ => .inl rfl) (fun s _ _ hAllowed => execute_answers s hAllowed)
    (fun _ _ _ _ _ hPanics hExec hOk => execute_panics hPanics hExec hOk.panic) hOrderly

/-- A round that does not end asleep shortens the queue. -/
theorem round_shortens {keyboard : KeyboardState} {record : List KernelEvent} {s t : KernelState}
    {shell later : ShellState} {trace : List (Exchange KernelRequest)} (hs : Working true [] none s)
    (ht : Working true [] none t) (hBooks : KernelBooks keyboard s record)
    (hReturns : (kernelWorkRunOnce shell).Returns trace later)
    (hExecutes : Executes KernelState.execute s trace t) :
    t.cpu.halted = true ∨ (inputQueued s.input).length = (inputQueued t.input).length + 1 := by
  have hAfter := executes_books hExecutes hBooks
  rcases kernelWorkRunOnce_returns hReturns with ⟨-, -, before, rfl⟩ | ⟨ascii, hNote, -⟩
  · obtain ⟨u, -, hLast⟩ := executes_append hExecutes
    cases hLast with
    | cons hExec hRest =>
        obtain ⟨-, hServe⟩ := execute_eq_some hExec
        cases hServe
        cases hRest
        exact .inl rfl
  · refine .inr ?_
    rw [hNote] at hAfter
    have hAccepted : t.accepted = s.accepted := by
      rw [hAfter.accepted, hBooks.accepted, filterMap_snoc]
      simp [KernelEvent.offered]
    have hGiven : t.given = s.given ++ [ascii] := by
      rw [hAfter.given, hBooks.given, filterMap_snoc]
      rfl
    have hBefore := congrArg List.length hs.fifo
    have hBehind := congrArg List.length ht.fifo
    rw [hAccepted, hGiven] at hBehind
    simp only [List.length_append, List.length_nil, List.length_singleton] at hBefore hBehind
    omega

/-- Round by round the queue is emptied. -/
theorem inevitable_round (n : ℕ) {keyboard : KeyboardState} {record : List KernelEvent} {s : KernelState}
    {shell : ShellState} {pending : Fin irqHandlerCount → Bool} (hs : Working true [] none s)
    (hBooks : KernelBooks keyboard s record) (hLength : (inputQueued s.input).length = n) :
    KernelInevitable ⟨s, .done shell, [], pending⟩ := by
  induction n using Nat.strong_induction_on generalizing s shell record with
  | _ n ih =>
      by_cases hHalted : s.cpu.halted = true
      · exact .now ⟨rfl, hHalted⟩
      · refine .later (fun _ => ⟨s, kernelWorkRunOnce shell, [], pending⟩) (fun _ => rfl) fun _ => ?_
        have hRound := foreground_completes (kernelWorkRunOnce_orderly shell)
          (kernelWorkRunOnce_ensures shell hs)
        refine Processor.inevitable_foreground hRound (fun _ _ hStuck => ⟨rfl, hStuck⟩) fun later t hEnd => ?_
        obtain ⟨ht, trace, hReturns, hExecutes⟩ := hEnd
        cases round_shortens hs ht hBooks hReturns hExecutes with
        | inl hAsleep => exact .now ⟨rfl, hAsleep⟩
        | inr hShorter => exact ih _ (by omega) ht (executes_books hExecutes hBooks) rfl

/-- From inside a round. -/
theorem inevitable_foreground {keyboard : KeyboardState} {record : List KernelEvent} {s : KernelState}
    {p : KernelProgram ShellState} {pending : Fin irqHandlerCount → Bool} (hOrderly : KernelOrderly p)
    (h : ForegroundEnsures (fun _ t => Working true [] none t) p s)
    (hBooks : KernelBooks keyboard s record) : KernelInevitable ⟨s, p, [], pending⟩ := by
  refine Processor.inevitable_foreground (foreground_completes hOrderly h) (fun _ _ hStuck => ⟨rfl, hStuck⟩)
    fun later t hEnd => ?_
  obtain ⟨ht, trace, -, hExecutes⟩ := hEnd
  exact inevitable_round _ ht (executes_books hExecutes hBooks) rfl

/-- From inside a handler. -/
theorem kernel_inevitable {keyboard : KeyboardState} {record : List KernelEvent} {c : KernelConfig}
    (h : KernelRests c) (hBooks : KernelBooks keyboard c.state record) : KernelInevitable c := by
  obtain ⟨hCovered, hForeground, hFrames, -⟩ := h
  cases hCovered with
  | foreground hEnsures => exact inevitable_foreground hForeground hEnsures hBooks
  | @handler s t p handler pending hEnsures hInv hAccepts hHandler =>
      have hRunning : ∀ u, KernelMasked s u → u.cpu.halted = false := by
        intro u hMasked
        cases hMasked with
        | inl hOutside => rw [hOutside.cpu]
        | inr hInside => rw [hInside.cpu]
      have hPanic : ∀ u, KernelMasked s u → u.panicMessage = none := by
        intro u hMasked
        cases hMasked with
        | inl hOutside => exact hOutside.panic
        | inr hInside => exact hInside.panic
      have hCompletes : Completes KernelState.execute (fun _ => False)
          (fun _ u => KernelRely s (u.leaveInterrupt s.cpu.interruptFlag) ∧
            ∃ trace, handler.Returns trace () ∧ Executes KernelState.execute t trace u) handler t :=
        hHandler.completes (fun _ => rfl)
        (fun u _ hMasked hAllowed => (execute_answers u hAllowed).imp_left fun hHalted =>
          absurd ((hRunning u hMasked).symm.trans hHalted) Bool.noConfusion)
        (fun _ _ _ _ u hPanics hExec hMasked => execute_panics hPanics hExec (hPanic u hMasked))
        (hFrames _ List.mem_cons_self)
      refine Processor.inevitable_handler hCompletes fun u hEnd => ?_
      obtain ⟨hRely, trace, -, hExecutes⟩ := hEnd
      have hLeft : KernelBooks keyboard (u.leaveInterrupt s.cpu.interruptFlag)
          (record ++ kernelRecorder.noteAll trace) :=
        (executes_books hExecutes hBooks).frame rfl rfl rfl rfl rfl rfl rfl rfl rfl
      exact inevitable_foreground hForeground (hEnsures.stable (fun _ _ _ h hNext => h.trans hNext) hRely)
        hLeft

end Drain

section Result

variable {prior : KernelState} {shell : ShellState} {pending : Fin irqHandlerCount → Bool}
  {actions : List (Schedule (Fin irqHandlerCount) (BitVec 8))} {c : KernelConfig}

/-- What was accepted stays accepted. -/
theorem accepted_prefix {keyboard : KeyboardState} {x y : KernelRecorded}
    {actions : List (Schedule (Fin irqHandlerCount) (BitVec 8))}
    (run : TransitionSystem.Run KernelRecordedStep x actions y)
    (hBooks : KernelBooks keyboard x.config.state x.record) :
    x.config.state.accepted <+: y.config.state.accepted := by
  have hRecord : x.record <+: y.record := by
    refine run.invariant (fun z => x.record <+: z.record) (List.prefix_refl _) fun z action w h hStep => ?_
    rw [hStep.2]
    exact h.trans (List.prefix_append _ _)
  rw [hBooks.accepted, (kernelBooks_of_run run hBooks).accepted]
  exact ((hRecord.filterMap _).filter _).map _

/-- From every configuration of every run the kernel comes to rest when no
further interrupt is taken, whatever the ports deliver: no handler runs, the
processor is halted with interrupts enabled, nothing is queued, and the shell
has been given every character that was ever accepted, in order. -/
theorem kernel_comes_to_rest
    (run : TransitionSystem.Run KernelStep (kernelStart prior shell pending) actions c)
    (inputs : ℕ → BitVec 8) :
    ∃ (n : ℕ) (d : KernelConfig),
      TransitionSystem.Run KernelStep c ((List.range n).map fun k => .proceed (inputs k)) d ∧
      d.frames = [] ∧ d.state.cpu.halted = true ∧ kernelProcessor.accepts d.state = true ∧
      inputQueued d.state.input = [] ∧ d.state.given = d.state.accepted ∧ c.state.accepted <+: d.state.accepted := by
  obtain ⟨record, hRecorded⟩ := Processor.exists_recorded (R := kernelRecorder) run []
  have hBooks : KernelBooks prior.keyboard c.state record := (kernelChronicle_of_run hRecorded).books
  obtain ⟨n, d, hRun, hFrames, hHalted⟩ := (kernel_inevitable (kernelRests_of_run run) hBooks).run inputs
  have hRests : KernelRests d := kernelRests_of_run (run.trans hRun)
  obtain ⟨later, hLater⟩ := Processor.exists_recorded (R := kernelRecorder) hRun record
  obtain ⟨hAccepts, -, hGiven⟩ := hRests.asleep hHalted
  refine ⟨n, d, hRun, hFrames, hHalted, hAccepts, ?_, hGiven, accepted_prefix hLater hBooks⟩
  cases hRests.covered with
  | foreground h => exact (h.inv_of_refl fun _ => .inl rfl).halted hHalted
  | handler => cases hFrames

/-- The handler of a key has just been entered. -/
theorem kernel_comes_to_rest_key : ∃ (actions : List (Schedule (Fin irqHandlerCount) (BitVec 8)))
    (c d : KernelConfig) (n : ℕ),
    TransitionSystem.Run KernelStep (kernelStart .boot shellResetBuffer fun _ => false) actions c ∧
    c.frames.length = 1 ∧
    TransitionSystem.Run KernelStep c ((List.range n).map fun _ => .proceed 0x1E#8) d ∧
    d.frames = [] ∧ d.state.cpu.halted = true ∧ d.state.given = d.state.accepted := by
  have hPlay : (kernelProcessor.play kernelWorkRunOnce (kernelStart .boot shellResetBuffer fun _ => false)
      (.proceed 0#8 :: .proceed 0#8 :: interruptSchedule keyboardLine 0 0x1E#8)).map
        (fun c => c.frames.length) = some 1 := by decide +kernel
  obtain ⟨c, run, hFrames⟩ := kernelProcessor.exists_run_of_play kernelWorkRunOnce _ _ _ hPlay
  obtain ⟨n, d, hRun, hRest, hHalted, -, -, hGiven, -⟩ := kernel_comes_to_rest run fun _ => 0x1E#8
  exact ⟨_, c, d, n, run, hFrames, hRun, hRest, hHalted, hGiven⟩

end Result
end WigOSX
