import WigOSX.Kernel.Record

/-! Every interrupt is served once, and every key reaches the shell. The
record of each run of the kernel consists of complete services and of the
calls of the shell between them; the counters and the queue are read off it. -/
namespace WigOSX

open Interaction (Exchange Only Returns only_perform_iff returns_done_iff returns_ask_iff
  returns_bind_iff)

section Writes

/-- The foreground is recorded by the calls of the shell. -/
abbrev KernelRequest.ForegroundWrites : ∀ ⦃ρ : Type⦄, KernelRequest ρ → Prop :=
  kernelRecorder.Writes KernelEvent.IsCalled

/-- Handlers are recorded by anything else. -/
abbrev KernelRequest.HandlerWrites : ∀ ⦃ρ : Type⦄, KernelRequest ρ → Prop :=
  kernelRecorder.Writes fun event => ¬event.IsCalled

/-- A request that the recorder does not note writes nothing into the record. -/
theorem KernelRequest.Silent.writes {ρ : Type} {request : KernelRequest ρ} (h : request.Silent)
    (admits : KernelEvent → Prop) : kernelRecorder.Writes admits request :=
  fun reply event hEvent => (h reply event hEvent).elim

/-- No command of the shell is noted in the record: commands read services and
print. -/
theorem KernelRequest.Command.silent {ρ : Type} {request : KernelRequest ρ} (h : request.Command) :
    request.Silent := by
  cases h with
  | output h => exact Output.silent _ h
  | _ => exact fun reply event hEvent => (List.not_mem_nil hEvent).elim

/-- A request whose record is empty by definition. -/
theorem silent_of_note {ρ : Type} {request : KernelRequest ρ} (h : ∀ reply, kernelNote request reply = []) :
    request.Silent := by
  intro reply event hEvent
  rw [show kernelRecorder.note request reply = [] from h reply] at hEvent
  exact List.not_mem_nil hEvent

/-- A panic leaves the record as it is, since it reports and halts. -/
theorem kernelPanic_silent {α : Type} (message : String) :
    (kernelPanic message : KernelProgram α).Only KernelRequest.Silent := by
  have hText (text : List (BitVec 8)) := klogWritestring_only Output.silent text
  have hCall : KernelRequest.Silent (.panicCall (asciiText message)) := silent_of_note fun _ => rfl
  have hCli : KernelRequest.Silent .cli := silent_of_note fun _ => rfl
  have hHalt : KernelRequest.Silent .haltForever := silent_of_note fun _ => rfl
  exact .bind (only_perform_iff.mpr hCall) fun _ => .bind (only_perform_iff.mpr hCli) fun _ =>
    .bind (hText _) fun _ => .bind (hText _) fun _ => .bind (klogPutchar_only Output.silent _) fun _ =>
    .bind (hText _) fun _ => ⟨hHalt, fun impossible => nomatch impossible⟩

theorem interruptsIsInContext_silent : interruptsIsInContext.Only KernelRequest.Silent :=
  ⟨silent_of_note fun _ => rfl, fun _ => trivial⟩

/-- Reading the queue is not noted; only the call of the shell with the
character is. -/
theorem inputTryRead_silent : inputTryRead.Only KernelRequest.Silent := by
  refine ⟨silent_of_note fun _ => rfl, fun tail => ⟨silent_of_note fun _ => rfl, fun head => ?_⟩⟩
  refine .ite trivial ⟨silent_of_note fun _ => rfl, fun ascii => ?_⟩
  exact ⟨silent_of_note fun _ => rfl, fun _ => trivial⟩

theorem cpuEnableInterrupts_silent : cpuEnableInterrupts.Only KernelRequest.Silent :=
  ⟨silent_of_note fun _ => rfl, fun _ => ⟨silent_of_note fun _ => rfl, fun _ => trivial⟩⟩

theorem cpuEnableInterruptsAndHalt_silent : cpuEnableInterruptsAndHalt.Only KernelRequest.Silent :=
  ⟨silent_of_note fun _ => rfl, fun _ => ⟨silent_of_note fun _ => rfl, fun _ => trivial⟩⟩

/-- The body of the shell is silent; its call and its return are requests of
the loop around it. -/
theorem shellHandleCharacter_silent (ascii : BitVec 8) (shell : ShellState) :
    (shellHandleCharacter ascii shell).Only KernelRequest.Silent :=
  .bind interruptsIsInContext_silent fun _ => .ite (kernelPanic_silent _)
    ((shellEditLine_command ascii shell).mono fun _ _ h => h.silent)

/-- What the foreground writes into the record for one character is the call
of the shell. -/
theorem shellHandleCharacterCall_writes (ascii : BitVec 8) (shell : ShellState) :
    (shellHandleCharacterCall ascii shell).Only KernelRequest.ForegroundWrites := by
  have hCall : KernelRequest.ForegroundWrites (.shellCall ascii) :=
    fun _ event hEvent => ⟨ascii, List.mem_singleton.mp hEvent⟩
  have hReturn : KernelRequest.Silent .shellReturn := silent_of_note fun _ => rfl
  exact .bind (only_perform_iff.mpr hCall) fun _ =>
    .bind ((shellHandleCharacter_silent ascii shell).mono fun _ _ hRequest => hRequest.writes _) fun _ =>
    .bind (only_perform_iff.mpr (hReturn.writes _)) fun _ => trivial

/-- One round of the loop writes no event but calls of the shell. -/
theorem kernelWorkRunOnce_writes (shell : ShellState) :
    (kernelWorkRunOnce shell).Only KernelRequest.ForegroundWrites := by
  have hSilent {α : Type} {p : KernelProgram α} (h : p.Only KernelRequest.Silent) :
      p.Only KernelRequest.ForegroundWrites := h.mono fun _ _ hRequest => hRequest.writes _
  refine .bind (hSilent interruptsIsInContext_silent) fun _ => .ite (hSilent (kernelPanic_silent _)) ?_
  refine .bind (hSilent (only_perform_iff.mpr (silent_of_note fun _ => rfl))) fun _ =>
    .bind (hSilent inputTryRead_silent) fun result => ?_
  cases result with
  | none => exact .bind (hSilent cpuEnableInterruptsAndHalt_silent) fun _ => trivial
  | some ascii =>
      exact .bind (hSilent cpuEnableInterrupts_silent) fun _ => shellHandleCharacterCall_writes ascii shell

theorem kernelMainEnable_writes (shell : ShellState) :
    (kernelMainEnable shell).Only KernelRequest.ForegroundWrites :=
  .bind (cpuEnableInterrupts_silent.mono fun _ _ hRequest => hRequest.writes _) fun _ => trivial

/-- What a handler can be recorded by: its dispatch, its work, and the
end-of-interrupt commands. -/
inductive KernelEvent.OfHandler : KernelEvent → Prop where
  | dispatched (irq : BitVec 8) (handler : Option IrqHandler) : OfHandler (.dispatched irq handler)
  | ticked : OfHandler .ticked
  | delivered (raw : BitVec 8) : OfHandler (.delivered raw)
  | scancode (raw : BitVec 8) (character : Option (BitVec 8)) : OfHandler (.scancode raw character)
  | enqueued (ascii : BitVec 8) (accepted : Bool) : OfHandler (.enqueued ascii accepted)
  | master : OfHandler (.picWrite picMasterCommand picCommandEoi)
  | slave : OfHandler (.picWrite picSlaveCommand picCommandEoi)

/-- A request with one event in its record. -/
theorem writes_of_note {ρ : Type} {request : KernelRequest ρ} {admits : KernelEvent → Prop}
    (h : ∀ reply, ∃ event, kernelNote request reply = [event] ∧ admits event) :
    kernelRecorder.Writes admits request := by
  intro reply other hOther
  obtain ⟨event, hNote, hAdmits⟩ := h reply
  rw [show kernelRecorder.note request reply = [event] from hNote] at hOther
  exact List.mem_singleton.mp hOther ▸ hAdmits

/-- A handler writes only events of handlers: dispatches, ticks, scancodes,
offers and port writes. -/
theorem irqStub_only (line : Fin irqHandlerCount) :
    (irqStub line).Only (kernelRecorder.Writes KernelEvent.OfHandler) := by
  have hSilent {α : Type} {p : KernelProgram α} (h : p.Only KernelRequest.Silent) :
      p.Only (kernelRecorder.Writes KernelEvent.OfHandler) := h.mono fun _ _ hRequest => hRequest.writes _
  have hQuiet {ρ : Type} {request : KernelRequest ρ} (h : ∀ reply, kernelNote request reply = []) :=
    (silent_of_note h).writes KernelEvent.OfHandler
  have hPanic (message : String) := hSilent (kernelPanic_silent (α := Unit) message)
  have hKeyboard : inputHandleKeyboardInterrupt.Only (kernelRecorder.Writes KernelEvent.OfHandler) := by
    refine ⟨writes_of_note fun raw => ⟨_, rfl, .delivered raw⟩, fun raw => ?_⟩
    refine ⟨writes_of_note fun character => ⟨_, rfl, .scancode raw character⟩, fun character => ?_⟩
    cases character with
    | none => trivial
    | some ascii =>
        exact ⟨writes_of_note fun accepted => ⟨_, rfl, .enqueued ascii accepted⟩, fun _ => trivial⟩
  have hTimer : pitHandleInterrupt.Only (kernelRecorder.Writes KernelEvent.OfHandler) :=
    pitHandleInterrupt_only (fun _ _ hOutput => (Output.silent _ hOutput).writes _)
      (writes_of_note fun _ => ⟨_, rfl, .ticked⟩)
  have hMaster : kernelRecorder.Writes KernelEvent.OfHandler (.outb picMasterCommand picCommandEoi) :=
    writes_of_note fun _ => ⟨_, rfl, .master⟩
  have hSlave : kernelRecorder.Writes KernelEvent.OfHandler (.outb picSlaveCommand picCommandEoi) :=
    writes_of_note fun _ => ⟨_, rfl, .slave⟩
  refine ⟨hQuiet fun _ => rfl, fun _ => .ite (hPanic _) ⟨hQuiet fun _ => rfl, fun entered => .ite ?_ (hPanic _)⟩⟩
  refine .bind ⟨writes_of_note fun handler => ⟨_, rfl, .dispatched _ handler⟩, fun handler => ?_⟩ fun _ =>
    .bind (.ite trivial (.ite ⟨hSlave, fun _ => ⟨hMaster, fun _ => trivial⟩⟩ ⟨hMaster, fun _ => trivial⟩))
    fun _ => ⟨hQuiet fun _ => rfl, fun _ => .ite trivial (hPanic _)⟩
  cases handler with
  | none => trivial
  | some handler =>
      cases handler with
      | pitHandleInterrupt => exact hTimer
      | inputHandleKeyboardInterrupt => exact hKeyboard

/-- The stub of a line writes into the record nothing that the foreground
writes. -/
theorem irqStub_writes (line : Fin irqHandlerCount) : (irqStub line).Only KernelRequest.HandlerWrites := by
  refine (irqStub_only line).mono fun ρ request hRequest reply event hEvent => ?_
  rintro ⟨ascii, rfl⟩
  cases hRequest reply _ hEvent

end Writes

section Rounds

/-- The calls of the shell in a record. -/
abbrev shellCalls (record : List KernelEvent) : List (BitVec 8) := record.filterMap KernelEvent.given

/-- One call of the shell is noted once, and its state is that of the edited
line. -/
theorem shellHandleCharacterCall_returns {ascii : BitVec 8} {s t : ShellState}
    {trace : List (Exchange KernelRequest)} (h : (shellHandleCharacterCall ascii s).Returns trace t) :
    kernelRecorder.noteAll trace = [.called ascii] ∧ t = shellEdit ascii s := by
  obtain ⟨_, inside, rfl, hInside⟩ := returns_ask_iff.mp h
  change (shellHandleCharacter ascii s >>= fun _ => _).Returns inside t at hInside
  obtain ⟨work, shell, last, rfl, hWork, hLast⟩ := returns_bind_iff.mp hInside
  obtain ⟨_, _, rfl, hDone⟩ := returns_ask_iff.mp hLast
  obtain ⟨rfl, rfl⟩ := returns_done_iff.mp hDone
  have hSilent := noteAll_silent (shellHandleCharacter_silent ascii s) hWork
  refine ⟨?_, ?_⟩
  · rw [Recorder.noteAll_cons, Recorder.noteAll_append, hSilent]
    rfl
  · obtain ⟨inContext, edit, rfl, hEdit⟩ := returns_ask_iff.mp hWork
    change (if decide (inContext ≠ 0#32) = true then _ else _ : KernelProgram ShellState).Returns edit t
      at hEdit
    split at hEdit
    · exact absurd hEdit (kernelPanic_diverges _ _ _)
    · exact shellEditLine_returns hEdit

/-- A round of the foreground loop goes to sleep, or gives one character to
the shell. -/
theorem kernelWorkRunOnce_returns {s t : ShellState} {trace : List (Exchange KernelRequest)}
    (h : (kernelWorkRunOnce s).Returns trace t) :
    (kernelRecorder.noteAll trace = [] ∧ t = s ∧ ∃ before, trace = before ++ [⟨.hlt, ()⟩]) ∨
    ∃ ascii, kernelRecorder.noteAll trace = [.called ascii] ∧ t = shellEdit ascii s := by
  obtain ⟨inContext, first, rfl, hFirst⟩ := returns_ask_iff.mp h
  change (if decide (inContext ≠ 0#32) = true then _ else _ : KernelProgram ShellState).Returns first t
    at hFirst
  split at hFirst
  · exact absurd hFirst (kernelPanic_diverges _ _ _)
  · obtain ⟨_, second, rfl, hSecond⟩ := returns_ask_iff.mp hFirst
    change (inputTryRead >>= fun _ => _).Returns second t at hSecond
    obtain ⟨read, result, rest, rfl, hRead, hRest⟩ := returns_bind_iff.mp hSecond
    have hReadSilent := noteAll_silent inputTryRead_silent hRead
    cases result with
    | none =>
        obtain ⟨idle, _, last, rfl, hIdle, hLast⟩ := returns_bind_iff.mp hRest
        obtain ⟨rfl, rfl⟩ := returns_done_iff.mp hLast
        have hIdleSilent := noteAll_silent cpuEnableInterruptsAndHalt_silent hIdle
        obtain ⟨_, _, rfl, hHalt⟩ := returns_ask_iff.mp hIdle
        obtain ⟨_, _, rfl, hDone⟩ := returns_ask_iff.mp hHalt
        obtain ⟨rfl, -⟩ := returns_done_iff.mp hDone
        refine .inl ⟨?_, rfl, ⟨.interruptsGetContextDepth, inContext⟩ :: ⟨.cli, ()⟩ :: (read ++ [⟨.sti, ()⟩]), ?_⟩
        · rw [Recorder.noteAll_cons, Recorder.noteAll_cons, Recorder.noteAll_append,
            Recorder.noteAll_append, hReadSilent, hIdleSilent]
          rfl
        · rw [List.append_nil, List.cons_append, List.cons_append, List.append_assoc]
          rfl
    | some ascii =>
        obtain ⟨enable, _, call, rfl, hEnable, hCall⟩ := returns_bind_iff.mp hRest
        have hEnableSilent := noteAll_silent cpuEnableInterrupts_silent hEnable
        obtain ⟨hNote, rfl⟩ := shellHandleCharacterCall_returns hCall
        refine .inr ⟨ascii, ?_, rfl⟩
        rw [Recorder.noteAll_cons, Recorder.noteAll_cons, Recorder.noteAll_append,
          Recorder.noteAll_append, hReadSilent, hEnableSilent, hNote]
        rfl

end Rounds

section Runs

/-- What the foreground carries is the shell behind the characters so far. -/
def ShellCarried (start : ShellState) (record : List KernelEvent) (shell : ShellState) : Prop :=
  (shellCalls record).foldl (fun shell ascii => shellEdit ascii shell) start = shell

/-- A round carries the shell's state from the record before it to the record
behind it. -/
theorem kernelWorkRunOnce_promises {start shell : ShellState} {record : List KernelEvent}
    (h : ShellCarried start record shell) :
    kernelRecorder.Promises (ShellCarried start) (kernelWorkRunOnce shell) record := by
  intro trace later hReturns
  rw [ShellCarried] at h ⊢
  rw [shellCalls, List.filterMap_append, List.foldl_append, h]
  rcases kernelWorkRunOnce_returns hReturns with ⟨hNote, rfl, -⟩ | ⟨ascii, hNote, rfl⟩
  · rw [hNote]
    rfl
  · rw [hNote]
    rfl

/-- The loop starts with the shell that the boot left and an empty record. -/
theorem kernelMainEnable_promises (shell : ShellState) :
    kernelRecorder.Promises (ShellCarried shell) (kernelMainEnable shell) [] := by
  intro trace later hReturns
  obtain ⟨enable, _, last, rfl, hEnable, hLast⟩ := returns_bind_iff.mp hReturns
  obtain ⟨rfl, rfl⟩ := returns_done_iff.mp hLast
  rw [Recorder.noteAll_append, noteAll_silent cpuEnableInterrupts_silent hEnable]
  rfl

variable {prior : KernelState} {shell : ShellState} {pending : Fin irqHandlerCount → Bool}
  {actions : List (Schedule (Fin irqHandlerCount) (BitVec 8))} {x : KernelRecorded}

/-- What holds of every recorded configuration. -/
structure KernelChronicle (keyboard : KeyboardState) (shell : ShellState) (x : KernelRecorded) : Prop where
  covered : kernelProcessor.Covered ForegroundOk KernelRely KernelMasked
    (fun _ s => Working true [] none s) x.config
  service : Processor.InService kernelRecorder IrqService KernelEvent.IsCalled x
  loop : Processor.InLoop kernelRecorder KernelEvent.IsCalled (ShellCarried shell) x
  books : KernelBooks keyboard x.config.state x.record

/-- What the record says about the run is kept by every step, be it of the
foreground, of a handler or of a device. -/
theorem KernelChronicle.step {keyboard : KeyboardState} {y : KernelRecorded}
    {action : Schedule (Fin irqHandlerCount) (BitVec 8)} (h : KernelChronicle keyboard shell x)
    (hStep : KernelRecordedStep x action y) : KernelChronicle keyboard shell y where
  covered := kernel_discipline.step h.covered hStep.1
  service := h.service.move kernelWorkRunOnce_writes irqStub_promises
    (kernel_discipline.frames_eq_nil h.covered) hStep.move
  loop := h.loop.move kernelWorkRunOnce_writes (fun _ _ hCarried => kernelWorkRunOnce_promises hCarried)
    irqStub_writes (fun _ hCalled => hCalled.elim fun _ hEq => KernelEvent.noConfusion hEq) hStep.move
  books := kernelBooks_of_run (.single hStep) h.books

/-- It holds in every state of every run, by induction on the run. -/
theorem kernelChronicle_of_run
    (run : TransitionSystem.Run KernelRecordedStep (kernelRecordedStart prior shell pending) actions x) :
    KernelChronicle prior.keyboard shell x := by
  refine run.invariant (KernelChronicle prior.keyboard shell) ?_ fun _ _ _ h hStep => h.step hStep
  exact ⟨.foreground (kernelMainEnable_ensures shell (kernelMainReady_working prior)),
    .foreground .nil (kernelMainEnable_writes shell),
    ⟨kernelMainEnable_promises shell, nofun, kernelMainEnable_writes shell⟩, kernelBooks_start prior⟩

end Runs

section Audit

/-- A complete service of a line by the handler that `kernel_main` registers. -/
inductive KernelService (line : Fin irqHandlerCount) : List KernelEvent → Prop where
  | served {part : List KernelEvent} (h : HandlerEvents (kernelHandlerOf line) part) :
      KernelService line
        (.dispatched (BitVec.ofNat 8 line.val) (kernelHandlerOf line) :: part ++ eoiEvents line)

/-- What complete services say about each other's lines: the dispatches, the
ticks, the scancodes and the commands to the interrupt controllers follow the
interrupts, and what was typed was offered to the queue. -/
structure KernelAudit (record : List KernelEvent) : Prop where
  dispatches : record.filterMap KernelEvent.irqCall =
    (record.filterMap KernelEvent.line).map fun line => .dispatch (BitVec.ofNat 8 line.val)
  ticks : record.count .ticked = (record.filterMap KernelEvent.line).count timerLine
  keys : (record.filterMap KernelEvent.raw).length =
    (record.filterMap KernelEvent.line).count keyboardLine
  delivered : record.filterMap KernelEvent.port = record.filterMap KernelEvent.raw
  typed : record.filterMap KernelEvent.typed = (record.filterMap KernelEvent.offered).map Prod.fst
  commands : record.filterMap KernelEvent.command = (record.filterMap KernelEvent.line).flatMap eoiCommands

theorem KernelAudit.append {first second : List KernelEvent} (h : KernelAudit first)
    (hMore : KernelAudit second) : KernelAudit (first ++ second) := by
  constructor
  all_goals simp only [List.filterMap_append, List.map_append, List.count_append,
    List.length_append, List.flatMap_append]
  · rw [h.dispatches, hMore.dispatches]
  · rw [h.ticks, hMore.ticks]
  · rw [h.keys, hMore.keys]
  · rw [h.delivered, hMore.delivered]
  · rw [h.typed, hMore.typed]
  · rw [h.commands, hMore.commands]

/-- The end of an interrupt writes its commands to the controllers and nothing
else of interest. -/
theorem kernelAudit_eoi (line : Fin irqHandlerCount) :
    (eoiEvents line).filterMap KernelEvent.command = eoiCommands line ∧
    (eoiEvents line).filterMap KernelEvent.irqCall = [] ∧ (eoiEvents line).filterMap KernelEvent.line = [] ∧
    (eoiEvents line).count .ticked = 0 ∧ (eoiEvents line).filterMap KernelEvent.raw = [] ∧
    (eoiEvents line).filterMap KernelEvent.port = [] ∧ (eoiEvents line).filterMap KernelEvent.typed = [] ∧
    (eoiEvents line).filterMap KernelEvent.offered = [] := by
  rw [eoiEvents, eoiCommands]
  split
  · exact ⟨rfl, rfl, rfl, rfl, rfl, rfl, rfl, rfl⟩
  · exact ⟨rfl, rfl, rfl, rfl, rfl, rfl, rfl, rfl⟩

/-- The timer and the keyboard have handlers, and no other line has one. -/
theorem kernelHandlerOf_cases (line : Fin irqHandlerCount) :
    (line = timerLine ∧ kernelHandlerOf line = some .pitHandleInterrupt) ∨
    (line = keyboardLine ∧ kernelHandlerOf line = some .inputHandleKeyboardInterrupt) ∨
    (line ≠ timerLine ∧ line ≠ keyboardLine ∧ kernelHandlerOf line = none) := by
  rw [kernelHandlerOf]
  split_ifs with hTimer hKeyboard
  · exact .inl ⟨hTimer, rfl⟩
  · exact .inr (.inl ⟨hKeyboard, rfl⟩)
  · exact .inr (.inr ⟨hTimer, hKeyboard, rfl⟩)

/-- One complete service passes the audit: one line, one dispatch, the events
of its handler and its end of interrupt. -/
theorem KernelService.audit {line : Fin irqHandlerCount} {part : List KernelEvent}
    (h : KernelService line part) : KernelAudit (.interrupted line :: part) := by
  obtain ⟨hEvents⟩ := h
  obtain ⟨hCommand, hCall, hLine, hTick, hRaw, hPort, hTyped, hOffered⟩ := kernelAudit_eoi line
  -- each handler's few events are computed, the acknowledgement is not
  rcases kernelHandlerOf_cases line with ⟨rfl, hHandler⟩ | ⟨rfl, hHandler⟩ | ⟨hTimer, hKeyboard, hHandler⟩
  all_goals
    rw [hHandler] at hEvents ⊢
    cases hEvents
    all_goals
      constructor
      all_goals
        simp [List.filterMap_cons, KernelEvent.irqCall, KernelEvent.line, KernelEvent.raw,
          KernelEvent.port, KernelEvent.typed, KernelEvent.offered, KernelEvent.command, *]

/-- The audit of a record of services. -/
theorem kernelAudit_of_services {record : List KernelEvent}
    (h : Processor.Services kernelRecorder KernelService KernelEvent.IsCalled record) : KernelAudit record := by
  induction h with
  | nil => exact ⟨rfl, rfl, rfl, rfl, rfl, rfl⟩
  | own _ hCalled ih =>
      obtain ⟨ascii, rfl⟩ := hCalled
      exact ih.append ⟨rfl, rfl, rfl, rfl, rfl, rfl⟩
  | service _ hService ih => exact ih.append hService.audit

end Audit

section Results

variable {prior : KernelState} {shell : ShellState} {pending : Fin irqHandlerCount → Bool}
  {actions : List (Schedule (Fin irqHandlerCount) (BitVec 8))} {x : KernelRecorded}

/-- No request is noted as an interrupt; those are recorded when they are
taken. -/
theorem kernelNote_line {ρ : Type} (request : KernelRequest ρ) (reply : ρ) :
    (kernelNote request reply).filterMap KernelEvent.line = [] := by
  cases request with
  | inb port =>
      rw [kernelNote]
      split
      · rfl
      · rfl
  | outb port value =>
      rw [kernelNote]
      split
      · rfl
      · rfl
  | _ => rfl

/-- The interrupts of the record are those of the schedule, in order. -/
theorem record_lines
    (run : TransitionSystem.Run KernelRecordedStep (kernelRecordedStart prior shell pending) actions x) :
    x.record.filterMap KernelEvent.line = Processor.interruptsTaken actions :=
  Processor.record_filterMap KernelEvent.line (fun _ => kernelNote_line) (fun _ => rfl) run

/-- At rest the record is a sequence of complete services. -/
theorem kernelServices_of_run
    (run : TransitionSystem.Run KernelRecordedStep (kernelRecordedStart prior shell pending) actions x)
    (hIdle : x.config.frames = []) :
    Processor.Services kernelRecorder KernelService KernelEvent.IsCalled x.record := by
  have hChronicle := kernelChronicle_of_run run
  refine (hChronicle.service.idle hIdle).mono fun line part hSegment hPart => ?_
  cases hSegment with
  | @served handler events hEvents =>
      have hHandler := hChronicle.books.dispatched _ _ (hPart _ List.mem_cons_self)
      rw [registeredHandler_kernel] at hHandler
      subst hHandler
      exact .served hEvents

/-- Every interrupt that is taken is served completely, by the handler of its
line and with the end-of-interrupt commands of its line, before anything else
is recorded. Nothing else is dispatched or acknowledged. -/
theorem interrupts_served_once
    (run : TransitionSystem.Run KernelRecordedStep (kernelRecordedStart prior shell pending) actions x)
    (hIdle : x.config.frames = []) :
    Processor.Services kernelRecorder KernelService KernelEvent.IsCalled x.record ∧
    x.record.filterMap KernelEvent.line = Processor.interruptsTaken actions ∧
    x.record.filterMap KernelEvent.command =
      (Processor.interruptsTaken actions).flatMap eoiCommands := by
  have hServices := kernelServices_of_run run hIdle
  refine ⟨hServices, record_lines run, ?_⟩
  rw [(kernelAudit_of_services hServices).commands, record_lines run]

/-- The key A is pressed, and its handler returns. -/
theorem interrupts_served_once_key : ∃ actions x,
    TransitionSystem.Run KernelRecordedStep (kernelRecordedStart .boot shellResetBuffer fun _ => false)
      actions x ∧ x.config.frames = [] ∧ x.record.filterMap KernelEvent.line = [keyboardLine] := by
  have hPlay : (kernelProcessor.play kernelWorkRunOnce (kernelStart .boot shellResetBuffer fun _ => false)
      (.proceed 0#8 :: .proceed 0#8 :: interruptSchedule keyboardLine 9 0x1E#8)).map
        (fun c => c.frames.length) = some 0 := by decide +kernel
  obtain ⟨c, run, hFrames⟩ := kernelProcessor.exists_run_of_play kernelWorkRunOnce _ _ _ hPlay
  obtain ⟨record, hRecorded⟩ := Processor.exists_recorded (R := kernelRecorder) run []
  have hIdle : c.frames = [] := List.length_eq_zero_iff.mp hFrames
  exact ⟨_, ⟨c, record⟩, hRecorded, hIdle, (interrupts_served_once hRecorded hIdle).2.1⟩

section Counters

/-- The registry calls that a list of interrupts amounts to. -/
abbrev irqDispatches (lines : List (Fin irqHandlerCount)) : List (IrqCall IrqHandler) :=
  lines.map fun line => .dispatch (BitVec.ofNat 8 line.val)

theorem irqDispatches_isDispatch (lines : List (Fin irqHandlerCount)) :
    ∀ call ∈ irqDispatches lines, ∃ irq, call = .dispatch irq := by
  intro call hCall
  obtain ⟨line, -, rfl⟩ := List.mem_map.mp hCall
  exact ⟨_, rfl⟩

theorem irqLine_toNat (line : Fin irqHandlerCount) : (BitVec.ofNat 8 line.val).toNat = line.val := by
  have hLine : line.val < 16 := line.isLt
  rw [BitVec.toNat_ofNat, Nat.mod_eq_of_lt (by omega)]

/-- Among the calls of the registry, the dispatches of a line are its
interrupts. -/
theorem countP_irqDispatches (lines : List (Fin irqHandlerCount)) (line : Fin irqHandlerCount) :
    (kernelRegistrations ++ irqDispatches lines).countP
      (IrqCall.isDispatchOf (BitVec.ofNat 8 line.val)) = lines.count line := by
  rw [List.countP_append, List.countP_map]
  show 0 + _ = _
  rw [Nat.zero_add, List.count]
  apply List.countP_congr
  intro other _
  show decide (BitVec.ofNat 8 other.val = BitVec.ofNat 8 line.val) = true ↔ (other == line) = true
  rw [decide_eq_true_eq, beq_iff_eq, ← BitVec.toNat_inj, irqLine_toNat, irqLine_toNat]
  exact Fin.ext_iff.symm

/-- No interrupt has a line outside of the table, so no dispatch is invalid. -/
theorem countP_irqDispatches_invalid (lines : List (Fin irqHandlerCount)) :
    (kernelRegistrations ++ irqDispatches lines).countP IrqCall.isInvalidDispatch = 0 := by
  rw [List.countP_append, List.countP_map]
  show 0 + _ = 0
  rw [Nat.zero_add, List.countP_eq_zero]
  · intro line _ hInvalid
    have hLarge : irqHandlerCount ≤ (BitVec.ofNat 8 line.val).toNat := of_decide_eq_true hInvalid
    rw [irqLine_toNat] at hLarge
    exact absurd line.isLt (Nat.not_lt.mpr hLarge)

/-- Lines other than the first two have no handler. -/
theorem kernelHandlerOf_isNone (line : Fin irqHandlerCount) :
    (kernelHandlerOf line).isNone = decide (1 < line.val) := by
  revert line
  decide

/-- The interrupts without a handler are those of the lines behind the first
two. -/
theorem unhandledDispatches_irqDispatches (lines : List (Fin irqHandlerCount)) :
    unhandledDispatches (kernelRegistrations ++ irqDispatches lines) =
      lines.countP fun line => 1 < line.val := by
  induction lines using List.reverseRecOn with
  | nil => rfl
  | append_singleton lines line ih =>
      have hSnoc : irqDispatches (lines ++ [line]) =
          irqDispatches lines ++ [.dispatch (BitVec.ofNat 8 line.val)] := List.map_append
      rw [hSnoc, ← List.append_assoc, unhandledDispatches_snoc, ih, List.countP_append,
        List.countP_singleton]
      congr 1
      rw [IrqCall.isUnhandledAfter, registeredHandler_dispatches _ _ _ (irqDispatches_isDispatch lines),
        registeredHandler_kernel, kernelHandlerOf_isNone, irqLine_toNat, decide_eq_true line.isLt,
        Bool.true_and]

end Counters

/-- When no handler runs, every diagnostic counter shows the interrupts taken:
the count of each line, the timer ticks, and the interrupts without a handler,
up to the limits of the counters; no line was invalid. -/
theorem counters_show_interrupts {c : KernelConfig}
    (run : TransitionSystem.Run KernelStep (kernelStart prior shell pending) actions c)
    (hIdle : c.frames = []) :
    (∀ line : Fin irqHandlerCount,
      (interruptsGetIrqCount (BitVec.ofNat 8 line.val) c.state.interrupts).toNat =
        min ((Processor.interruptsTaken actions).count line) (2 ^ 32 - 1)) ∧
    c.state.pitTicks =
      BitVec.ofNat 32 ((Processor.interruptsTaken actions).count timerLine) ∧
    (interruptsGetUnhandledIrqCount c.state.interrupts).toNat =
      min ((Processor.interruptsTaken actions).countP fun line => 1 < line.val) (2 ^ 32 - 1) ∧
    interruptsGetInvalidIrqCount c.state.interrupts = 0#32 := by
  obtain ⟨record, hRun⟩ := Processor.exists_recorded (R := kernelRecorder) run []
  have hAudit := kernelAudit_of_services (kernelServices_of_run hRun hIdle)
  have hLines : record.filterMap KernelEvent.line = Processor.interruptsTaken actions := record_lines hRun
  have hBooks : KernelBooks prior.keyboard c.state record := (kernelChronicle_of_run hRun).books
  obtain ⟨-, hCounts, hUnhandled, hInvalid⟩ := hBooks.irqs
  rw [hAudit.dispatches, hLines] at hCounts hUnhandled hInvalid
  refine ⟨fun line => ?_, ?_, ?_, ?_⟩
  · have hLine : (BitVec.ofNat 8 line.val).toNat < irqHandlerCount := by
      rw [irqLine_toNat]
      exact line.isLt
    rw [interruptsGetIrqCount, dif_neg (Nat.not_le.mpr hLine), hCounts _ hLine, countP_irqDispatches]
  · rw [hBooks.ticks, hAudit.ticks, hLines]
  · rw [interruptsGetUnhandledIrqCount, hUnhandled, unhandledDispatches_irqDispatches]
  · rw [countP_irqDispatches_invalid] at hInvalid
    exact BitVec.eq_of_toNat_eq hInvalid

/-- Two ticks and an interrupt on line 5 between them. -/
theorem counters_show_interrupts_mixed : ∃ actions c,
    TransitionSystem.Run KernelStep (kernelStart .boot shellResetBuffer fun _ => false) actions c ∧
      c.frames = [] ∧ c.state.pitTicks = 2#32 ∧
      (interruptsGetUnhandledIrqCount c.state.interrupts).toNat = 1 := by
  have hPlay : (kernelProcessor.play kernelWorkRunOnce (kernelStart .boot shellResetBuffer fun _ => false)
      (.proceed 0#8 :: .proceed 0#8 :: (interruptSchedule timerLine 7 0#8 ++
        interruptSchedule ⟨5, by decide⟩ 6 0#8 ++ interruptSchedule timerLine 7 0#8))).map
        (fun c => c.frames.length) = some 0 := by decide +kernel
  obtain ⟨c, run, hFrames⟩ := kernelProcessor.exists_run_of_play kernelWorkRunOnce _ _ _ hPlay
  have hIdle : c.frames = [] := List.length_eq_zero_iff.mp hFrames
  obtain ⟨-, hTicks, hUnhandled, -⟩ := counters_show_interrupts run hIdle
  exact ⟨_, c, run, hIdle, hTicks, hUnhandled⟩

section Keys

/-- The line in the buffer is the reference editor's, for characters other
than null. -/
theorem shellLine_foldl (characters : List (BitVec 8)) :
    shellLine (characters.foldl (fun shell ascii => shellEdit ascii shell) shellResetBuffer) =
      referenceRest characters := by
  induction characters using List.reverseRecOn with
  | nil => exact shellLine_reset
  | append_singleton characters c ih =>
      rw [List.foldl_append, List.foldl_cons, List.foldl_nil]
      by_cases hFeed : c = asciiLineFeed
      · subst hFeed
        rw [(referenceLines_lineFeed characters).2, shellEdit, if_pos rfl]
        exact shellLine_reset
      · rw [(referenceLines_other characters hFeed).2, shellLine_edit hFeed, ih]

/-- Where the loop stands at the end of a round: everything accepted was given
to the shell or is still queued. -/
theorem queue_at_round
    (run : TransitionSystem.Run KernelRecordedStep (kernelRecordedStart prior shell pending) actions x)
    (hIdle : x.config.frames = []) {later : ShellState} (hRound : x.config.foreground = .done later) :
    x.config.state.accepted = x.config.state.given ++ inputQueued x.config.state.input := by
  have hCovered := (kernelChronicle_of_run run).covered
  obtain ⟨⟨s, p, frames, pending⟩, record⟩ := x
  obtain rfl : frames = [] := hIdle
  obtain rfl : p = .done later := hRound
  cases hCovered with
  | foreground h =>
      have hWorking : Working true [] none s := (h s (.inl rfl)).2
      rw [hWorking.fifo, List.append_nil]

end Keys

/-- From the keyboard to the shell, over every interleaving. At the end of a
round of the foreground loop: each keyboard interrupt has read one scancode,
what the driver made of the scancodes was offered to the queue in that order,
the characters that the queue took are those given to the shell followed by
those still queued, the others were counted as dropped, and the shell is what
editing with the given characters makes of it. -/
theorem keys_reach_shell
    (run : TransitionSystem.Run KernelRecordedStep (kernelRecordedStart prior shell pending) actions x)
    (hIdle : x.config.frames = []) {later : ShellState} (hRound : x.config.foreground = .done later) :
    ∃ (offers : List (BitVec 8 × Bool)) (characters : List (BitVec 8)),
      (x.record.filterMap KernelEvent.port).length =
        (Processor.interruptsTaken actions).count keyboardLine ∧
      keyboardFeed (x.record.filterMap KernelEvent.port) prior.keyboard =
        (offers.map Prod.fst, x.config.state.keyboard) ∧
      (offers.filter Prod.snd).map Prod.fst = characters ++ inputQueued x.config.state.input ∧
      x.config.state.input.droppedCharacterCount.toNat =
        min (offers.countP fun offer => !offer.2) (2 ^ 32 - 1) ∧
      characters.foldl (fun shell ascii => shellEdit ascii shell) shell = later ∧
      (shell = shellResetBuffer → shellLine later = referenceRest characters) := by
  have hChronicle := kernelChronicle_of_run run
  have hBooks := hChronicle.books
  have hAudit := kernelAudit_of_services (kernelServices_of_run run hIdle)
  have hCarried : ShellCarried shell (x.record.filter KernelEvent.IsCalled) later := by
    have hPromise := hChronicle.loop.promise
    rw [hRound] at hPromise
    exact hPromise.done
  have hCalls : shellCalls (x.record.filter KernelEvent.IsCalled) = shellCalls x.record := by
    rw [shellCalls, List.filterMap_filter]
    apply List.filterMap_congr
    intro event _
    cases event with
    | called ascii => exact if_pos (decide_eq_true ⟨ascii, rfl⟩)
    | _ => rfl
  rw [ShellCarried, hCalls] at hCarried
  refine ⟨x.record.filterMap KernelEvent.offered, shellCalls x.record, ?_, ?_, ?_, hBooks.dropped, hCarried, ?_⟩
  · rw [hAudit.delivered, hAudit.keys, record_lines run]
  · rw [hAudit.delivered, hBooks.keyboard, hAudit.typed]
  · rw [← hBooks.accepted, queue_at_round run hIdle hRound, hBooks.given]
  · rintro rfl
    rw [← hCarried, shellLine_foldl]

/-- The key A is pressed, and the shell has taken it into its line. -/
theorem keys_reach_shell_key : ∃ (actions : List (Schedule (Fin irqHandlerCount) (BitVec 8)))
    (x : KernelRecorded) (later : ShellState) (characters : List (BitVec 8)),
    TransitionSystem.Run KernelRecordedStep (kernelRecordedStart .boot shellResetBuffer fun _ => false)
      actions x ∧ x.config.frames = [] ∧ x.config.foreground = .done later ∧
    characters.foldl (fun shell ascii => shellEdit ascii shell) shellResetBuffer = later ∧
    shellLine later = referenceRest characters := by
  have hPlay : (kernelProcessor.play kernelWorkRunOnce (kernelStart .boot shellResetBuffer fun _ => false)
      (.proceed 0#8 :: .proceed 0#8 :: interruptSchedule keyboardLine 22 0x1E#8)).map
        (fun c => (c.frames.length, c.foreground.result.map fun shell => shell.bufferLength.val)) =
          some (0, some 1) := by decide +kernel
  obtain ⟨c, run, hView⟩ := kernelProcessor.exists_run_of_play kernelWorkRunOnce _ _ _ hPlay
  obtain ⟨hFrames, hResult⟩ := Prod.mk.inj hView
  obtain ⟨later, hLater, -⟩ := Option.map_eq_some_iff.mp hResult
  have hIdle : c.frames = [] := List.length_eq_zero_iff.mp hFrames
  have hRound : c.foreground = .done later := Interaction.eq_done_of_result hLater
  obtain ⟨record, hRecorded⟩ := Processor.exists_recorded (R := kernelRecorder) run []
  obtain ⟨offers, characters, -, -, -, -, hFold, hLine⟩ := keys_reach_shell hRecorded hIdle hRound
  exact ⟨_, ⟨c, record⟩, later, characters, hRecorded, hIdle, hRound, hFold, hLine rfl⟩

end Results
end WigOSX
