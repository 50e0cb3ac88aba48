import WigOSX.Kernel.BootProgram
import WigOSX.Kernel.IrqPath
import WigOSX.Library.Completion

/-! The boot reaches the state that the running kernel starts from. Between
two requests nobody disturbs it, since the flag is clear from its first
instruction on; what the devices deliver and which lines they raise is left
open. A check that fails ends in a panic, and nothing else keeps the boot from
its end. -/
namespace WigOSX

open Interaction (Completes Only only_perform_iff perform returns_bind_iff returns_done_iff)

section Requests

/-- What the code of the running kernel asks for while it boots: output, the
ports, and the states that the summaries print. -/
inductive KernelRequest.Boot : ∀ ⦃ρ : Type⦄, KernelRequest ρ → Prop where
  | output {ρ : Type} {r : KernelRequest ρ} (h : r.Output) : Boot r
  | cli : Boot .cli
  | inb (port : BitVec 16) : Boot (.inb port)
  | outb (port : BitVec 16) (value : BitVec 8) : Boot (.outb port value)
  | memoryState : Boot .memoryState
  | pmmState : Boot .pmmState
  | vmmIsEnabled : Boot .vmmIsEnabled
  | vmmGetIdentityMappedBytes : Boot .vmmGetIdentityMappedBytes

theorem Output.boot : AllowsOutput KernelRequest.Boot := fun _ _ => .output

/-- `serial_initialize` programs COM1 and asks for nothing that the boot may
not. -/
theorem serialInitialize_boot : serialInitialize.Only KernelRequest.Boot := by
  have hRegisters : ∀ registers, (serialWriteRegisters registers).Only KernelRequest.Boot := by
    intro registers
    induction registers with
    | nil => trivial
    | cons register rest ih => exact .bind (only_perform_iff.mpr (.outb _ _)) fun _ => ih
  have hFlag (value : Bool) : (perform (.serialSetInitialized value)).Only KernelRequest.Boot :=
    only_perform_iff.mpr (.output (.serialSetInitialized value))
  refine .bind (hFlag false) fun _ => .bind (hRegisters _) fun _ =>
    .bind (serialPoll_only Output.boot.serial _) fun _ => .ite ?_ trivial
  exact .bind (hFlag true) fun _ => trivial

/-- The drivers of the interrupt controllers use ports alone. -/
theorem picRemap_boot : picRemap.Only KernelRequest.Boot := by
  have hOut (port : BitVec 16) (value : BitVec 8) : (perform (.outb port value)).Only KernelRequest.Boot :=
    only_perform_iff.mpr (.outb port value)
  refine .bind (only_perform_iff.mpr (.inb _)) fun _ => .bind (only_perform_iff.mpr (.inb _)) fun _ => ?_
  refine .bind (hOut _ _) fun _ => .bind (hOut _ _) fun _ => .bind (hOut _ _) fun _ =>
    .bind (hOut _ _) fun _ => .bind (hOut _ _) fun _ => .bind (hOut _ _) fun _ => .bind (hOut _ _) fun _ =>
    .bind (hOut _ _) fun _ => .bind (hOut _ _) fun _ => .bind (hOut _ _) fun _ => .bind (hOut _ _) fun _ =>
    .bind (hOut _ _) fun _ => .bind (hOut _ _) fun _ => .bind (hOut _ _) fun _ => .bind (hOut _ _) fun _ =>
    .bind (hOut _ _) fun _ => .bind (hOut _ _) fun _ => hOut _ _

theorem picMaskAll_boot : picMaskAll.Only KernelRequest.Boot :=
  .bind (only_perform_iff.mpr (.outb _ _)) fun _ => only_perform_iff.mpr (.outb _ _)

theorem picUnmaskIrq_boot (irq : BitVec 8) : (picUnmaskIrq irq).Only KernelRequest.Boot := by
  refine .ite trivial (.ite ?_ ?_)
  · exact .bind (only_perform_iff.mpr (.inb _)) fun _ => .bind (only_perform_iff.mpr (.outb _ _)) fun _ => trivial
  · exact .bind (only_perform_iff.mpr (.inb _)) fun _ => .bind (only_perform_iff.mpr (.outb _ _)) fun _ =>
      .bind (only_perform_iff.mpr (.inb _)) fun _ => .bind (only_perform_iff.mpr (.outb _ _)) fun _ => trivial

/-- Whatever its services reply, the shell starts with an empty line buffer. -/
theorem shellInitialize_returns {trace : List (Interaction.Exchange KernelRequest)} {shell : ShellState}
    (h : shellInitialize.Returns trace shell) : shell = shellResetBuffer := by
  obtain ⟨_, _, _, -, -, h⟩ := returns_bind_iff.mp h
  obtain ⟨_, _, _, -, -, h⟩ := returns_bind_iff.mp h
  obtain ⟨_, _, _, -, -, h⟩ := returns_bind_iff.mp h
  obtain ⟨_, _, _, -, -, h⟩ := returns_bind_iff.mp h
  exact (returns_done_iff.mp h).2

end Requests

section Ready

/-- The fields that the running kernel relies on are as `kernel_main` leaves
them, with these handlers registered so far. -/
structure KernelReady (registered : InterruptsState IrqHandler) (s : KernelState) : Prop where
  cpu : s.cpu = { interruptFlag := false, stiShadow := false, halted := false }
  interrupts : s.interrupts = registered
  input : s.input = inputInitialize s.input
  ticks : s.pitTicks = 0#32
  accepted : s.accepted = []
  given : s.given = []
  argument : s.shellArgument = none
  panic : s.panicMessage = none

variable {registered : InterruptsState IrqHandler} {s : KernelState}

/-- The state that `_start` leaves meets the conditions, with no handler
registered yet. -/
theorem kernelReady_boot : KernelReady interruptsInitialize .boot :=
  ⟨rfl, rfl, rfl, rfl, rfl, rfl, rfl, rfl⟩

/-- With the handlers of `kernel_main` it is the state that it starts from. -/
theorem KernelReady.main (h : KernelReady kernelInterrupts s) : kernelMainReady s = s := by
  obtain ⟨hCpu, hInterrupts, hInput, hTicks, hAccepted, hGiven, hArgument, hPanic⟩ := h
  cases s
  simp only at hCpu hInterrupts hInput hTicks hAccepted hGiven hArgument hPanic
  rw [kernelMainReady, ← hInput, hCpu, hInterrupts, hTicks, hAccepted, hGiven, hArgument, hPanic]

/-- The end of an instruction changes nothing that readiness speaks of. -/
theorem KernelReady.retire (h : KernelReady registered s) : KernelReady registered s.retire :=
  ⟨congrArg (fun cpu : Cpu => { cpu with stiShadow := false }) h.cpu, h.interrupts, h.input, h.ticks,
    h.accepted, h.given, h.argument, h.panic⟩

/-- A request of the boot is answered, and takes nothing of this away. -/
theorem KernelReady.execute {ρ : Type} {r : KernelRequest ρ} (h : KernelReady registered s) (hBoot : r.Boot)
    (device : BitVec 8) :
    ∃ reply t, s.execute device r = some (reply, t) ∧ KernelReady registered t := by
  have hRunning : ¬s.cpu.halted = true := by
    rw [h.cpu]
    exact Bool.false_ne_true
  obtain ⟨hCpu, hInterrupts, hInput, hTicks, hAccepted, hGiven, hArgument, hPanic⟩ := h.retire
  rw [KernelState.execute, if_neg hRunning]
  cases hBoot with
  | output hOutput =>
      cases hOutput with
      | _ => exact ⟨_, _, rfl, hCpu, hInterrupts, hInput, hTicks, hAccepted, hGiven, hArgument, hPanic⟩
  | cli =>
      exact ⟨_, _, rfl, congrArg (fun cpu : Cpu => { cpu with interruptFlag := false }) hCpu, hInterrupts,
        hInput, hTicks, hAccepted, hGiven, hArgument, hPanic⟩
  | _ => exact ⟨_, _, rfl, hCpu, hInterrupts, hInput, hTicks, hAccepted, hGiven, hArgument, hPanic⟩

end Ready

section Boot

/-- A check has failed. -/
def BootPanicked (s : BootState) : Prop := s.kernel.panicMessage ≠ none

/-- Whatever the devices contribute, this part of the boot takes the kernel
from one set of registered handlers to the other and returns such a result,
or a check in it fails. -/
def BootsTo (image : BootImage) (before after : InterruptsState IrqHandler) {α : Type} (result : α → Prop)
    (p : BootProgram α) : Prop :=
  ∀ s, KernelReady before s.kernel →
    Completes (BootState.execute image) BootPanicked (fun a t => result a ∧ KernelReady after t.kernel) p s

variable {image : BootImage} {before middle after : InterruptsState IrqHandler} {α β : Type}
  {result : α → Prop}

/-- A step that has nothing left to ask leads where it stands. -/
theorem BootsTo.done {a : α} (h : result a) : BootsTo image before before result (.done a) :=
  fun _ hReady => ⟨h, hReady⟩

/-- Steps of the boot follow one another: each starts from the stage that the
one before it has reached. -/
theorem BootsTo.bind {p : BootProgram α} {f : α → BootProgram β} {last : β → Prop}
    (h : BootsTo image before middle result p)
    (hNext : ∀ a, result a → BootsTo image middle after last (f a)) : BootsTo image before after last (p >>= f) :=
  fun s hReady => ((h s hReady).mono fun a t hDone => hNext a hDone.1 t hDone.2).bind

/-- The result does not matter. -/
theorem BootsTo.then {p : BootProgram α} {q : BootProgram β} {last : β → Prop}
    (h : BootsTo image before middle result p) (hNext : BootsTo image middle after last q) :
    BootsTo image before after last (p >>= fun _ => q) :=
  h.bind fun _ _ => hNext

/-- Code of the running kernel registers no handler. -/
theorem bootCode_bootsTo {p : KernelProgram α} (h : p.Only KernelRequest.Boot) :
    BootsTo image before before (fun a => ∃ trace, p.Returns trace a) (bootCode p) := by
  induction p with
  | done a => exact .done ⟨[], .done a⟩
  | ask r next ih =>
      intro s hReady
      refine .inr fun input => ?_
      obtain ⟨reply, t, hExec, hAfter⟩ := hReady.execute h.1 ((s.raised input).deviceFor input.device r)
      refine ⟨reply, { (s.raised input).afterRequest r with kernel := t }, ?_, ?_⟩
      · show ((s.raised input).kernel.execute _ r).map _ = _
        rw [show (s.raised input).kernel = s.kernel from rfl, hExec]
        rfl
      · refine (ih reply (h.2 reply) _ hAfter).mono fun a u hDone => ⟨?_, hDone.2⟩
        obtain ⟨trace, hReturns⟩ := hDone.1
        exact ⟨_, .ask hReturns⟩

/-- A request of the setup is always answered. -/
theorem bootSetup_bootsTo {request : SetupRequest α}
    (h : ∀ (s : BootState) (device : BitVec 8), KernelReady before s.kernel → ∃ reply t,
      s.serve image device (.inr request) = some (reply, t) ∧ KernelReady after t.kernel) :
    BootsTo image before after (fun _ => True) (bootSetup request) := by
  intro s hReady
  refine .inr fun input => ?_
  obtain ⟨reply, t, hServe, hAfter⟩ := h (s.raised input) input.device hReady
  exact ⟨reply, t, hServe, trivial, hAfter⟩

/-- The requests that set up a service other than the interrupt services. -/
def SetupRequest.Keeps : ∀ ⦃ρ : Type⦄, SetupRequest ρ → Prop
  | _, .interruptsInitialize => False
  | _, .interruptsRegisterIrq _ _ => False
  | _, _ => True

/-- Commands for the interrupt controllers leave the kernel's own state alone. -/
theorem BootState.writes_kernel (s : BootState) (commands : List (BitVec 16 × BitVec 8)) :
    (s.writes commands).kernel = s.kernel := by
  induction commands generalizing s with
  | nil => rfl
  | cons command rest ih => exact ih (s.outb command.1 command.2)

/-- The timer starts from zero ticks, whatever frequency it was given. -/
theorem pitInitialize_zero (frequencyHz : BitVec 32) :
    (pitInitialize frequencyHz ⟨0#32⟩).2.2.pitTicks = 0#32 := by
  simp only [pitInitialize]
  split_ifs <;> rfl

/-- The setup of the other services registers no handler either. -/
theorem keeps_bootsTo (request : SetupRequest α) (h : request.Keeps) :
    BootsTo image before before (fun _ => True) (bootSetup request) := by
  refine bootSetup_bootsTo fun s device hReady => ?_
  obtain ⟨hCpu, hInterrupts, hInput, hTicks, hAccepted, hGiven, hArgument, hPanic⟩ := hReady
  cases request with
  | interruptsInitialize => exact h.elim
  | interruptsRegisterIrq irq handler => exact h.elim
  | inputInitialize => exact ⟨_, _, rfl, hCpu, hInterrupts, rfl, hTicks, hAccepted, hGiven, hArgument, hPanic⟩
  | pitInitialize frequencyHz =>
      have hZero : (WigOSX.pitInitialize frequencyHz ⟨s.kernel.pitTicks⟩).2.2.pitTicks = 0#32 := by
        rw [hTicks]
        exact pitInitialize_zero frequencyHz
      refine ⟨_, _, rfl, ?_⟩
      simp only [BootState.writes_kernel]
      exact ⟨hCpu, hInterrupts, hInput, hZero, hAccepted, hGiven, hArgument, hPanic⟩
  | _ => exact ⟨_, _, rfl, hCpu, hInterrupts, hInput, hTicks, hAccepted, hGiven, hArgument, hPanic⟩

theorem interruptsInitialize_bootsTo :
    BootsTo image before interruptsInitialize (fun _ => True) (bootSetup .interruptsInitialize) :=
  bootSetup_bootsTo fun _ _ h =>
    ⟨_, _, rfl, h.cpu, rfl, h.input, h.ticks, h.accepted, h.given, h.argument, h.panic⟩

/-- `interrupts_register_irq` leads to the table with its handler entered. -/
theorem interruptsRegisterIrq_bootsTo (irq : BitVec 8) (handler : Option IrqHandler) :
    BootsTo image before (interruptsRegisterIrq irq handler before).2 (fun _ => True)
      (bootSetup (.interruptsRegisterIrq irq handler)) := by
  refine bootSetup_bootsTo fun s device h => ⟨_, _, rfl, h.cpu, ?_, h.input, h.ticks, h.accepted, h.given,
    h.argument, h.panic⟩
  exact congrArg (fun interrupts => (interruptsRegisterIrq irq handler interrupts).2) h.interrupts

/-- A check passes, or the boot ends here in a panic. -/
theorem bootCheck_bootsTo (passed : Bool) (panicMessage : String) :
    BootsTo image before before (fun _ => passed = true) (bootCheck passed panicMessage) := by
  intro s hReady
  cases passed with
  | true => exact ⟨rfl, hReady⟩
  | false =>
      refine .inr fun input => ⟨(), { s.raised input with kernel := { s.kernel.retire with
        panicMessage := some (asciiText panicMessage) } }, ?_, .inl ?_⟩
      · show ((s.raised input).kernel.execute _ _).map _ = _
        rw [KernelState.execute, if_neg]
        · rfl
        · show ¬s.kernel.cpu.halted = true
          rw [hReady.cpu]
          exact Bool.false_ne_true
      · exact Option.some_ne_none _

/-- Text on the log. -/
theorem klogText_bootsTo (text : String) :
    BootsTo image before before (fun _ => True) (klogText text) :=
  fun s hReady => (bootCode_bootsTo (klogWritestring_only Output.boot _) s hReady).mono
    fun _ _ hDone => ⟨trivial, hDone.2⟩

theorem klogInitialize_bootsTo :
    BootsTo image before before (fun _ => True) klogInitialize :=
  (bootCode_bootsTo serialInitialize_boot).bind fun available _ =>
    (keeps_bootsTo (.klogSetSerialAvailable available) trivial).then (.done trivial)

theorem kernelWarn_bootsTo (logStatus : KernelStatus) :
    BootsTo image before before (fun _ => True) (kernelWarn logStatus) := by
  intro s hReady
  rw [kernelWarn]
  split_ifs
  · exact (bootCode_bootsTo (consoleWritestring_only Output.boot _) s hReady).mono
      fun _ _ hDone => ⟨trivial, hDone.2⟩
  · exact ⟨trivial, hReady⟩

/-- The boot ends in the state from which the running kernel starts, with an
empty line in the shell, or a check fails and it panics. This is so on every
machine, and whatever its devices deliver and raise on the way. -/
theorem kernelMainBoot_ready (machine : BootMachine) (multibootMagic multibootInfoAddress : BitVec 32) :
    Completes (BootState.execute image) BootPanicked
      (fun shell t => shell = shellResetBuffer ∧ multibootMagic = multibootBootloaderMagic ∧
        ∀ pending, (kernelStart t.kernel shell pending).state = t.kernel)
      (kernelMainBoot multibootMagic multibootInfoAddress) machine.start := by
  have hSetup {ρ : Type} (request : SetupRequest ρ) (h : request.Keeps) :
      BootsTo image interruptsInitialize interruptsInitialize (fun _ => True) (bootSetup request) :=
    keeps_bootsTo request h
  have hText (text : String) : BootsTo image interruptsInitialize interruptsInitialize (fun _ => True)
      (klogText text) := klogText_bootsTo text
  have hRun : BootsTo image interruptsInitialize kernelInterrupts
      (fun shell => shell = shellResetBuffer ∧ multibootMagic = multibootBootloaderMagic)
      (kernelMainBoot multibootMagic multibootInfoAddress) := by
    refine (bootCode_bootsTo (only_perform_iff.mpr .cli)).then ?_
    refine (hSetup .consoleInitialize trivial).then ?_
    refine (bootCheck_bootsTo _ _).bind fun _ hMagic => (bootCheck_bootsTo _ _).then ?_
    refine klogInitialize_bootsTo.bind fun _ _ => (kernelWarn_bootsTo _).then ?_
    refine (hText _).then ((hText _).then ?_)
    refine (bootCode_bootsTo (klogPutchar_only Output.boot _)).then ?_
    -- memory
    refine (hText _).then ((hSetup (.memoryInitialize multibootInfoAddress) trivial).bind fun _ _ => ?_)
    refine (bootCheck_bootsTo _ _).then ?_
    refine (bootCode_bootsTo (memoryPrintSummary_only Output.boot .memoryState)).then ?_
    refine (hText _).then ((hSetup (.pmmInitialize multibootInfoAddress) trivial).bind fun _ _ => ?_)
    refine (bootCheck_bootsTo _ _).then ?_
    refine (bootCode_bootsTo (pmmPrintSummary_only Output.boot .pmmState)).then ?_
    refine (hText _).then ((hSetup .gdtInitialize trivial).then ?_)
    refine (hText _).then ((hSetup .vmmInitialize trivial).bind fun _ _ => ?_)
    refine (bootCheck_bootsTo _ _).then ?_
    refine (bootCode_bootsTo (vmmPrintSummary_only Output.boot .vmmIsEnabled .vmmGetIdentityMappedBytes)).then ?_
    refine (hText _).then ((hSetup .heapInitialize trivial).bind fun _ _ => ?_)
    refine (bootCheck_bootsTo _ _).then ?_
    -- interrupts
    refine (hText _).then (interruptsInitialize_bootsTo.then ?_)
    refine (hSetup .inputInitialize trivial).then ((hSetup .idtInitialize trivial).then ?_)
    refine (bootCode_bootsTo picRemap_boot).then ((bootCode_bootsTo picMaskAll_boot).then ?_)
    refine (interruptsRegisterIrq_bootsTo _ _).bind fun _ _ => (bootCheck_bootsTo _ _).then ?_
    refine (interruptsRegisterIrq_bootsTo _ _).bind fun _ _ => (bootCheck_bootsTo _ _).then ?_
    refine (keeps_bootsTo (.pitInitialize 100#32) trivial).bind fun _ _ => ?_
    refine (bootCheck_bootsTo _ _).then ?_
    refine (bootCode_bootsTo (shellInitialize_only Output.boot)).bind fun shell hShell => ?_
    refine (bootCode_bootsTo (picUnmaskIrq_boot _)).bind fun _ _ => (bootCheck_bootsTo _ _).then ?_
    refine (bootCode_bootsTo (picUnmaskIrq_boot _)).bind fun _ _ => (bootCheck_bootsTo _ _).then (.done ?_)
    obtain ⟨trace, hReturns⟩ := hShell
    exact ⟨shellInitialize_returns hReturns, of_decide_eq_true hMagic⟩
  exact (hRun machine.start kernelReady_boot).mono fun shell t hDone =>
    ⟨hDone.1.1, hDone.1.2, fun _ => hDone.2.main⟩

end Boot
end WigOSX
