import WigOSX.Kernel.Machine
import WigOSX.Kernel.Printing
import WigOSX.Library.Takeover
import WigOSX.Machine.ExceptionStub

/-! CPU exceptions stop the kernel. Wherever one strikes, in the foreground or
in a handler, `isr_handler` reports it and panics; from its first instruction
on no interrupt is taken and nothing else runs. -/
namespace WigOSX

open Interaction (Completes Diverges Ensures Only Reaches only_perform_iff perform)

/-- `isr_handler` on the two fields of the frame that it reads. The stub always
passes a frame, so its pointer is not null. -/
def isrHandler (interruptNumber errorCode : BitVec 32) : KernelProgram Unit := do
  klogWritestring (asciiText "Exception vector: ")
  klogWriteUint32 interruptNumber
  klogPutchar asciiLineFeed
  klogWritestring (asciiText "Exception error code: ")
  klogWriteHex32 errorCode
  klogPutchar asciiLineFeed
  kernelPanic "Unhandled CPU exception"

/-- The stub of an exception up to its IRET, with what it finds on the stack. -/
def isrStub (n : Fin 32) (errorCode : BitVec 32) : KernelProgram Unit := do
  perform .cli
  isrHandler (BitVec.ofNat 32 n.val) (shownErrorCode n errorCode)

/-- An exception strikes the running program. -/
def exceptionTaken (n : Fin 32) (errorCode : BitVec 32) (c : KernelConfig) : KernelConfig :=
  { c with
    state := kernelProcessor.enter c.state
    frames := (kernelProcessor.save c.state, isrStub n errorCode) :: c.frames }

/-- What the handler prints before it panics. -/
def exceptionReport (n : Fin 32) (errorCode : BitVec 32) : List ConsoleCall :=
  [.writestring (asciiText "Exception vector: "), .writestring (decimalText n.val), .putchar asciiLineFeed,
    .writestring (asciiText "Exception error code: "), .writestring (hexText (shownErrorCode n errorCode)),
    .putchar asciiLineFeed]

/-- What `kernel_panic` prints. -/
def panicReport (message : String) : List ConsoleCall :=
  [.writestring (asciiText "\n[KERNEL PANIC] "), .writestring (asciiText message), .putchar asciiLineFeed,
    .writestring (asciiText "System halted.\n")]

section Safety

/-- The requests of the fatal paths. -/
inductive KernelRequest.Fatal : ∀ ⦃ρ : Type⦄, KernelRequest ρ → Prop where
  | output {ρ : Type} {r : KernelRequest ρ} (h : r.Output) : Fatal r
  | cli : Fatal .cli
  | panicCall (message : List (BitVec 8)) : Fatal (.panicCall message)
  | haltForever : Fatal .haltForever

theorem Output.fatal : AllowsOutput KernelRequest.Fatal := fun _ _ => .output

/-- A panic prints, turns interrupts off and halts; it asks for nothing else. -/
theorem kernelPanic_fatal {α : Type} (message : String) :
    (kernelPanic message : KernelProgram α).Only KernelRequest.Fatal :=
  .bind (only_perform_iff.mpr (.panicCall _)) fun _ => .bind (only_perform_iff.mpr .cli) fun _ =>
    .bind (klogWritestring_only Output.fatal _) fun _ => .bind (klogWritestring_only Output.fatal _) fun _ =>
    .bind (klogPutchar_only Output.fatal _) fun _ => .bind (klogWritestring_only Output.fatal _) fun _ =>
    ⟨.haltForever, nofun⟩

/-- An exception leads to a panic and to nothing else. -/
theorem isrStub_fatal (n : Fin 32) (errorCode : BitVec 32) : (isrStub n errorCode).Only KernelRequest.Fatal :=
  .bind (only_perform_iff.mpr .cli) fun _ => .bind (klogWritestring_only Output.fatal _) fun _ =>
    .bind (klogWriteFormatted_only Output.fatal _) fun _ => .bind (klogPutchar_only Output.fatal _) fun _ =>
    .bind (klogWritestring_only Output.fatal _) fun _ => .bind (klogWriteFormatted_only Output.fatal _) fun _ =>
    .bind (klogPutchar_only Output.fatal _) fun _ => kernelPanic_fatal _

/-- The handler of an exception does not return. -/
theorem isrStub_diverges (n : Fin 32) (errorCode : BitVec 32) : (isrStub n errorCode).Diverges :=
  .bind fun _ => .bind fun _ => .bind fun _ => .bind fun _ => .bind fun _ => .bind fun _ => .bind fun _ =>
    kernelPanic_diverges _

/-- Interrupts are off, and from `s` on nothing but the output and the panic
has changed. -/
structure StandsStill (s t : KernelState) : Prop where
  flag : t.cpu.interruptFlag = false
  frozen : t = { s with
    cpu := t.cpu
    console := t.console
    serialInitialized := t.serialInitialized
    panicMessage := t.panicMessage }

theorem StandsStill.enter (s : KernelState) : StandsStill s s.enterInterrupt := ⟨rfl, rfl⟩

/-- What a panic asks for changes neither the queue nor the characters handed
on. -/
theorem StandsStill.execute {ρ : Type} {device : BitVec 8} {s t u : KernelState} {r : KernelRequest ρ}
    {reply : ρ} (hFatal : r.Fatal) (h : StandsStill s t) (hExec : t.execute device r = some (reply, u)) :
    StandsStill s u := by
  obtain ⟨-, hServe⟩ := execute_eq_some hExec
  obtain ⟨hFlag, hFrozen⟩ := h
  cases hFatal with
  | output hOutput =>
      cases hOutput with
      | lineStatus =>
          cases hServe
          exact ⟨hFlag, congrArg KernelState.retire hFrozen⟩
      | _ =>
          cases hServe
          exact ⟨hFlag, by rw [hFrozen]; rfl⟩
  | haltForever => cases hServe
  | _ =>
      cases hServe
      exact ⟨by first | rfl | exact hFlag, by rw [hFrozen]; rfl⟩

theorem isrStub_ensures (n : Fin 32) (errorCode : BitVec 32) (s : KernelState) :
    Ensures KernelState.execute Eq (StandsStill s) (fun _ _ => False) (isrStub n errorCode) s.enterInterrupt := by
  have hKept : Ensures KernelState.execute Eq (StandsStill s) (fun _ t => StandsStill s t)
      (isrStub n errorCode) s.enterInterrupt := by
    refine (isrStub_fatal n errorCode).ensures (StandsStill s) (fun _ h => h) ?_ ?_ (.enter s)
    · rintro t u hStill rfl
      exact hStill
    · intro ρ device t r reply u hFatal hStill hExec
      exact hStill.execute hFatal hExec
  exact (isrStub_diverges n errorCode).ensures hKept

end Safety

section Report

/-- The program is about to halt forever. -/
structure HaltsHere {α : Type} (console : ConsoleState) (message : String) (rest : KernelProgram α)
    (t : KernelState) : Prop where
  rest : ∃ next, rest = .ask .haltForever next
  console : t.console = console
  panic : t.panicMessage = some (asciiText message)

variable {α : Type} {s t : KernelState} {goal : KernelProgram α → KernelState → Prop}

theorem Printed.refl (hRunning : s.cpu.halted = false) : Printed [] s s := ⟨⟨hRunning, rfl, rfl⟩, rfl⟩

/-- A program that prints and then goes on. -/
theorem reaches_print {calls more : List ConsoleCall} {p : KernelProgram Unit} {q : KernelProgram α}
    (h : Printed calls s t)
    (hQuiet : p.Only KernelRequest.Quiet) (hPrints : Prints more p)
    (hNext : ∀ u, Printed (calls ++ more) s u → Reaches KernelState.execute goal q u) :
    Reaches KernelState.execute goal (p >>= fun _ => q) t := by
  refine (prints_completes hQuiet hPrints h.running).reaches_bind fun _ u hMore => hNext u ⟨?_, ?_⟩
  · exact h.toQuietAfter.trans hMore.toQuietAfter
  · rw [hMore.console, h.console, List.foldl_append]

/-- A request of the processor or of the books, answered by a running processor. -/
theorem execute_running {ρ : Type} {r : KernelRequest ρ} {answer : Option (ρ × KernelState)}
    (hRunning : s.cpu.halted = false) (hServe : ∀ device, s.retire.serve device r = answer) (device : BitVec 8) :
    s.execute device r = answer := by
  rw [KernelState.execute, if_neg (by rw [hRunning]; exact Bool.false_ne_true)]
  exact hServe device

/-- A panic reports its message and halts. -/
theorem kernelPanic_reaches (message : String) (hRunning : s.cpu.halted = false) :
    Reaches KernelState.execute (HaltsHere ((panicReport message).foldl consoleCall s.console) message)
      (kernelPanic message : KernelProgram α) s := by
  refine .perform (execute_running hRunning fun _ => rfl) ?_
  refine .perform (execute_running hRunning fun _ => rfl) ?_
  refine reaches_print (.refl hRunning) (klogWritestring_only Output.quiet _) (klogWritestring_prints _) fun t₁ h₁ => ?_
  refine reaches_print h₁ (klogWritestring_only Output.quiet _) (klogWritestring_prints _) fun t₂ h₂ => ?_
  refine reaches_print h₂ (klogPutchar_only Output.quiet _) (klogPutchar_prints _) fun t₃ h₃ => ?_
  refine reaches_print h₃ (klogWritestring_only Output.quiet _) (klogWritestring_prints _) fun t₄ h₄ => ?_
  exact .here ⟨⟨_, rfl⟩, h₄.console, h₄.panic⟩

/-- The stub of an exception reports it, and panics. -/
theorem isrStub_reaches (n : Fin 32) (errorCode : BitVec 32) (s : KernelState) :
    Reaches KernelState.execute
      (HaltsHere ((exceptionReport n errorCode ++ panicReport "Unhandled CPU exception").foldl
        consoleCall s.console) "Unhandled CPU exception")
      (isrStub n errorCode) s.enterInterrupt := by
  have hVector : (BitVec.ofNat 32 n.val).toNat = n.val := by
    rw [BitVec.toNat_ofNat]
    omega
  refine .perform (execute_running rfl fun _ => rfl) ?_
  refine reaches_print (.refl rfl) (klogWritestring_only Output.quiet _) (klogWritestring_prints _) fun t₁ h₁ => ?_
  refine reaches_print h₁ (klogWriteFormatted_only Output.quiet _) (klogWriteUint32_prints _) fun t₂ h₂ => ?_
  refine reaches_print h₂ (klogPutchar_only Output.quiet _) (klogPutchar_prints _) fun t₃ h₃ => ?_
  refine reaches_print h₃ (klogWritestring_only Output.quiet _) (klogWritestring_prints _) fun t₄ h₄ => ?_
  refine reaches_print h₄ (klogWriteFormatted_only Output.quiet _) (klogWriteHex32_prints _) fun t₅ h₅ => ?_
  refine reaches_print h₅ (klogPutchar_only Output.quiet _) (klogPutchar_prints _) fun t₆ h₆ => ?_
  have hConsole : t₆.console = (exceptionReport n errorCode).foldl consoleCall s.console := by
    rw [h₆.console, hVector]
    rfl
  rw [List.foldl_append, ← hConsole]
  exact kernelPanic_reaches _ h₆.running

end Report

section Result

/-- Nothing runs any more: the handler halts, and what it halts is stopped. -/
def KernelDead (c : KernelConfig) : Prop :=
  ∀ device d, ¬KernelStep c (.proceed device) d

/-- A panic that has reached its halt with interrupts off leaves the machine
with no step to take. -/
theorem kernelDead_of_halts {t : KernelState} {rest : KernelProgram Unit} {p : KernelProgram ShellState}
    {frames : List (Bool × KernelProgram Unit)} {saved : Bool} {pending : Fin irqHandlerCount → Bool}
    {console : ConsoleState} {message : String} (h : HaltsHere console message rest t) :
    KernelDead ⟨t, p, (saved, rest) :: frames, pending⟩ := by
  obtain ⟨next, rfl⟩ := h.rest
  intro device d hStep
  obtain ⟨answer, hExec, -⟩ := Option.map_eq_some_iff.mp hStep
  obtain ⟨-, hServe⟩ := execute_eq_some hExec
  cases hServe

/-- Whatever exception strikes, wherever it does, in the foreground or in a
handler. Under every schedule: no interrupt is taken from then on, what was
running stays where it was, and no state changes but that of the output. And
whatever the devices answer, the processor soon halts for good, with the
vector, the error code and the panic on the console. -/
theorem exception_stops_kernel (c : KernelConfig) (n : Fin 32) (errorCode : BitVec 32) :
    (∀ actions d, TransitionSystem.Run KernelStep (exceptionTaken n errorCode c) actions d →
      (∀ line, .interrupt line ∉ actions) ∧ d.foreground = c.foreground ∧ d.frames.tail = c.frames ∧
        StandsStill c.state d.state) ∧
    (∀ inputs : ℕ → BitVec 8, ∃ k d,
      TransitionSystem.Run KernelStep (exceptionTaken n errorCode c)
        ((List.range k).map fun i => .proceed (inputs i)) d ∧
      KernelDead d ∧
      d.state.console = (exceptionReport n errorCode ++ panicReport "Unhandled CPU exception").foldl
        consoleCall c.state.console ∧
      d.state.panicMessage = some (asciiText "Unhandled CPU exception")) := by
  constructor
  · intro actions d run
    have hClosed (t : KernelState) (h : StandsStill c.state t) : kernelProcessor.accepts t = false := by
      show (t.cpu.interruptFlag && !t.cpu.stiShadow) = false
      rw [h.flag, Bool.false_and]
    have hTaken : kernelProcessor.TakenOver (StandsStill c.state) c.foreground
        (kernelProcessor.save c.state) c.frames (exceptionTaken n errorCode c) :=
      .running (isrStub_ensures n errorCode c.state)
    obtain ⟨hAfter, hActions⟩ := hTaken.run hClosed run
    obtain ⟨hForeground, handler, hFrames⟩ := hAfter.interrupted
    exact ⟨hActions, hForeground, by rw [hFrames, List.tail_cons], hAfter.state⟩
  · intro inputs
    have hReaches : Reaches kernelProcessor.execute _ (isrStub n errorCode) (kernelProcessor.enter c.state) :=
      isrStub_reaches n errorCode c.state
    have hInevitable : TransitionSystem.Inevitable (kernelProcessor.Step kernelWorkRunOnce) .proceed _
        (exceptionTaken n errorCode c) := Processor.inevitable_reaches hReaches
    obtain ⟨k, d, hRun, rest, t, hHalts, rfl⟩ := hInevitable.run inputs
    exact ⟨k, _, hRun, kernelDead_of_halts hHalts, hHalts.console, hHalts.panic⟩

end Result
end WigOSX
