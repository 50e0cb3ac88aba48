import WigOSX.Core.Shell
import WigOSX.Drivers.Pit

/-! What output and the shell's commands ask for. Output reaches the console,
the flags of the serial driver and two registers of COM1; a command reads the
services besides, and runs the self-test of the frame allocator. Both are
quiet: they touch neither the CPU's flag nor the interrupt context, and they
leave the positions of the input queue and the call structure alone. -/
namespace WigOSX

open Interaction (Only only_perform_iff perform)

/-- The requests of `log.c` and of what it calls. -/
inductive KernelRequest.Output : ∀ ⦃ρ : Type⦄, KernelRequest ρ → Prop where
  | console (call : ConsoleCall) : Output (.console call)
  | klogHasSerialOutput : Output .klogHasSerialOutput
  | serialIsInitialized : Output .serialIsInitialized
  | serialSetInitialized (value : Bool) : Output (.serialSetInitialized value)
  | lineStatus : Output (.inb (serialPortCom1 + 5#16))
  | data (c : BitVec 8) : Output (.outb serialPortCom1 c)

/-- The requests of `serial.c` once the line is set up. -/
inductive KernelRequest.SerialLine : ∀ ⦃ρ : Type⦄, KernelRequest ρ → Prop where
  | serialIsInitialized : SerialLine .serialIsInitialized
  | serialSetInitialized (value : Bool) : SerialLine (.serialSetInitialized value)
  | lineStatus : SerialLine (.inb (serialPortCom1 + 5#16))
  | data (c : BitVec 8) : SerialLine (.outb serialPortCom1 c)

theorem KernelRequest.SerialLine.output ⦃ρ : Type⦄ {r : KernelRequest ρ} (h : r.SerialLine) : r.Output := by
  cases h with
  | serialIsInitialized => exact .serialIsInitialized
  | serialSetInitialized value => exact .serialSetInitialized value
  | lineStatus => exact .lineStatus
  | data c => exact .data c

/-- The requests of the shell's commands. -/
inductive KernelRequest.Command : ∀ ⦃ρ : Type⦄, KernelRequest ρ → Prop where
  | output {ρ : Type} {r : KernelRequest ρ} (h : r.Output) : Command r
  | interruptsGetContextDepth : Command .interruptsGetContextDepth
  | interruptsGetIrqCount (irq : BitVec 8) : Command (.interruptsGetIrqCount irq)
  | interruptsGetUnhandledIrqCount : Command .interruptsGetUnhandledIrqCount
  | interruptsGetInvalidIrqCount : Command .interruptsGetInvalidIrqCount
  | inputLoadTail : Command .inputLoadTail
  | inputLoadHead : Command .inputLoadHead
  | inputGetDroppedCharacterCount : Command .inputGetDroppedCharacterCount
  | pitGetTicks : Command .pitGetTicks
  | memoryState : Command .memoryState
  | pmmState : Command .pmmState
  | pmmRunBasicSelfTest : Command .pmmRunBasicSelfTest
  | vmmIsEnabled : Command .vmmIsEnabled
  | vmmGetIdentityMappedBytes : Command .vmmGetIdentityMappedBytes
  | heapState : Command .heapState

/-- The requests that leave the flag of the CPU, the interrupt context, the
positions of the input queue and the call structure alone. -/
def KernelRequest.Quiet : ∀ ⦃ρ : Type⦄, KernelRequest ρ → Prop
  | _, .cli => False
  | _, .sti => False
  | _, .hlt => False
  | _, .interruptsContextEnter => False
  | _, .interruptsContextExit => False
  | _, .inputStoreTail _ => False
  | _, .inputEnqueueCharacter _ => False
  | _, .shellCall _ => False
  | _, .shellReturn => False
  | _, .panicCall _ => False
  | _, .haltForever => False
  | _, _ => True

/-- Everything but the end of a panic has an answer. -/
theorem KernelRequest.Quiet.reply_nonempty {ρ : Type} (r : KernelRequest ρ) (h : r.Quiet) :
    Nonempty ρ := by
  cases r with
  | haltForever => exact h.elim
  | memoryState => exact ⟨memoryResetSummary⟩
  | pmmState => exact ⟨.boot⟩
  | heapState => exact ⟨⟨false, 0#32, 0#32, 0#32⟩⟩
  | _ => exact ⟨default⟩

section Output

variable {allowed : ∀ ⦃ρ : Type⦄, KernelRequest ρ → Prop}

/-- The requests of output are among those allowed. -/
def AllowsOutput (allowed : ∀ ⦃ρ : Type⦄, KernelRequest ρ → Prop) : Prop :=
  ∀ ⦃ρ : Type⦄ (r : KernelRequest ρ), r.Output → allowed r

/-- Those of the serial driver are. -/
def AllowsSerial (allowed : ∀ ⦃ρ : Type⦄, KernelRequest ρ → Prop) : Prop :=
  ∀ ⦃ρ : Type⦄ (r : KernelRequest ρ), r.SerialLine → allowed r

/-- Whoever allows output allows the serial driver, which is a part of it. -/
theorem AllowsOutput.serial (hOutput : AllowsOutput allowed) : AllowsSerial allowed :=
  fun _ r h => hOutput r h.output

theorem consolePutchar_only (hOutput : AllowsOutput allowed) (c : BitVec 8) :
    (consolePutchar c).Only allowed :=
  only_perform_iff.mpr (hOutput _ (.console _))

theorem consoleWritestring_only (hOutput : AllowsOutput allowed) (text : List (BitVec 8)) :
    (consoleWritestring text).Only allowed :=
  only_perform_iff.mpr (hOutput _ (.console _))

/-- The polling loop reads the line status and nothing else, however often it
turns. -/
theorem serialPoll_only (hSerial : AllowsSerial allowed) (timeout : Nat) :
    (serialPoll timeout).Only allowed := by
  have hStatus : serialCanTransmit.Only allowed := ⟨hSerial _ .lineStatus, fun _ => trivial⟩
  induction timeout with
  | zero => exact hStatus
  | succ timeout ih => exact .bind hStatus fun _ => .ite trivial ih

/-- One byte for COM1: a check of the driver's flag, a poll, and a write or
the end of the driver. -/
theorem serialPutPlain_only (hSerial : AllowsSerial allowed) (c : BitVec 8) :
    (serialPutPlain c).Only allowed := by
  refine ⟨hSerial _ .serialIsInitialized, fun _ => .ite ?_ trivial⟩
  refine .bind (serialPoll_only hSerial serialTransmitTimeout) fun _ => .ite ?_ ?_
  · exact only_perform_iff.mpr (hSerial _ (.data c))
  · exact only_perform_iff.mpr (hSerial _ (.serialSetInitialized false))

/-- A line feed takes two such bytes, every other character one. -/
theorem serialPutchar_only (hSerial : AllowsSerial allowed) (c : BitVec 8) :
    (serialPutchar c).Only allowed := by
  refine .ite ⟨hSerial _ .serialIsInitialized, fun _ => .ite ?_ trivial⟩ (serialPutPlain_only hSerial c)
  exact .bind (serialPutPlain_only hSerial _) fun _ => serialPutPlain_only hSerial c

theorem serialWrite_only (hSerial : AllowsSerial allowed) (data : List (BitVec 8)) :
    (serialWrite data).Only allowed := by
  induction data with
  | nil => trivial
  | cons c data ih => exact .bind (serialPutchar_only hSerial c) fun _ => ih

/-- The log writes to the console, and to the serial line where that is
available. -/
theorem klogPutchar_only (hOutput : AllowsOutput allowed) (c : BitVec 8) :
    (klogPutchar c).Only allowed :=
  .bind (consolePutchar_only hOutput c) fun _ =>
    ⟨hOutput _ .klogHasSerialOutput, fun _ => .ite (serialPutchar_only hOutput.serial c) trivial⟩

/-- The same for a string, which the console takes in one call. -/
theorem klogWritestring_only (hOutput : AllowsOutput allowed) (text : List (BitVec 8)) :
    (klogWritestring text).Only allowed :=
  .bind (consoleWritestring_only hOutput text) fun _ =>
    ⟨hOutput _ .klogHasSerialOutput, fun _ => .ite (serialWrite_only hOutput.serial text) trivial⟩

/-- A number goes to the log as a string; where its buffer were too small
nothing would be written. -/
theorem klogWriteFormatted_only (hOutput : AllowsOutput allowed) (text : Option (List (BitVec 8))) :
    (klogWriteFormatted text).Only allowed := by
  cases text with
  | none => trivial
  | some text => exact klogWritestring_only hOutput text

/-- A line of a summary: its label, a value that some program prints, and a
line feed. -/
theorem klogWriteLine_only (hOutput : AllowsOutput allowed) (label : String)
    {value : KernelProgram Unit} (h : value.Only allowed) : (klogWriteLine label value).Only allowed :=
  .bind (klogWritestring_only hOutput _) fun _ => .bind h fun _ => klogPutchar_only hOutput _

theorem memoryPrintKib_only (hOutput : AllowsOutput allowed) (bytes : BitVec 64) :
    (memoryPrintKib bytes).Only allowed :=
  .bind (klogWriteFormatted_only hOutput _) fun _ => klogWritestring_only hOutput _

/-- The table of regions: every row is output, so all of the table is. -/
theorem memoryPrintRegions_only (hOutput : AllowsOutput allowed) (i : Nat) (regions : List MemoryRegion) :
    (memoryPrintRegions i regions).Only allowed := by
  induction regions generalizing i with
  | nil => trivial
  | cons region rest ih =>
      refine .bind (klogWritestring_only hOutput _) fun _ => .bind (klogWriteFormatted_only hOutput _)
        fun _ => .bind (klogWritestring_only hOutput _) fun _ => .bind (klogWritestring_only hOutput _)
        fun _ => .bind (klogWritestring_only hOutput _) fun _ => .bind (memoryPrintKib_only hOutput _)
        fun _ => .bind (klogWritestring_only hOutput _) fun _ => .bind (memoryPrintKib_only hOutput _)
        fun _ => .bind (klogPutchar_only hOutput _) fun _ => ih _

/-- The two totals that the loader reports, or a note that they are missing. -/
theorem memoryPrintBasic_only (hOutput : AllowsOutput allowed) (m : MemoryState) :
    (memoryPrintBasic m).Only allowed := by
  refine .ite ?_ (klogWritestring_only hOutput _)
  refine .bind (klogWritestring_only hOutput _) fun _ => .bind (klogWriteFormatted_only hOutput _)
    fun _ => .bind (klogWritestring_only hOutput _) fun _ => .bind (klogWritestring_only hOutput _)
    fun _ => .bind (klogWriteFormatted_only hOutput _) fun _ => klogWritestring_only hOutput _

/-- The handler of the timer counts its tick; everything else that it does is
a heartbeat on the serial line. -/
theorem pitHandleInterrupt_only (hOutput : AllowsOutput allowed) (hTick : allowed .pitIncrementTicks) :
    pitHandleInterrupt.Only allowed := by
  have hText (text : String) := serialWrite_only hOutput.serial (asciiText text)
  refine ⟨hTick, fun _ => .ite (.bind (hText _) fun _ => ?_) trivial⟩
  exact .ite (hText _) (.ite (hText _) (.ite (hText _) (hText _)))

/-- The summary of the memory map reads the parsed table once and is output
from then on. -/
theorem memoryPrintSummary_only (hOutput : AllowsOutput allowed) (hState : allowed .memoryState) :
    memoryPrintSummary.Only allowed := by
  have hText (text : String) := klogWritestring_only hOutput (asciiText text)
  have hLine (label : String) {value : KernelProgram Unit} (h : value.Only allowed) :=
    klogWriteLine_only hOutput label h
  refine .bind (only_perform_iff.mpr hState) fun m => .bind (hText _) fun _ =>
    .bind (hText _) fun _ => .bind (memoryPrintBasic_only hOutput m) fun _ => .ite (hText _) ?_
  refine .bind (hText _) fun _ => .bind (hLine _ (klogWriteFormatted_only hOutput _)) fun _ =>
    .bind (hLine _ (klogWriteFormatted_only hOutput _)) fun _ =>
    .bind (hLine _ (klogWriteFormatted_only hOutput _)) fun _ =>
    .bind (hLine _ (memoryPrintKib_only hOutput _)) fun _ =>
    .bind (hLine _ (memoryPrintKib_only hOutput _)) fun _ =>
    .bind (.ite (hText _) trivial) fun _ => memoryPrintRegions_only hOutput _ _

/-- The summary of the frame allocator reads its counters once and prints
them. -/
theorem pmmPrintSummary_only (hOutput : AllowsOutput allowed) (hState : allowed .pmmState) :
    pmmPrintSummary.Only allowed := by
  have hText (text : String) := klogWritestring_only hOutput (asciiText text)
  have hCount (label : String) (value : BitVec 32) := klogWriteLine_only hOutput label
    (klogWriteFormatted_only hOutput (formatted (kformatUint32Decimal value) 11))
  exact .bind (only_perform_iff.mpr hState) fun s => .bind (hText _) fun _ => .bind (hText _) fun _ =>
    .bind (hText _) fun _ => .bind (klogWriteFormatted_only hOutput _) fun _ =>
    .bind (hText _) fun _ => .bind (hCount _ _) fun _ => .bind (hCount _ _) fun _ => hCount _ _

/-- The summary of paging asks whether it is enabled and how much of memory it
maps. -/
theorem vmmPrintSummary_only (hOutput : AllowsOutput allowed) (hEnabled : allowed .vmmIsEnabled)
    (hBytes : allowed .vmmGetIdentityMappedBytes) : vmmPrintSummary.Only allowed := by
  have hText (text : String) := klogWritestring_only hOutput (asciiText text)
  exact .bind (hText _) fun _ => .bind (only_perform_iff.mpr hEnabled) fun _ =>
    .bind (hText _) fun _ => .bind (only_perform_iff.mpr hBytes) fun _ =>
    klogWriteLine_only hOutput _ (klogWriteFormatted_only hOutput _)

theorem shellInitialize_only (hOutput : AllowsOutput allowed) : shellInitialize.Only allowed := by
  have hText (text : List (BitVec 8)) := consoleWritestring_only hOutput text
  exact .bind (hText _) fun _ => .bind (hText _) fun _ => .bind (hText _) fun _ =>
    .bind (hText _) fun _ => trivial

end Output

section Commands

theorem Output.command : AllowsOutput KernelRequest.Command := fun _ _ => .output

/-- A number on the console; where the digits did not fit, nothing is printed. -/
theorem shellPrintUint32_command (value : BitVec 32) :
    (shellPrintUint32 value).Only KernelRequest.Command := by
  rw [shellPrintUint32]
  split
  · exact consoleWritestring_only Output.command _
  · trivial

theorem shellWriteLines_command (lines : List String) :
    (shellWriteLines lines).Only KernelRequest.Command := by
  induction lines with
  | nil => trivial
  | cons line rest ih => exact .bind (consoleWritestring_only Output.command _) fun _ => ih

/-- A line of a command: a label, a counter that some request reads, and a
line feed. -/
theorem shellPrintCounter_command (label : String) {counter : KernelProgram (BitVec 32)}
    (h : counter.Only KernelRequest.Command) :
    (shellPrintCounter label counter).Only KernelRequest.Command :=
  .bind (consoleWritestring_only Output.command _) fun _ => .bind h fun _ =>
    .bind (shellPrintUint32_command _) fun _ => consolePutchar_only Output.command _

/-- The lines of the scroll test, by induction on how many are left. -/
theorem shellScrollLines_command (i count : Nat) :
    (shellScrollLines i count).Only KernelRequest.Command := by
  induction count generalizing i with
  | zero => trivial
  | succ count ih =>
      exact .bind (consoleWritestring_only Output.command _) fun _ =>
        .bind (shellPrintUint32_command _) fun _ =>
        .bind (consolePutchar_only Output.command _) fun _ => ih _

theorem shellCommandIrq_command : shellCommandIrq.Only KernelRequest.Command := by
  have hCounter (label : String) {request : KernelRequest (BitVec 32)} (h : request.Command) :=
    shellPrintCounter_command label (only_perform_iff.mpr h)
  exact .bind (hCounter _ .interruptsGetContextDepth) fun _ =>
    .bind (hCounter _ (.interruptsGetIrqCount _)) fun _ =>
    .bind (hCounter _ (.interruptsGetIrqCount _)) fun _ =>
    .bind (hCounter _ .interruptsGetUnhandledIrqCount) fun _ =>
    hCounter _ .interruptsGetInvalidIrqCount

theorem shellCommandHeap_command : shellCommandHeap.Only KernelRequest.Command := by
  have hText (text : List (BitVec 8)) := consoleWritestring_only Output.command text
  exact .bind (hText _) fun _ => .bind (only_perform_iff.mpr .heapState) fun _ =>
    .bind (hText _) fun _ => .bind (shellPrintCounter_command _ trivial) fun _ => hText _

theorem shellUnknownCommand_command (command : List (BitVec 8)) :
    (shellUnknownCommand command).Only KernelRequest.Command := by
  have hText (text : List (BitVec 8)) := consoleWritestring_only Output.command text
  exact .bind (hText _) fun _ => .bind (hText _) fun _ =>
    .bind (consolePutchar_only Output.command _) fun _ => hText _

/-- Whatever the line is, its command prints, reads services, or runs the
self-test of the allocator. -/
theorem shellExecuteCommand_command (command : List (BitVec 8)) :
    (shellExecuteCommand command).Only KernelRequest.Command := by
  have hText (text : List (BitVec 8)) := consoleWritestring_only Output.command text
  have hPending : inputPendingCharacters.Only KernelRequest.Command :=
    ⟨.inputLoadHead, fun _ => ⟨.inputLoadTail, fun _ => trivial⟩⟩
  refine .ite trivial (.ite (shellWriteLines_command _) (.ite ?_ (.ite ?_ (.ite ?_ (.ite ?_ (.ite ?_
    (.ite (memoryPrintSummary_only Output.command .memoryState)
    (.ite (pmmPrintSummary_only Output.command .pmmState) (.ite ?_ (.ite ?_
    (.ite (vmmPrintSummary_only Output.command .vmmIsEnabled .vmmGetIdentityMappedBytes) (.ite (shellWriteLines_command _) (.ite
    (shellScrollLines_command _ _) (shellUnknownCommand_command _))))))))))))))
  · exact only_perform_iff.mpr (.output (.console _))
  · exact .bind (hText _) fun _ => .bind (hText _) fun _ => consolePutchar_only Output.command _
  · exact shellPrintCounter_command _ (only_perform_iff.mpr .pitGetTicks)
  · exact shellCommandIrq_command
  · exact .bind (shellPrintCounter_command _ hPending) fun _ =>
      shellPrintCounter_command _ (only_perform_iff.mpr .inputGetDroppedCharacterCount)
  · exact .bind (only_perform_iff.mpr .pmmRunBasicSelfTest) fun _ => hText _
  · exact shellCommandHeap_command

/-- Past its check of the context the shell asks for no more than its commands. -/
theorem shellEditLine_command (ascii : BitVec 8) (s : ShellState) :
    (shellEditLine ascii s).Only KernelRequest.Command := by
  have hEcho (c : BitVec 8) := consolePutchar_only Output.command c
  have hPrompt : shellPrintPrompt.Only KernelRequest.Command := consoleWritestring_only Output.command _
  rw [shellEditLine]
  split_ifs
  · exact .bind (hEcho _) fun _ => .bind (shellExecuteCommand_command _) fun _ =>
      .bind hPrompt fun _ => trivial
  · exact .bind (hEcho _) fun _ => trivial
  · trivial
  · trivial
  · exact .bind (klogWritestring_only Output.command _) fun _ => .bind hPrompt fun _ => trivial
  · exact .bind (hEcho _) fun _ => trivial

end Commands

section Quiet

/-- Output reaches neither the CPU's flag nor the context nor the queue. -/
theorem Output.quiet : AllowsOutput KernelRequest.Quiet := by
  intro ρ request hOutput
  cases hOutput with
  | _ => trivial

/-- A command of the shell is quiet as well. -/
theorem KernelRequest.Command.quiet ⦃ρ : Type⦄ (request : KernelRequest ρ) (h : request.Command) :
    request.Quiet := by
  cases h with
  | output hOutput => exact Output.quiet request hOutput
  | _ => trivial

/-- The timer's handler counts its tick and prints. -/
theorem pitHandleInterrupt_quiet : pitHandleInterrupt.Only KernelRequest.Quiet :=
  pitHandleInterrupt_only Output.quiet trivial

/-- Past its check of the context the shell is quiet on every character. -/
theorem shellEditLine_quiet (ascii : BitVec 8) (s : ShellState) :
    (shellEditLine ascii s).Only KernelRequest.Quiet :=
  (shellEditLine_command ascii s).mono KernelRequest.Command.quiet

end Quiet
end WigOSX
