import WigOSX.Kernel.Quiescence

/-! The running kernel with its interrupt controllers. Devices raise and
withdraw their lines at any time, the controllers choose what the processor
gets to see, and the kernel's writes to their ports reach them. -/
namespace WigOSX

open TransitionSystem (Run)

structure PicSystem : Type 1 where
  kernel : KernelRecorded
  pics : PicPair

inductive PicAction where
  | raise (line : Fin irqHandlerCount)
  | withdraw (line : Fin irqHandlerCount)
  | interrupt
  | proceed (device : BitVec 8)

/-- What a step of the kernel writes to the controllers. -/
def picWrites (x : KernelRecorded) (device : BitVec 8) : List (BitVec 16 × BitVec 8) :=
  (kernelProcessor.events kernelRecorder x.config (.proceed device)).filterMap KernelEvent.command

/-- One step. The slave raises line 2 only on a request of its own. The
processor may take an interrupt that is no longer requested, since the request
can go away while it is acknowledged; the vector then names a spurious line. -/
inductive PicStep : PicSystem → PicAction → PicSystem → Prop where
  | raise {x : KernelRecorded} {pics : PicPair} (line : Fin irqHandlerCount)
      (hCascade : line.val = 2 → pics.slave.request.isSome = true) :
      PicStep ⟨x, pics⟩ (.raise line) ⟨x, pics.raise line⟩
  | withdraw {x : KernelRecorded} {pics : PicPair} (line : Fin irqHandlerCount) :
      PicStep ⟨x, pics⟩ (.withdraw line) ⟨x, pics.withdraw line⟩
  | interrupt {x y z : KernelRecorded} {pics : PicPair} (line : Fin irqHandlerCount)
      (hVector : pics.acknowledge.1 = BitVec.ofNat 8 (32 + line.val))
      (hRaise : KernelRecordedStep x (.raise line) y) (hTake : KernelRecordedStep y (.interrupt line) z) :
      PicStep ⟨x, pics⟩ .interrupt ⟨z, pics.acknowledge.2⟩
  | proceed {x y : KernelRecorded} {pics : PicPair} (device : BitVec 8)
      (hStep : KernelRecordedStep x (.proceed device) y) :
      PicStep ⟨x, pics⟩ (.proceed device) ⟨y, pics.writes (picWrites x device)⟩

/-- The kernel's own part of a run. -/
theorem PicStep.kernel_run {x y : PicSystem} {actions : List PicAction} (run : Run PicStep x actions y) :
    ∃ kernelActions, Run KernelRecordedStep x.kernel kernelActions y.kernel := by
  induction run with
  | nil => exact ⟨[], .nil⟩
  | snoc _ last ih =>
      obtain ⟨kernelActions, hRun⟩ := ih
      cases last with
      | raise line => exact ⟨_, hRun⟩
      | withdraw line => exact ⟨_, hRun⟩
      | interrupt line hVector hRaise hTake => exact ⟨_, (hRun.snoc hRaise).snoc hTake⟩
      | proceed device hStep => exact ⟨_, hRun.snoc hStep⟩

namespace PicPair

variable {pics : PicPair} {masterMask slaveMask : BitVec 8}

/-- The pair as the kernel has programmed it. -/
structure Configured (masterMask slaveMask : BitVec 8) (pics : PicPair) : Prop where
  master : pics.master.Configured picMasterOffset masterMask
  slave : pics.slave.Configured picSlaveOffset slaveMask

/-- The pair is configured as soon as `pic_remap` has programmed it. -/
theorem configured_programmed (masterMask slaveMask : BitVec 8) :
    (PicPair.programmed masterMask slaveMask).Configured masterMask slaveMask :=
  ⟨⟨rfl, rfl, rfl, rfl⟩, ⟨rfl, rfl, rfl, rfl⟩⟩

/-- A device that raises its line does not change how the pair is configured. -/
theorem Configured.raise (h : pics.Configured masterMask slaveMask) (line : Fin 16) :
    (pics.raise line).Configured masterMask slaveMask := by
  rw [PicPair.raise]
  split
  · exact ⟨h.master.raise _, h.slave⟩
  · exact ⟨h.master, h.slave.raise _⟩

/-- Nor does one that lets its line go. -/
theorem Configured.withdraw (h : pics.Configured masterMask slaveMask) (line : Fin 16) :
    (pics.withdraw line).Configured masterMask slaveMask := by
  rw [PicPair.withdraw]
  split
  · exact ⟨h.master.withdraw _, h.slave⟩
  · exact ⟨h.master, h.slave.withdraw _⟩

/-- Nor does the acknowledge cycle of the processor. -/
theorem Configured.acknowledge (h : pics.Configured masterMask slaveMask) :
    pics.acknowledge.2.Configured masterMask slaveMask := by
  rw [PicPair.acknowledge]
  split
  · exact ⟨h.master.acknowledge, h.slave.acknowledge⟩
  · exact ⟨h.master.acknowledge, h.slave⟩

/-- The lines in service. -/
def inService (pics : PicPair) : BitVec 8 × BitVec 8 := (pics.master.isr, pics.slave.isr)

theorem inService_raise (line : Fin 16) : (pics.raise line).inService = pics.inService := by
  rw [PicPair.raise]
  split
  · rfl
  · rfl

theorem inService_withdraw (line : Fin 16) : (pics.withdraw line).inService = pics.inService := by
  rw [PicPair.withdraw]
  split
  · rfl
  · rfl

/-- What an acknowledged vector says about the line. -/
theorem acknowledge_line (h : pics.Configured masterMask slaveMask) {line : Fin irqHandlerCount}
    (hVector : pics.acknowledge.1 = BitVec.ofNat 8 (32 + line.val)) :
    (pics.master.request ≠ some 2 ∧ line.val = pics.master.acknowledge.1.val ∧
      pics.acknowledge.2 = ⟨pics.master.acknowledge.2, pics.slave⟩) ∨
    (pics.master.request = some 2 ∧ line.val = 8 + pics.slave.acknowledge.1.val ∧
      pics.acknowledge.2 = ⟨pics.master.acknowledge.2, pics.slave.acknowledge.2⟩) := by
  have hMaster : ∀ (i : Fin 8) (k : Fin irqHandlerCount),
      0x20#8 ||| BitVec.ofNat 8 i.val = BitVec.ofNat 8 (32 + k.val) → k.val = i.val := by
    decide
  have hSlave : ∀ (i : Fin 8) (k : Fin irqHandlerCount),
      0x28#8 ||| BitVec.ofNat 8 i.val = BitVec.ofNat 8 (32 + k.val) → k.val = 8 + i.val := by
    decide
  by_cases hCascade : pics.master.request = some 2
  · rw [PicPair.acknowledge, if_pos hCascade, h.slave.vectorBase] at hVector
    refine .inr ⟨hCascade, hSlave _ _ hVector, ?_⟩
    rw [PicPair.acknowledge, if_pos hCascade]
  · rw [PicPair.acknowledge, if_neg hCascade, h.master.vectorBase] at hVector
    refine .inl ⟨hCascade, hMaster _ _ hVector, ?_⟩
    rw [PicPair.acknowledge, if_neg hCascade]

/-- There is a vector for every acknowledge cycle. -/
theorem exists_acknowledge_line (h : pics.Configured masterMask slaveMask) :
    ∃ line : Fin irqHandlerCount, pics.acknowledge.1 = BitVec.ofNat 8 (32 + line.val) := by
  have hMaster : ∀ i : Fin 8, ∃ k : Fin irqHandlerCount,
      0x20#8 ||| BitVec.ofNat 8 i.val = BitVec.ofNat 8 (32 + k.val) := by
    decide
  have hSlave : ∀ i : Fin 8, ∃ k : Fin irqHandlerCount,
      0x28#8 ||| BitVec.ofNat 8 i.val = BitVec.ofNat 8 (32 + k.val) := by
    decide
  rw [PicPair.acknowledge]
  split
  · rw [h.slave.vectorBase]
    exact hSlave _
  · rw [h.master.vectorBase]
    exact hMaster _

/-- What end-of-interrupt commands leave in service. -/
def isrAfter (commands : List (BitVec 16 × BitVec 8)) (isr : BitVec 8 × BitVec 8) : BitVec 8 × BitVec 8 :=
  commands.foldl (fun isr command =>
    if command.1 = picMasterCommand then (Pic8259.clearFirst isr.1, isr.2)
    else (isr.1, Pic8259.clearFirst isr.2)) isr

/-- The commands for an acknowledged line end exactly what its acknowledge
cycle has begun, be it spurious or not. -/
theorem isrAfter_eoiCommands (h : pics.Configured masterMask slaveMask) (hIdle : pics.inService = (0#8, 0#8))
    {line : Fin irqHandlerCount} (hVector : pics.acknowledge.1 = BitVec.ofNat 8 (32 + line.val)) :
    isrAfter (eoiCommands line) pics.acknowledge.2.inService = (0#8, 0#8) := by
  obtain ⟨hMasterIdle, hSlaveIdle⟩ := Prod.mk.inj hIdle
  have hMaster := Pic8259.clearFirst_acknowledge h.master.automaticEoi hMasterIdle
  have hSlave := Pic8259.clearFirst_acknowledge h.slave.automaticEoi hSlaveIdle
  rcases acknowledge_line h hVector with ⟨-, hLine, hNext⟩ | ⟨-, hLine, hNext⟩
  · rw [hNext, eoiCommands, if_neg (by omega)]
    show (Pic8259.clearFirst pics.master.acknowledge.2.isr, pics.slave.isr) = _
    rw [hMaster, hSlaveIdle]
  · rw [hNext, eoiCommands, if_pos (by omega)]
    show (Pic8259.clearFirst pics.master.acknowledge.2.isr, Pic8259.clearFirst pics.slave.acknowledge.2.isr) = _
    rw [hMaster, hSlave]

/-- A line that is acknowledged is open, or it is the spurious line of one of
the controllers. -/
theorem acknowledge_open (h : pics.Configured masterMask slaveMask) {line : Fin irqHandlerCount}
    (hVector : pics.acknowledge.1 = BitVec.ofNat 8 (32 + line.val)) :
    pics.masked line = false ∨ line.val = 7 ∨ line.val = 15 ∧ pics.masked 2 = false := by
  have hMasked : pics.masked line =
      if line.val < 8 then pics.master.imr.getLsbD line.val else pics.slave.imr.getLsbD (line.val - 8) := rfl
  rcases acknowledge_line h hVector with ⟨-, hLine, -⟩ | ⟨hCascade, hLine, -⟩
  · rw [Pic8259.acknowledge] at hLine
    cases hRequest : pics.master.request with
    | none =>
        rw [hRequest] at hLine
        exact .inr (.inl hLine)
    | some i =>
        rw [hRequest] at hLine
        refine .inl ?_
        rw [hMasked, if_pos (by omega), hLine]
        exact (Pic8259.request_some hRequest).2
  · rw [Pic8259.acknowledge] at hLine
    cases hRequest : pics.slave.request with
    | none =>
        rw [hRequest] at hLine
        exact .inr (.inr ⟨hLine, (Pic8259.request_some hCascade).2⟩)
    | some i =>
        rw [hRequest] at hLine
        refine .inl ?_
        rw [hMasked, if_neg (by omega), hLine, Nat.add_sub_cancel_left]
        exact (Pic8259.request_some hRequest).2

/-- An end-of-interrupt command. -/
theorem outb_ofHandler (pics : PicPair) (masterMask slaveMask : BitVec 8) {port : BitVec 16} {value : BitVec 8}
    (h : KernelEvent.OfHandler (.picWrite port value)) :
    (pics.outb port value).inService = isrAfter [(port, value)] pics.inService ∧
    (pics.Configured masterMask slaveMask → (pics.outb port value).Configured masterMask slaveMask) ∧
    ∀ line, (pics.outb port value).requested line = pics.requested line := by
  cases h with
  | master => exact ⟨rfl, fun h => ⟨h.master.endOfInterrupt, h.slave⟩, fun _ => rfl⟩
  | slave => exact ⟨rfl, fun h => ⟨h.master, h.slave.endOfInterrupt⟩, fun _ => rfl⟩

/-- What a handler is recorded by, as it reaches the controllers. -/
theorem writes_ofHandler (pics : PicPair) (masterMask slaveMask : BitVec 8) {events : List KernelEvent}
    (h : ∀ event ∈ events, event.OfHandler) :
    (pics.writes (events.filterMap KernelEvent.command)).inService =
        isrAfter (events.filterMap KernelEvent.command) pics.inService ∧
    (pics.Configured masterMask slaveMask →
      (pics.writes (events.filterMap KernelEvent.command)).Configured masterMask slaveMask) ∧
    ∀ line, (pics.writes (events.filterMap KernelEvent.command)).requested line = pics.requested line := by
  induction events generalizing pics with
  | nil => exact ⟨rfl, id, fun _ => rfl⟩
  | cons event events ih =>
      have hRest := fun other hOther => h other (List.mem_cons_of_mem _ hOther)
      have hFirst := h event List.mem_cons_self
      cases event with
      | picWrite port value =>
          obtain ⟨hIsr, hConfigured, hRequested⟩ := outb_ofHandler pics masterMask slaveMask hFirst
          obtain ⟨hIsrRest, hConfiguredRest, hRequestedRest⟩ := ih (pics.outb port value) hRest
          refine ⟨?_, fun hStart => hConfiguredRest (hConfigured hStart), fun line =>
            (hRequestedRest line).trans (hRequested line)⟩
          show ((pics.outb port value).writes (events.filterMap KernelEvent.command)).inService = _
          rw [hIsrRest, hIsr]
          rfl
      | _ => exact ih pics hRest

/-- The lines that calls of `pic_unmask_irq` have opened. -/
theorem masked_of_configured {irqs : List (BitVec 8)} (h : pics.Configured masterMask slaveMask)
    (hMasks : ∀ line, (PicPair.programmed masterMask slaveMask).masked line = true ↔ ¬PicOpens irqs line)
    (line : Fin 16) : pics.masked line = false ↔ PicOpens irqs line := by
  have hMasked : pics.masked line = (PicPair.programmed masterMask slaveMask).masked line := by
    rw [masked_programmed, masked, h.master.imr, h.slave.imr]
  rw [hMasked, Bool.eq_false_iff, ne_eq, hMasks, not_not]

end PicPair

section Invariant

variable {masterMask slaveMask : BitVec 8}

/-- Between handlers nothing is in service. Inside one, its rest will end what
is in service, however it goes on. -/
inductive PicServed (masterMask slaveMask : BitVec 8) : PicSystem → Prop where
  | idle {s : KernelState} {p : KernelProgram ShellState} {pending : Fin irqHandlerCount → Bool}
      {record : List KernelEvent} {pics : PicPair} (hPics : pics.Configured masterMask slaveMask)
      (hIsr : pics.inService = (0#8, 0#8)) : PicServed masterMask slaveMask ⟨⟨⟨s, p, [], pending⟩, record⟩, pics⟩
  | serving {s : KernelState} {p : KernelProgram ShellState} {pending : Fin irqHandlerCount → Bool}
      {record part : List KernelEvent} {pics : PicPair} {isr : BitVec 8 × BitVec 8} {saved : Bool}
      {h : KernelProgram Unit} (hPics : pics.Configured masterMask slaveMask)
      (hIsr : pics.inService = PicPair.isrAfter (part.filterMap KernelEvent.command) isr)
      (hPart : kernelRecorder.Promises
        (fun part _ => PicPair.isrAfter (part.filterMap KernelEvent.command) isr = (0#8, 0#8)) h part)
      (hWrites : h.Only (kernelRecorder.Writes KernelEvent.OfHandler)) :
      PicServed masterMask slaveMask ⟨⟨⟨s, p, [(saved, h)], pending⟩, record⟩, pics⟩

theorem PicServed.configured {x : PicSystem} (h : PicServed masterMask slaveMask x) :
    x.pics.Configured masterMask slaveMask := by
  cases h with
  | idle hPics => exact hPics
  | serving hPics => exact hPics

/-- Commands in sequence act on what is in service one after the other. -/
theorem isrAfter_append (first second : List (BitVec 16 × BitVec 8)) (isr : BitVec 8 × BitVec 8) :
    PicPair.isrAfter (first ++ second) isr = PicPair.isrAfter second (PicPair.isrAfter first isr) :=
  List.foldl_append

/-- What the step of a kernel adds to its record is what the controllers see. -/
theorem picWrites_of_step {x y : KernelRecorded} {device : BitVec 8} {part : List KernelEvent}
    (hStep : KernelRecordedStep x (.proceed device) y) (hRecord : y.record = x.record ++ part) :
    picWrites x device = part.filterMap KernelEvent.command := by
  rw [picWrites, List.append_cancel_left (hStep.2.symm.trans hRecord)]

/-- A step of the kernel requests nothing and withdraws nothing. -/
theorem PicServed.proceed {keyboard : KeyboardState} {shell : ShellState} {x y : KernelRecorded}
    {pics : PicPair} {device : BitVec 8} (hChronicle : KernelChronicle keyboard shell x)
    (h : PicServed masterMask slaveMask ⟨x, pics⟩) (hStep : KernelRecordedStep x (.proceed device) y) :
    PicServed masterMask slaveMask ⟨y, pics.writes (picWrites x device)⟩ ∧
    ∀ line, (pics.writes (picWrites x device)).requested line = pics.requested line := by
  have hWritten : ∀ part, y.record = x.record ++ part → picWrites x device = part.filterMap KernelEvent.command :=
    fun part hRecord => picWrites_of_step hStep hRecord
  cases hStep.move with
  | again carried =>
      rw [hWritten [] (List.append_nil _).symm]
      cases h with
      | idle hPics hIsr => exact ⟨.idle hPics hIsr, fun _ => rfl⟩
  | @work ρ r next device s t reply pending record hExec =>
      have hCalls := hChronicle.loop.writes.1 reply
      have hNone : (kernelNote r reply).filterMap KernelEvent.command = [] := by
        rw [List.filterMap_eq_nil_iff]
        intro event hEvent
        obtain ⟨ascii, rfl⟩ := hCalls event hEvent
        rfl
      rw [hWritten _ rfl, show kernelRecorder.note r reply = kernelNote r reply from rfl, hNone]
      cases h with
      | idle hPics hIsr => exact ⟨.idle hPics hIsr, fun _ => rfl⟩
  | leave =>
      rw [hWritten [] (List.append_nil _).symm]
      cases h with
      | serving hPics hIsr hPart => exact ⟨.idle hPics (hIsr.trans hPart.done), fun _ => rfl⟩
  | @serve ρ r next device s t reply p frames pending record saved hExec =>
      rw [hWritten _ rfl]
      cases h with
      | serving hPics hIsr hPart hWrites =>
          obtain ⟨hAfter, hConfigured, hRequested⟩ :=
            pics.writes_ofHandler masterMask slaveMask (hWrites.1 reply)
          refine ⟨.serving (hConfigured hPics) ?_ (hPart.ask reply) (hWrites.2 reply), hRequested⟩
          rw [hAfter, hIsr, List.filterMap_append, isrAfter_append]

/-- The commands that one service of a line sends are its end of interrupt,
once. -/
theorem IrqService.commands {line : Fin irqHandlerCount} {part : List KernelEvent}
    (h : IrqService line part) : part.filterMap KernelEvent.command = eoiCommands line := by
  obtain ⟨hEvents⟩ := h
  have hEoi := (kernelAudit_eoi line).1
  cases hEvents with
  | _ => simp [List.filterMap_cons, KernelEvent.command, hEoi]

/-- An interrupt is only taken when no handler runs. -/
theorem PicServed.interrupt {keyboard : KeyboardState} {shell : ShellState} {x y z : KernelRecorded}
    {pics : PicPair} {line : Fin irqHandlerCount} (hChronicle : KernelChronicle keyboard shell x)
    (h : PicServed masterMask slaveMask ⟨x, pics⟩)
    (hVector : pics.acknowledge.1 = BitVec.ofNat 8 (32 + line.val))
    (hRaise : KernelRecordedStep x (.raise line) y) (hTake : KernelRecordedStep y (.interrupt line) z) :
    PicServed masterMask slaveMask ⟨z, pics.acknowledge.2⟩ ∧
    z.record = x.record ++ [.interrupted line] := by
  cases hRaise.move with
  | raise =>
      cases hTake.move with
      | interrupt _ hAccepts =>
          cases kernel_discipline.frames_eq_nil hChronicle.covered hAccepts
          cases h with
          | idle hPics hIsr =>
              have hBegun : pics.acknowledge.2.inService = PicPair.isrAfter
                  (([] : List KernelEvent).filterMap KernelEvent.command) pics.acknowledge.2.inService := rfl
              refine ⟨.serving hPics.acknowledge hBegun ?_ (irqStub_only line), rfl⟩
              intro trace result hReturns
              rw [(irqStub_promises line trace result hReturns).commands]
              exact PicPair.isrAfter_eoiCommands hPics hIsr hVector

/-- The kernel's chronicle together with its controllers. -/
structure PicChronicle (masterMask slaveMask : BitVec 8) (keyboard : KeyboardState) (shell : ShellState)
    (x : PicSystem) : Prop where
  kernel : KernelChronicle keyboard shell x.kernel
  served : PicServed masterMask slaveMask x

/-- The invariant survives any change of the pair that keeps its configuration
and what is in service. -/
theorem PicServed.pics {c : KernelRecorded} {pics later : PicPair}
    (h : PicServed masterMask slaveMask ⟨c, pics⟩) (hIsr : later.inService = pics.inService)
    (hPics : later.Configured masterMask slaveMask) : PicServed masterMask slaveMask ⟨c, later⟩ := by
  cases h with
  | idle _ hIdle => exact .idle hPics (hIsr.trans hIdle)
  | serving _ hPartial hPart hWrites => exact .serving hPics (hIsr.trans hPartial) hPart hWrites

/-- Every step of the system, on the side of the kernel or of the devices,
keeps the chronicle. -/
theorem PicChronicle.step {keyboard : KeyboardState} {shell : ShellState} {x y : PicSystem}
    {action : PicAction} (h : PicChronicle masterMask slaveMask keyboard shell x) (hStep : PicStep x action y) :
    PicChronicle masterMask slaveMask keyboard shell y := by
  obtain ⟨hKernel, hServed⟩ := h
  cases hStep with
  | raise line hCascade =>
      exact ⟨hKernel, hServed.pics (PicPair.inService_raise line) (hServed.configured.raise line)⟩
  | withdraw line =>
      exact ⟨hKernel, hServed.pics (PicPair.inService_withdraw line) (hServed.configured.withdraw line)⟩
  | interrupt line hVector hRaise hTake =>
      exact ⟨(hKernel.step hRaise).step hTake, (hServed.interrupt hKernel hVector hRaise hTake).1⟩
  | proceed device hNext => exact ⟨hKernel.step hNext, (hServed.proceed hKernel hNext).1⟩

end Invariant

section Results

variable {prior : KernelState} {shell : ShellState} {pending : Fin irqHandlerCount → Bool}
  {before pics : PicPair} {irqs : List (BitVec 8)} {replies : List Bool} {actions : List PicAction}
  {x : PicSystem}

/-- The kernel after the programming of its controllers. -/
def picStart (prior : KernelState) (shell : ShellState) (pending : Fin irqHandlerCount → Bool)
    (pics : PicPair) : PicSystem where
  kernel := kernelRecordedStart prior shell pending
  pics := pics

/-- The program leaves a pair that is idle and lets the given lines through. -/
theorem picProgram_configured
    (hInit : (picProgram irqs).runAlone PicPair.serve before = some (replies, pics)) :
    ∃ masterMask slaveMask, pics = PicPair.programmed masterMask slaveMask ∧
      ∀ line, (PicPair.programmed masterMask slaveMask).masked line = true ↔ ¬PicOpens irqs line := by
  obtain ⟨masterMask, slaveMask, hAlone, hMasks⟩ := picProgram_alone before irqs
  refine ⟨masterMask, slaveMask, ?_, hMasks⟩
  exact (Prod.mk.inj (Option.some.inj (hInit.symm.trans hAlone))).2

/-- By induction on the run, the chronicle holds in every state that is
reached. -/
theorem picChronicle_of_run {masterMask slaveMask : BitVec 8}
    (run : Run PicStep (picStart prior shell pending (.programmed masterMask slaveMask)) actions x) :
    PicChronicle masterMask slaveMask prior.keyboard shell x := by
  refine run.invariant (PicChronicle masterMask slaveMask prior.keyboard shell) ?_
    fun _ _ _ h hStep => h.step hStep
  exact ⟨kernelChronicle_of_run .nil, .idle (PicPair.configured_programmed _ _) rfl⟩

/-- A kernel run without interrupts, with its controllers. -/
theorem exists_pic_run {masterMask slaveMask : BitVec 8} {keyboard : KeyboardState} {x y : KernelRecorded}
    {pics : PicPair} (h : PicChronicle masterMask slaveMask keyboard shell ⟨x, pics⟩)
    {devices : List (BitVec 8)} (run : Run KernelRecordedStep x (devices.map .proceed) y) :
    ∃ later, Run PicStep ⟨x, pics⟩ (devices.map .proceed) ⟨y, later⟩ ∧
      PicChronicle masterMask slaveMask keyboard shell ⟨y, later⟩ ∧
      ∀ line, later.requested line = pics.requested line := by
  generalize hLabels : devices.map Schedule.proceed = labels at run
  induction run generalizing devices with
  | nil =>
      rw [List.map_eq_nil_iff.mp hLabels]
      exact ⟨pics, .nil, h, fun _ => rfl⟩
  | snoc _ last ih =>
      obtain ⟨firsts, lasts, rfl, hFirsts, hLasts⟩ := List.map_eq_append_iff.mp hLabels
      obtain ⟨device, rfl, rfl⟩ := List.map_eq_singleton_iff.mp hLasts
      obtain ⟨later, hRun, hChronicle, hRequested⟩ := ih hFirsts
      have hStep : PicStep ⟨_, later⟩ (.proceed device) _ := .proceed device last
      obtain ⟨-, hSame⟩ := hChronicle.served.proceed hChronicle.kernel last
      rw [List.map_append]
      exact ⟨_, hRun.snoc hStep, hChronicle.step hStep, fun line => (hSame line).trans (hRequested line)⟩

/-- Where the processor accepts interrupts one can be taken. -/
theorem exists_interrupt {masterMask slaveMask : BitVec 8} {y : KernelRecorded} {pics : PicPair}
    (h : pics.Configured masterMask slaveMask) (hAccepts : kernelProcessor.accepts y.config.state = true) :
    ∃ z line, PicStep ⟨y, pics⟩ .interrupt z ∧ pics.acknowledge.1 = BitVec.ofNat 8 (32 + line.val) ∧
      z.kernel.record = y.record ++ [.interrupted line] := by
  obtain ⟨line, hVector⟩ := PicPair.exists_acknowledge_line h
  let raised : KernelConfig := { y.config with pending := Function.update y.config.pending line true }
  have hRaise : KernelRecordedStep y (.raise line) ⟨raised, y.record⟩ := ⟨rfl, (List.append_nil _).symm⟩
  have hPending : raised.pending line = true := Function.update_self line true y.config.pending
  have hTaken : kernelProcessor.schedule kernelWorkRunOnce raised (.interrupt line) ≠ none := by
    rw [Processor.schedule, if_pos (by rw [hPending, hAccepts]; rfl)]
    exact Option.some_ne_none _
  obtain ⟨taken, hTake⟩ := Option.ne_none_iff_exists'.mp hTaken
  exact ⟨⟨⟨taken, y.record ++ [.interrupted line]⟩, pics.acknowledge.2⟩, line,
    .interrupt line hVector hRaise ⟨hTake, rfl⟩, hVector, rfl⟩

/-- The lines that the kernel has taken. -/
theorem taken_lines {masterMask slaveMask : BitVec 8}
    (hMasks : ∀ line, (PicPair.programmed masterMask slaveMask).masked line = true ↔ ¬PicOpens irqs line)
    (run : Run PicStep (picStart prior shell pending (.programmed masterMask slaveMask)) actions x) :
    ∀ line ∈ x.kernel.record.filterMap KernelEvent.line,
      PicOpens irqs line ∨ line.val = 7 ∨ line.val = 15 ∧ PicOpens irqs 2 := by
  induction run with
  | nil => exact fun line hLine => (List.not_mem_nil hLine).elim
  | @snoc labels middle finish action prefixRun last ih =>
      obtain ⟨hKernel, hServed⟩ := picChronicle_of_run prefixRun
      cases last with
      | raise line => exact ih
      | withdraw line => exact ih
      | interrupt line hVector hRaise hTake =>
          obtain ⟨-, hRecord⟩ := hServed.interrupt hKernel hVector hRaise hTake
          have hOpens := PicPair.masked_of_configured hServed.configured hMasks
          have hOpen := (PicPair.acknowledge_open hServed.configured hVector).imp (hOpens line).mp
            (Or.imp_right (And.imp_right (hOpens 2).mp))
          intro other hOther
          rw [hRecord, filterMap_snoc, List.mem_append] at hOther
          cases hOther with
          | inl hOld => exact ih other hOld
          | inr hNew => exact List.mem_singleton.mp hNew ▸ hOpen
      | proceed device hStep =>
          have hSame := Processor.record_filterMap KernelEvent.line (fun _ => kernelNote_line)
            (fun _ => rfl) (.single hStep)
          intro line hLine
          rw [hSame, List.mem_append] at hLine
          exact ih line (hLine.resolve_right List.not_mem_nil)

/-- With the controllers as the kernel programs them, from whatever state they
were in, and whatever the devices do: when no handler runs nothing is in
service, so no line is ever blocked by a missing end of interrupt; the masks
stay; and the interrupts taken are of unmasked lines or spurious. -/
theorem controllers_stay_ready
    (hInit : (picProgram irqs).runAlone PicPair.serve before = some (replies, pics))
    (run : Run PicStep (picStart prior shell pending pics) actions x) :
    (x.kernel.config.frames = [] → x.pics.master.isr = 0#8 ∧ x.pics.slave.isr = 0#8) ∧
    (∀ line, x.pics.masked line = false ↔ PicOpens irqs line) ∧
    ∀ line ∈ x.kernel.record.filterMap KernelEvent.line,
      PicOpens irqs line ∨ line.val = 7 ∨ line.val = 15 ∧ PicOpens irqs 2 := by
  obtain ⟨masterMask, slaveMask, rfl, hMasks⟩ := picProgram_configured hInit
  obtain ⟨-, hServed⟩ := picChronicle_of_run run
  refine ⟨fun hIdle => ?_, PicPair.masked_of_configured hServed.configured hMasks, taken_lines hMasks run⟩
  cases hServed with
  | idle _ hIsr => exact Prod.mk.inj hIsr
  | serving => cases hIdle

/-- Controllers as a PC starts with them, asking for IRQ 3 and 12. -/
def picFirmware : PicPair where
  master := { Pic8259.programmed 0x08#8 0x04#8 0xB8#8 with irr := 0x08#8 }
  slave := { Pic8259.programmed 0x70#8 0x02#8 0x8F#8 with irr := 0x10#8 }

/-- The program that unmasks the timer and the keyboard, run on a pair as the
firmware leaves it. -/
theorem picFirmware_program : (picProgram [0#8, 1#8]).runAlone PicPair.serve picFirmware =
    some ([true, true], PicPair.programmed 0xFC#8 0xFF#8) := by
  rfl

/-- A key is pressed once interrupts are enabled, and the kernel comes to rest. -/
theorem controllers_stay_ready_key : ∃ actions x line,
    Run PicStep (picStart .boot shellResetBuffer (fun _ => false) (.programmed 0xFC#8 0xFF#8)) actions x ∧
      line ∈ x.kernel.record.filterMap KernelEvent.line ∧ x.pics.master.isr = 0#8 ∧
      (PicOpens [0#8, 1#8] line ∨ line.val = 7 ∨ line.val = 15 ∧ PicOpens [0#8, 1#8] 2) := by
  have hPlay : (kernelProcessor.play kernelWorkRunOnce (kernelStart .boot shellResetBuffer fun _ => false)
      ([0#8, 0#8].map .proceed)).map (fun c => kernelProcessor.accepts c.state) = some true := by
    decide +kernel
  obtain ⟨c, hEnabling, hAccepts⟩ := kernelProcessor.exists_run_of_play kernelWorkRunOnce _ _ _ hPlay
  obtain ⟨record, hRecorded⟩ := Processor.exists_recorded (R := kernelRecorder) hEnabling []
  have hStart : PicChronicle 0xFC#8 0xFF#8 KernelState.boot.keyboard shellResetBuffer
      (picStart .boot shellResetBuffer (fun _ => false) (.programmed 0xFC#8 0xFF#8)) := picChronicle_of_run .nil
  obtain ⟨pics, hFirst, hChronicle, -⟩ := exists_pic_run hStart hRecorded
  have hRaise : PicStep ⟨⟨c, record⟩, pics⟩ (.raise keyboardLine) ⟨⟨c, record⟩, pics.raise keyboardLine⟩ :=
    .raise keyboardLine nofun
  obtain ⟨z, line, hTake, -, hTaken⟩ := exists_interrupt (y := ⟨c, record⟩)
    (hChronicle.step hRaise).served.configured hAccepts
  have hServing := (hChronicle.step hRaise).step hTake
  have hRun := (hFirst.snoc hRaise).snoc hTake
  obtain ⟨kernelActions, hKernelRun⟩ := PicStep.kernel_run hRun
  have hRests : KernelRests z.kernel.config := kernelRests_of_run (Processor.run_of_recorded hKernelRun)
  obtain ⟨n, d, hRest, hFrames, -⟩ := (kernel_inevitable hRests hServing.kernel.books).run fun _ => 0x1E#8
  have hLabels : (List.range n).map (fun _ => Schedule.proceed 0x1E#8) =
      (List.replicate n 0x1E#8).map (Schedule.proceed : BitVec 8 → Schedule (Fin irqHandlerCount) (BitVec 8)) := by
    simp [List.map_const']
  rw [hLabels] at hRest
  obtain ⟨last, hLast⟩ := Processor.exists_recorded (R := kernelRecorder) hRest z.kernel.record
  obtain ⟨later, hSecond, -, -⟩ := exists_pic_run hServing hLast
  have hReady := controllers_stay_ready picFirmware_program (hRun.trans hSecond)
  have hLine : line ∈ last.filterMap KernelEvent.line := by
    have hPrefix := Processor.record_filterMap KernelEvent.line (fun _ => kernelNote_line) (fun _ => rfl) hLast
    rw [hPrefix, hTaken, filterMap_snoc]
    simp [KernelEvent.line]
  exact ⟨_, ⟨⟨d, last⟩, later⟩, line, hRun.trans hSecond, hLine, (hReady.1 hFrames).1, hReady.2.2 line hLine⟩

/-- Whether a line goes before another: the lines of the slave stand in the
place of line 2. -/
def picRank (line : Fin irqHandlerCount) : Nat :=
  if line.val < 8 then 8 * line.val else 16 + (line.val - 8)

/-- The input of the master that the slave drives. -/
abbrev cascadeLine : Fin irqHandlerCount := ⟨2, by decide⟩

/-- The line that is taken is the requested one or goes before it. -/
theorem picRank_le_of_master {masterMask slaveMask : BitVec 8} {pics : PicPair}
    (h : pics.Configured masterMask slaveMask) {line taken : Fin irqHandlerCount} {i : Fin 8}
    (hRequest : pics.master.request = some i) (hBefore : i.val ≤ line.val) (hMaster : line.val < 8)
    (hLine : line.val ≠ 2) (hVector : pics.acknowledge.1 = BitVec.ofNat 8 (32 + taken.val)) :
    picRank taken ≤ picRank line := by
  rw [picRank, picRank, if_pos hMaster]
  rcases PicPair.acknowledge_line h hVector with ⟨-, hTaken, -⟩ | ⟨hCascade, hTaken, -⟩
  · rw [Pic8259.acknowledge_line hRequest] at hTaken
    rw [if_pos (by omega)]
    omega
  · have hSecond : i = 2 := Option.some.inj (hRequest.symm.trans hCascade)
    subst hSecond
    have hLarge : (2 : Nat) ≤ line.val := hBefore
    rw [if_neg (by omega)]
    omega

/-- While the slave has a request and the master's own is not behind the
cascade, the acknowledged line goes before all of the slave's lines from that
request on. -/
theorem picRank_le_of_slave {masterMask slaveMask : BitVec 8} {pics : PicPair}
    (h : pics.Configured masterMask slaveMask) {line taken : Fin irqHandlerCount} {i j : Fin 8}
    (hRequest : pics.master.request = some i) (hBefore : i.val ≤ 2) (hSlave : pics.slave.request = some j)
    (hLine : 8 + j.val ≤ line.val) (hVector : pics.acknowledge.1 = BitVec.ofNat 8 (32 + taken.val)) :
    picRank taken ≤ picRank line := by
  rw [picRank, picRank, if_neg (by omega : ¬line.val < 8)]
  rcases PicPair.acknowledge_line h hVector with ⟨hCascade, hTaken, -⟩ | ⟨-, hTaken, -⟩
  · rw [Pic8259.acknowledge_line hRequest] at hTaken
    rw [if_pos (by omega)]
    have hFirst : i.val ≠ 2 := fun hEq => hCascade (hRequest.trans (congrArg some (Fin.ext hEq)))
    omega
  · rw [Pic8259.acknowledge_line hSlave] at hTaken
    rw [if_neg (by omega)]
    omega

/-- From every state of every run: when no further interrupt is taken, the
kernel comes, whatever the ports deliver, to a state in which the processor
accepts interrupts and an unmasked request, or one that goes before it, is
taken. -/
theorem requests_get_through
    (hInit : (picProgram irqs).runAlone PicPair.serve before = some (replies, pics))
    (run : Run PicStep (picStart prior shell pending pics) actions x) {line : Fin irqHandlerCount}
    (hRequested : x.pics.requested line = true) (hOpens : PicOpens irqs line) (hLine : line.val ≠ 2)
    (inputs : ℕ → BitVec 8) :
    ∃ (n : ℕ) (cascade : List PicAction) (z : PicSystem) (taken : Fin irqHandlerCount),
      (cascade = [] ∨ cascade = [.raise cascadeLine]) ∧
      Run PicStep x ((List.range n).map (fun k => .proceed (inputs k)) ++ cascade ++ [.interrupt]) z ∧
      z.kernel.record.getLast? = some (.interrupted taken) ∧ picRank taken ≤ picRank line := by
  obtain ⟨masterMask, slaveMask, rfl, hMasks⟩ := picProgram_configured hInit
  have hChronicle := picChronicle_of_run run
  obtain ⟨kernelActions, hKernelRun⟩ := PicStep.kernel_run run
  have hRests : KernelRests x.kernel.config := kernelRests_of_run (Processor.run_of_recorded hKernelRun)
  obtain ⟨n, d, hRun, hFrames, hHalted⟩ := (kernel_inevitable hRests hChronicle.kernel.books).run inputs
  have hLater : KernelRests d :=
    hRun.invariant KernelRests hRests fun _ _ _ h hStep => h.step hStep
  have hAccepts := (hLater.asleep hHalted).1
  have hLabels : (List.range n).map (fun k => Schedule.proceed (inputs k)) =
      ((List.range n).map inputs).map (Schedule.proceed : BitVec 8 → Schedule (Fin irqHandlerCount) (BitVec 8)) :=
    (List.map_map).symm
  rw [hLabels] at hRun
  obtain ⟨record, hRecorded⟩ := Processor.exists_recorded (R := kernelRecorder) hRun x.kernel.record
  obtain ⟨later, hPicRun, ⟨-, hServed⟩, hSame⟩ := exists_pic_run hChronicle hRecorded
  rw [List.map_map] at hPicRun
  have hPics := hServed.configured
  have hIdle : later.inService = (0#8, 0#8) := by
    cases hServed with
    | idle _ hIsr => exact hIsr
    | serving => cases hFrames
  obtain ⟨hMasterIdle, hSlaveIdle⟩ := Prod.mk.inj hIdle
  have hWaiting : later.requested line = true := (hSame line).trans hRequested
  have hOpen : later.masked line = false := (PicPair.masked_of_configured hPics hMasks line).mpr hOpens
  by_cases hMaster : line.val < 8
  · obtain ⟨i, hBefore, hRequest⟩ := Pic8259.exists_request (i := ⟨line.val, hMaster⟩) hMasterIdle
      (by simpa [PicPair.requested, hMaster] using hWaiting) (by simpa [PicPair.masked, hMaster] using hOpen)
    obtain ⟨z, taken, hStep, hVector, hTaken⟩ := exists_interrupt (y := ⟨d, record⟩) hPics hAccepts
    refine ⟨n, [], z, taken, .inl rfl, ?_, ?_, picRank_le_of_master hPics hRequest hBefore hMaster hLine hVector⟩
    · rw [List.append_nil]
      exact hPicRun.snoc hStep
    · rw [hTaken, List.getLast?_concat]
  · have hIndex : line.val - 8 < 8 := by
      have hBound : line.val < 16 := line.isLt
      omega
    obtain ⟨j, hSlaveBefore, hSlave⟩ := Pic8259.exists_request (i := ⟨line.val - 8, hIndex⟩) hSlaveIdle
      (by simpa [PicPair.requested, hMaster] using hWaiting) (by simpa [PicPair.masked, hMaster] using hOpen)
    -- the slave passes its request on to the master
    have hCascade : PicStep ⟨⟨d, record⟩, later⟩ (.raise cascadeLine) ⟨⟨d, record⟩, later.raise cascadeLine⟩ :=
      .raise cascadeLine fun _ => Option.isSome_iff_exists.mpr ⟨j, hSlave⟩
    have hPassed := hPics.raise cascadeLine
    have hSlaveLine : PicOpens irqs 2 := by
      have hBound : line.val < 16 := line.isLt
      have hValue : (BitVec.ofNat 8 line.val).toNat = line.val := by
        rw [BitVec.toNat_ofNat, Nat.mod_eq_of_lt (by omega)]
      refine .inr ⟨rfl, _, hOpens.resolve_right fun hSecond => hLine hSecond.1, ?_, ?_⟩
      · rw [BitVec.le_def, hValue]
        exact Nat.le_of_not_lt hMaster
      · rw [BitVec.le_def, hValue]
        exact Nat.le_of_lt_succ hBound
    have hMasterOpen : (later.raise cascadeLine).master.imr.getLsbD 2 = false :=
      (PicPair.masked_of_configured hPassed hMasks 2).mpr hSlaveLine
    have hMasterRaised : (later.raise cascadeLine).master.irr.getLsbD 2 = true := by
      show (later.master.irr ||| 1#8 <<< 2).getLsbD 2 = true
      simp
    have hStillIdle : (later.raise cascadeLine).master.isr = 0#8 := hMasterIdle
    obtain ⟨i, hBefore, hRequest⟩ := Pic8259.exists_request (i := 2) hStillIdle hMasterRaised hMasterOpen
    obtain ⟨z, taken, hStep, hVector, hTaken⟩ := exists_interrupt (y := ⟨d, record⟩) hPassed hAccepts
    refine ⟨n, [.raise cascadeLine], z, taken, .inr rfl, (hPicRun.snoc hCascade).snoc hStep, ?_, ?_⟩
    · rw [hTaken, List.getLast?_concat]
    · have hSlaveBefore : j.val ≤ line.val - 8 := hSlaveBefore
      exact picRank_le_of_slave hPassed hRequest hBefore hSlave (by omega) hVector

/-- A key is pressed before interrupts are enabled. -/
theorem requests_get_through_key : ∃ (n : ℕ) (cascade : List PicAction) (z : PicSystem)
    (taken : Fin irqHandlerCount),
    Run PicStep (picStart .boot shellResetBuffer (fun _ => false) (.programmed 0xFC#8 0xFF#8))
      (.raise keyboardLine :: ((List.range n).map (fun _ => .proceed 0x1E#8) ++ cascade ++ [.interrupt])) z ∧
      z.kernel.record.getLast? = some (.interrupted taken) ∧ picRank taken ≤ 8 := by
  have hRaise : PicStep (picStart .boot shellResetBuffer (fun _ => false) (.programmed 0xFC#8 0xFF#8))
      (.raise keyboardLine) ⟨_, (PicPair.programmed 0xFC#8 0xFF#8).raise keyboardLine⟩ := .raise keyboardLine nofun
  have hRequested : ((PicPair.programmed 0xFC#8 0xFF#8).raise keyboardLine).requested keyboardLine = true := rfl
  obtain ⟨n, cascade, z, taken, -, hRun, hTaken, hRank⟩ := requests_get_through picFirmware_program
    (.single hRaise) hRequested (.inl (by decide)) (by decide) fun _ => 0x1E#8
  exact ⟨n, cascade, z, taken, hRun.cons hRaise, hTaken, hRank⟩

end Results
end WigOSX
