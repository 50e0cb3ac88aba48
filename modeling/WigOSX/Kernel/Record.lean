import WigOSX.Core.IrqRegistry
import WigOSX.Core.ShellExecution
import WigOSX.Drivers.KeyboardModifiers
import WigOSX.Drivers.Pic
import WigOSX.Kernel.Discipline
import WigOSX.Kernel.Footprint
import WigOSX.Library.Recording

/-! The record of the running kernel: the interrupts, and what their handlers
and the foreground did about them. The books relate the static variables to
the record and are kept by every request; the services are what a handler
writes from its interrupt to its return. -/
namespace WigOSX

open Interaction (Exchange Only Returns only_perform_iff returns_done_iff returns_ask_iff
  returns_bind_iff)

inductive KernelEvent where
  | interrupted (line : Fin irqHandlerCount)
  | dispatched (irq : BitVec 8) (handler : Option IrqHandler)
  | ticked
  | delivered (raw : BitVec 8)
  | scancode (raw : BitVec 8) (character : Option (BitVec 8))
  | enqueued (ascii : BitVec 8) (accepted : Bool)
  | picWrite (port : BitVec 16) (command : BitVec 8)
  | called (ascii : BitVec 8)
deriving DecidableEq

namespace KernelEvent

def line : KernelEvent → Option (Fin irqHandlerCount)
  | interrupted line => some line
  | _ => none

def irqCall : KernelEvent → Option (IrqCall IrqHandler)
  | dispatched irq _ => some (.dispatch irq)
  | _ => none

def raw : KernelEvent → Option (BitVec 8)
  | scancode raw _ => some raw
  | _ => none

def port : KernelEvent → Option (BitVec 8)
  | delivered raw => some raw
  | _ => none

def typed : KernelEvent → Option (BitVec 8)
  | scancode _ character => character
  | _ => none

/-- A character that the driver handed to the queue, and whether it was taken. -/
def offered : KernelEvent → Option (BitVec 8 × Bool)
  | enqueued ascii accepted => some (ascii, accepted)
  | _ => none

def command : KernelEvent → Option (BitVec 16 × BitVec 8)
  | picWrite port command => some (port, command)
  | _ => none

def given : KernelEvent → Option (BitVec 8)
  | called ascii => some ascii
  | _ => none

def IsCalled (event : KernelEvent) : Prop := ∃ ascii, event = .called ascii

instance : DecidablePred IsCalled := fun event => by
  cases event with
  | called ascii => exact .isTrue ⟨ascii, rfl⟩
  | _ => exact .isFalse fun ⟨_, h⟩ => KernelEvent.noConfusion h

end KernelEvent

/-- A port of one of the interrupt controllers. -/
def IsPicPort (port : BitVec 16) : Prop :=
  port = picMasterCommand ∨ port = picMasterData ∨ port = picSlaveCommand ∨ port = picSlaveData

instance : DecidablePred IsPicPort := fun port =>
  inferInstanceAs (Decidable (port = picMasterCommand ∨ port = picMasterData ∨ port = picSlaveCommand ∨
    port = picSlaveData))

/-- What is recorded about an answered request. -/
def kernelNote : ∀ ⦃ρ : Type⦄, KernelRequest ρ → ρ → List KernelEvent
  | _, .interruptsDispatchIrq irq, handler => [.dispatched irq handler]
  | _, .pitIncrementTicks, _ => [.ticked]
  | _, .inb port, value => if port = keyboardDataPort then [.delivered value] else []
  | _, .keyboardHandleInterrupt raw, character => [.scancode raw character]
  | _, .inputEnqueueCharacter ascii, accepted => [.enqueued ascii accepted]
  | _, .outb port value, _ =>
      if IsPicPort port then [.picWrite port value] else []
  | _, .shellCall ascii, _ => [.called ascii]
  | _, _, _ => []

def kernelRecorder : Recorder KernelRequest (Fin irqHandlerCount) KernelEvent where
  note := kernelNote
  interrupted := .interrupted

abbrev KernelRecorded := Processor.Recorded KernelRequest KernelState (Fin irqHandlerCount) Bool ShellState
  KernelEvent

/-- One recorded step of the running kernel. -/
def KernelRecordedStep : KernelRecorded → Schedule (Fin irqHandlerCount) (BitVec 8) → KernelRecorded → Prop :=
  kernelProcessor.RecordedStep kernelWorkRunOnce kernelRecorder

/-- The start with an empty record. -/
def kernelRecordedStart (prior : KernelState) (shell : ShellState)
    (pending : Fin irqHandlerCount → Bool) : KernelRecorded where
  config := kernelStart prior shell pending
  record := []

/-- A line is raised and taken, and some steps follow in which a port
delivers the given byte. -/
def interruptSchedule (line : Fin irqHandlerCount) (steps : Nat) (device : BitVec 8) :
    List (Schedule (Fin irqHandlerCount) (BitVec 8)) :=
  .raise line :: .interrupt line :: List.replicate steps (.proceed device)

section Registrations

/-- The calls of `kernel_main`. -/
def kernelRegistrations : List (IrqCall IrqHandler) :=
  [.register 0#8 (some .pitHandleInterrupt), .register 1#8 (some .inputHandleKeyboardInterrupt)]

theorem kernelInterrupts_eq : kernelInterrupts = irqAfter kernelRegistrations := rfl

/-- IRQ0 and IRQ1. -/
abbrev timerLine : Fin irqHandlerCount := ⟨0, by decide⟩
abbrev keyboardLine : Fin irqHandlerCount := ⟨1, by decide⟩

/-- The handler that `kernel_main` registers for a line. -/
def kernelHandlerOf (line : Fin irqHandlerCount) : Option IrqHandler :=
  if line = timerLine then some .pitHandleInterrupt
  else if line = keyboardLine then some .inputHandleKeyboardInterrupt
  else none

/-- Dispatches register nothing. -/
theorem registeredHandler_dispatches {Handler : Type} (irq : BitVec 8)
    (calls : List (IrqCall Handler)) (record : List (IrqCall Handler))
    (hRecord : ∀ call ∈ record, ∃ line, call = .dispatch line) :
    registeredHandler irq (calls ++ record) = registeredHandler irq calls := by
  induction record using List.reverseRecOn with
  | nil => rw [List.append_nil]
  | append_singleton record call ih =>
      obtain ⟨line, rfl⟩ := hRecord call (List.mem_append_right _ (List.mem_singleton_self _))
      rw [← List.append_assoc, registeredHandler_dispatch]
      exact ih fun other hOther => hRecord other (List.mem_append_left _ hOther)

/-- Behind the registrations of the boot the registry is only asked to
dispatch. -/
theorem irqCalls_dispatch (record : List KernelEvent) :
    ∀ call ∈ record.filterMap KernelEvent.irqCall, ∃ line, call = .dispatch line := by
  intro call hCall
  obtain ⟨event, -, hEvent⟩ := List.mem_filterMap.mp hCall
  cases event with
  | dispatched irq handler => exact ⟨irq, (Option.some.inj hEvent).symm⟩
  | _ => cases hEvent

/-- The handler that the registrations select is the one named by the line. -/
theorem registeredHandler_kernel (line : Fin irqHandlerCount) :
    registeredHandler (BitVec.ofNat 8 line.val) kernelRegistrations = kernelHandlerOf line := by
  revert line
  decide

end Registrations

section Books

/-- The static variables are what the record says. -/
structure KernelBooks (keyboard : KeyboardState) (s : KernelState) (record : List KernelEvent) : Prop where
  irqs : IrqTracks (kernelRegistrations ++ record.filterMap KernelEvent.irqCall) s.interrupts
  dispatched : ∀ irq handler, .dispatched irq handler ∈ record →
    handler = registeredHandler irq kernelRegistrations
  ticks : s.pitTicks = BitVec.ofNat 32 (record.count .ticked)
  keyboard : keyboardFeed (record.filterMap KernelEvent.raw) keyboard =
    (record.filterMap KernelEvent.typed, s.keyboard)
  accepted : s.accepted = ((record.filterMap KernelEvent.offered).filter Prod.snd).map Prod.fst
  dropped : s.input.droppedCharacterCount.toNat =
    min ((record.filterMap KernelEvent.offered).countP fun offer => !offer.2) (2 ^ 32 - 1)
  given : s.given = record.filterMap KernelEvent.given

variable {keyboard : KeyboardState} {s t : KernelState} {record : List KernelEvent}

/-- The books are in order when the kernel starts, with nothing recorded. -/
theorem kernelBooks_start (prior : KernelState) :
    KernelBooks prior.keyboard (kernelMainReady prior) [] where
  irqs := irqTracks_after kernelRegistrations
  dispatched _ _ hMem := (List.not_mem_nil hMem).elim
  ticks := rfl
  keyboard := rfl
  accepted := rfl
  dropped := rfl
  given := rfl

theorem filterMap_snoc {α β : Type} (f : α → Option β) (events : List α) (event : α) :
    (events ++ [event]).filterMap f = events.filterMap f ++ (f event).toList := by
  rw [List.filterMap_append]
  cases h : f event with
  | none => rw [List.filterMap_cons_none h, List.filterMap_nil, Option.toList_none]
  | some image => rw [List.filterMap_cons_some h, List.filterMap_nil, Option.toList_some]

/-- A request that no book is about. -/
theorem KernelBooks.frame (h : KernelBooks keyboard s record) (hHandlers : t.interrupts.irqHandlers =
      s.interrupts.irqHandlers) (hCounts : t.interrupts.irqDispatchCounts = s.interrupts.irqDispatchCounts)
    (hUnhandled : t.interrupts.unhandledIrqCount = s.interrupts.unhandledIrqCount)
    (hInvalid : t.interrupts.invalidIrqCount = s.interrupts.invalidIrqCount)
    (hTicks : t.pitTicks = s.pitTicks) (hKeyboard : t.keyboard = s.keyboard)
    (hAccepted : t.accepted = s.accepted)
    (hDropped : t.input.droppedCharacterCount = s.input.droppedCharacterCount)
    (hGiven : t.given = s.given) : KernelBooks keyboard t record where
  irqs := by
    obtain ⟨hTable, hCounter, hNone, hBad⟩ := h.irqs
    refine ⟨?_, ?_, ?_, ?_⟩
    · rwa [hHandlers]
    · rwa [hCounts]
    · rwa [hUnhandled]
    · rwa [hInvalid]
  dispatched := h.dispatched
  ticks := hTicks.trans h.ticks
  keyboard := hKeyboard ▸ h.keyboard
  accepted := hAccepted.trans h.accepted
  dropped := hDropped ▸ h.dropped
  given := hGiven.trans h.given

/-- An event that the books do not count. -/
theorem KernelBooks.skip (h : KernelBooks keyboard s record) {event : KernelEvent}
    (hEvent : (∃ line, event = .interrupted line) ∨ (∃ raw, event = .delivered raw) ∨
      ∃ port command, event = .picWrite port command) : KernelBooks keyboard s (record ++ [event]) := by
  obtain ⟨hIrqs, hDispatched, hTicks, hKeyboard, hAccepted, hDropped, hGiven⟩ := h
  rcases hEvent with ⟨line, rfl⟩ | ⟨raw, rfl⟩ | ⟨port, command, rfl⟩
  all_goals
    constructor
    all_goals simp only [filterMap_snoc, KernelEvent.irqCall, KernelEvent.raw, KernelEvent.typed,
      KernelEvent.offered, KernelEvent.given, Option.toList_none, List.append_nil, List.count_append,
      List.count_singleton, List.mem_append, List.mem_singleton, reduceCtorEq, beq_iff_eq, if_false,
      Nat.add_zero, or_false]
    all_goals assumption

/-- A dispatch is booked with the handler that the registry returned, and
counted for its line. -/
theorem KernelBooks.dispatch (h : KernelBooks keyboard s record) (irq : BitVec 8) :
    KernelBooks keyboard { s with interrupts := (interruptsDispatchIrq irq s.interrupts).2 }
      (record ++ [.dispatched irq (interruptsDispatchIrq irq s.interrupts).1]) := by
  obtain ⟨hIrqs, hDispatched, hTicks, hKeyboard, hAccepted, hDropped, hGiven⟩ := h
  obtain ⟨hReply, hNext⟩ := hIrqs.dispatch irq
  rw [registeredHandler_dispatches irq _ _ (irqCalls_dispatch record)] at hReply
  constructor
  case dispatched =>
    intro line handler hMem
    cases List.mem_append.mp hMem with
    | inl hOld => exact hDispatched line handler hOld
    | inr hNew =>
        obtain ⟨rfl, rfl⟩ := KernelEvent.dispatched.inj (List.mem_singleton.mp hNew)
        exact hReply
  all_goals simp only [filterMap_snoc, KernelEvent.irqCall, KernelEvent.raw, KernelEvent.typed,
    KernelEvent.offered, KernelEvent.given, Option.toList_none, Option.toList_some, List.append_nil,
    List.count_append, List.count_singleton, reduceCtorEq, beq_iff_eq, if_false, Nat.add_zero]
  case irqs => rwa [← List.append_assoc]
  all_goals assumption

/-- A tick is booked, and the counter of the timer goes up modulo 2^32. -/
theorem KernelBooks.tick (h : KernelBooks keyboard s record) :
    KernelBooks keyboard { s with pitTicks := s.pitTicks + 1#32 } (record ++ [.ticked]) := by
  obtain ⟨hIrqs, hDispatched, hTicks, hKeyboard, hAccepted, hDropped, hGiven⟩ := h
  constructor
  all_goals simp only [filterMap_snoc, KernelEvent.irqCall, KernelEvent.raw, KernelEvent.typed,
    KernelEvent.offered, KernelEvent.given, Option.toList_none, List.append_nil, List.mem_append,
    List.mem_singleton, reduceCtorEq, or_false, List.count_append, List.count_singleton_self]
  case ticks => rw [hTicks, BitVec.ofNat_add]
  all_goals assumption

/-- A scancode is booked with the character that the driver made of it. -/
theorem KernelBooks.scancode (h : KernelBooks keyboard s record) (raw : BitVec 8) :
    KernelBooks keyboard { s with keyboard := (keyboardHandleInterrupt raw s.keyboard).2 }
      (record ++ [.scancode raw (keyboardHandleInterrupt raw s.keyboard).1]) := by
  obtain ⟨hIrqs, hDispatched, hTicks, hKeyboard, hAccepted, hDropped, hGiven⟩ := h
  constructor
  all_goals simp only [filterMap_snoc, KernelEvent.irqCall, KernelEvent.raw, KernelEvent.typed,
    KernelEvent.offered, KernelEvent.given, Option.toList_none, Option.toList_some, List.append_nil,
    List.mem_append, List.mem_singleton, reduceCtorEq, or_false, List.count_append,
    List.count_singleton, beq_iff_eq, if_false, Nat.add_zero]
  case keyboard => rw [keyboardFeed_snoc, hKeyboard]
  all_goals assumption

/-- An offer to the queue is booked with its outcome: accepted, or counted as
dropped. -/
theorem KernelBooks.enqueue (h : KernelBooks keyboard s record) (ascii : BitVec 8) :
    KernelBooks keyboard
      { s with
        input := (inputEnqueueCharacter ascii s.input).2
        accepted := if (inputEnqueueCharacter ascii s.input).1 then s.accepted ++ [ascii] else s.accepted }
      (record ++ [.enqueued ascii (inputEnqueueCharacter ascii s.input).1]) := by
  obtain ⟨hIrqs, hDispatched, hTicks, hKeyboard, hAccepted, hDropped, hGiven⟩ := h
  constructor
  all_goals simp only [filterMap_snoc, KernelEvent.irqCall, KernelEvent.raw, KernelEvent.typed,
    KernelEvent.offered, KernelEvent.given, Option.toList_none, Option.toList_some, List.append_nil,
    List.mem_append, List.mem_singleton, reduceCtorEq, or_false, List.count_append,
    List.count_singleton, beq_iff_eq, if_false, Nat.add_zero]
  case accepted =>
    rw [List.filter_append, List.map_append, ← hAccepted]
    cases (inputEnqueueCharacter ascii s.input).1 with
    | true => rfl
    | false => exact (List.append_nil _).symm
  case dropped =>
    rw [List.countP_append, inputEnqueueCharacter]
    by_cases hFull : inputQueueCapacity ≤ s.input.queueHead - s.input.queueTail
    · rw [if_pos hFull]
      exact incrementSaturating_toNat hDropped
    · rw [if_neg hFull]
      exact hDropped
  all_goals assumption

/-- A call of the shell is booked with its character. -/
theorem KernelBooks.call (h : KernelBooks keyboard s record) (ascii : BitVec 8) :
    KernelBooks keyboard { s with given := s.given ++ [ascii], shellArgument := some ascii }
      (record ++ [.called ascii]) := by
  obtain ⟨hIrqs, hDispatched, hTicks, hKeyboard, hAccepted, hDropped, hGiven⟩ := h
  constructor
  all_goals simp only [filterMap_snoc, KernelEvent.irqCall, KernelEvent.raw, KernelEvent.typed,
    KernelEvent.offered, KernelEvent.given, Option.toList_none, Option.toList_some, List.append_nil,
    List.mem_append, List.mem_singleton, reduceCtorEq, or_false, List.count_append,
    List.count_singleton, beq_iff_eq, if_false, Nat.add_zero]
  case given => rw [hGiven]
  all_goals assumption

theorem KernelBooks.retire (h : KernelBooks keyboard s record) : KernelBooks keyboard s.retire record :=
  h.frame rfl rfl rfl rfl rfl rfl rfl rfl rfl

theorem interruptsContextEnter_frame {Handler : Type} (s : InterruptsState Handler) :
    ∃ depth, (interruptsContextEnter s).2 = { s with interruptContextDepth := depth } := by
  rw [interruptsContextEnter]
  split
  · exact ⟨_, rfl⟩
  · exact ⟨_, rfl⟩

theorem interruptsContextExit_frame {Handler : Type} (s : InterruptsState Handler) :
    ∃ depth, (interruptsContextExit s).2 = { s with interruptContextDepth := depth } := by
  rw [interruptsContextExit]
  split
  · exact ⟨_, rfl⟩
  · exact ⟨_, rfl⟩

/-- Every request keeps the books, whoever makes it. -/
theorem kernelBooks_execute {ρ : Type} {device : BitVec 8} {request : KernelRequest ρ} {reply : ρ}
    (h : KernelBooks keyboard s record) (hExec : s.execute device request = some (reply, t)) :
    KernelBooks keyboard t (record ++ kernelRecorder.note request reply) := by
  obtain ⟨-, hServe⟩ := execute_eq_some hExec
  have hRetired := h.retire
  cases request with
  | interruptsDispatchIrq irq =>
      cases hServe
      exact hRetired.dispatch irq
  | pitIncrementTicks =>
      cases hServe
      exact hRetired.tick
  | keyboardHandleInterrupt raw =>
      cases hServe
      exact hRetired.scancode raw
  | inputEnqueueCharacter ascii =>
      cases hServe
      exact hRetired.enqueue ascii
  | shellCall ascii =>
      cases hServe
      exact hRetired.call ascii
  | inb port =>
      cases hServe
      show KernelBooks keyboard s.retire (record ++ if port = keyboardDataPort then [.delivered device] else [])
      split
      · exact hRetired.skip (.inr (.inl ⟨device, rfl⟩))
      · rwa [List.append_nil]
  | outb port value =>
      cases hServe
      show KernelBooks keyboard s.retire (record ++
        if IsPicPort port then [.picWrite port value] else [])
      split
      · exact hRetired.skip (.inr (.inr ⟨port, value, rfl⟩))
      · rwa [List.append_nil]
  | interruptsContextEnter =>
      obtain ⟨depth, hEnter⟩ := interruptsContextEnter_frame s.retire.interrupts
      cases hServe
      rw [hEnter]
      exact (List.append_nil record).symm ▸ hRetired.frame rfl rfl rfl rfl rfl rfl rfl rfl rfl
  | interruptsContextExit =>
      obtain ⟨depth, hExit⟩ := interruptsContextExit_frame s.retire.interrupts
      cases hServe
      rw [hExit]
      exact (List.append_nil record).symm ▸ hRetired.frame rfl rfl rfl rfl rfl rfl rfl rfl rfl
  | haltForever => cases hServe
  | _ =>
      cases hServe
      exact (List.append_nil record).symm ▸ hRetired.frame rfl rfl rfl rfl rfl rfl rfl rfl rfl

/-- The books are right in every configuration of every run. -/
theorem kernelBooks_of_run {x y : KernelRecorded} {actions : List (Schedule (Fin irqHandlerCount) (BitVec 8))}
    (run : TransitionSystem.Run KernelRecordedStep x actions y)
    (hStart : KernelBooks keyboard x.config.state x.record) : KernelBooks keyboard y.config.state y.record := by
  refine Processor.books_of_run (KernelBooks keyboard) ?_ ?_ ?_ run hStart
  · exact fun device s request reply t record h hExec => kernelBooks_execute h hExec
  · intro s line record h
    have hEntered : KernelBooks keyboard s.enterInterrupt record := h.frame rfl rfl rfl rfl rfl rfl rfl rfl rfl
    exact hEntered.skip (.inl ⟨line, rfl⟩)
  · exact fun s flag record h => h.frame rfl rfl rfl rfl rfl rfl rfl rfl rfl

end Books

section Services

/-- The end-of-interrupt commands for a line. -/
def eoiCommands (line : Fin irqHandlerCount) : List (BitVec 16 × BitVec 8) :=
  if 8 ≤ line.val then [(picSlaveCommand, picCommandEoi), (picMasterCommand, picCommandEoi)]
  else [(picMasterCommand, picCommandEoi)]

def eoiEvents (line : Fin irqHandlerCount) : List KernelEvent :=
  (eoiCommands line).map fun command => .picWrite command.1 command.2

/-- What the handler of a line does, without the dispatch before it and the
acknowledgement behind it. -/
inductive HandlerEvents : Option IrqHandler → List KernelEvent → Prop where
  | unhandled : HandlerEvents none []
  | timer : HandlerEvents (some .pitHandleInterrupt) [.ticked]
  | modifier (raw : BitVec 8) :
      HandlerEvents (some .inputHandleKeyboardInterrupt) [.delivered raw, .scancode raw none]
  | character (raw ascii : BitVec 8) (accepted : Bool) :
      HandlerEvents (some .inputHandleKeyboardInterrupt)
        [.delivered raw, .scancode raw (some ascii), .enqueued ascii accepted]

/-- A complete service of a line, whatever handler the registry replied. -/
inductive IrqService (line : Fin irqHandlerCount) : List KernelEvent → Prop where
  | served {handler : Option IrqHandler} {part : List KernelEvent} (h : HandlerEvents handler part) :
      IrqService line (.dispatched (BitVec.ofNat 8 line.val) handler :: part ++ eoiEvents line)

/-- A request that is not recorded. -/
def KernelRequest.Silent ⦃ρ : Type⦄ (request : KernelRequest ρ) : Prop :=
  kernelRecorder.Writes (fun _ => False) request

theorem Output.silent : AllowsOutput KernelRequest.Silent := by
  intro ρ request hOutput reply event hEvent
  cases hOutput with
  | lineStatus => exact List.not_mem_nil hEvent
  | data c => exact List.not_mem_nil hEvent
  | _ => exact List.not_mem_nil hEvent

theorem noteAll_silent {α : Type} {p : KernelProgram α} (h : p.Only KernelRequest.Silent)
    {trace : List (Exchange KernelRequest)} {a : α} (hReturns : p.Returns trace a) :
    kernelRecorder.noteAll trace = [] :=
  List.eq_nil_iff_forall_not_mem.mpr (kernelRecorder.noteAll_writes h hReturns)

/-- A completed run of the timer's handler is one tick. -/
theorem pitHandleInterrupt_events {trace : List (Exchange KernelRequest)}
    (h : pitHandleInterrupt.Returns trace ()) : kernelRecorder.noteAll trace = [.ticked] := by
  have hText (text : String) := serialWrite_only Output.silent.serial (asciiText text)
  obtain ⟨ticks, rest, rfl, hRest⟩ := returns_ask_iff.mp h
  have hSilent : kernelRecorder.noteAll rest = [] := by
    change (if ticks % 100#32 = 0#32 then _ else pure () : KernelProgram Unit).Returns rest () at hRest
    refine noteAll_silent ?_ hRest
    refine .ite (.bind (hText _) fun _ => ?_) trivial
    exact .ite (hText _) (.ite (hText _) (.ite (hText _) (hText _)))
  rw [Recorder.noteAll_cons, hSilent, List.append_nil]
  rfl

/-- A completed run of the keyboard's handler is one scancode, with one offer
if it made a character. -/
theorem inputHandleKeyboardInterrupt_events {trace : List (Exchange KernelRequest)}
    (h : inputHandleKeyboardInterrupt.Returns trace ()) :
    HandlerEvents (some .inputHandleKeyboardInterrupt) (kernelRecorder.noteAll trace) := by
  obtain ⟨raw, _, rfl, hPort⟩ := returns_ask_iff.mp h
  obtain ⟨character, _, rfl, hKey⟩ := returns_ask_iff.mp hPort
  cases character with
  | none =>
      obtain ⟨rfl, -⟩ := returns_done_iff.mp hKey
      exact .modifier raw
  | some ascii =>
      obtain ⟨accepted, _, rfl, hQueue⟩ := returns_ask_iff.mp hKey
      obtain ⟨rfl, -⟩ := returns_done_iff.mp hQueue
      exact .character raw ascii accepted

/-- A completed dispatch is one event and those of the handler that it called. -/
theorem interruptsDispatch_events {irq : BitVec 8} {trace : List (Exchange KernelRequest)}
    (h : (interruptsDispatch irq).Returns trace ()) :
    ∃ handler part, HandlerEvents handler part ∧
      kernelRecorder.noteAll trace = .dispatched irq handler :: part := by
  obtain ⟨handler, rest, rfl, hRest⟩ := returns_ask_iff.mp h
  refine ⟨handler, kernelRecorder.noteAll rest, ?_, rfl⟩
  cases handler with
  | none =>
      obtain ⟨rfl, -⟩ := returns_done_iff.mp hRest
      exact .unhandled
  | some handler =>
      cases handler with
      | pitHandleInterrupt =>
          rw [pitHandleInterrupt_events hRest]
          exact .timer
      | inputHandleKeyboardInterrupt => exact inputHandleKeyboardInterrupt_events hRest

/-- The end of an interrupt is its commands to the controllers, the slave's
first. -/
theorem picSendEoi_events (line : Fin irqHandlerCount) {trace : List (Exchange KernelRequest)}
    (h : (picSendEoi (BitVec.ofNat 8 line.val)).Returns trace ()) :
    kernelRecorder.noteAll trace = eoiEvents line := by
  have hLine : line.val < 16 := line.isLt
  have hValue : (BitVec.ofNat 8 line.val).toNat = line.val := by
    rw [BitVec.toNat_ofNat, Nat.mod_eq_of_lt (by omega)]
  have hValid : ¬15#8 < BitVec.ofNat 8 line.val := by
    rw [BitVec.lt_def, hValue]
    exact Nat.not_lt.mpr (Nat.le_of_lt_succ hLine)
  have hSlave : 8#8 ≤ BitVec.ofNat 8 line.val ↔ 8 ≤ line.val := by
    rw [BitVec.le_def, hValue]
    rfl
  rw [picSendEoi, if_neg hValid] at h
  rw [eoiEvents, eoiCommands]
  by_cases hCascade : 8 ≤ line.val
  · rw [if_pos (hSlave.mpr hCascade)] at h
    rw [if_pos hCascade]
    obtain ⟨_, _, rfl, hSlaveDone⟩ := returns_ask_iff.mp h
    obtain ⟨_, _, rfl, hMasterDone⟩ := returns_ask_iff.mp hSlaveDone
    obtain ⟨rfl, -⟩ := returns_done_iff.mp hMasterDone
    rfl
  · rw [if_neg fun hAbove => hCascade (hSlave.mp hAbove)] at h
    rw [if_neg hCascade]
    obtain ⟨_, _, rfl, hDone⟩ := returns_ask_iff.mp h
    obtain ⟨rfl, -⟩ := returns_done_iff.mp hDone
    rfl

/-- The vectors of the stubs carry the line. -/
theorem irqStub_irq (line : Fin irqHandlerCount) :
    (BitVec.ofNat 32 (32 + line.val) - 32#32).setWidth 8 = BitVec.ofNat 8 line.val := by
  revert line
  decide

/-- However an IRQ stub returns, it has served its line. -/
theorem irqStub_promises (line : Fin irqHandlerCount) :
    kernelRecorder.Promises (fun part _ => IrqService line part) (irqStub line) [] := by
  intro trace result h
  rw [List.nil_append]
  obtain ⟨_, handling, rfl, hHandler⟩ := returns_ask_iff.mp h
  change (irqHandler _).Returns handling result at hHandler
  rw [irqHandler, if_neg (irqStub_vector line), irqStub_irq] at hHandler
  obtain ⟨entered, inside, rfl, hInside⟩ := returns_ask_iff.mp hHandler
  cases entered with
  | false => exact absurd hInside (kernelPanic_diverges _ _ _)
  | true =>
      change (interruptsDispatch _ >>= fun _ => _).Returns inside result at hInside
      obtain ⟨dispatch, _, behind, rfl, hDispatch, hBehind⟩ := returns_bind_iff.mp hInside
      obtain ⟨eoi, _, leaving, rfl, hEoi, hLeaving⟩ := returns_bind_iff.mp hBehind
      obtain ⟨left, last, rfl, hLast⟩ := returns_ask_iff.mp hLeaving
      cases left with
      | false => exact absurd hLast (kernelPanic_diverges _ _ _)
      | true =>
          obtain ⟨rfl, -⟩ := returns_done_iff.mp hLast
          obtain ⟨handler, part, hEvents, hNote⟩ := interruptsDispatch_events hDispatch
          simp only [Recorder.noteAll_cons, Recorder.noteAll_append, hNote, picSendEoi_events line hEoi]
          show IrqService line ([] ++ ([] ++ (.dispatched _ handler :: part ++ (eoiEvents line ++ ([] ++ [])))))
          rw [List.append_nil, List.append_nil, List.nil_append, List.nil_append]
          exact .served hEvents

end Services
end WigOSX
