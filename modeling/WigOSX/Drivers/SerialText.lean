import WigOSX.Drivers.SerialLine

/-! The text on the wire. The driver runs undisturbed on a device that answers
each poll as it likes. What it sends is a prefix of the text with line feeds
expanded, and the whole text exactly when no wait timed out; after a timeout
it is silent until it is initialized again. -/
namespace WigOSX

open Interaction (perform runAlone)

/-- The driver and its port. `answers` are the line status values that the
device replies with, one for each poll, and `polls` counts the polls so far.
`busyPolls` is the length of the current row of polls without success; when it
exceeds the timeout, a wait has timed out. Each byte on the wire carries that
flag as it was when the byte was written. -/
structure UartState where
  answers : Nat → BitVec 8
  polls : Nat
  busyPolls : Nat
  timedOut : Bool
  serialInitialized : Bool
  divisorLatch : Bool
  wire : List (BitVec 8 × Bool)

namespace UartState

/-- One poll of the line status register. -/
def poll (s : UartState) : UartState :=
  if s.answers s.polls &&& 0x20#8 ≠ 0#8 then { s with polls := s.polls + 1, busyPolls := 0 }
  else { s with
    polls := s.polls + 1
    busyPolls := s.busyPolls + 1
    timedOut := s.timedOut || decide (serialTransmitTimeout < s.busyPolls + 1) }

/-- A write to a register. Bit 7 of the line control register is the divisor
latch; while it is set, the data port is half of the divisor. -/
def writeRegister (s : UartState) (port : BitVec 16) (value : BitVec 8) : UartState :=
  if port = serialPortCom1 + 3#16 then { s with divisorLatch := value.getLsbD 7 }
  else if port = serialPortCom1 ∧ s.divisorLatch = false then
    { s with wire := s.wire ++ [(value, s.timedOut)] }
  else s

/-- The driver makes no other requests. -/
def serve : ∀ ⦃ρ : Type⦄, UartState → KernelRequest ρ → Option (ρ × UartState)
  | _, s, .inb port => if port = serialPortCom1 + 5#16 then some (s.answers s.polls, s.poll) else none
  | _, s, .outb port value => some ((), { s.writeRegister port value with busyPolls := 0 })
  | _, s, .serialIsInitialized => some (s.serialInitialized, { s with busyPolls := 0 })
  | _, s, .serialSetInitialized value => some ((), { s with
      busyPolls := 0
      serialInitialized := value
      timedOut := s.timedOut && !value })
  | _, _, _ => none

end UartState

/-- A call of the driver. -/
inductive SerialOperation where
  | output (call : SerialCall)
  | restart

def SerialOperation.program : SerialOperation → KernelProgram Unit
  | .output call => call.program
  | .restart => do
      let _ ← serialInitialize
      return ()

/-- The calls one after the other. -/
def serialOperations : List SerialOperation → KernelProgram Unit
  | [] => return ()
  | operation :: rest => do
      operation.program
      serialOperations rest

/-- Each line feed is expanded to a carriage return and a line feed. -/
def crlfText (text : List (BitVec 8)) : List (BitVec 8) :=
  text.flatMap fun c => if c = asciiLineFeed then [asciiCarriageReturn, asciiLineFeed] else [c]

def SerialCall.text : SerialCall → List (BitVec 8)
  | .putchar c => [c]
  | .write data => data
  | .writestring data => cString data

section Emits

/-- Between calls the data port is selected, and the driver is in use unless
a wait has timed out. -/
structure UartReady (s : UartState) : Prop where
  latch : s.divisorLatch = false
  initialized : s.serialInitialized = !s.timedOut

/-- From `s` to `t` the driver had this text to send and sent these bytes. -/
structure Emits (text sent : List (BitVec 8)) (s t : UartState) : Prop where
  ready : UartReady t
  wire : t.wire = s.wire ++ sent.map fun c => (c, false)
  silent : s.timedOut = true → sent = []
  initial : sent <+: text
  whole : t.timedOut = false ↔ s.timedOut = false ∧ sent = text

/-- Whatever leaves the wire and the count of timeouts alone emits nothing. -/
theorem Emits.nil {s t : UartState} (ht : UartReady t) (hWire : t.wire = s.wire)
    (hTimedOut : t.timedOut = s.timedOut) : Emits [] [] s t := by
  refine ⟨ht, ?_, fun _ => rfl, List.prefix_rfl, ?_⟩
  · rw [hWire, List.map_nil, List.append_nil]
  · rw [hTimedOut, and_iff_left rfl]

/-- What is sent first comes first on the wire. -/
theorem Emits.append {text more sent next : List (BitVec 8)} {s t u : UartState}
    (h : Emits text sent s t) (hNext : Emits more next t u) :
    Emits (text ++ more) (sent ++ next) s u := by
  refine ⟨hNext.ready, ?_, fun hTimedOut => ?_, ?_, ?_⟩
  · rw [hNext.wire, h.wire, List.map_append, List.append_assoc]
  · have hStill : t.timedOut = true := by
      by_contra hRunning
      rw [Bool.not_eq_true, h.whole, hTimedOut] at hRunning
      exact Bool.noConfusion hRunning.1
    rw [h.silent hTimedOut, hNext.silent hStill, List.append_nil]
  · by_cases hRunning : t.timedOut = false
    · rw [(h.whole.mp hRunning).2]
      exact (List.prefix_append_right_inj text).mpr hNext.initial
    · rw [hNext.silent (Bool.not_eq_false _ ▸ hRunning), List.append_nil]
      exact h.initial.trans (List.prefix_append text more)
  · rw [hNext.whole, h.whole]
    constructor
    · rintro ⟨⟨hStart, hSent⟩, hRest⟩
      exact ⟨hStart, by rw [hSent, hRest]⟩
    · rintro ⟨hStart, hAll⟩
      -- neither part can be longer than its text, so both are complete
      have hLength := congrArg List.length hAll
      rw [List.length_append, List.length_append] at hLength
      have hFirst := h.initial.length_le
      have hSecond := hNext.initial.length_le
      obtain ⟨hSent, hRest⟩ := List.append_inj hAll (by omega)
      exact ⟨⟨hStart, hSent⟩, hRest⟩

/-- The program sends a prefix of the text and returns. -/
def Sends (p : KernelProgram Unit) (text : List (BitVec 8)) : Prop :=
  ∀ s, UartReady s → ∃ t sent, p.runAlone UartState.serve s = some ((), t) ∧ Emits text sent s t

theorem Sends.done : Sends (.done ()) [] := fun s hs => ⟨s, [], rfl, .nil hs rfl rfl⟩

/-- Programs in sequence send one after the other, if the first one is not cut
off. -/
theorem Sends.bind {p q : KernelProgram Unit} {text more : List (BitVec 8)} (hFirst : Sends p text)
    (hNext : Sends q more) : Sends (p >>= fun _ => q) (text ++ more) := by
  intro s hs
  obtain ⟨t, sent, hRun, hEmits⟩ := hFirst s hs
  obtain ⟨u, next, hRest, hMore⟩ := hNext t hEmits.ready
  exact ⟨u, sent ++ next, (Interaction.runAlone_bind hRun).trans hRest, hEmits.append hMore⟩

/-- The test at the head of `serial_putchar`. A driver that is not in use has
timed out, so there is nothing it may send. -/
theorem Sends.whenInitialized {p : KernelProgram Unit} {text : List (BitVec 8)}
    (h : ∀ s, UartReady s → s.timedOut = false → s.busyPolls = 0 →
      ∃ t sent, p.runAlone UartState.serve s = some ((), t) ∧ Emits text sent s t) :
    Sends (do if ← perform .serialIsInitialized then p else return ()) text := by
  intro s hs
  have hAsk : (perform .serialIsInitialized >>= fun initialized =>
      if initialized = true then p else return ()).runAlone UartState.serve s =
      (if s.serialInitialized = true then p else return ()).runAlone UartState.serve
        { s with busyPolls := 0 } := rfl
  rw [hAsk]
  by_cases hTimedOut : s.timedOut = false
  · obtain ⟨t, sent, hRun, hEmits⟩ :=
      h { s with busyPolls := 0 } ⟨hs.latch, hs.initialized⟩ hTimedOut rfl
    refine ⟨t, sent, ?_, hEmits.ready, hEmits.wire, hEmits.silent, hEmits.initial, hEmits.whole⟩
    rw [if_pos (by rw [hs.initialized, hTimedOut]; rfl)]
    exact hRun
  · refine ⟨{ s with busyPolls := 0 }, [], ?_, ⟨hs.latch, hs.initialized⟩,
      (List.append_nil s.wire).symm, fun _ => rfl, List.nil_prefix, ?_⟩
    · rw [Bool.not_eq_false] at hTimedOut
      rw [if_neg (by rw [hs.initialized, hTimedOut]; decide)]
      rfl
    · exact iff_of_false hTimedOut fun h => hTimedOut h.1

end Emits

section Transmit

/-- Polling does not touch the line or the driver's own flag. -/
structure SamePort (s t : UartState) : Prop where
  wire : t.wire = s.wire
  latch : t.divisorLatch = s.divisorLatch
  initialized : t.serialInitialized = s.serialInitialized

/-- Reading the line status changes nothing but the number of polls. -/
theorem UartState.poll_same (s : UartState) : SamePort s s.poll := by
  rw [UartState.poll]
  split_ifs
  · exact ⟨rfl, rfl, rfl⟩
  · exact ⟨rfl, rfl, rfl⟩

/-- One poll, and the answer is the bit of the transmitter. -/
theorem serialCanTransmit_runs (s : UartState) :
    serialCanTransmit.runAlone UartState.serve s =
      some (decide (s.answers s.polls &&& 0x20#8 ≠ 0#8), s.poll) := rfl

/-- A wait that starts with a fresh row of polls fails exactly when that row
exceeds the timeout. The induction is on what is left of it. -/
theorem serialPoll_runs {timeout : Nat} {s : UartState}
    (hBusy : s.busyPolls + timeout = serialTransmitTimeout) :
    ∃ t ready, (serialPoll timeout).runAlone UartState.serve s = some (ready, t) ∧ SamePort s t ∧
      t.timedOut = (s.timedOut || !ready) := by
  induction timeout generalizing s with
  | zero =>
      refine ⟨_, _, serialCanTransmit_runs s, s.poll_same, ?_⟩
      have hLast : serialTransmitTimeout < s.busyPolls + 1 := by omega
      rw [UartState.poll]
      split_ifs with hReady
      · simp [hReady]
      · simp [hReady, hLast]
  | succ timeout ih =>
      rw [serialPoll, Interaction.runAlone_bind (serialCanTransmit_runs s)]
      by_cases hReady : s.answers s.polls &&& 0x20#8 ≠ 0#8
      · refine ⟨s.poll, true, ?_, s.poll_same, ?_⟩
        · rw [decide_eq_true hReady]
          rfl
        · rw [UartState.poll, if_pos hReady]
          simp
      · have hPoll : s.poll.busyPolls = s.busyPolls + 1 ∧ s.poll.timedOut = s.timedOut := by
          have hEarly : ¬serialTransmitTimeout < s.busyPolls + 1 := by omega
          rw [UartState.poll, if_neg hReady]
          exact ⟨rfl, by simp [hEarly]⟩
        obtain ⟨t, ready, hRun, hSame, hTimedOut⟩ := ih (s := s.poll) (by omega)
        have hPort := s.poll_same
        refine ⟨t, ready, ?_, ⟨hSame.wire.trans hPort.wire, hSame.latch.trans hPort.latch,
          hSame.initialized.trans hPort.initialized⟩, ?_⟩
        · rw [decide_eq_false hReady]
          exact hRun
        · rw [hTimedOut, hPoll.2]

/-- One byte goes out, or the driver gives up. -/
theorem serialTransmit_runs (c : BitVec 8) {s : UartState} (hs : UartReady s)
    (hRunning : s.timedOut = false) (hBusy : s.busyPolls = 0) :
    ∃ t sent, (serialTransmit c).runAlone UartState.serve s = some ((), t) ∧ Emits [c] sent s t := by
  obtain ⟨u, ready, hRun, hSame, hTimedOut⟩ :=
    serialPoll_runs (s := s) (show s.busyPolls + serialTransmitTimeout = _ by omega)
  rw [hRunning, Bool.false_or] at hTimedOut
  have hWait : serialWaitCanTransmit.runAlone UartState.serve s = some (ready, u) := hRun
  have hLatch := hSame.latch.trans hs.latch
  have hInitialized := hSame.initialized.trans hs.initialized
  rw [hRunning] at hInitialized
  rw [serialTransmit, Interaction.runAlone_bind hWait]
  cases ready with
  | true =>
      have hWrite : u.writeRegister serialPortCom1 c =
          { u with wire := u.wire ++ [(c, u.timedOut)] } := by
        rw [UartState.writeRegister, if_neg (by decide), if_pos ⟨rfl, hLatch⟩]
      refine ⟨_, [c], rfl, ?_⟩
      rw [hWrite]
      refine ⟨⟨hLatch, ?_⟩, ?_, fun hStopped => ?_, List.prefix_rfl, ?_⟩
      · show u.serialInitialized = !u.timedOut
        rw [hInitialized, hTimedOut]
        rfl
      · show u.wire ++ [(c, u.timedOut)] = s.wire ++ [(c, false)]
        rw [hSame.wire, hTimedOut]
        rfl
      · rw [hRunning] at hStopped
        exact Bool.noConfusion hStopped
      · exact iff_of_true hTimedOut ⟨hRunning, rfl⟩
  | false =>
      refine ⟨_, [], rfl, ⟨hLatch, ?_⟩, ?_, fun _ => rfl, List.nil_prefix, ?_⟩
      · show false = !(u.timedOut && !false)
        rw [hTimedOut]
        rfl
      · exact hSame.wire.trans (List.append_nil s.wire).symm
      · show (u.timedOut && !false) = false ↔ _
        rw [hTimedOut]
        simp

/-- One byte goes out when the device becomes ready in time, and none
otherwise. -/
theorem serialPutPlain_sends (c : BitVec 8) : Sends (serialPutPlain c) [c] :=
  .whenInitialized fun _ hs hRunning hBusy => serialTransmit_runs c hs hRunning hBusy

/-- A line feed goes out as CR and LF, every other character as itself. -/
theorem serialPutchar_sends (c : BitVec 8) : Sends (serialPutchar c) (crlfText [c]) := by
  rw [serialPutchar]
  split_ifs with hFeed
  · subst hFeed
    refine .whenInitialized fun s hs _ _ => ?_
    exact (serialPutPlain_sends asciiCarriageReturn).bind (serialPutPlain_sends asciiLineFeed) s hs
  · have hText : crlfText [c] = [c] := by
      rw [crlfText, List.flatMap_cons, if_neg hFeed]
      rfl
    rw [hText]
    exact serialPutPlain_sends c

theorem crlfText_append (text more : List (BitVec 8)) :
    crlfText (text ++ more) = crlfText text ++ crlfText more := List.flatMap_append

/-- Text goes out character by character; by induction on the text. -/
theorem serialWrite_sends (data : List (BitVec 8)) : Sends (serialWrite data) (crlfText data) := by
  induction data with
  | nil => exact .done
  | cons c rest ih =>
      rw [← List.singleton_append, crlfText_append]
      exact (serialPutchar_sends c).bind ih

theorem SerialCall.sends (call : SerialCall) : Sends call.program (crlfText call.text) := by
  cases call with
  | putchar c => exact serialPutchar_sends c
  | write data => exact serialWrite_sends data
  | writestring data => exact serialWrite_sends (cString data)

/-- A row of output calls sends the texts one after the other. -/
theorem serialOutput_sends (calls : List SerialCall) :
    Sends (serialOperations (calls.map .output)) (crlfText (calls.flatMap SerialCall.text)) := by
  induction calls with
  | nil => exact .done
  | cons call rest ih =>
      rw [List.flatMap_cons, crlfText_append]
      exact call.sends.bind ih

/-- Setting up the registers writes no data: the latch is set while the
divisor is written. -/
theorem serialWriteRegisters_runs (s : UartState) :
    ∃ t, (serialWriteRegisters serialSetup).runAlone UartState.serve s = some ((), t) ∧
      t.wire = s.wire ∧ t.divisorLatch = false ∧ t.serialInitialized = s.serialInitialized ∧
      t.timedOut = s.timedOut ∧ t.busyPolls = 0 := by
  refine ⟨_, rfl, rfl, rfl, rfl, rfl, rfl⟩

/-- Initialization succeeds or times out; it writes no data either way. -/
theorem serialInitialize_runs (s : UartState) :
    ∃ t ready, serialInitialize.runAlone UartState.serve s = some (ready, t) ∧ UartReady t ∧
      t.wire = s.wire ∧ (ready = true → t.timedOut = false) := by
  obtain ⟨u, hSetup, hWire, hLatch, hOff, hTimedOut, hBusy⟩ := serialWriteRegisters_runs
    { s with busyPolls := 0, serialInitialized := false, timedOut := s.timedOut && !false }
  obtain ⟨v, ready, hRun, hSame, hLast⟩ :=
    serialPoll_runs (s := u) (show u.busyPolls + serialTransmitTimeout = _ by omega)
  have hWait : serialWaitCanTransmit.runAlone UartState.serve u = some (ready, v) := hRun
  have hLine := hSame.wire.trans hWire
  have hPort := hSame.latch.trans hLatch
  have hStill := hSame.initialized.trans hOff
  rw [serialInitialize, Interaction.perform_bind, Interaction.runAlone_ask rfl,
    Interaction.runAlone_bind hSetup, Interaction.runAlone_bind hWait]
  cases ready with
  | true =>
      refine ⟨{ v with busyPolls := 0, serialInitialized := true, timedOut := v.timedOut && !true },
        true, rfl, ⟨hPort, ?_⟩, hLine, fun _ => ?_⟩
      · show true = !(v.timedOut && !true)
        simp
      · show (v.timedOut && !true) = false
        simp
  | false =>
      refine ⟨v, false, rfl, ⟨hPort, ?_⟩, hLine, Bool.noConfusion⟩
      rw [hStill, hLast]
      simp

/-- Whatever the calls are, no byte is written while a timeout is pending. -/
theorem serialOperations_sent (operations : List SerialOperation) {s : UartState} (hs : UartReady s) :
    ∃ (t : UartState) (sent : List (BitVec 8)),
      (serialOperations operations).runAlone UartState.serve s = some ((), t) ∧ UartReady t ∧
      t.wire = s.wire ++ sent.map fun c => (c, false) := by
  induction operations generalizing s with
  | nil => exact ⟨s, [], rfl, hs, (List.append_nil s.wire).symm⟩
  | cons operation rest ih =>
      have hHead : ∃ (t : UartState) (sent : List (BitVec 8)),
          operation.program.runAlone UartState.serve s = some ((), t) ∧
          UartReady t ∧ t.wire = s.wire ++ sent.map fun c => (c, false) := by
        cases operation with
        | output call =>
            obtain ⟨t, sent, hRun, hEmits⟩ := call.sends s hs
            exact ⟨t, sent, hRun, hEmits.ready, hEmits.wire⟩
        | restart =>
            obtain ⟨t, ready, hRun, ht, hWire, -⟩ := serialInitialize_runs s
            exact ⟨t, [], Interaction.runAlone_bind hRun, ht, hWire.trans (List.append_nil s.wire).symm⟩
      obtain ⟨t, sent, hRun, ht, hWire⟩ := hHead
      obtain ⟨u, more, hRest, hu, hLast⟩ := ih ht
      refine ⟨u, sent ++ more, (Interaction.runAlone_bind hRun).trans hRest, hu, ?_⟩
      rw [hLast, hWire, List.map_append, List.append_assoc]

end Transmit

/-- From a state in which `serial_initialize` returned true, any output calls
send a prefix of the expanded text, and all of it exactly when no wait timed
out. With calls of `serial_initialize` in between, each byte is still written
with no timeout pending since the last successful one. -/
theorem serial_sends_prefix {prior start : UartState}
    (hStart : serialInitialize.runAlone UartState.serve prior = some (true, start)) :
    (∀ calls : List SerialCall, ∃ (t : UartState) (sent : List (BitVec 8)),
      (serialOperations (calls.map .output)).runAlone UartState.serve start = some ((), t) ∧
      t.wire = start.wire ++ sent.map (fun c => (c, false)) ∧
      sent <+: crlfText (calls.flatMap SerialCall.text) ∧
      (sent = crlfText (calls.flatMap SerialCall.text) ↔ t.timedOut = false)) ∧
    ∀ operations : List SerialOperation, ∃ (t : UartState) (sent : List (BitVec 8)),
      (serialOperations operations).runAlone UartState.serve start = some ((), t) ∧
      t.wire = start.wire ++ sent.map fun c => (c, false) := by
  obtain ⟨first, ready, hRun, hReady, -, hFresh⟩ := serialInitialize_runs prior
  rw [hStart, Option.some.injEq, Prod.mk.injEq] at hRun
  obtain ⟨rfl, rfl⟩ := hRun
  constructor
  · intro calls
    obtain ⟨t, sent, hOutput, hEmits⟩ := serialOutput_sends calls start hReady
    refine ⟨t, sent, hOutput, hEmits.wire, hEmits.initial, ?_⟩
    rw [hEmits.whole, and_iff_right (hFresh rfl)]
  · intro operations
    obtain ⟨t, sent, hOperations, -, hWire⟩ := serialOperations_sent operations hReady
    exact ⟨t, sent, hOperations, hWire⟩

/-- A device that is ready at first and never again after some polls. -/
def uartReadyFor (polls : Nat) : UartState where
  answers k := if k < polls then 0x60#8 else 0x40#8
  polls := 0
  busyPolls := 0
  timedOut := false
  serialInitialized := false
  divisorLatch := true
  wire := []

/-- The device stops between the carriage return and the line feed. -/
theorem serial_sends_prefix_stuck : ∃ (start t : UartState) (sent : List (BitVec 8)),
    serialInitialize.runAlone UartState.serve (uartReadyFor 3) = some (true, start) ∧
    (serialOperations [.output (.putchar 0x61#8), .output (.putchar asciiLineFeed)]).runAlone
      UartState.serve start = some ((), t) ∧
    t.wire = start.wire ++ sent.map (fun c => (c, false)) ∧
    sent <+: [0x61#8, asciiCarriageReturn, asciiLineFeed] := by
  have hStart : serialInitialize.runAlone UartState.serve (uartReadyFor 3) = some (true, _) := rfl
  obtain ⟨hOutput, -⟩ := serial_sends_prefix hStart
  obtain ⟨t, sent, hRun, hWire, hPrefix, -⟩ := hOutput [.putchar 0x61#8, .putchar asciiLineFeed]
  exact ⟨_, t, sent, hStart, hRun, hWire, hPrefix⟩

end WigOSX
