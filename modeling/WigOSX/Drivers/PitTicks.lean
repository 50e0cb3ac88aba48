import WigOSX.Drivers.Pit

/-! The timer over long runs. `pit_ticks` is a free-running 32-bit counter, and
the heartbeat is due when it is a multiple of 100. Both follow the number of
interrupts until the counter wraps, and neither does from then on, because
`2 ^ 32` is not a multiple of 100. -/
namespace WigOSX

open Interaction (Exchange Only Returns returns_done_iff returns_ask_iff returns_bind_iff)

/-- The static state of `pit.c`. -/
structure PitState where
  pitTicks : BitVec 32

/-- `PIT_BASE_FREQUENCY`. -/
def pitBaseFrequency : BitVec 32 := 1193182#32

/-- `PIT_MAX_DIVISOR`. -/
def pitMaxDivisor : BitVec 32 := 65535#32

/-- `PIT_MIN_FREQUENCY_HZ`. -/
def pitMinFrequencyHz : BitVec 32 := (pitBaseFrequency + pitMaxDivisor - 1#32) / pitMaxDivisor

/-- `PIT_MAX_FREQUENCY_HZ`. -/
def pitMaxFrequencyHz : BitVec 32 := pitBaseFrequency

/-- `PIT_COMMAND_PORT` and `PIT_CHANNEL0_PORT`. -/
def pitCommandPort : BitVec 16 := 0x43#16
def pitChannel0Port : BitVec 16 := 0x40#16

/-- Channel 0, low byte then high byte, mode 3, binary. -/
def pitCommand : BitVec 8 := 0x00#8 ||| 0x30#8 ||| 0x06#8 ||| 0x00#8

/-- The result, the port writes in order, and the new state. -/
def pitInitialize (frequencyHz : BitVec 32) (s : PitState) :
    Bool × List (BitVec 16 × BitVec 8) × PitState :=
  if frequencyHz < pitMinFrequencyHz ∨ pitMaxFrequencyHz < frequencyHz then (false, [], s)
  else
    let divisor := pitBaseFrequency / frequencyHz
    if divisor = 0#32 ∨ pitMaxDivisor < divisor then (false, [], s)
    else
      (true,
        [(pitCommandPort, pitCommand), (pitChannel0Port, (divisor &&& 0xFF#32).setWidth 8),
          (pitChannel0Port, (divisor >>> 8 &&& 0xFF#32).setWidth 8)],
        { s with pitTicks := 0#32 })

def pitGetTicks (s : PitState) : BitVec 32 := s.pitTicks

def ktimeGetTicks (s : PitState) : BitVec 32 := pitGetTicks s

section Interrupt

/-- The replies that the counter gives. The serial driver's are arbitrary. -/
def PitState.replies (s : PitState) : ∀ ⦃ρ : Type⦄, KernelRequest ρ → ρ → Prop
  | _, .pitIncrementTicks, ticks => ticks = s.pitTicks + 1#32
  | _, _, _ => True

def PitState.after (s : PitState) : ∀ ⦃ρ : Type⦄, KernelRequest ρ → PitState
  | _, .pitIncrementTicks => { s with pitTicks := s.pitTicks + 1#32 }
  | _, _ => s

/-- The state after the exchanges of a trace. -/
def PitFollows : PitState → List (Exchange KernelRequest) → PitState → Prop
  | s, [], t => t = s
  | s, exchange :: rest, t =>
      s.replies exchange.request exchange.reply ∧ PitFollows (s.after exchange.request) rest t

def pitHeartbeat : List (BitVec 8) := asciiText "[wigOSX] PIT tick: "

/-- After the counter's access the handler called `serial_writestring` on the
heartbeat's text. -/
def IssuesHeartbeat (trace : List (Exchange KernelRequest)) : Prop :=
  ∃ tick message rest, trace = tick :: (message ++ rest) ∧ (serialWrite pitHeartbeat).Returns message ()

/-- One timer interrupt, and whether it issued a heartbeat. -/
def PitInterrupt (s : PitState) (heartbeat : Bool) (t : PitState) : Prop :=
  ∃ trace, pitHandleInterrupt.Returns trace () ∧ PitFollows s trace t ∧
    (heartbeat = true ↔ IssuesHeartbeat trace)

/-- The requests of the serial driver. -/
def KernelRequest.Serial : ∀ ⦃ρ : Type⦄, KernelRequest ρ → Prop
  | _, .inb _ => True
  | _, .outb _ _ => True
  | _, .serialIsInitialized => True
  | _, .serialSetInitialized _ => True
  | _, _ => False

theorem serialPutPlain_serial (c : BitVec 8) : (serialPutPlain c).Only KernelRequest.Serial := by
  have hPoll : ∀ timeout, (serialPoll timeout).Only KernelRequest.Serial := by
    intro timeout
    induction timeout with
    | zero => exact ⟨trivial, fun _ => trivial⟩
    | succ timeout ih => exact Only.bind ⟨trivial, fun _ => trivial⟩ fun _ => .ite trivial ih
  refine ⟨trivial, fun _ => .ite ?_ trivial⟩
  apply Only.bind (hPoll serialTransmitTimeout)
  intro _
  exact .ite ⟨trivial, fun _ => trivial⟩ ⟨trivial, fun _ => trivial⟩

theorem serialWrite_serial (data : List (BitVec 8)) : (serialWrite data).Only KernelRequest.Serial := by
  induction data with
  | nil => trivial
  | cons c data ih =>
      apply Only.bind _ fun _ => ih
      refine .ite ⟨trivial, fun _ => .ite ?_ trivial⟩ (serialPutPlain_serial c)
      exact .bind (serialPutPlain_serial _) fun _ => serialPutPlain_serial c

theorem pitFollows_serial_iff {trace : List (Exchange KernelRequest)} {s t : PitState}
    (h : ∀ exchange ∈ trace, exchange.request.Serial) : PitFollows s trace t ↔ t = s := by
  induction trace with
  | nil => rfl
  | cons exchange rest ih =>
      obtain ⟨request, reply⟩ := exchange
      have hHead : request.Serial := h _ List.mem_cons_self
      have hRest := ih fun exchange hMem => h exchange (List.mem_cons_of_mem _ hMem)
      cases request with
      | inb port => exact (and_iff_right trivial).trans hRest
      | outb port value => exact (and_iff_right trivial).trans hRest
      | serialIsInitialized => exact (and_iff_right trivial).trans hRest
      | serialSetInitialized value => exact (and_iff_right trivial).trans hRest
      | _ => exact hHead.elim

/-- The message of the heartbeat branch, behind the announcement. -/
def pitMessage (ticks : BitVec 32) : KernelProgram Unit :=
  if ticks = 100#32 then serialWrite (asciiText "100\n")
  else if ticks = 200#32 then serialWrite (asciiText "200\n")
  else if ticks = 300#32 then serialWrite (asciiText "300\n")
  else serialWrite (asciiText "another second passed\n")

/-- A tick sends the heartbeat or nothing, and either is a matter of the
serial line. -/
theorem pitMessage_serial (ticks : BitVec 32) : (pitMessage ticks).Only KernelRequest.Serial := by
  apply Only.ite (serialWrite_serial _)
  apply Only.ite (serialWrite_serial _)
  exact .ite (serialWrite_serial _) (serialWrite_serial _)

/-- A trace of the handler: one access to the counter, and the heartbeat when
the new value is a multiple of 100. -/
theorem pitHandleInterrupt_returns_iff {trace : List (Exchange KernelRequest)} :
    pitHandleInterrupt.Returns trace () ↔
      ∃ ticks rest, trace = ⟨.pitIncrementTicks, ticks⟩ :: rest ∧
        if ticks % 100#32 = 0#32 then
          (serialWrite pitHeartbeat >>= fun _ => pitMessage ticks).Returns rest ()
        else rest = [] := by
  have hBranch : ∀ (ticks : BitVec 32) (rest : List (Exchange KernelRequest)),
      (if ticks % 100#32 = 0#32 then serialWrite pitHeartbeat >>= fun _ => pitMessage ticks
        else pure () : KernelProgram Unit).Returns rest () ↔
      if ticks % 100#32 = 0#32 then
        (serialWrite pitHeartbeat >>= fun _ => pitMessage ticks).Returns rest ()
      else rest = [] := by
    intro ticks rest
    split_ifs
    · rfl
    · exact returns_done_iff.trans (and_iff_left rfl)
  simp only [← hBranch]
  exact returns_ask_iff

theorem serialWrite_heartbeat_ne_nil {message : List (Exchange KernelRequest)}
    (h : (serialWrite pitHeartbeat).Returns message ()) : message ≠ [] := by
  obtain ⟨reply, rest, rfl, -⟩ := returns_ask_iff.mp h
  exact List.cons_ne_nil _ _

/-- An interrupt counts, and issues a heartbeat at the multiples of 100. -/
theorem pitInterrupt_iff {s t : PitState} {heartbeat : Bool} :
    PitInterrupt s heartbeat t ↔
      t.pitTicks = s.pitTicks + 1#32 ∧ heartbeat = decide (t.pitTicks % 100#32 = 0#32) := by
  constructor
  · rintro ⟨trace, hReturns, hFollows, hHeartbeat⟩
    obtain ⟨ticks, rest, rfl, hRest⟩ := pitHandleInterrupt_returns_iff.mp hReturns
    obtain ⟨rfl, hFollows⟩ : ticks = s.pitTicks + 1#32 ∧ PitFollows ⟨s.pitTicks + 1#32⟩ rest t := hFollows
    by_cases hDue : (s.pitTicks + 1#32) % 100#32 = 0#32
    · rw [if_pos hDue] at hRest
      have hSerial := (Only.bind (serialWrite_serial pitHeartbeat) fun _ =>
        pitMessage_serial (s.pitTicks + 1#32)).forall_trace hRest
      obtain rfl := (pitFollows_serial_iff hSerial).mp hFollows
      obtain ⟨message, ⟨⟩, more, rfl, hMessage, -⟩ := returns_bind_iff.mp hRest
      refine ⟨rfl, ?_⟩
      rw [decide_eq_true hDue]
      exact hHeartbeat.mpr ⟨_, message, more, rfl, hMessage⟩
    · rw [if_neg hDue] at hRest
      subst hRest
      obtain rfl : t = ⟨s.pitTicks + 1#32⟩ := hFollows
      refine ⟨rfl, ?_⟩
      rw [decide_eq_false hDue, ← Bool.not_eq_true]
      intro hIssued
      obtain ⟨tick, message, more, hEq, hMessage⟩ := hHeartbeat.mp hIssued
      have hNil : message ++ more = [] := (List.cons.inj hEq).2.symm
      exact serialWrite_heartbeat_ne_nil hMessage (List.append_eq_nil_iff.mp hNil).1
  · rintro ⟨hTicks, rfl⟩
    obtain ⟨ticks⟩ := t
    obtain rfl : ticks = s.pitTicks + 1#32 := hTicks
    have hReply : ∀ ⦃ρ : Type⦄ (request : KernelRequest ρ), request.Serial → Nonempty ρ := by
      intro ρ request hSerial
      cases request with
      | inb port => exact ⟨0#8⟩
      | outb port value => exact ⟨()⟩
      | serialIsInitialized => exact ⟨false⟩
      | serialSetInitialized value => exact ⟨()⟩
      | _ => exact hSerial.elim
    by_cases hDue : (s.pitTicks + 1#32) % 100#32 = 0#32
    · obtain ⟨message, _, hMessage⟩ := (serialWrite_serial pitHeartbeat).exists_returns hReply
      obtain ⟨more, _, hMore⟩ := (pitMessage_serial (s.pitTicks + 1#32)).exists_returns hReply
      have hRest : (serialWrite pitHeartbeat >>= fun _ => pitMessage (s.pitTicks + 1#32)).Returns
          (message ++ more) () := returns_bind_iff.mpr ⟨message, (), more, rfl, hMessage, hMore⟩
      have hSerial := (Only.bind (serialWrite_serial pitHeartbeat) fun _ =>
        pitMessage_serial (s.pitTicks + 1#32)).forall_trace hRest
      refine ⟨_, pitHandleInterrupt_returns_iff.mpr ⟨s.pitTicks + 1#32, _, rfl, ?_⟩,
        ⟨rfl, (pitFollows_serial_iff hSerial).mpr rfl⟩, ?_⟩
      · rw [if_pos hDue]
        exact hRest
      · exact iff_of_true (decide_eq_true hDue) ⟨_, message, more, rfl, hMessage⟩
    · refine ⟨_, pitHandleInterrupt_returns_iff.mpr ⟨s.pitTicks + 1#32, [], rfl, ?_⟩, ⟨rfl, rfl⟩, ?_⟩
      · rw [if_neg hDue]
      · refine iff_of_false (by simpa using hDue) ?_
        rintro ⟨tick, message, more, hEq, hMessage⟩
        have hNil : message ++ more = [] := (List.cons.inj hEq).2.symm
        exact serialWrite_heartbeat_ne_nil hMessage (List.append_eq_nil_iff.mp hNil).1

end Interrupt

section Run

/-- A successful `pit_initialize` and `n` timer interrupts after it. -/
structure PitRun (n : Nat) where
  prior : PitState
  frequencyHz : BitVec 32
  states : Nat → PitState
  heartbeats : Nat → Bool
  initialized : (pitInitialize frequencyHz prior).1 = true
  start : (pitInitialize frequencyHz prior).2.2 = states 0
  interrupt : ∀ i < n, PitInterrupt (states i) (heartbeats i) (states (i + 1))

/-- Time never runs backwards, and every hundredth interrupt issues a
heartbeat. -/
structure PitRun.Faithful {n : Nat} (run : PitRun n) : Prop where
  monotone : ∀ i j, i ≤ j → j ≤ n → ktimeGetTicks (run.states i) ≤ ktimeGetTicks (run.states j)
  count : (List.range n).countP run.heartbeats = n / 100
  window : ∀ i, i + 100 ≤ n → (List.range' i 100).countP run.heartbeats = 1

theorem pitInitialize_ticks {frequencyHz : BitVec 32} {s : PitState}
    (h : (pitInitialize frequencyHz s).1 = true) : (pitInitialize frequencyHz s).2.2.pitTicks = 0#32 := by
  simp only [pitInitialize] at h ⊢
  split_ifs at h ⊢
  rfl

variable {n : Nat} (run : PitRun n)

/-- The counter is the number of interrupts modulo `2 ^ 32`. -/
theorem PitRun.ticks {i : Nat} (h : i ≤ n) : (run.states i).pitTicks = BitVec.ofNat 32 i := by
  induction i with
  | zero => exact run.start ▸ pitInitialize_ticks run.initialized
  | succ i ih =>
      rw [(pitInterrupt_iff.mp (run.interrupt i h)).1, ih (by omega), BitVec.ofNat_add]

/-- The ticks with a heartbeat are every hundredth one, as long as the counter
has not wrapped. -/
theorem PitRun.heartbeat {i : Nat} (h : i < n) (hSmall : i + 1 < 2 ^ 32) :
    run.heartbeats i = decide ((i + 1) % 100 = 0) := by
  rw [(pitInterrupt_iff.mp (run.interrupt i h)).2, run.ticks h, decide_eq_decide, ← BitVec.toNat_inj,
    BitVec.toNat_umod, BitVec.toNat_ofNat, Nat.mod_eq_of_lt hSmall]
  rfl

/-- So there are as many heartbeats as full hundreds of ticks. -/
theorem PitRun.count_heartbeats {m : Nat} (h : m ≤ n) (hSmall : m < 2 ^ 32) :
    (List.range m).countP run.heartbeats = m / 100 := by
  induction m with
  | zero => rfl
  | succ m ih =>
      rw [List.range_succ, List.countP_append, ih (by omega) (by omega), List.countP_singleton,
        run.heartbeat h hSmall]
      by_cases hDue : (m + 1) % 100 = 0
      · rw [if_pos (decide_eq_true hDue)]
        omega
      · rw [if_neg (by simpa using hDue)]
        omega

/-- Behind the last value of the counter time starts again. -/
theorem PitRun.not_monotone (h : 2 ^ 32 ≤ n) :
    ¬ktimeGetTicks (run.states (2 ^ 32 - 1)) ≤ ktimeGetTicks (run.states (2 ^ 32)) := by
  rw [ktimeGetTicks, ktimeGetTicks, pitGetTicks, pitGetTicks, run.ticks (by omega), run.ticks h]
  decide

/-- A run keeps time and heartbeat exactly when it has fewer than `2 ^ 32`
interrupts. -/
theorem pit_faithful_iff {n : Nat} (run : PitRun n) : run.Faithful ↔ n < 2 ^ 32 := by
  constructor
  · intro h
    by_contra hLong
    exact run.not_monotone (by omega) (h.monotone _ _ (by omega) (by omega))
  · intro hShort
    refine ⟨fun i j hLe hj => ?_, run.count_heartbeats le_rfl hShort, fun i hi => ?_⟩
    · rw [ktimeGetTicks, ktimeGetTicks, pitGetTicks, pitGetTicks, run.ticks (by omega), run.ticks hj,
        BitVec.le_def, BitVec.toNat_ofNat, BitVec.toNat_ofNat]
      omega
    · have hAll := run.count_heartbeats hi (by omega)
      have hBefore := run.count_heartbeats (show i ≤ n by omega) (by omega)
      rw [List.range_add, List.countP_append, hBefore, ← List.range'_eq_map_range] at hAll
      omega

/-- The run of a given length at 100 Hz. -/
def PitRun.atHundredHertz (n : Nat) : PitRun n where
  prior := ⟨0#32⟩
  frequencyHz := 100#32
  states i := ⟨BitVec.ofNat 32 i⟩
  heartbeats i := decide (BitVec.ofNat 32 (i + 1) % 100#32 = 0#32)
  initialized := by decide
  start := by rfl
  interrupt i _ := pitInterrupt_iff.mpr ⟨BitVec.ofNat_add i 1, rfl⟩

/-- After `2 ^ 32` interrupts the tick count is back at zero. -/
theorem pit_time_wraps : ¬(PitRun.atHundredHertz (2 ^ 32)).Faithful := by
  intro h
  exact (PitRun.atHundredHertz (2 ^ 32)).not_monotone le_rfl
    (h.monotone _ _ (by decide) le_rfl)

end Run
end WigOSX
