import WigOSX.Drivers.Pit
import WigOSX.Library.Preemption
import WigOSX.Library.Protocol

/-! COM1 with its transmitter on one processor. The transmitter-empty flag is
cleared by every data write and set by the device at any time. The foreground
makes a sequence of output calls with interrupts enabled, and the timer
interrupt, whose handler prints on the same port, may be taken between any two
of its accesses. -/
namespace WigOSX

open Interaction (perform)

/-- The state behind the serial driver and the timer. The wire keeps every
byte written to the data port, with the transmitter-empty flag at the write. -/
structure SerialState where
  interruptFlag : Bool
  serialInitialized : Bool
  pitTicks : BitVec 32
  transmitterEmpty : Bool
  wire : List (BitVec 8 × Bool)

/-- What the device does before an access: it may become ready, and it
chooses the bits of a register that the driver does not look at. -/
structure UartInput where
  ready : Bool
  data : BitVec 8

namespace SerialState

/-- Bit 5 of the line status register is the transmitter-empty flag. -/
def lineStatus (s : SerialState) (data : BitVec 8) : BitVec 8 :=
  if s.transmitterEmpty then data ||| 0x20#8 else data &&& ~~~0x20#8

/-- The effect of a request. The driver and the timer make no others. -/
def serve (data : BitVec 8) (s : SerialState) :
    ∀ ⦃ρ : Type⦄, KernelRequest ρ → Option (ρ × SerialState)
  | _, .inb port => some (if port = serialPortCom1 + 5#16 then s.lineStatus data else data, s)
  | _, .outb port value =>
      some ((), if port = serialPortCom1 then
        { s with transmitterEmpty := false, wire := s.wire ++ [(value, s.transmitterEmpty)] } else s)
  | _, .serialIsInitialized => some (s.serialInitialized, s)
  | _, .serialSetInitialized value => some ((), { s with serialInitialized := value })
  | _, .pitIncrementTicks => some (s.pitTicks + 1#32, { s with pitTicks := s.pitTicks + 1#32 })
  | _, _ => none

/-- The device acts first. -/
def execute ⦃ρ : Type⦄ (input : UartInput) (s : SerialState) (request : KernelRequest ρ) :
    Option (ρ × SerialState) :=
  { s with transmitterEmpty := s.transmitterEmpty || input.ready }.serve input.data request

end SerialState

/-- The timer is the only interrupt. Its handler runs masked. -/
def serialProcessor : Processor KernelRequest SerialState Unit Bool UartInput where
  execute := SerialState.execute
  accepts s := s.interruptFlag
  enter s := { s with interruptFlag := false }
  save s := s.interruptFlag
  restore interruptFlag s := { s with interruptFlag := interruptFlag }
  handler _ := pitHandleInterrupt

/-- An output call of the foreground. -/
inductive SerialCall where
  | putchar (c : BitVec 8)
  | write (data : List (BitVec 8))
  | writestring (data : List (BitVec 8))

def SerialCall.program : SerialCall → KernelProgram Unit
  | .putchar c => serialPutchar c
  | .write data => serialWrite data
  | .writestring data => serialWrite (cString data)

/-- The next call; what is left to call is carried to the next round. -/
def serialForeground : List SerialCall → KernelProgram (List SerialCall)
  | [] => return []
  | call :: rest => do
      call.program
      return rest

abbrev SerialConfig := Processor.Config KernelRequest SerialState Unit Bool (List SerialCall)

/-- Interrupts are enabled, and nothing has been written yet. The rest of the
state is arbitrary. -/
def serialStart (prior : SerialState) (calls : List SerialCall) (pending : Unit → Bool) :
    SerialConfig where
  state := { prior with interruptFlag := true, wire := [] }
  foreground := serialForeground calls
  frames := []
  pending := pending

/-- A driver that is in use, with the given number of ticks so far. -/
def serialInUse (ticks : BitVec 32) : SerialState where
  interruptFlag := true
  serialInitialized := true
  pitTicks := ticks
  transmitterEmpty := true
  wire := []

/-- The timer interrupt that comes next prints the heartbeat. -/
def HeartbeatDue (s : SerialState) : Prop :=
  s.serialInitialized = true ∧ (s.pitTicks + 1#32) % 100#32 = 0#32

section Conformance

variable {Phase : Type} {P : Protocol KernelRequest Phase} {phase : Phase}

/-- The output functions follow a protocol that `serial_putchar` follows from
every phase on. -/
theorem serialWrite_conforms
    (hPut : ∀ c phase, P.Conforms (fun _ _ => True) (serialPutchar c) phase)
    (data : List (BitVec 8)) (phase : Phase) :
    P.Conforms (fun _ _ => True) (serialWrite data) phase := by
  induction data generalizing phase with
  | nil => exact trivial
  | cons c rest ih =>
      apply Protocol.Conforms.bind
      exact (hPut c phase).mono fun _ last _ => ih last

/-- The timer's handler keeps every protocol that single characters and the
tick keep. -/
theorem pitHandleInterrupt_conforms
    (hPut : ∀ c phase, P.Conforms (fun _ _ => True) (serialPutchar c) phase)
    (hTick : P.admits phase .pitIncrementTicks) :
    P.Conforms (fun _ _ => True) pitHandleInterrupt phase := by
  refine ⟨hTick, fun ticks _ => ?_⟩
  show P.Conforms _ (if ticks % 100#32 = 0#32 then _ else _) _
  by_cases hDue : ticks % 100#32 = 0#32
  · rw [if_pos hDue]
    apply Protocol.Conforms.bind
    refine (serialWrite_conforms hPut _ _).mono fun _ last _ => ?_
    split_ifs
    · exact serialWrite_conforms hPut _ last
    · exact serialWrite_conforms hPut _ last
    · exact serialWrite_conforms hPut _ last
    · exact serialWrite_conforms hPut _ last
  · rw [if_neg hDue]
    exact trivial

theorem serialForeground_conforms
    (hPut : ∀ c phase, P.Conforms (fun _ _ => True) (serialPutchar c) phase)
    (calls : List SerialCall) (phase : Phase) :
    P.Conforms (fun _ _ => True) (serialForeground calls) phase := by
  cases calls with
  | nil => exact trivial
  | cons call rest =>
      have hCall : P.Conforms (fun _ _ => True) call.program phase := by
        cases call with
        | putchar c => exact hPut c phase
        | write data => exact serialWrite_conforms hPut data phase
        | writestring data => exact serialWrite_conforms hPut (cString data) phase
      apply Protocol.Conforms.bind
      exact hCall.mono fun _ _ _ => trivial

end Conformance

section Silent

/-- Nothing was written and the driver is as it was. -/
structure SameLine (s t : SerialState) : Prop where
  wire : t.wire = s.wire
  empty : s.transmitterEmpty = true → t.transmitterEmpty = true
  initialized : t.serialInitialized = s.serialInitialized
  interruptFlag : t.interruptFlag = s.interruptFlag

theorem SameLine.refl (s : SerialState) : SameLine s s := ⟨rfl, id, rfl, rfl⟩

def muteAdmits : ∀ ⦃ρ : Type⦄, Unit → KernelRequest ρ → Prop
  | _, _, .serialIsInitialized => True
  | _, _, .pitIncrementTicks => True
  | _, _, _ => False

def mutePossible : ∀ ⦃ρ : Type⦄, Unit → KernelRequest ρ → ρ → Prop
  | _, _, .serialIsInitialized, initialized => initialized = false
  | _, _, _, _ => True

/-- A driver that is not initialized is asked, but not used. -/
def muteProtocol : Protocol KernelRequest Unit where
  admits := muteAdmits
  possible := mutePossible
  advance _ _ _ _ := ()

/-- A driver that has given up writes nothing. -/
theorem serialPutchar_mute (c : BitVec 8) (phase : Unit) :
    muteProtocol.Conforms (fun _ _ => True) (serialPutchar c) phase := by
  have hPlain : muteProtocol.Conforms (fun _ _ => True) (serialPutPlain c) phase := by
    refine ⟨trivial, fun initialized hPossible => ?_⟩
    obtain rfl : initialized = false := hPossible
    exact trivial
  rw [serialPutchar]
  split_ifs
  · refine ⟨trivial, fun initialized hPossible => ?_⟩
    obtain rfl : initialized = false := hPossible
    exact trivial
  · exact hPlain

theorem muteProtocol_tracks (s : SerialState) :
    muteProtocol.Tracks SerialState.execute
      fun _ t => SameLine s t ∧ t.serialInitialized = false := by
  intro ρ phase r input t reply u hTrack hAdmits hExec
  obtain ⟨hSame, hOff⟩ := hTrack
  have hEmpty : s.transmitterEmpty = true → (t.transmitterEmpty || input.ready) = true := by
    intro hReady
    rw [hSame.empty hReady, Bool.true_or]
  cases r with
  | serialIsInitialized =>
      cases hExec
      exact ⟨hOff, ⟨hSame.wire, hEmpty, hSame.initialized, hSame.interruptFlag⟩, hOff⟩
  | pitIncrementTicks =>
      cases hExec
      exact ⟨trivial, ⟨hSame.wire, hEmpty, hSame.initialized, hSame.interruptFlag⟩, hOff⟩
  | _ => exact hAdmits.elim

/-- A timer interrupt without a heartbeat does not touch the line. -/
theorem pitHandleInterrupt_silent {s : SerialState} (h : ¬HeartbeatDue s) :
    Interaction.Ensures SerialState.execute Eq (SameLine s) (fun _ t => SameLine s t)
      pitHandleInterrupt s := by
  by_cases hOff : s.serialInitialized = false
  · have hConforms : muteProtocol.Conforms (fun _ _ => True) pitHandleInterrupt () :=
      pitHandleInterrupt_conforms serialPutchar_mute trivial
    have hRun := hConforms.ensures (muteProtocol_tracks s) (fun _ t hTrack => hTrack.1)
      ⟨SameLine.refl s, hOff⟩
    exact hRun.mono fun _ t ⟨_, _, hTrack⟩ => hTrack.1
  · have hTick : ¬(s.pitTicks + 1#32) % 100#32 = 0#32 := by
      intro hDue
      exact h ⟨Bool.not_eq_false _ ▸ hOff, hDue⟩
    rintro t rfl
    refine ⟨SameLine.refl s, fun input reply u hExec => ?_⟩
    cases hExec
    have hSame : SameLine s { s with
        transmitterEmpty := s.transmitterEmpty || input.ready, pitTicks := s.pitTicks + 1#32 } := by
      refine ⟨rfl, fun hReady => ?_, rfl, rfl⟩
      rw [hReady, Bool.true_or]
    show Interaction.Ensures _ _ _ _ (if (s.pitTicks + 1#32) % 100#32 = 0#32 then _ else _) _
    rw [if_neg hTick]
    rintro t rfl
    exact ⟨hSame, hSame⟩

end Silent

section Line

variable {Phase : Type} {P : Protocol KernelRequest Phase} {kept : Phase → SerialState → Prop}
  {written : SerialState → Prop} {guard : KernelProgram (List SerialCall) → SerialState → Prop}

/-- A protocol of the driver. `kept` is what a phase says about the state,
whatever the interrupt flag is, and `written` what all phases say about it. A
heartbeat that the guard lets in may end in any phase; the foreground then
conforms from a phase that says no more than that one. -/
structure LineProtocol (P : Protocol KernelRequest Phase) (kept : Phase → SerialState → Prop)
    (written : SerialState → Prop)
    (guard : KernelProgram (List SerialCall) → SerialState → Prop) : Prop where
  putchar : ∀ c phase, P.Conforms (fun _ _ => True) (serialPutchar c) phase
  tick : ∀ phase, P.admits phase .pitIncrementTicks
  tracks : P.Tracks SerialState.execute kept
  written : ∀ {phase s}, kept phase s → written s
  mask : ∀ {phase s} flag, kept phase s → kept phase { s with interruptFlag := flag }
  same : ∀ {phase s t}, SameLine s t → kept phase s → kept phase t
  heartbeat : ∀ {p phase s}, guard p s → HeartbeatDue s → kept phase s →
    P.Conforms (fun _ _ => True) p phase →
    ∃ again, P.Conforms (fun _ _ => True) p again ∧ ∀ last t, kept last t → kept again t

/-- The foreground conforms from a phase that the state is in. -/
def InPhase (P : Protocol KernelRequest Phase) (kept : Phase → SerialState → Prop)
    (p : KernelProgram (List SerialCall)) (s : SerialState) : Prop :=
  s.interruptFlag = true ∧ ∃ phase, P.Conforms (fun _ _ => True) p phase ∧ kept phase s

/-- No request of the driver changes the interrupt flag. -/
theorem SerialState.execute_interruptFlag {ρ : Type} {input : UartInput} {s t : SerialState}
    {r : KernelRequest ρ} {reply : ρ} (h : SerialState.execute input s r = some (reply, t)) :
    t.interruptFlag = s.interruptFlag := by
  cases r with
  | outb port value =>
      cases h
      split_ifs
      · rfl
      · rfl
  | inb port => cases h; rfl
  | serialIsInitialized => cases h; rfl
  | serialSetInitialized value => cases h; rfl
  | pitIncrementTicks => cases h; rfl
  | _ => cases h

theorem LineProtocol.tracks_flag (hLine : LineProtocol P kept written guard) (flag : Bool) :
    P.Tracks SerialState.execute fun phase s => kept phase s ∧ s.interruptFlag = flag := by
  intro ρ phase r input s reply t hKept hAdmits hExec
  obtain ⟨hPossible, hNext⟩ := hLine.tracks phase r input s reply t hKept.1 hAdmits hExec
  exact ⟨hPossible, hNext, (SerialState.execute_interruptFlag hExec).trans hKept.2⟩

theorem LineProtocol.handler (hLine : LineProtocol P kept written guard)
    {p : KernelProgram (List SerialCall)} {s : SerialState} (hPhase : InPhase P kept p s)
    (hGuard : guard p s) :
    Interaction.Ensures SerialState.execute Eq (fun t => written t ∧ t.interruptFlag = false)
      (fun _ t => InPhase P kept p { t with interruptFlag := s.interruptFlag })
      pitHandleInterrupt { s with interruptFlag := false } := by
  obtain ⟨hFlag, phase, hConforms, hKept⟩ := hPhase
  by_cases hDue : HeartbeatDue s
  · -- the heartbeat follows the protocol from the phase that it interrupts
    obtain ⟨again, hAgain, hAll⟩ := hLine.heartbeat hGuard hDue hKept hConforms
    have hHandler : P.Conforms (fun _ _ => True) pitHandleInterrupt phase :=
      pitHandleInterrupt_conforms hLine.putchar (hLine.tick phase)
    have hRun := hHandler.ensures (hLine.tracks_flag false)
      (fun _ t hEnd => And.intro (hLine.written hEnd.1) hEnd.2) ⟨hLine.mask false hKept, rfl⟩
    apply hRun.mono
    intro _ t hEnd
    obtain ⟨last, -, hLast, -⟩ := hEnd
    exact ⟨hFlag, again, hAgain, hLine.mask _ (hAll last t hLast)⟩
  · -- any other tick leaves the line as it is
    have hSilent : ¬HeartbeatDue { s with interruptFlag := false } := hDue
    have hStill (t : SerialState) (hSame : SameLine { s with interruptFlag := false } t) :
        kept phase t := hLine.same hSame (hLine.mask false hKept)
    apply ((pitHandleInterrupt_silent hSilent).mono _).mono_inv
    · intro t hSame
      exact ⟨hLine.written (hStill t hSame), hSame.interruptFlag⟩
    · intro _ t hSame
      exact ⟨hFlag, phase, hConforms, hLine.mask _ (hStill t hSame)⟩

theorem LineProtocol.discipline (hLine : LineProtocol P kept written guard) :
    serialProcessor.GuardedDiscipline serialForeground guard (InPhase P kept)
      (fun s => written s ∧ s.interruptFlag = false) where
  again calls s hPhase := by
    obtain ⟨hFlag, phase, -, hKept⟩ := hPhase
    exact ⟨hFlag, phase, serialForeground_conforms hLine.putchar calls phase, hKept⟩
  ask r next input s reply t hPhase hExec := by
    obtain ⟨hFlag, phase, hConforms, hKept⟩ := hPhase
    obtain ⟨hPossible, hNext⟩ := hLine.tracks phase r input s reply t hKept hConforms.1 hExec
    exact ⟨(SerialState.execute_interruptFlag hExec).trans hFlag, _, hConforms.2 reply hPossible, hNext⟩
  handler line p s hPhase _ hGuard := hLine.handler hPhase hGuard
  closed s hMasked := hMasked.2

/-- What all phases say holds in every state of every guarded run. -/
theorem LineProtocol.written_of_run (hLine : LineProtocol P kept written guard)
    {prior : SerialState} {calls : List SerialCall} {pending : Unit → Bool}
    {actions : List (Schedule Unit UartInput)} {c : SerialConfig} {phase : Phase}
    (hStart : kept phase (serialStart prior calls pending).state)
    (run : TransitionSystem.Run (serialProcessor.GuardedStep serialForeground guard)
      (serialStart prior calls pending) actions c) : written c.state := by
  have hCovered : serialProcessor.GuardedCovered (InPhase P kept)
      (fun s => written s ∧ s.interruptFlag = false) (serialStart prior calls pending) := by
    apply Processor.GuardedCovered.foreground
    exact ⟨rfl, phase, serialForeground_conforms hLine.putchar calls phase, hStart⟩
  apply (hLine.discipline.covered_of_run hCovered run).property
  · intro p s hPhase
    obtain ⟨-, _, -, hKept⟩ := hPhase
    exact hLine.written hKept
  · intro s hMasked
    exact hMasked.1

end Line

end WigOSX
