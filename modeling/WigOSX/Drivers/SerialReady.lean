import WigOSX.Drivers.SerialLine

/-! Readiness of COM1. A successful poll arms the driver for one data write,
and only the driver itself clears the transmitter-empty flag, so a write that
follows its poll undisturbed finds the flag set. A heartbeat that is taken
between the two uses the armed transmitter up. -/
namespace WigOSX

open Interaction (perform)

section Protocol

def readyAdmits : ∀ ⦃ρ : Type⦄, Bool → KernelRequest ρ → Prop
  | _, armed, .outb port _ => port = serialPortCom1 → armed = true
  | _, _, _ => True

def readyAdvance : ∀ ⦃ρ : Type⦄, Bool → KernelRequest ρ → ρ → Bool
  | _, _, .inb port, status => decide (port = serialPortCom1 + 5#16 ∧ status &&& 0x20#8 ≠ 0#8)
  | _, _, _, _ => false

/-- Data is written right after a poll that saw the transmitter empty. -/
def readyProtocol : Protocol KernelRequest Bool where
  admits := readyAdmits
  possible _ _ _ _ := True
  advance := readyAdvance

/-- A poll that succeeds ends on a status that showed the transmitter ready. -/
theorem serialPoll_ready (timeout : Nat) (armed : Bool) :
    readyProtocol.Conforms (fun result last => result = true → last = true) (serialPoll timeout)
      armed := by
  have hCan (armed : Bool) :
      readyProtocol.Conforms (fun result last => result = last) serialCanTransmit armed := by
    refine ⟨trivial, fun status _ => ?_⟩
    show decide (status &&& 0x20#8 ≠ 0#8) = decide (_ ∧ status &&& 0x20#8 ≠ 0#8)
    simp
  induction timeout generalizing armed with
  | zero =>
      apply (hCan armed).mono
      intro result last hLast hResult
      exact hLast ▸ hResult
  | succ timeout ih =>
      apply Protocol.Conforms.bind
      apply (hCan armed).mono
      rintro result last rfl
      cases result with
      | false => exact ih false
      | true => exact fun _ => rfl

theorem serialTransmit_ready (c : BitVec 8) (armed : Bool) :
    readyProtocol.Conforms (fun _ _ => True) (serialTransmit c) armed := by
  apply Protocol.Conforms.bind
  apply (serialPoll_ready serialTransmitTimeout armed).mono
  intro result last hLast
  cases result with
  | false => exact ⟨trivial, fun _ _ => trivial⟩
  | true => exact ⟨fun _ => hLast rfl, fun _ _ => trivial⟩

theorem serialPutPlain_ready (c : BitVec 8) (armed : Bool) :
    readyProtocol.Conforms (fun _ _ => True) (serialPutPlain c) armed := by
  refine ⟨trivial, fun initialized _ => ?_⟩
  cases initialized with
  | false => exact trivial
  | true => exact serialTransmit_ready c false

/-- A character, line feed or not, is only written behind such a poll. -/
theorem serialPutchar_ready (c : BitVec 8) (armed : Bool) :
    readyProtocol.Conforms (fun _ _ => True) (serialPutchar c) armed := by
  rw [serialPutchar]
  split_ifs with hFeed
  · refine ⟨trivial, fun initialized _ => ?_⟩
    cases initialized with
    | false => exact trivial
    | true =>
        show readyProtocol.Conforms _ (serialPutPlain asciiCarriageReturn >>= fun _ => serialPutPlain c) _
        apply Protocol.Conforms.bind
        exact (serialPutPlain_ready asciiCarriageReturn false).mono fun _ last _ =>
          serialPutPlain_ready c last
  · exact serialPutPlain_ready c armed

/-- Only a pending data write makes use of the phase. -/
def WriteIsNext : KernelProgram (List SerialCall) → Prop
  | .ask (.outb port _) _ => port = serialPortCom1
  | _ => False

theorem readyConforms_of_not_writeIsNext {post : List SerialCall → Bool → Prop}
    {p : KernelProgram (List SerialCall)} {armed : Bool} (hWrite : ¬WriteIsNext p)
    (hPost : ∀ rest last, post rest last) (h : readyProtocol.Conforms post p armed) :
    readyProtocol.Conforms post p false := by
  cases p with
  | done rest => exact hPost rest false
  | ask r next =>
      cases r with
      | outb port value => exact ⟨fun hPort => (hWrite hPort).elim, h.2⟩
      | _ => exact h

end Protocol

section Runs

/-- Every byte so far was written while the transmitter was empty. -/
def WrittenReady (s : SerialState) : Prop :=
  ∀ entry ∈ s.wire, entry.2 = true

/-- What a phase of the protocol says about the state. -/
structure ReadyKept (armed : Bool) (s : SerialState) : Prop where
  written : WrittenReady s
  empty : armed = true → s.transmitterEmpty = true

/-- The protocol's phase tells what the device last showed. -/
theorem readyProtocol_tracks : readyProtocol.Tracks SerialState.execute ReadyKept := by
  intro ρ armed r input s reply t hKept hAdmits hExec
  refine ⟨trivial, ?_⟩
  cases r with
  | inb port =>
      cases hExec
      refine ⟨hKept.written, fun hArmed => ?_⟩
      obtain ⟨rfl, hBit⟩ := of_decide_eq_true hArmed
      -- the status that was read has bit 5 set only if the transmitter is empty
      by_contra hBusy
      rw [if_pos rfl, SerialState.lineStatus, if_neg hBusy, BitVec.and_assoc] at hBit
      exact hBit (by simp)
  | outb port value =>
      cases hExec
      split_ifs with hPort
      · refine ⟨?_, Bool.noConfusion⟩
        intro entry hEntry
        rw [List.mem_append, List.mem_singleton] at hEntry
        cases hEntry with
        | inl hOld => exact hKept.written entry hOld
        | inr hNew =>
            rw [hNew]
            show (s.transmitterEmpty || input.ready) = true
            rw [hKept.empty (hAdmits hPort), Bool.true_or]
      · exact ⟨hKept.written, Bool.noConfusion⟩
  | serialIsInitialized =>
      cases hExec
      exact ⟨hKept.written, Bool.noConfusion⟩
  | serialSetInitialized value =>
      cases hExec
      exact ⟨hKept.written, Bool.noConfusion⟩
  | pitIncrementTicks =>
      cases hExec
      exact ⟨hKept.written, Bool.noConfusion⟩
  | _ => cases hExec

/-- A heartbeat is not taken right before a data write of the foreground,
that is, between it and the poll before it. -/
def ReadyGuard (p : KernelProgram (List SerialCall)) (s : SerialState) : Prop :=
  HeartbeatDue s → ¬WriteIsNext p

theorem ready_lineProtocol : LineProtocol readyProtocol ReadyKept WrittenReady ReadyGuard where
  putchar := serialPutchar_ready
  tick _ := trivial
  tracks := readyProtocol_tracks
  written hKept := hKept.written
  mask _ hKept := ⟨hKept.written, hKept.empty⟩
  same hSame hKept := by
    refine ⟨?_, fun hArmed => hSame.empty (hKept.empty hArmed)⟩
    rw [WrittenReady, hSame.wire]
    exact hKept.written
  heartbeat hGuard hDue _ hConforms := by
    -- the heartbeat may leave the transmitter busy, but the foreground polls again
    refine ⟨false, readyConforms_of_not_writeIsNext (hGuard hDue) (fun _ _ => trivial) hConforms, ?_⟩
    intro last t hLast
    exact ⟨hLast.written, Bool.noConfusion⟩

/-- As long as no heartbeat comes between a poll and the data write after it,
every byte on the wire was written while the transmitter was empty. -/
theorem serial_writes_when_ready {prior : SerialState} {calls : List SerialCall}
    {pending : Unit → Bool} {actions : List (Schedule Unit UartInput)} {c : SerialConfig}
    (run : TransitionSystem.Run (serialProcessor.GuardedStep serialForeground ReadyGuard)
      (serialStart prior calls pending) actions c) :
    WrittenReady c.state := by
  have hStart : ReadyKept false (serialStart prior calls pending).state :=
    ⟨fun entry hEntry => (List.not_mem_nil hEntry).elim, Bool.noConfusion⟩
  exact ready_lineProtocol.written_of_run hStart run

end Runs

section Heartbeat

/-- A timer interrupt between the poll and the write of the letter a, whose
tick is not the hundredth. -/
theorem serial_writes_when_ready_tick : ∃ actions c,
    TransitionSystem.Run (serialProcessor.GuardedStep serialForeground ReadyGuard)
      (serialStart (serialInUse 0#32) [.putchar 0x61#8] fun _ => false) actions c ∧
      c.state.wire = [(0x61#8, true)] ∧ WrittenReady c.state := by
  let go : Schedule Unit UartInput := .proceed ⟨false, 0#8⟩
  have run : TransitionSystem.Run (serialProcessor.GuardedStep serialForeground ReadyGuard)
      (serialStart (serialInUse 0#32) [.putchar 0x61#8] fun _ => false)
      [.raise (), go, go, .interrupt (), go, go, go] _ :=
    .cons ⟨rfl, nofun⟩ <| .cons ⟨rfl, nofun⟩ <| .cons ⟨rfl, nofun⟩ <|
      .cons ⟨rfl, fun _ _ hDue => absurd hDue.2 (by decide)⟩ <| .cons ⟨rfl, nofun⟩ <|
      .cons ⟨rfl, nofun⟩ <| .cons ⟨rfl, nofun⟩ .nil
  exact ⟨_, _, run, rfl, serial_writes_when_ready run⟩

/-- The hundredth tick between the poll and the write of the letter a: the
heartbeat goes through, and the letter is written to a busy transmitter. -/
theorem serial_heartbeat_between_poll_and_write :
    ¬∀ (prior : SerialState) (calls : List SerialCall) (pending : Unit → Bool)
      (actions : List (Schedule Unit UartInput)) (c : SerialConfig),
      TransitionSystem.Run (serialProcessor.Step serialForeground)
        (serialStart prior calls pending) actions c → WrittenReady c.state := by
  intro h
  let ready : Schedule Unit UartInput := .proceed ⟨true, 0#8⟩
  have hPlay : (serialProcessor.play serialForeground
      (serialStart (serialInUse 99#32) [.putchar 0x61#8] fun _ => true)
      ([ready, ready, .interrupt ()] ++ List.replicate 75 ready ++ [.proceed ⟨false, 0#8⟩])).map
        (fun c => c.state.wire.getLast?) = some (some (0x61#8, false)) := by
    decide +kernel
  obtain ⟨c, run, hLast⟩ := serialProcessor.exists_run_of_play serialForeground _ _ _ hPlay
  have hReady := h _ _ _ _ c run _ (List.mem_of_getLast? hLast)
  exact Bool.noConfusion hReady

end Heartbeat

end WigOSX
