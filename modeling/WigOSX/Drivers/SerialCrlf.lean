import WigOSX.Drivers.SerialLine

/-! Newlines on the wire. The driver sends a line feed only after it has sent
a carriage return itself, unless it was given up in between. A heartbeat that
is taken between the two ends in a line feed of its own, which is then what
the line feed of the foreground follows. -/
namespace WigOSX

open Interaction (perform)

/-- Each line feed is immediately preceded by a carriage return. -/
def CrlfOnWire (bytes : List (BitVec 8)) : Prop :=
  ∀ before after, bytes = before ++ asciiLineFeed :: after →
    before.getLast? = some asciiCarriageReturn

/-- A byte may follow if it is no line feed, or a carriage return comes right
before it. -/
theorem CrlfOnWire.concat {bytes : List (BitVec 8)} (h : CrlfOnWire bytes) {value : BitVec 8}
    (hValue : value = asciiLineFeed → bytes.getLast? = some asciiCarriageReturn) :
    CrlfOnWire (bytes ++ [value]) := by
  intro before after hEq
  cases List.eq_nil_or_concat after with
  | inl hNil =>
      rw [hNil] at hEq
      obtain ⟨rfl, hLast⟩ := List.append_inj' hEq rfl
      exact hValue (List.singleton_inj.mp hLast)
  | inr hConcat =>
      obtain ⟨rest, last, rfl⟩ := hConcat
      rw [List.concat_eq_append, ← List.cons_append, ← List.append_assoc] at hEq
      exact h before rest (List.append_inj' hEq rfl).1

section Protocol

/-- What the driver has done last: it may have been given up, and it may have
sent a carriage return. -/
structure CrlfPhase where
  dead : Bool
  lastCr : Bool

def CrlfPhase.forgetCr (phase : CrlfPhase) : CrlfPhase :=
  { phase with lastCr := false }

def crlfAdmits : ∀ ⦃ρ : Type⦄, CrlfPhase → KernelRequest ρ → Prop
  | _, phase, .outb port value => port = serialPortCom1 →
      phase.dead = false ∧ (value = asciiLineFeed → phase.lastCr = true)
  | _, _, .serialSetInitialized value => value = false
  | _, _, _ => True

def crlfPossible : ∀ ⦃ρ : Type⦄, CrlfPhase → KernelRequest ρ → ρ → Prop
  | _, phase, .serialIsInitialized, initialized => phase.dead = true → initialized = false
  | _, _, _, _ => True

def crlfAdvance : ∀ ⦃ρ : Type⦄, CrlfPhase → KernelRequest ρ → ρ → CrlfPhase
  | _, phase, .outb port value, _ =>
      if port = serialPortCom1 then { phase with lastCr := decide (value = asciiCarriageReturn) }
      else phase
  | _, phase, .serialSetInitialized _, _ => { phase with dead := true }
  | _, phase, .serialIsInitialized, initialized => { phase with dead := phase.dead || !initialized }
  | _, phase, _, _ => phase

/-- A line feed is written only if the byte before it was a carriage return,
and nothing is written by a driver that has been given up. -/
def crlfProtocol : Protocol KernelRequest CrlfPhase where
  admits := crlfAdmits
  possible := crlfPossible
  advance := crlfAdvance

theorem serialPoll_crlf (timeout : Nat) (phase : CrlfPhase) :
    crlfProtocol.Conforms (fun _ last => last = phase) (serialPoll timeout) phase := by
  have hCan : crlfProtocol.Conforms (fun _ last => last = phase) serialCanTransmit phase :=
    ⟨trivial, fun _ _ => rfl⟩
  induction timeout with
  | zero => exact hCan
  | succ timeout ih =>
      apply Protocol.Conforms.bind
      apply hCan.mono
      rintro result last rfl
      cases result with
      | false => exact ih
      | true => exact rfl

theorem serialTransmit_crlf {c : BitVec 8} {phase : CrlfPhase} (hAlive : phase.dead = false)
    (hFeed : c = asciiLineFeed → phase.lastCr = true) :
    crlfProtocol.Conforms
      (fun _ last => last.dead = true ∨ last.lastCr = decide (c = asciiCarriageReturn))
      (serialTransmit c) phase := by
  apply Protocol.Conforms.bind
  apply (serialPoll_crlf serialTransmitTimeout phase).mono
  rintro result last rfl
  cases result with
  | false => exact ⟨rfl, fun _ _ => .inl rfl⟩
  | true =>
      refine ⟨fun _ => ⟨hAlive, hFeed⟩, fun _ _ => .inr ?_⟩
      show (if serialPortCom1 = serialPortCom1 then _ else last).lastCr = _
      rw [if_pos rfl]
      rfl

theorem serialPutPlain_crlf {c : BitVec 8} {phase : CrlfPhase}
    (hFeed : c = asciiLineFeed → phase.dead = true ∨ phase.lastCr = true) :
    crlfProtocol.Conforms
      (fun _ last => last.dead = true ∨ last.lastCr = decide (c = asciiCarriageReturn))
      (serialPutPlain c) phase := by
  refine ⟨trivial, fun initialized hPossible => ?_⟩
  cases initialized with
  | false => exact .inl (Bool.or_true phase.dead)
  | true =>
      have hAlive : phase.dead = false := by
        rw [← Bool.not_eq_true]
        exact fun hDead => Bool.noConfusion (hPossible hDead)
      apply serialTransmit_crlf
      · show (phase.dead || !true) = false
        rw [hAlive]
        rfl
      · intro hLine
        cases hFeed hLine with
        | inl hDead => exact absurd (hAlive.symm.trans hDead) Bool.noConfusion
        | inr hLast => exact hLast

/-- Each character is written so that a line feed follows its carriage return. -/
theorem serialPutchar_crlf (c : BitVec 8) (phase : CrlfPhase) :
    crlfProtocol.Conforms (fun _ _ => True) (serialPutchar c) phase := by
  rw [serialPutchar]
  split_ifs with hLine
  · refine ⟨trivial, fun initialized _ => ?_⟩
    cases initialized with
    | false => exact trivial
    | true =>
        show crlfProtocol.Conforms _
          (serialPutPlain asciiCarriageReturn >>= fun _ => serialPutPlain c) _
        apply Protocol.Conforms.bind
        apply (serialPutPlain_crlf fun hReturn => absurd hReturn (by decide)).mono
        intro _ last hLast
        apply (serialPutPlain_crlf fun _ => hLast).mono
        exact fun _ _ _ => trivial
  · apply (serialPutPlain_crlf fun h => absurd h hLine).mono
    exact fun _ _ _ => trivial

def feedPasses : ∀ ⦃ρ : Type⦄, KernelRequest ρ → ρ → Prop
  | _, .outb port _, _ => port ≠ serialPortCom1
  | _, .serialSetInitialized _, _ => False
  | _, .serialIsInitialized, initialized => initialized = true
  | _, _, _ => True

def writesFeed : ∀ ⦃ρ : Type⦄, KernelRequest ρ → Prop
  | _, .outb port value => port = serialPortCom1 ∧ value = asciiLineFeed
  | _, _ => False

/-- The next byte that the program writes, while the driver is in use, may be
a line feed; inside a newline, the carriage return has been written. -/
def FeedIsNext (p : KernelProgram (List SerialCall)) : Prop :=
  p.MayReach feedPasses writesFeed

/-- A program that has been given up, or that does not write a line feed next,
conforms without a carriage return as well. -/
theorem crlfConforms_forgetCr {p : KernelProgram (List SerialCall)} {phase : CrlfPhase}
    (hNext : phase.dead = true ∨ ¬FeedIsNext p)
    (h : crlfProtocol.Conforms (fun _ _ => True) p phase) :
    crlfProtocol.Conforms (fun _ _ => True) p phase.forgetCr := by
  induction p generalizing phase with
  | done rest => exact trivial
  | ask r next ih =>
      obtain ⟨hAdmits, hRest⟩ := h
      have hStill (reply) (hPass : feedPasses r reply) : phase.dead = true ∨ ¬FeedIsNext (next reply) :=
        hNext.imp_right fun hNot hReach => hNot (.inr ⟨reply, hPass, hReach⟩)
      cases r with
      | outb port value =>
          by_cases hPort : port = serialPortCom1
          · obtain ⟨hAlive, -⟩ := hAdmits hPort
            have hNot : ¬FeedIsNext _ := hNext.resolve_left fun hDead =>
              Bool.noConfusion (hAlive.symm.trans hDead)
            refine ⟨fun _ => ⟨hAlive, fun hLine => absurd (.inl ⟨hPort, hLine⟩) hNot⟩, fun reply _ => ?_⟩
            -- the write decides the phase after it alone
            have hSame : crlfAdvance phase.forgetCr (.outb port value) reply =
                crlfAdvance phase (.outb port value) reply := by
              simp [crlfAdvance, CrlfPhase.forgetCr, hPort]
            show crlfProtocol.Conforms _ _ (crlfAdvance phase.forgetCr (.outb port value) reply)
            rw [hSame]
            exact hRest reply trivial
          · have hSkip (phase : CrlfPhase) (reply : Unit) :
                crlfAdvance phase (.outb port value) reply = phase := if_neg hPort
            refine ⟨fun h => absurd h hPort, fun reply _ => ?_⟩
            have hTail : crlfProtocol.Conforms _ _ (crlfAdvance phase (.outb port value) reply) :=
              hRest reply trivial
            show crlfProtocol.Conforms _ _ (crlfAdvance phase.forgetCr (.outb port value) reply)
            rw [hSkip] at hTail ⊢
            exact ih reply (hStill reply hPort) hTail
      | serialSetInitialized value =>
          exact ⟨hAdmits, fun reply _ => ih reply (.inl rfl) (hRest reply trivial)⟩
      | serialIsInitialized =>
          refine ⟨trivial, fun initialized hPossible => ?_⟩
          apply ih initialized _ (hRest initialized hPossible)
          cases initialized with
          | false => exact .inl (Bool.or_true phase.dead)
          | true => exact (hStill true rfl).imp_left fun hDead => Bool.or_eq_true_iff.mpr (.inl hDead)
      | _ => exact ⟨trivial, fun reply _ => ih reply (hStill reply trivial) (hRest reply trivial)⟩

end Protocol

section Runs

def WrittenCrlf (s : SerialState) : Prop :=
  CrlfOnWire (s.wire.map Prod.fst)

/-- What a phase of the protocol says about the state. -/
structure CrlfKept (phase : CrlfPhase) (s : SerialState) : Prop where
  crlf : WrittenCrlf s
  dead : phase.dead = true → s.serialInitialized = false
  lastCr : phase.lastCr = true → (s.wire.map Prod.fst).getLast? = some asciiCarriageReturn

/-- The protocol's phase tells what was last on the wire, or that the driver
has given up. -/
theorem crlfProtocol_tracks : crlfProtocol.Tracks SerialState.execute CrlfKept := by
  intro ρ phase r input s reply t hKept hAdmits hExec
  obtain ⟨hCrlf, hDead, hLast⟩ := hKept
  cases r with
  | inb port =>
      cases hExec
      exact ⟨trivial, hCrlf, hDead, hLast⟩
  | outb port value =>
      cases hExec
      refine ⟨trivial, ?_⟩
      show CrlfKept (if port = serialPortCom1 then _ else _) _
      split_ifs with hPort
      · have hWire : (s.wire ++ [(value, s.transmitterEmpty || input.ready)]).map Prod.fst =
            s.wire.map Prod.fst ++ [value] := by
          rw [List.map_append, List.map_singleton]
        have hFeed := (hAdmits hPort).2
        refine ⟨?_, hDead, fun hReturn => ?_⟩
        · show CrlfOnWire ((s.wire ++ [_]).map Prod.fst)
          rw [hWire]
          exact hCrlf.concat fun hLine => hLast (hFeed hLine)
        · show ((s.wire ++ [_]).map Prod.fst).getLast? = _
          rw [hWire, List.getLast?_concat, of_decide_eq_true hReturn]
      · exact ⟨hCrlf, hDead, hLast⟩
  | serialIsInitialized =>
      cases hExec
      refine ⟨hDead, hCrlf, fun hGivenUp => ?_, hLast⟩
      cases (Bool.or_eq_true _ _).mp hGivenUp with
      | inl hBefore => exact hDead hBefore
      | inr hNow => exact (Bool.not_eq_true' _).mp hNow
  | serialSetInitialized value =>
      cases hExec
      exact ⟨trivial, hCrlf, fun _ => hAdmits, hLast⟩
  | pitIncrementTicks =>
      cases hExec
      exact ⟨trivial, hCrlf, hDead, hLast⟩
  | _ => cases hExec

/-- A heartbeat is not taken inside a newline of the foreground, that is,
between its carriage return and its line feed. -/
def CrlfGuard (p : KernelProgram (List SerialCall)) (s : SerialState) : Prop :=
  HeartbeatDue s → ¬FeedIsNext p

theorem crlf_lineProtocol : LineProtocol crlfProtocol CrlfKept WrittenCrlf CrlfGuard where
  putchar := serialPutchar_crlf
  tick _ := trivial
  tracks := crlfProtocol_tracks
  written hKept := hKept.crlf
  mask _ hKept := ⟨hKept.crlf, hKept.dead, hKept.lastCr⟩
  same hSame hKept := by
    obtain ⟨hCrlf, hDead, hLast⟩ := hKept
    rw [WrittenCrlf, ← hSame.wire] at hCrlf
    rw [← hSame.wire] at hLast
    exact ⟨hCrlf, fun hGivenUp => hSame.initialized.trans (hDead hGivenUp), hLast⟩
  heartbeat {p phase s} hGuard hDue hKept hConforms := by
    -- the heartbeat may end in any byte, but the foreground needs no carriage return
    have hAlive : phase.dead = false := by
      rw [← Bool.not_eq_true]
      intro hDead
      exact Bool.noConfusion ((hKept.dead hDead).symm.trans hDue.1)
    refine ⟨phase.forgetCr, crlfConforms_forgetCr (.inr (hGuard hDue)) hConforms, ?_⟩
    intro last t hLast
    exact ⟨hLast.crlf, fun hDead => Bool.noConfusion (hAlive.symm.trans hDead), Bool.noConfusion⟩

/-- As long as no heartbeat comes between the two bytes of a newline, each
line feed on the wire follows a carriage return. -/
theorem serial_newlines_crlf {prior : SerialState} {calls : List SerialCall}
    {pending : Unit → Bool} {actions : List (Schedule Unit UartInput)} {c : SerialConfig}
    (run : TransitionSystem.Run (serialProcessor.GuardedStep serialForeground CrlfGuard)
      (serialStart prior calls pending) actions c) :
    WrittenCrlf c.state := by
  have hStart : CrlfKept ⟨false, false⟩ (serialStart prior calls pending).state := by
    refine ⟨fun before after hEq => ?_, Bool.noConfusion, Bool.noConfusion⟩
    have hNil : [] = before ++ asciiLineFeed :: after := hEq
    simp at hNil
  exact crlf_lineProtocol.written_of_run hStart run

/-- A timer interrupt inside a newline, whose tick is not the hundredth. -/
theorem serial_newlines_crlf_tick : ∃ actions c,
    TransitionSystem.Run (serialProcessor.GuardedStep serialForeground CrlfGuard)
      (serialStart (serialInUse 0#32) [.putchar asciiLineFeed] fun _ => true) actions c ∧
      c.state.wire.map Prod.fst = [asciiCarriageReturn, asciiLineFeed] ∧
      WrittenCrlf c.state := by
  let go : Schedule Unit UartInput := .proceed ⟨true, 0#8⟩
  have run : TransitionSystem.Run (serialProcessor.GuardedStep serialForeground CrlfGuard)
      (serialStart (serialInUse 0#32) [.putchar asciiLineFeed] fun _ => true)
      [go, go, go, go, .interrupt (), go, go, go, go, go] _ :=
    .cons ⟨rfl, nofun⟩ <| .cons ⟨rfl, nofun⟩ <| .cons ⟨rfl, nofun⟩ <| .cons ⟨rfl, nofun⟩ <|
      .cons ⟨rfl, fun _ _ hDue => absurd hDue.2 (by decide)⟩ <| .cons ⟨rfl, nofun⟩ <|
      .cons ⟨rfl, nofun⟩ <| .cons ⟨rfl, nofun⟩ <| .cons ⟨rfl, nofun⟩ <| .cons ⟨rfl, nofun⟩ .nil
  exact ⟨_, _, run, rfl, serial_newlines_crlf run⟩

/-- The hundredth tick between the carriage return and the line feed of one
newline: the line feed follows the one that ends the heartbeat. -/
theorem serial_heartbeat_inside_newline :
    ¬∀ (prior : SerialState) (calls : List SerialCall) (pending : Unit → Bool)
      (actions : List (Schedule Unit UartInput)) (c : SerialConfig),
      TransitionSystem.Run (serialProcessor.Step serialForeground)
        (serialStart prior calls pending) actions c → WrittenCrlf c.state := by
  intro h
  let ready : Schedule Unit UartInput := .proceed ⟨true, 0#8⟩
  have hPlay : (serialProcessor.play serialForeground
      (serialStart (serialInUse 99#32) [.putchar asciiLineFeed] fun _ => true)
      (List.replicate 4 ready ++ [.interrupt ()] ++ List.replicate 78 ready)).map
        (fun c => c.state.wire.map Prod.fst) =
      some (asciiCarriageReturn :: asciiText "[wigOSX] PIT tick: 100" ++
        [asciiCarriageReturn, asciiLineFeed] ++ [asciiLineFeed]) := by
    decide +kernel
  obtain ⟨c, run, hWire⟩ := serialProcessor.exists_run_of_play serialForeground _ _ _ hPlay
  have hLast := h _ _ _ _ c run _ [] hWire
  revert hLast
  decide +kernel

end Runs

end WigOSX
