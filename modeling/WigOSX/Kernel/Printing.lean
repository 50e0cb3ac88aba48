import WigOSX.Core.FormatHex
import WigOSX.Core.FormatLoops
import WigOSX.Core.ShellLine
import WigOSX.Kernel.Footprint
import WigOSX.Kernel.IrqPath
import WigOSX.Library.Completion

/-! What the functions of `log.c` print. Their calls of the console depend on
their arguments alone, not on the serial line; and they return, whatever that
line does. -/
namespace WigOSX

open Interaction (Completes Exchange Executes Only Returns perform returns_ask_iff returns_bind_iff
  returns_done_iff)

section Prints

/-- A complete run makes exactly these calls of the console. -/
def Prints {α : Type} (calls : List ConsoleCall) (p : KernelProgram α) : Prop :=
  ∀ trace a, p.Returns trace a → consoleCalls trace = calls

/-- The calls of the console in a trace are those of its parts, in order. -/
theorem consoleCalls_append (first second : List (Exchange KernelRequest)) :
    consoleCalls (first ++ second) = consoleCalls first ++ consoleCalls second :=
  List.filterMap_append

theorem Prints.done {α : Type} (a : α) : Prints [] (.done a : KernelProgram α) := by
  intro trace b hReturns
  obtain ⟨rfl, -⟩ := returns_done_iff.mp hReturns
  rfl

theorem Prints.bind {α β : Type} {calls more : List ConsoleCall} {p : KernelProgram α}
    {f : α → KernelProgram β} (h : Prints calls p) (hNext : ∀ a, Prints more (f a)) :
    Prints (calls ++ more) (p >>= f) := by
  intro trace b hReturns
  obtain ⟨first, a, second, rfl, hFirst, hSecond⟩ := returns_bind_iff.mp hReturns
  rw [consoleCalls_append, h first a hFirst, hNext a second b hSecond]

theorem prints_console (call : ConsoleCall) : Prints [call] (perform (.console call)) := by
  intro trace u hReturns
  rw [returns_console_iff.mp hReturns]
  rfl

/-- A request other than a call of the console. -/
def KernelRequest.OffScreen : ∀ ⦃ρ : Type⦄, KernelRequest ρ → Prop
  | _, .console _ => False
  | _, _ => True

/-- A program that never calls the console prints nothing, whatever else it
asks for. -/
theorem prints_offScreen {α : Type} {p : KernelProgram α} (h : p.Only KernelRequest.OffScreen) :
    Prints [] p := by
  intro trace a hReturns
  refine List.filterMap_eq_nil_iff.mpr fun ⟨request, reply⟩ hMem => ?_
  have hOffScreen := h.forall_trace hReturns _ hMem
  cases request with
  | console call => exact hOffScreen.elim
  | _ => rfl

theorem Serial.offScreen : AllowsSerial KernelRequest.OffScreen := by
  intro ρ request hSerial
  cases hSerial with
  | lineStatus => trivial
  | data c => trivial
  | _ => trivial

/-- Output that the log repeats on the serial line prints on the screen once. -/
theorem Prints.mirrored {calls : List ConsoleCall} {p q : KernelProgram Unit} (h : Prints calls p)
    (hSerial : q.Only KernelRequest.OffScreen) :
    Prints calls (do p; if ← perform .klogHasSerialOutput then q else return ()) := by
  have hMirror : Prints [] (do if ← perform .klogHasSerialOutput then q else return ()) :=
    prints_offScreen ⟨trivial, fun _ => .ite hSerial trivial⟩
  have hBoth := h.bind fun _ => hMirror
  rwa [List.append_nil] at hBoth

/-- A character of the log is one character on the screen. -/
theorem klogPutchar_prints (c : BitVec 8) : Prints [.putchar c] (klogPutchar c) :=
  (prints_console _).mirrored (serialPutchar_only Serial.offScreen c)

/-- A string of the log is one string on the screen. -/
theorem klogWritestring_prints (text : List (BitVec 8)) : Prints [.writestring text] (klogWritestring text) :=
  (prints_console _).mirrored (serialWrite_only Serial.offScreen text)

/-- A numeral contains no terminator. -/
theorem cString_decimalText (value : Nat) (rest : List (BitVec 8)) :
    cString (decimalText value ++ 0#8 :: rest) = decimalText value := by
  have hText : ∀ c ∈ decimalText value, decide (c ≠ 0#8) = true := by
    intro c hc
    rw [decide_eq_true_eq]
    rintro rfl
    exact absurd ((decimalText_numeral value).digits _ hc).1 (by decide)
  rw [cString, List.takeWhile_append_of_pos hText, List.takeWhile_cons_of_neg (by decide), List.append_nil]

/-- The buffers of `log.c` are large enough. -/
theorem formatted_decimal (size : Nat) {value : Nat} (hFits : value < 10 ^ (size + 1)) :
    formatted (kformatDecimal value) (size + 2) = some (decimalText value) := by
  have hCount : decimalDigitCount value + 1 ≤ (List.replicate (size + 2) 0#8).length := by
    have hLog : Nat.log 10 value < size + 1 := Nat.log_lt_of_lt_pow' (Nat.succ_ne_zero size) hFits
    rw [List.length_replicate, decimalDigitCount]
    omega
  rw [formatted, kformatDecimal_eq, if_pos hCount]
  exact congrArg some (cString_decimalText value _)

theorem klogWriteUint32_prints (value : BitVec 32) :
    Prints [.writestring (decimalText value.toNat)] (klogWriteUint32 value) := by
  have hText : formatted (kformatUint32Decimal value) 11 = some (decimalText value.toNat) :=
    formatted_decimal 9 (by have := value.isLt; omega)
  rw [klogWriteUint32, hText]
  exact klogWritestring_prints _

theorem klogWriteUint64_prints (value : BitVec 64) :
    Prints [.writestring (decimalText value.toNat)] (klogWriteUint64 value) := by
  have hText : formatted (kformatUint64Decimal value) 21 = some (decimalText value.toNat) :=
    formatted_decimal 19 (by have := value.isLt; omega)
  rw [klogWriteUint64, hText]
  exact klogWritestring_prints _

/-- An address is printed as `0x` and eight hexadecimal digits. -/
theorem klogWriteHex32_prints (value : BitVec 32) :
    Prints [.writestring (hexText value)] (klogWriteHex32 value) := by
  rw [klogWriteHex32, formatted_hex]
  exact klogWritestring_prints _

end Prints

section Completion

variable {s t : KernelState}

/-- The console is changed by its calls alone. -/
theorem executes_console {trace : List (Exchange KernelRequest)}
    (h : Executes KernelState.execute s trace t) :
    t.console = (consoleCalls trace).foldl consoleCall s.console := by
  induction h with
  | nil s => rfl
  | @cons ρ r reply input s t u rest hExec _ ih =>
      obtain ⟨-, hServe⟩ := execute_eq_some hExec
      cases r with
      | haltForever => cases hServe
      | _ =>
          cases hServe
          exact ih

/-- Behind a quiet program: the processor runs on with the same flag, and no
panic has been called. -/
structure QuietAfter (s t : KernelState) : Prop where
  running : t.cpu.halted = false
  flag : t.cpu.interruptFlag = s.cpu.interruptFlag
  panic : t.panicMessage = s.panicMessage

/-- While the processor runs, every quiet request is answered and leaves the
processor running. -/
theorem QuietAfter.execute {ρ : Type} {r : KernelRequest ρ} (hRunning : s.cpu.halted = false)
    (h : r.Quiet) (device : BitVec 8) :
    ∃ reply t, s.execute device r = some (reply, t) ∧ QuietAfter s t := by
  rw [KernelState.execute, if_neg (by rw [hRunning]; exact Bool.false_ne_true)]
  cases r with
  | inb port => exact ⟨_, _, rfl, hRunning, rfl, rfl⟩
  | _ => first | exact h.elim | exact ⟨_, _, rfl, hRunning, rfl, rfl⟩

theorem QuietAfter.trans {u : KernelState} (h : QuietAfter s t) (hNext : QuietAfter t u) : QuietAfter s u :=
  ⟨hNext.running, hNext.flag.trans h.flag, hNext.panic.trans h.panic⟩

/-- On a running processor a quiet program gets to its end. -/
theorem quiet_completes {α : Type} {p : KernelProgram α} (h : p.Only KernelRequest.Quiet)
    (hRunning : s.cpu.halted = false) :
    Completes KernelState.execute (fun _ => False)
      (fun a t => QuietAfter s t ∧ ∃ trace, p.Returns trace a ∧ Executes KernelState.execute s trace t) p s := by
  induction p generalizing s with
  | done a => exact ⟨⟨hRunning, rfl, rfl⟩, [], .done a, .nil s⟩
  | ask r next ih =>
      refine .inr fun device => ?_
      obtain ⟨reply, t, hExec, hQuiet⟩ := QuietAfter.execute hRunning h.1 device
      refine ⟨reply, t, hExec, (ih reply (h.2 reply) hQuiet.running).mono fun a u hEnd => ?_⟩
      obtain ⟨hAfter, trace, hReturns, hExecutes⟩ := hEnd
      exact ⟨hQuiet.trans hAfter, _, .ask hReturns, .cons hExec hExecutes⟩

/-- What has been printed between two states of a running processor. -/
structure Printed (calls : List ConsoleCall) (s t : KernelState) : Prop extends QuietAfter s t where
  console : t.console = calls.foldl consoleCall s.console

/-- A quiet program reaches its end, and the console has then received what it
prints. -/
theorem prints_completes {α : Type} {calls : List ConsoleCall} {p : KernelProgram α}
    (hQuiet : p.Only KernelRequest.Quiet) (hPrints : Prints calls p) (hRunning : s.cpu.halted = false) :
    Completes KernelState.execute (fun _ => False) (fun _ t => Printed calls s t) p s := by
  refine (quiet_completes hQuiet hRunning).mono fun a t hEnd => ?_
  obtain ⟨hAfter, trace, hReturns, hExecutes⟩ := hEnd
  rw [← hPrints trace a hReturns]
  exact ⟨hAfter, executes_console hExecutes⟩

end Completion
end WigOSX
