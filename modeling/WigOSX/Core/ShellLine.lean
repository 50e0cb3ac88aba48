import WigOSX.Drivers.Keyboard
import WigOSX.Kernel.Footprint
import WigOSX.Library.TransitionSystem

/-! The displayed line against the command buffer. What the console shows
since the last prompt follows from the calls that the shell made; what Enter
runs follows from the buffer. The two agree until a character arrives at a
full line, and again from the next Enter on. -/
namespace WigOSX

open Interaction (Returns Exchange perform returns_done_iff returns_ask_iff returns_bind_iff)

section Text

/-- An emitted backspace takes back the character before it. -/
def editText (line : List (BitVec 8)) (c : BitVec 8) : List (BitVec 8) :=
  if c = asciiBackspace then line.dropLast else line ++ [c]

/-- The text starts over where a prompt is printed. -/
def emitCall (line : List (BitVec 8)) (call : ConsoleCall) : List (BitVec 8) :=
  call.text.foldl editText (if call = .writestring shellPrompt then [] else line)

/-- The text emitted since the start of the last prompt. -/
def emittedText (calls : List ConsoleCall) : List (BitVec 8) :=
  calls.foldl emitCall []

theorem emitCall_prompt (line : List (BitVec 8)) :
    emitCall line (.writestring shellPrompt) = shellPrompt := by
  rw [emitCall, if_pos rfl]
  decide

theorem emitCall_putchar (line : List (BitVec 8)) (c : BitVec 8) :
    emitCall line (.putchar c) = editText line c := by
  rw [emitCall, if_neg ConsoleCall.noConfusion]
  rfl

/-- A prompt starts the emitted text anew, whatever has been written before
it. -/
theorem emittedText_append_prompt (calls : List ConsoleCall) :
    emittedText (calls ++ [.writestring shellPrompt]) = shellPrompt := by
  rw [emittedText, List.foldl_append, List.foldl_cons, List.foldl_nil, emitCall_prompt]

/-- A character that is written edits the emitted text as it edits the screen. -/
theorem emittedText_append_putchar (calls : List ConsoleCall) (c : BitVec 8) :
    emittedText (calls ++ [.putchar c]) = editText (emittedText calls) c := by
  rw [emittedText, List.foldl_append, List.foldl_cons, List.foldl_nil, emitCall_putchar, emittedText]

end Text

section Calls

def exchangeCall : Exchange KernelRequest → Option ConsoleCall
  | ⟨.console call, _⟩ => some call
  | _ => none

/-- The console calls of a trace. -/
def consoleCalls (trace : List (Exchange KernelRequest)) : List ConsoleCall :=
  trace.filterMap exchangeCall

/-- A call of the console is one exchange, and it has nothing to answer. -/
theorem returns_console_iff {call : ConsoleCall} {trace : List (Exchange KernelRequest)} {u : Unit} :
    (perform (.console call) : KernelProgram Unit).Returns trace u ↔
      trace = [⟨.console call, ()⟩] := by
  rw [perform, returns_ask_iff]
  constructor
  · rintro ⟨reply, rest, rfl, h⟩
    obtain ⟨rfl, -⟩ := returns_done_iff.mp h
    rfl
  · rintro rfl
    exact ⟨(), [], rfl, .done ()⟩

/-- A panic does not return, since its last request has no reply. -/
theorem kernelPanic_diverges {α : Type} (message : String) :
    (kernelPanic message : KernelProgram α).Diverges := by
  refine .bind fun _ => .bind fun _ => .bind fun _ => .bind fun _ => .bind fun _ => .bind fun _ => ?_
  exact .ask fun impossible => nomatch impossible

end Calls

section Effect

/-- What one character does to the shell and which calls it makes. -/
inductive ShellEffect (s : ShellState) (ascii : BitVec 8) : List ConsoleCall → ShellState → Prop where
  | complete (h : ascii = asciiLineFeed) (output : List ConsoleCall) :
      ShellEffect s ascii (output ++ [.writestring shellPrompt]) shellResetBuffer
  | erase (h : ascii = asciiBackspace) (hSome : 0 < s.bufferLength.val) :
      ShellEffect s ascii [.putchar asciiBackspace] s.erase
  | nothing (h : ascii = asciiBackspace ∧ s.bufferLength.val = 0 ∨ ascii = asciiTab) :
      ShellEffect s ascii [] s
  | full (hFull : shellBufferSize - 1 ≤ s.bufferLength.val) (hLineFeed : ascii ≠ asciiLineFeed)
      (hBackspace : ascii ≠ asciiBackspace) (hTab : ascii ≠ asciiTab) (output : List ConsoleCall) :
      ShellEffect s ascii (output ++ [.writestring shellPrompt]) s
  | append (hRoom : ¬shellBufferSize - 1 ≤ s.bufferLength.val) (hLineFeed : ascii ≠ asciiLineFeed)
      (hBackspace : ascii ≠ asciiBackspace) (hTab : ascii ≠ asciiTab) :
      ShellEffect s ascii [.putchar ascii] (s.append ascii hRoom)

/-- A program that ends with the prompt. -/
theorem returns_then_prompt {p : KernelProgram Unit} {s t : ShellState}
    {trace : List (Exchange KernelRequest)}
    (h : (p >>= fun _ => shellPrintPrompt >>= fun _ => pure s).Returns trace t) :
    t = s ∧ ∃ output, consoleCalls trace = output ++ [.writestring shellPrompt] := by
  obtain ⟨first, _, rest, rfl, -, hRest⟩ := returns_bind_iff.mp h
  obtain ⟨prompt, _, last, rfl, hPrompt, hLast⟩ := returns_bind_iff.mp hRest
  obtain rfl := returns_console_iff.mp hPrompt
  obtain ⟨rfl, rfl⟩ := returns_done_iff.mp hLast
  exact ⟨rfl, consoleCalls first, List.filterMap_append⟩

/-- The path of an echo: one character goes to the console, and the state is
the one computed before it. -/
theorem returns_after_putchar {c : BitVec 8} {s t : ShellState}
    {trace : List (Exchange KernelRequest)}
    (h : (consolePutchar c >>= fun _ => pure s).Returns trace t) :
    t = s ∧ consoleCalls trace = [.putchar c] := by
  obtain ⟨first, _, last, rfl, hFirst, hLast⟩ := returns_bind_iff.mp h
  obtain rfl := returns_console_iff.mp hFirst
  obtain ⟨rfl, rfl⟩ := returns_done_iff.mp hLast
  exact ⟨rfl, rfl⟩

/-- Every completed call past the check of the context is one of the listed
effects, with the calls of the console that it made. -/
theorem shellEditLine_effect {s t : ShellState} {ascii : BitVec 8}
    {trace : List (Exchange KernelRequest)} (h : (shellEditLine ascii s).Returns trace t) :
    ShellEffect s ascii (consoleCalls trace) t := by
  rw [shellEditLine] at h
  split_ifs at h with hLineFeed hBackspace hSome hTab hFull
  · obtain ⟨first, _, rest, rfl, -, hRest⟩ := returns_bind_iff.mp h
    obtain ⟨rfl, output, hOutput⟩ := returns_then_prompt hRest
    rw [consoleCalls, List.filterMap_append, ← consoleCalls, ← consoleCalls, hOutput,
      ← List.append_assoc]
    exact .complete hLineFeed _
  · obtain ⟨rfl, hCalls⟩ := returns_after_putchar h
    rw [hCalls]
    exact .erase hBackspace hSome
  · obtain ⟨rfl, rfl⟩ := returns_done_iff.mp h
    exact .nothing (.inl ⟨hBackspace, Nat.eq_zero_of_not_pos hSome⟩)
  · obtain ⟨rfl, rfl⟩ := returns_done_iff.mp h
    exact .nothing (.inr hTab)
  · obtain ⟨rfl, output, hOutput⟩ := returns_then_prompt h
    rw [hOutput]
    exact .full hFull hLineFeed hBackspace hTab output
  · obtain ⟨rfl, hCalls⟩ := returns_after_putchar h
    rw [hCalls]
    exact .append hFull hLineFeed hBackspace hTab

/-- A call that returns was not made from interrupt context. -/
theorem shellHandleCharacter_effect {s t : ShellState} {ascii : BitVec 8}
    {trace : List (Exchange KernelRequest)} (h : (shellHandleCharacter ascii s).Returns trace t) :
    ShellEffect s ascii (consoleCalls trace) t := by
  rw [shellHandleCharacter, interruptsIsInContext_bind] at h
  obtain ⟨depth, rest, rfl, hRest⟩ := returns_ask_iff.mp h
  split at hRest
  · exact absurd hRest (kernelPanic_diverges _ rest t)
  · -- the load of the depth is not a console call
    show ShellEffect s ascii (consoleCalls rest) t
    exact shellEditLine_effect hRest

end Effect

section Line

/-- `shell_buffer[0 .. shell_buffer_length)`. -/
def shellLine (s : ShellState) : List (BitVec 8) :=
  s.buffer.toList.take s.bufferLength.val

theorem shellLine_length (s : ShellState) : (shellLine s).length = s.bufferLength.val := by
  rw [shellLine, List.length_take, Vector.length_toList]
  exact Nat.min_eq_left s.bufferLength.isLt.le

theorem shellLine_reset : shellLine shellResetBuffer = [] := rfl

/-- An appended character is the last one of the line; the rest of the
buffer's line stays as it was. -/
theorem shellLine_append (s : ShellState) (ascii : BitVec 8)
    (h : ¬shellBufferSize - 1 ≤ s.bufferLength.val) :
    shellLine (s.append ascii h) = shellLine s ++ [ascii] := by
  have hIndex : s.bufferLength.val < s.buffer.toList.length := by
    rw [Vector.length_toList]
    exact s.bufferLength.isLt
  show (s.buffer.set s.bufferLength.val ascii).toList.take (s.bufferLength.val + 1) = _
  rw [Vector.toList_set, List.take_succ_eq_append_getElem (by rwa [List.length_set]),
    List.take_set_of_le (Nat.le_refl _), List.getElem_set_self, shellLine]

theorem shellLine_erase {s : ShellState} (h : 0 < s.bufferLength.val) :
    shellLine s.erase = (shellLine s).dropLast := by
  show (s.buffer.set (s.bufferLength.val - 1) 0#8).toList.take (s.bufferLength.val - 1) = _
  rw [Vector.toList_set, List.take_set_of_le (Nat.le_refl _), List.dropLast_eq_take, shellLine_length,
    shellLine, List.take_take, Nat.min_eq_left (Nat.sub_le _ _)]

/-- Enter runs the line, which holds no terminator before its end. -/
theorem shellCommand_eq {s : ShellState} (h : 0#8 ∉ shellLine s) : shellCommand s = shellLine s := by
  have hIndex : s.bufferLength.val < s.buffer.toList.length := by
    rw [Vector.length_toList]
    exact s.bufferLength.isLt
  have hText : ∀ c ∈ shellLine s, decide (c ≠ 0#8) = true := by
    intro c hMem
    exact decide_eq_true fun hZero => h (hZero ▸ hMem)
  show ((s.buffer.set s.bufferLength.val 0#8).toList).takeWhile _ = _
  rw [Vector.toList_set, List.set_eq_take_append_cons_drop, if_pos hIndex, ← shellLine,
    List.takeWhile_append_of_pos hText]
  simp

end Line

section Run

/-- The shell and the console calls that it made so far. -/
structure ShellRecord where
  shell : ShellState
  calls : List ConsoleCall

def ShellStart (r : ShellRecord) : Prop :=
  ∃ trace, shellInitialize.Returns trace r.shell ∧ r.calls = consoleCalls trace

/-- A call of `shell_handle_character` that returns, whatever the services
that it uses replied. -/
inductive ShellStep : ShellRecord → BitVec 8 → ShellRecord → Prop where
  | handle {s t : ShellState} {ascii : BitVec 8} {trace : List (Exchange KernelRequest)}
      (calls : List ConsoleCall) (h : (shellHandleCharacter ascii s).Returns trace t) :
      ShellStep ⟨s, calls⟩ ascii ⟨t, calls ++ consoleCalls trace⟩

/-- The text since the last prompt is the prompt and the buffered line, Enter
would run that line, and the prompt outlasts any number of backspaces. -/
structure ShellShows (r : ShellRecord) : Prop where
  text : emittedText r.calls = shellPrompt ++ shellLine r.shell
  command : shellCommand r.shell = shellLine r.shell
  prompt : ∀ k next, TransitionSystem.Run ShellStep r (List.replicate k asciiBackspace) next →
    shellPrompt <+: emittedText next.calls

/-- The line that is being typed, or `none` from the moment a character came
in at a full line until the next line feed. -/
def typeCharacter (typed : Option (List (BitVec 8))) (c : BitVec 8) : Option (List (BitVec 8)) :=
  if c = asciiLineFeed then some []
  else
    typed.bind fun line =>
      if c = asciiBackspace then some line.dropLast
      else if c = asciiTab then some line
      else if line.length = 63 then none
      else some (line ++ [c])

def typedLine (characters : List (BitVec 8)) : Option (List (BitVec 8)) :=
  characters.foldl typeCharacter (some [])

/-- The shell against the line being typed. Without one, the emitted text is
shorter than the buffered line, so it cannot be the prompt and that line. -/
def ShellTracks (r : ShellRecord) : Option (List (BitVec 8)) → Prop
  | some line => shellLine r.shell = line ∧ emittedText r.calls = shellPrompt ++ line
  | none => (emittedText r.calls).length ≤ r.shell.bufferLength.val

theorem typeCharacter_lineFeed (typed : Option (List (BitVec 8))) :
    typeCharacter typed asciiLineFeed = some [] :=
  if_pos rfl

theorem typeCharacter_backspace (typed : Option (List (BitVec 8))) :
    typeCharacter typed asciiBackspace = typed.map List.dropLast := by
  cases typed with
  | none => rfl
  | some line => rfl

theorem typeCharacter_tab (typed : Option (List (BitVec 8))) : typeCharacter typed asciiTab = typed := by
  cases typed with
  | none => rfl
  | some line => rfl

/-- A character other than these is appended, and the 64th one makes the line
unknown. -/
theorem typeCharacter_other {c : BitVec 8} (hLineFeed : c ≠ asciiLineFeed)
    (hBackspace : c ≠ asciiBackspace) (hTab : c ≠ asciiTab) (typed : Option (List (BitVec 8))) :
    typeCharacter typed c =
      typed.bind fun line => if line.length = 63 then none else some (line ++ [c]) := by
  rw [typeCharacter, if_neg hLineFeed]
  simp only [if_neg hBackspace, if_neg hTab]

theorem editText_backspace (line : List (BitVec 8)) : editText line asciiBackspace = line.dropLast :=
  if_pos rfl

theorem editText_other {c : BitVec 8} (h : c ≠ asciiBackspace) (line : List (BitVec 8)) :
    editText line c = line ++ [c] :=
  if_neg h

/-- Behind Enter the buffer is empty and the screen shows a prompt alone. -/
theorem ShellTracks.complete (output : List ConsoleCall) :
    ShellTracks ⟨shellResetBuffer, output ++ [.writestring shellPrompt]⟩ (some []) :=
  ⟨shellLine_reset, by rw [emittedText_append_prompt, List.append_nil]⟩

/-- Backspace on a line that has a character erases it in the buffer and on
the screen. -/
theorem ShellTracks.erase {s : ShellState} {calls : List ConsoleCall}
    {typed : Option (List (BitVec 8))} (h : ShellTracks ⟨s, calls⟩ typed) (hSome : 0 < s.bufferLength.val) :
    ShellTracks ⟨s.erase, calls ++ [.putchar asciiBackspace]⟩ (typed.map List.dropLast) := by
  have hText := emittedText_append_putchar calls asciiBackspace
  rw [editText_backspace] at hText
  cases typed with
  | none =>
      show (emittedText (calls ++ [.putchar asciiBackspace])).length ≤ s.bufferLength.val - 1
      rw [hText, List.length_dropLast]
      exact Nat.sub_le_sub_right h 1
  | some line =>
      obtain ⟨hLine, hShown⟩ := h
      have hNonempty : line ≠ [] := by
        rw [← List.length_pos_iff, ← hLine, shellLine_length]
        exact hSome
      refine ⟨?_, ?_⟩
      · rw [shellLine_erase hSome, hLine]
      · rw [hText, hShown, List.dropLast_append_of_ne_nil hNonempty]

/-- An ordinary character that fits goes into the buffer and onto the screen. -/
theorem ShellTracks.append {s : ShellState} {calls : List ConsoleCall}
    {typed : Option (List (BitVec 8))} {ascii : BitVec 8} (h : ShellTracks ⟨s, calls⟩ typed)
    (hRoom : ¬shellBufferSize - 1 ≤ s.bufferLength.val) (hBackspace : ascii ≠ asciiBackspace) :
    ShellTracks ⟨s.append ascii hRoom, calls ++ [.putchar ascii]⟩ (typed.map (· ++ [ascii])) := by
  have hText := emittedText_append_putchar calls ascii
  rw [editText_other hBackspace] at hText
  cases typed with
  | none =>
      show (emittedText (calls ++ [.putchar ascii])).length ≤ s.bufferLength.val + 1
      rw [hText, List.length_append]
      exact Nat.add_le_add_right h 1
  | some line =>
      obtain ⟨hLine, hShown⟩ := h
      exact ⟨by rw [shellLine_append, hLine], by rw [hText, hShown, List.append_assoc]⟩

/-- A full buffer is shown as an empty line. -/
theorem ShellTracks.full {s : ShellState} (hFull : shellBufferSize - 1 ≤ s.bufferLength.val)
    (output : List ConsoleCall) :
    ShellTracks ⟨s, output ++ [.writestring shellPrompt]⟩ none := by
  show (emittedText (output ++ [.writestring shellPrompt])).length ≤ s.bufferLength.val
  rw [emittedText_append_prompt]
  exact Nat.le_trans (by decide) hFull

/-- Backspace on an empty line is ignored by both sides. -/
theorem ShellTracks.eraseNothing {s : ShellState} {calls : List ConsoleCall}
    {typed : Option (List (BitVec 8))} (h : ShellTracks ⟨s, calls⟩ typed) (hZero : s.bufferLength.val = 0) :
    ShellTracks ⟨s, calls⟩ (typed.map List.dropLast) := by
  cases typed with
  | none => exact h
  | some line =>
      have hEmpty : line = [] := by
        rw [← List.length_eq_zero_iff, ← h.1, shellLine_length]
        exact hZero
      subst hEmpty
      exact h

/-- While the line is followed, it is as long as the buffer says. -/
theorem ShellTracks.typed_full_iff {r : ShellRecord} {line : List (BitVec 8)}
    (h : ShellTracks r (some line)) : line.length = 63 ↔ shellBufferSize - 1 ≤ r.shell.bufferLength.val := by
  have hLength := shellLine_length r.shell
  have hIndex : r.shell.bufferLength.val < 64 := r.shell.bufferLength.isLt
  rw [h.1] at hLength
  rw [hLength]
  show _ ↔ 63 ≤ _
  omega

/-- Whichever effect a character has, the typed line is tracked behind it. -/
theorem ShellTracks.effect {s t : ShellState} {calls output : List ConsoleCall} {ascii : BitVec 8}
    {typed : Option (List (BitVec 8))} (h : ShellTracks ⟨s, calls⟩ typed)
    (hEffect : ShellEffect s ascii output t) :
    ShellTracks ⟨t, calls ++ output⟩ (typeCharacter typed ascii) := by
  cases hEffect with
  | complete hLineFeed output =>
      rw [hLineFeed, typeCharacter_lineFeed, ← List.append_assoc]
      exact .complete _
  | erase hBackspace hSome =>
      rw [hBackspace, typeCharacter_backspace]
      exact h.erase hSome
  | nothing hCase =>
      rw [List.append_nil]
      cases hCase with
      | inl hErase =>
          rw [hErase.1, typeCharacter_backspace]
          exact h.eraseNothing hErase.2
      | inr hTab =>
          rw [hTab, typeCharacter_tab]
          exact h
  | full hFull hLineFeed hBackspace hTab output =>
      have hNone : typeCharacter typed ascii = none := by
        rw [typeCharacter_other hLineFeed hBackspace hTab]
        cases typed with
        | none => rfl
        | some line => exact if_pos (h.typed_full_iff.mpr hFull)
      rw [hNone, ← List.append_assoc]
      exact .full hFull _
  | append hRoom hLineFeed hBackspace hTab =>
      have hMore : typeCharacter typed ascii = typed.map (· ++ [ascii]) := by
        rw [typeCharacter_other hLineFeed hBackspace hTab]
        cases typed with
        | none => rfl
        | some line => exact if_neg fun hLength => hRoom (h.typed_full_iff.mp hLength)
      rw [hMore]
      exact h.append hRoom hBackspace

/-- One call of the shell, made outside interrupt context, takes one
character. -/
theorem ShellTracks.step {r next : ShellRecord} {typed : Option (List (BitVec 8))} {ascii : BitVec 8}
    (h : ShellTracks r typed) (hStep : ShellStep r ascii next) :
    ShellTracks next (typeCharacter typed ascii) := by
  cases hStep with
  | handle calls hReturns => exact h.effect (shellHandleCharacter_effect hReturns)

/-- Over a whole run the typed line is that of the characters in order. -/
theorem ShellTracks.run {r next : ShellRecord} {typed : Option (List (BitVec 8))}
    {characters : List (BitVec 8)} (h : ShellTracks r typed)
    (run : TransitionSystem.Run ShellStep r characters next) :
    ShellTracks next (characters.foldl typeCharacter typed) := by
  refine run.history_invariant (fun past r => ShellTracks r (past.foldl typeCharacter typed)) h
    fun past s c t hPast hStep => ?_
  rw [List.foldl_append]
  exact hPast.step hStep

/-- The shell starts with an empty line behind its first prompt. -/
theorem ShellStart.tracks {r : ShellRecord} (h : ShellStart r) : ShellTracks r (some []) := by
  obtain ⟨trace, hReturns, hCalls⟩ := h
  obtain ⟨first, _, rest, rfl, -, hRest⟩ := returns_bind_iff.mp hReturns
  obtain ⟨second, _, rest, rfl, -, hRest⟩ := returns_bind_iff.mp hRest
  obtain ⟨hReset, output, hOutput⟩ := returns_then_prompt hRest
  rw [consoleCalls, List.filterMap_append, List.filterMap_append, ← consoleCalls, ← consoleCalls,
    ← consoleCalls, hOutput, ← List.append_assoc, ← List.append_assoc] at hCalls
  obtain ⟨shell, calls⟩ := r
  obtain rfl : shell = shellResetBuffer := hReset
  obtain rfl := hCalls
  exact .complete _

/-- Backspaces shorten the line being typed and never lose track of it. -/
theorem foldl_typeCharacter_backspaces (k : Nat) (line : List (BitVec 8)) :
    ∃ rest, (List.replicate k asciiBackspace).foldl typeCharacter (some line) = some rest := by
  induction k generalizing line with
  | zero => exact ⟨line, rfl⟩
  | succ k ih =>
      rw [List.replicate_succ, List.foldl_cons, typeCharacter_backspace]
      exact ih line.dropLast

/-- A character of the line is the one just typed, or stood in the line
before. -/
theorem mem_typeCharacter {typed : Option (List (BitVec 8))} {last c : BitVec 8}
    {line : List (BitVec 8)} (h : typeCharacter typed last = some line) (hMem : c ∈ line) :
    c = last ∨ ∃ before, typed = some before ∧ c ∈ before := by
  rw [typeCharacter] at h
  by_cases hLineFeed : last = asciiLineFeed
  · rw [if_pos hLineFeed] at h
    cases h
    cases hMem
  · rw [if_neg hLineFeed] at h
    obtain ⟨before, rfl, hLine⟩ := Option.bind_eq_some_iff.mp h
    split_ifs at hLine
    · cases hLine
      exact .inr ⟨before, rfl, List.mem_of_mem_dropLast hMem⟩
    · cases hLine
      exact .inr ⟨_, rfl, hMem⟩
    · cases hLine
      cases List.mem_append.mp hMem with
      | inl hBefore => exact .inr ⟨before, rfl, hBefore⟩
      | inr hLast => exact .inl (List.mem_singleton.mp hLast)

/-- Only characters that were typed are in the line. -/
theorem mem_typedLine {characters line : List (BitVec 8)} (h : typedLine characters = some line)
    {c : BitVec 8} (hMem : c ∈ line) : c ∈ characters := by
  induction characters using List.reverseRecOn generalizing line with
  | nil =>
      obtain rfl := Option.some.inj h
      exact hMem
  | append_singleton characters last ih =>
      rw [typedLine, List.foldl_append] at h
      rw [List.mem_append, List.mem_singleton]
      cases mem_typeCharacter h hMem with
      | inl hLast => exact .inr hLast
      | inr hBefore =>
          obtain ⟨before, hTyped, hMem⟩ := hBefore
          exact .inl (ih hTyped hMem)

/-- While the typed line is known and holds no terminator, the screen shows
what is stored. -/
theorem ShellTracks.shows {r : ShellRecord} {line : List (BitVec 8)} (h : ShellTracks r (some line))
    (hText : 0#8 ∉ line) : ShellShows r := by
  refine ⟨?_, ?_, fun k next run => ?_⟩
  · rw [h.1]
    exact h.2
  · exact shellCommand_eq (h.1 ▸ hText)
  · have hNext := h.run run
    obtain ⟨rest, hRest⟩ := foldl_typeCharacter_backspaces k line
    rw [hRest] at hNext
    rw [hNext.2]
    exact List.prefix_append shellPrompt rest

/-- Without a followed line too little text was emitted. -/
theorem ShellTracks.not_shows {r : ShellRecord} (h : ShellTracks r none) : ¬ShellShows r := by
  intro hShows
  have hLength := congrArg List.length hShows.text
  have hPrompt : shellPrompt.length = 8 := by decide
  rw [List.length_append, shellLine_length, hPrompt] at hLength
  have hShort : (emittedText r.calls).length ≤ r.shell.bufferLength.val := h
  omega

/-- In every state that a sequence of typed characters leads to, the screen
shows what Enter will run if and only if no character other than line feed,
backspace and tab came in at a full line since the last line feed. -/
theorem shell_shows_line_iff {start finish : ShellRecord} {characters : List (BitVec 8)}
    (hStart : ShellStart start) (hTyped : ∀ c ∈ characters, IsTypedCharacter c)
    (run : TransitionSystem.Run ShellStep start characters finish) :
    ShellShows finish ↔ (typedLine characters).isSome := by
  have hTracks : ShellTracks finish (typedLine characters) := hStart.tracks.run run
  cases hLine : typedLine characters with
  | none =>
      rw [hLine] at hTracks
      exact iff_of_false hTracks.not_shows Bool.noConfusion
  | some line =>
      rw [hLine] at hTracks
      have hText : 0#8 ∉ line := by
        intro hMem
        exact absurd (hTyped 0#8 (mem_typedLine hLine hMem)) (by decide)
      exact iff_of_true (hTracks.shows hText) rfl

end Run

section Total

/-- Outside interrupt context the shell returns on every character, for
suitable replies of the services. -/
theorem shellStep_exists (r : ShellRecord) (ascii : BitVec 8) : ∃ next, ShellStep r ascii next := by
  obtain ⟨trace, t, h⟩ := (shellEditLine_quiet ascii r.shell).exists_returns
    fun _ request hQuiet => hQuiet.reply_nonempty request
  have hCall : (shellHandleCharacter ascii r.shell).Returns
      (⟨.interruptsGetContextDepth, 0#32⟩ :: trace) t := .ask h
  exact ⟨_, .handle r.calls hCall⟩

/-- The shell can be started, as its services answer every request of the
start. -/
theorem shellStart_exists : ∃ start, ShellStart start := by
  obtain ⟨trace, s, h⟩ := (shellInitialize_only Output.quiet).exists_returns
    fun _ request hQuiet => hQuiet.reply_nonempty request
  exact ⟨⟨s, consoleCalls trace⟩, trace, h, rfl⟩

/-- Every sequence of characters has a run from every state of the shell. -/
theorem shellRun_exists (start : ShellRecord) (characters : List (BitVec 8)) :
    ∃ finish, TransitionSystem.Run ShellStep start characters finish := by
  induction characters generalizing start with
  | nil => exact ⟨start, .nil⟩
  | cons ascii rest ih =>
      obtain ⟨next, hStep⟩ := shellStep_exists start ascii
      obtain ⟨finish, run⟩ := ih next
      exact ⟨finish, run.cons hStep⟩

/-- Two letters, a backspace and a tab. -/
theorem shell_shows_line_iff_short : ∃ start finish, ShellStart start ∧
    TransitionSystem.Run ShellStep start [0x6C#8, 0x73#8, 0x08#8, 0x09#8] finish ∧ ShellShows finish := by
  obtain ⟨start, hStart⟩ := shellStart_exists
  obtain ⟨finish, run⟩ := shellRun_exists start [0x6C#8, 0x73#8, 0x08#8, 0x09#8]
  exact ⟨start, finish, hStart, run, (shell_shows_line_iff hStart (by decide) run).mpr rfl⟩

/-- The 64th letter of a line leaves an empty prompt over a full buffer. -/
theorem shell_hides_full_line :
    ¬∀ (start finish : ShellRecord) (characters : List (BitVec 8)), ShellStart start →
      (∀ c ∈ characters, IsTypedCharacter c) →
      TransitionSystem.Run ShellStep start characters finish → ShellShows finish := by
  intro hEvery
  obtain ⟨start, hStart⟩ := shellStart_exists
  obtain ⟨finish, run⟩ := shellRun_exists start (List.replicate 64 0x61#8)
  have hTyped : ∀ c ∈ List.replicate 64 0x61#8, IsTypedCharacter c := by
    intro c hMem
    rw [List.eq_of_mem_replicate hMem]
    decide
  have hTracks : ShellTracks finish (typedLine (List.replicate 64 0x61#8)) := hStart.tracks.run run
  have hNone : typedLine (List.replicate 64 0x61#8) = none := by decide
  rw [hNone] at hTracks
  exact hTracks.not_shows (hEvery start finish _ hStart hTyped run)

end Total
end WigOSX
