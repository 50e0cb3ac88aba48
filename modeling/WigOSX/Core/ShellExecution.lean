import WigOSX.Core.ShellLine

/-! The lines that the shell executes. With the call of
`shell_execute_command` kept visible, a run of the shell gives it exactly the
lines of a reference editor, which splits the characters at line feeds and
edits each piece by itself. -/
namespace WigOSX

open Interaction (Returns Exchange Only perform interpret returns_done_iff returns_ask_iff returns_bind_iff)

section Boundary

/-- The call of `shell_execute_command`. -/
inductive CommandRequest : Type → Type where
  | executeCommand (command : List (BitVec 8)) : CommandRequest Unit

/-- The requests of the shell with the command executor as one more service. -/
def ShellRequest (ρ : Type) : Type := KernelRequest ρ ⊕ CommandRequest ρ

def ShellRequest.kernel ⦃ρ : Type⦄ (request : KernelRequest ρ) : ShellRequest ρ := .inl request

abbrev ShellProgram (α : Type) := Interaction ShellRequest α

/-- Code that does not execute a command. -/
def kernelCode {α : Type} (p : KernelProgram α) : ShellProgram α :=
  p.interpret fun _ r => perform (ShellRequest.kernel r)

/-- The call of `shell_execute_command` is the code of it. -/
def inlineExecution : ∀ ⦃ρ : Type⦄, ShellRequest ρ → KernelProgram ρ
  | _, .inl request => perform request
  | _, .inr (.executeCommand command) => shellExecuteCommand command

def ShellRequest.command (command : List (BitVec 8)) : ShellRequest Unit :=
  .inr (.executeCommand command)

/-- `shell_handle_character` after its check of the context, with the call of
`shell_execute_command` as a request. -/
def shellEditLineCalls (ascii : BitVec 8) (s : ShellState) : ShellProgram ShellState :=
  if ascii = asciiLineFeed then do
    kernelCode (consolePutchar asciiLineFeed)
    perform (ShellRequest.command (shellCommand s))
    kernelCode shellPrintPrompt
    return shellResetBuffer
  else kernelCode (shellEditLine ascii s)

def shellHandleCharacterCalls (ascii : BitVec 8) (s : ShellState) : ShellProgram ShellState := do
  if ← kernelCode interruptsIsInContext then
    kernelCode (kernelPanic "Shell invoked from interrupt context")
  else shellEditLineCalls ascii s

/-- Code without a call of the executor is the same program once the calls are
inlined again. -/
theorem kernelCode_inline {α : Type} (p : KernelProgram α) :
    (kernelCode p).interpret inlineExecution = p :=
  Interaction.interpret_interpret ShellRequest.kernel (fun _ _ => rfl) p

/-- A visible call is inlined as the body of `shell_execute_command`. -/
theorem command_inline (command : List (BitVec 8)) :
    (perform (ShellRequest.command command)).interpret inlineExecution =
      shellExecuteCommand command :=
  Interaction.interpret_perform _

/-- Nothing but the call was made visible. -/
theorem shellHandleCharacterCalls_inline (ascii : BitVec 8) (s : ShellState) :
    (shellHandleCharacterCalls ascii s).interpret inlineExecution = shellHandleCharacter ascii s := by
  have hEdit : (shellEditLineCalls ascii s).interpret inlineExecution = shellEditLine ascii s := by
    rw [shellEditLineCalls]
    split_ifs with hLineFeed
    · rw [shellEditLine, if_pos hLineFeed]
      simp only [Interaction.interpret_bind, kernelCode_inline, command_inline]
      rfl
    · exact kernelCode_inline _
  rw [shellHandleCharacterCalls, Interaction.interpret_bind, kernelCode_inline, shellHandleCharacter]
  congr 1
  funext inContext
  cases inContext with
  | true => exact kernelCode_inline _
  | false => exact hEdit

end Boundary

section Executed

def exchangeCommand : Exchange ShellRequest → Option (List (BitVec 8))
  | ⟨.inr (.executeCommand command), _⟩ => some command
  | _ => none

/-- The lines that a trace gives to `shell_execute_command`. -/
def executedCommands (trace : List (Exchange ShellRequest)) : List (List (BitVec 8)) :=
  trace.filterMap exchangeCommand

theorem executedCommands_append (first second : List (Exchange ShellRequest)) :
    executedCommands (first ++ second) = executedCommands first ++ executedCommands second :=
  List.filterMap_append

/-- Code without such a call executes no line, and its trace is that of the
plain program. -/
theorem kernelCode_returns {α : Type} {p : KernelProgram α} {trace : List (Exchange ShellRequest)}
    {a : α} (h : (kernelCode p).Returns trace a) :
    executedCommands trace = [] ∧ ∃ inner, p.Returns inner a := by
  induction p generalizing trace with
  | done b =>
      obtain ⟨rfl, rfl⟩ := returns_done_iff.mp h
      exact ⟨rfl, [], .done _⟩
  | ask r next ih =>
      obtain ⟨reply, rest, rfl, hRest⟩ := returns_ask_iff.mp h
      obtain ⟨hNone, inner, hInner⟩ := ih reply hRest
      exact ⟨hNone, _, .ask hInner⟩

/-- The new state of the shell, whatever the services reply. -/
def shellEdit (ascii : BitVec 8) (s : ShellState) : ShellState :=
  if ascii = asciiLineFeed then shellResetBuffer
  else if ascii = asciiBackspace then if 0 < s.bufferLength.val then s.erase else s
  else if ascii = asciiTab then s
  else if h : shellBufferSize - 1 ≤ s.bufferLength.val then s else s.append ascii h

/-- Whatever the services reply, the state behind a character is the edited
one. -/
theorem shellEditLine_returns {ascii : BitVec 8} {s t : ShellState}
    {trace : List (Exchange KernelRequest)} (h : (shellEditLine ascii s).Returns trace t) :
    t = shellEdit ascii s := by
  have hEffect := shellEditLine_effect h
  generalize consoleCalls trace = calls at hEffect
  rw [shellEdit]
  cases hEffect with
  | complete hLineFeed _ => rw [if_pos hLineFeed]
  | erase hBackspace hSome => rw [hBackspace, if_neg (by decide), if_pos rfl, if_pos hSome]
  | nothing hCase =>
      cases hCase with
      | inl hErase => rw [hErase.1, if_neg (by decide), if_pos rfl, if_neg (Nat.not_lt.mpr hErase.2.le)]
      | inr hTab => rw [hTab, if_neg (by decide), if_neg (by decide), if_pos rfl]
  | full hFull hLineFeed hBackspace hTab _ =>
      rw [if_neg hLineFeed, if_neg hBackspace, if_neg hTab, dif_pos hFull]
  | append hRoom hLineFeed hBackspace hTab =>
      rw [if_neg hLineFeed, if_neg hBackspace, if_neg hTab, dif_neg hRoom]

/-- A call executes the line in the buffer on a line feed and nothing on any
other character. -/
theorem shellHandleCharacterCalls_returns {ascii : BitVec 8} {s t : ShellState}
    {trace : List (Exchange ShellRequest)} (h : (shellHandleCharacterCalls ascii s).Returns trace t) :
    t = shellEdit ascii s ∧
      executedCommands trace = if ascii = asciiLineFeed then [shellCommand s] else [] := by
  obtain ⟨first, inContext, rest, rfl, hContext, hRest⟩ := returns_bind_iff.mp h
  rw [executedCommands_append, (kernelCode_returns hContext).1, List.nil_append]
  cases inContext with
  | true => exact absurd (kernelCode_returns hRest).2 fun ⟨inner, hInner⟩ =>
      kernelPanic_diverges _ inner t hInner
  | false =>
      rw [if_neg Bool.false_ne_true, shellEditLineCalls] at hRest
      split_ifs at hRest ⊢ with hLineFeed
      · obtain ⟨echo, _, rest, rfl, hEcho, hRest⟩ := returns_bind_iff.mp hRest
        obtain ⟨call, _, rest, rfl, hCall, hRest⟩ := returns_bind_iff.mp hRest
        obtain ⟨prompt, _, last, rfl, hPrompt, hLast⟩ := returns_bind_iff.mp hRest
        obtain ⟨_, none, rfl, hDone⟩ := returns_ask_iff.mp hCall
        obtain ⟨rfl, -⟩ := returns_done_iff.mp hDone
        obtain ⟨rfl, rfl⟩ := returns_done_iff.mp hLast
        rw [shellEdit, if_pos hLineFeed]
        simp only [executedCommands_append, (kernelCode_returns hEcho).1,
          (kernelCode_returns hPrompt).1]
        exact ⟨trivial, rfl⟩
      · obtain ⟨hNone, inner, hInner⟩ := kernelCode_returns hRest
        exact ⟨shellEditLine_returns hInner, hNone⟩

end Executed

section Buffer

/-- The buffer between calls: the line holds no character that ends or edits
it, and behind the line everything is null. -/
structure ShellBufferClean (s : ShellState) : Prop where
  length : s.bufferLength.val ≤ 63
  text : ∀ c ∈ shellLine s, c ≠ 0#8 ∧ c ≠ asciiLineFeed ∧ c ≠ asciiBackspace ∧ c ≠ asciiTab
  rest : ∀ c ∈ s.buffer.toList.drop s.bufferLength.val, c = 0#8

theorem ShellBufferClean.reset : ShellBufferClean shellResetBuffer := by
  refine ⟨by decide, fun c hMem => (List.not_mem_nil hMem).elim, fun c hMem => ?_⟩
  exact List.eq_of_mem_replicate hMem

/-- Erasing leaves only characters that were in the line before. -/
theorem ShellBufferClean.erase {s : ShellState} (h : ShellBufferClean s) (hSome : 0 < s.bufferLength.val) :
    ShellBufferClean s.erase := by
  refine ⟨?_, fun c hMem => ?_, fun c hMem => ?_⟩
  · show s.bufferLength.val - 1 ≤ 63
    exact (Nat.sub_le _ _).trans h.length
  · rw [shellLine_erase hSome] at hMem
    exact h.text c (List.mem_of_mem_dropLast hMem)
  · have hIndex : s.bufferLength.val - 1 < (s.buffer.toList.set (s.bufferLength.val - 1) 0#8).length := by
      rw [List.length_set, Vector.length_toList]
      exact (Nat.sub_le _ _).trans_lt s.bufferLength.isLt
    change c ∈ (s.buffer.set (s.bufferLength.val - 1) 0#8).toList.drop (s.bufferLength.val - 1) at hMem
    rw [Vector.toList_set, List.drop_eq_getElem_cons hIndex, List.getElem_set_self,
      List.drop_set_of_lt (Nat.lt_add_one _), Nat.sub_add_cancel hSome, List.mem_cons] at hMem
    exact hMem.elim id (h.rest c)

/-- Appending keeps the buffer clean, as every control character has a case of
its own. -/
theorem ShellBufferClean.append {s : ShellState} (h : ShellBufferClean s) {ascii : BitVec 8}
    (hRoom : ¬shellBufferSize - 1 ≤ s.bufferLength.val) (hNull : ascii ≠ 0#8)
    (hLineFeed : ascii ≠ asciiLineFeed) (hBackspace : ascii ≠ asciiBackspace) (hTab : ascii ≠ asciiTab) :
    ShellBufferClean (s.append ascii hRoom) := by
  refine ⟨?_, fun c hMem => ?_, fun c hMem => ?_⟩
  · show s.bufferLength.val + 1 ≤ 63
    have hSize : shellBufferSize = 64 := rfl
    omega
  · rw [shellLine_append, List.mem_append, List.mem_singleton] at hMem
    cases hMem with
    | inl hOld => exact h.text c hOld
    | inr hNew => exact hNew ▸ ⟨hNull, hLineFeed, hBackspace, hTab⟩
  · change c ∈ (s.buffer.set s.bufferLength.val ascii).toList.drop (s.bufferLength.val + 1) at hMem
    rw [Vector.toList_set, List.drop_set_of_lt (Nat.lt_add_one _), ← List.drop_drop] at hMem
    exact h.rest c (List.mem_of_mem_drop hMem)

/-- Every character but null keeps the buffer clean. -/
theorem ShellBufferClean.edit {s : ShellState} (h : ShellBufferClean s) {ascii : BitVec 8}
    (hNull : ascii ≠ 0#8) : ShellBufferClean (shellEdit ascii s) := by
  rw [shellEdit]
  split_ifs with hLineFeed hBackspace hSome hTab hFull
  · exact .reset
  · exact h.erase hSome
  · exact h
  · exact h
  · exact h
  · exact h.append hFull hNull hLineFeed hBackspace hTab

/-- A clean buffer is executed as the line that it holds. -/
theorem ShellBufferClean.command {s : ShellState} (h : ShellBufferClean s) :
    shellCommand s = shellLine s :=
  shellCommand_eq fun hMem => (h.text _ hMem).1 rfl

end Buffer

section Reference

/-- The reference editor inside one line. -/
def keepCharacter (line : List (BitVec 8)) (c : BitVec 8) : List (BitVec 8) :=
  if c = asciiTab then line
  else if c = asciiBackspace then line.dropLast
  else if line.length = 63 then line
  else line ++ [c]

/-- What is kept of the characters of one line. -/
def keptLine (characters : List (BitVec 8)) : List (BitVec 8) :=
  characters.foldl keepCharacter []

/-- The pieces between line feeds; the last one is not complete. -/
def typedPieces (characters : List (BitVec 8)) : List (List (BitVec 8)) :=
  characters.splitOn asciiLineFeed

/-- The lines of the reference editor. -/
def referenceLines (characters : List (BitVec 8)) : List (List (BitVec 8)) :=
  (typedPieces characters).dropLast.map keptLine

/-- The line that the reference editor has not finished. -/
def referenceRest (characters : List (BitVec 8)) : List (BitVec 8) :=
  keptLine ((typedPieces characters).getLastD [])

/-- A line feed ends a piece and opens an empty one. -/
theorem typedPieces_lineFeed (characters : List (BitVec 8)) :
    typedPieces (characters ++ [asciiLineFeed]) = typedPieces characters ++ [[]] := by
  rw [typedPieces, List.splitOn_append_cons_self, List.splitOn_nil, typedPieces]

/-- Characters other than line feeds go to the end of the last piece. -/
theorem typedPieces_append (characters : List (BitVec 8)) :
    ∃ pieces last, ∀ more, asciiLineFeed ∉ more →
      typedPieces (characters ++ more) = pieces ++ [last ++ more] := by
  induction characters using List.reverseRecOn with
  | nil => exact ⟨[], [], fun more hMore => List.splitOn_eq_singleton hMore⟩
  | append_singleton characters d ih =>
      by_cases hFeed : d = asciiLineFeed
      · subst hFeed
        refine ⟨typedPieces characters, [], fun more hMore => ?_⟩
        rw [List.append_assoc, List.singleton_append, typedPieces, List.splitOn_append_cons_self,
          List.splitOn_eq_singleton hMore, typedPieces, List.nil_append]
      · obtain ⟨pieces, last, hPieces⟩ := ih
        refine ⟨pieces, last ++ [d], fun more hMore => ?_⟩
        rw [List.append_assoc, List.append_assoc, hPieces]
        rw [List.singleton_append, List.mem_cons, not_or]
        exact ⟨fun hEq => hFeed hEq.symm, hMore⟩

/-- The reference runs the piece that a line feed ends, and starts again from
nothing. -/
theorem referenceLines_lineFeed (characters : List (BitVec 8)) :
    referenceLines (characters ++ [asciiLineFeed]) =
        referenceLines characters ++ [referenceRest characters] ∧
      referenceRest (characters ++ [asciiLineFeed]) = [] := by
  obtain ⟨pieces, last, hPieces⟩ := typedPieces_append characters
  have hBefore := hPieces [] List.not_mem_nil
  rw [List.append_nil, List.append_nil] at hBefore
  simp only [referenceLines, referenceRest, typedPieces_lineFeed, hBefore, List.dropLast_concat,
    List.getLastD_concat, List.map_append, List.map_singleton]
  exact ⟨trivial, rfl⟩

/-- Any other character runs nothing, and is kept or dropped by the line
editor. -/
theorem referenceLines_other (characters : List (BitVec 8)) {c : BitVec 8} (h : c ≠ asciiLineFeed) :
    referenceLines (characters ++ [c]) = referenceLines characters ∧
      referenceRest (characters ++ [c]) = keepCharacter (referenceRest characters) c := by
  obtain ⟨pieces, last, hPieces⟩ := typedPieces_append characters
  have hBefore := hPieces [] List.not_mem_nil
  have hAfter := hPieces [c] fun hMem => h (List.mem_singleton.mp hMem).symm
  rw [List.append_nil, List.append_nil] at hBefore
  simp only [referenceLines, referenceRest, hBefore, hAfter, List.dropLast_concat,
    List.getLastD_concat, keptLine, List.foldl_append]
  exact ⟨trivial, rfl⟩

end Reference

section Dispatch

/-- The built-in commands, in the order of the comparisons. -/
inductive ShellBuiltin where
  | help | clear | version | ticks | irq | input | mem | pmm | pmmTest | heap | paging | about | scroll
  deriving DecidableEq

namespace ShellBuiltin

def all : List ShellBuiltin :=
  [.help, .clear, .version, .ticks, .irq, .input, .mem, .pmm, .pmmTest, .heap, .paging, .about, .scroll]

def name : ShellBuiltin → List (BitVec 8)
  | .help => asciiText "help"
  | .clear => asciiText "clear"
  | .version => asciiText "version"
  | .ticks => asciiText "ticks"
  | .irq => asciiText "irq"
  | .input => asciiText "input"
  | .mem => asciiText "mem"
  | .pmm => asciiText "pmm"
  | .pmmTest => asciiText "pmm_test"
  | .heap => asciiText "heap"
  | .paging => asciiText "paging"
  | .about => asciiText "about"
  | .scroll => asciiText "scroll"

def program : ShellBuiltin → KernelProgram Unit
  | .help => shellCommandHelp
  | .clear => consoleClear
  | .version => shellCommandVersion
  | .ticks => shellCommandTicks
  | .irq => shellCommandIrq
  | .input => shellCommandInput
  | .mem => memoryPrintSummary
  | .pmm => pmmPrintSummary
  | .pmmTest => shellCommandPmmTest
  | .heap => shellCommandHeap
  | .paging => vmmPrintSummary
  | .about => shellCommandAbout
  | .scroll => shellCommandScrolltest

theorem mem_all (command : ShellBuiltin) : command ∈ all := by
  cases command <;> decide

/-- No two commands share a name, and no name is empty. -/
theorem name_injective {a b : ShellBuiltin} (h : a.name = b.name) : a = b := by
  have hAll : ∀ a ∈ all, ∀ b ∈ all, a.name = b.name → a = b := by decide
  exact hAll a (mem_all a) b (mem_all b) h

theorem name_ne_nil (command : ShellBuiltin) : command.name ≠ [] := by
  have hAll : ∀ command ∈ all, command.name ≠ [] := by decide
  exact hAll command (mem_all command)

end ShellBuiltin

/-- The path that `shell_execute_command` takes. -/
inductive ShellPath where
  | nothing
  | builtin (command : ShellBuiltin)
  | unknown
  deriving DecidableEq

def ShellPath.program (line : List (BitVec 8)) : ShellPath → KernelProgram Unit
  | .nothing => return ()
  | .builtin command => command.program
  | .unknown => shellUnknownCommand line

/-- The comparison of `shell_strings_equal` is equality of the two texts. -/
theorem shellStringsEqual_iff (left right : List (BitVec 8)) :
    shellStringsEqual left right = true ↔ left = right := by
  induction left generalizing right with
  | nil => cases right <;> simp [shellStringsEqual]
  | cons l left ih =>
      cases right with
      | nil => simp [shellStringsEqual]
      | cons r right =>
          rw [shellStringsEqual, List.cons.injEq, ← ih]
          split_ifs with hNe
          · simp [hNe]
          · simp [not_not.mp hNe]

/-- The comparisons of `shell_execute_command`, without the commands. -/
def shellPath (line : List (BitVec 8)) : ShellPath :=
  if shellCommandIsEmpty line then .nothing
  else
    match ShellBuiltin.all.find? fun command => shellStringsEqual line command.name with
    | some command => .builtin command
    | none => .unknown

theorem shellPath_nil : shellPath [] = .nothing := rfl

/-- The name of a command selects its own path, since the names differ from
each other. -/
theorem shellPath_name (command : ShellBuiltin) : shellPath command.name = .builtin command := by
  have hSome : ¬shellCommandIsEmpty command.name = true := by
    simpa [shellCommandIsEmpty] using command.name_ne_nil
  rw [shellPath, if_neg hSome]
  cases hFind : ShellBuiltin.all.find? fun other => shellStringsEqual command.name other.name with
  | none =>
      have hSelf := List.find?_eq_none.mp hFind command (ShellBuiltin.mem_all command)
      exact absurd ((shellStringsEqual_iff _ _).mpr rfl) hSelf
  | some other =>
      have hEqual := List.find?_some
        (p := fun other : ShellBuiltin => shellStringsEqual command.name other.name) hFind
      have hName := (shellStringsEqual_iff _ _).mp hEqual
      rw [ShellBuiltin.name_injective hName]

/-- A line that is not empty and names no command goes to the path for unknown
ones. -/
theorem shellPath_other {line : List (BitVec 8)} (hSome : line ≠ [])
    (h : ∀ command : ShellBuiltin, line ≠ command.name) : shellPath line = .unknown := by
  have hNone : ShellBuiltin.all.find? (fun command => shellStringsEqual line command.name) = none := by
    rw [List.find?_eq_none]
    intro command _
    rw [shellStringsEqual_iff]
    exact h command
  rw [shellPath, if_neg (by simpa [shellCommandIsEmpty] using hSome), hNone]

/-- On such a line the executor is the report of an unknown command. -/
theorem shellExecuteCommand_other {line : List (BitVec 8)} (hSome : line ≠ [])
    (h : ∀ command : ShellBuiltin, line ≠ command.name) :
    shellExecuteCommand line = shellUnknownCommand line := by
  have hName (command : ShellBuiltin) : ¬shellStringsEqual line command.name = true := by
    rw [shellStringsEqual_iff]
    exact h command
  rw [shellExecuteCommand, if_neg (by simpa [shellCommandIsEmpty] using hSome)]
  -- the comparisons of the source, one after the other
  exact (if_neg (hName .help)).trans <| (if_neg (hName .clear)).trans <|
    (if_neg (hName .version)).trans <| (if_neg (hName .ticks)).trans <|
    (if_neg (hName .irq)).trans <| (if_neg (hName .input)).trans <| (if_neg (hName .mem)).trans <|
    (if_neg (hName .pmm)).trans <| (if_neg (hName .pmmTest)).trans <| (if_neg (hName .heap)).trans <|
    (if_neg (hName .paging)).trans <| (if_neg (hName .about)).trans <| if_neg (hName .scroll)

/-- A line is empty, a command's name, or neither. -/
theorem shellLine_cases (line : List (BitVec 8)) :
    line = [] ∨ (∃ command : ShellBuiltin, line = command.name) ∨
      line ≠ [] ∧ ∀ command : ShellBuiltin, line ≠ command.name := by
  by_cases hEmpty : line = []
  · exact Or.inl hEmpty
  · by_cases hName : ∃ command : ShellBuiltin, line = command.name
    · exact Or.inr (Or.inl hName)
    · exact Or.inr (Or.inr ⟨hEmpty, fun command hEq => hName ⟨command, hEq⟩⟩)

/-- `shell_execute_command` runs the code of its path. -/
theorem shellExecuteCommand_path (line : List (BitVec 8)) :
    shellExecuteCommand line = (shellPath line).program line := by
  rcases shellLine_cases line with rfl | ⟨command, rfl⟩ | ⟨hSome, hOther⟩
  · rfl
  · rw [shellPath_name]
    cases command <;> rfl
  · rw [shellPath_other hSome hOther]
    exact shellExecuteCommand_other hSome hOther

/-- What the path says about the line. -/
structure ShellDispatches (line : List (BitVec 8)) : Prop where
  code : shellExecuteCommand line = (shellPath line).program line
  nothing_iff : shellPath line = .nothing ↔ line = []
  builtin_iff : ∀ command, shellPath line = .builtin command ↔ line = command.name
  unknown_iff : shellPath line = .unknown ↔
    line ≠ [] ∧ ∀ command : ShellBuiltin, line ≠ command.name

/-- Every line takes the path that its whole text selects, and no other. -/
theorem shell_dispatches (line : List (BitVec 8)) : ShellDispatches line := by
  have hBuiltin : ∀ command, shellPath line = .builtin command → line = command.name := by
    intro command hPath
    rcases shellLine_cases line with rfl | ⟨other, rfl⟩ | ⟨hSome, hOther⟩
    · exact ShellPath.noConfusion hPath
    · rw [shellPath_name] at hPath
      rw [ShellPath.builtin.inj hPath]
    · rw [shellPath_other hSome hOther] at hPath
      exact ShellPath.noConfusion hPath
  refine ⟨shellExecuteCommand_path line, ⟨fun hPath => ?_, ?_⟩, fun command =>
    ⟨hBuiltin command, ?_⟩, ⟨fun hPath => ?_, fun h => shellPath_other h.1 h.2⟩⟩
  · rcases shellLine_cases line with hEmpty | ⟨other, rfl⟩ | ⟨hSome, hOther⟩
    · exact hEmpty
    · rw [shellPath_name] at hPath
      exact ShellPath.noConfusion hPath
    · rw [shellPath_other hSome hOther] at hPath
      exact ShellPath.noConfusion hPath
  · rintro rfl
    exact shellPath_nil
  · rintro rfl
    exact shellPath_name command
  · constructor
    · rintro rfl
      exact ShellPath.noConfusion hPath
    · rintro command rfl
      rw [shellPath_name] at hPath
      exact ShellPath.noConfusion hPath

end Dispatch

section Run

/-- A call of `shell_handle_character` that returns, labelled with the
character and the lines it gave to `shell_execute_command`. -/
inductive ShellExecutes : ShellState → BitVec 8 × List (List (BitVec 8)) → ShellState → Prop where
  | handle {s t : ShellState} {ascii : BitVec 8} {trace : List (Exchange ShellRequest)}
      (hNull : ascii ≠ 0#8) (h : (shellHandleCharacterCalls ascii s).Returns trace t) :
      ShellExecutes s (ascii, executedCommands trace) t

/-- The shell against the reference editor. -/
structure ShellFollows (characters : List (BitVec 8)) (executed : List (List (BitVec 8)))
    (s : ShellState) : Prop where
  clean : ShellBufferClean s
  line : shellLine s = referenceRest characters
  executed : executed = referenceLines characters

/-- The line behind a character other than Enter is that of the reference
editor. -/
theorem shellLine_edit {s : ShellState} {c : BitVec 8} (h : c ≠ asciiLineFeed) :
    shellLine (shellEdit c s) = keepCharacter (shellLine s) c := by
  have hIndex : s.bufferLength.val < 64 := s.bufferLength.isLt
  have hSize : shellBufferSize - 1 = 63 := rfl
  have hLength := shellLine_length s
  rw [shellEdit, if_neg h, keepCharacter]
  by_cases hTab : c = asciiTab
  · rw [hTab, if_neg (by decide), if_pos rfl, if_pos rfl]
  by_cases hBackspace : c = asciiBackspace
  · rw [if_pos hBackspace, if_neg hTab, if_pos hBackspace]
    split_ifs with hSome
    · exact shellLine_erase hSome
    · have hEmpty : shellLine s = [] := by
        rw [← List.length_eq_zero_iff]
        omega
      rw [hEmpty]
      rfl
  · rw [if_neg hBackspace, if_neg hTab, if_neg hTab, if_neg hBackspace]
    split_ifs with hFull hKept hKept
    · rfl
    · omega
    · omega
    · exact shellLine_append s c hFull

/-- One call keeps the shell with the reference: its line, and what it has
executed. -/
theorem ShellFollows.step {characters : List (BitVec 8)} {executed lines : List (List (BitVec 8))}
    {s t : ShellState} {c : BitVec 8} (h : ShellFollows characters executed s)
    (hStep : ShellExecutes s (c, lines) t) :
    ShellFollows (characters ++ [c]) (executed ++ lines) t := by
  cases hStep with
  | handle hNull hReturns =>
      obtain ⟨rfl, hLines⟩ := shellHandleCharacterCalls_returns hReturns
      rw [hLines]
      by_cases hFeed : c = asciiLineFeed
      · subst hFeed
        obtain ⟨hReference, hRest⟩ := referenceLines_lineFeed characters
        refine ⟨h.clean.edit hNull, ?_, ?_⟩
        · rw [hRest, shellEdit, if_pos rfl]
          exact shellLine_reset
        · rw [if_pos rfl, hReference, h.clean.command, h.line, h.executed]
      · obtain ⟨hReference, hRest⟩ := referenceLines_other characters hFeed
        refine ⟨h.clean.edit hNull, ?_, ?_⟩
        · rw [hRest, shellLine_edit hFeed, h.line]
        · rw [if_neg hFeed, List.append_nil, hReference, h.executed]

theorem shellInitialize_follows {s : ShellState} {trace : List (Exchange KernelRequest)}
    (h : shellInitialize.Returns trace s) : ShellFollows [] [] s := by
  obtain ⟨_, _, _, -, -, hRest⟩ := returns_bind_iff.mp h
  obtain ⟨_, _, _, -, -, hRest⟩ := returns_bind_iff.mp hRest
  obtain ⟨rfl, -⟩ := returns_then_prompt hRest
  exact ⟨.reset, shellLine_reset, rfl⟩

/-- The shell runs exactly the edited lines. After any characters the buffer
is clean, and the lines given to `shell_execute_command` are those of the
reference editor; each line is dispatched by its whole text. The body in which
the calls of `shell_execute_command` are visible is the body of
`shell_handle_character` once they are inlined again. -/
theorem shell_executes_edited_lines {start finish : ShellState} {trace : List (Exchange KernelRequest)}
    {labels : List (BitVec 8 × List (List (BitVec 8)))}
    (hStart : shellInitialize.Returns trace start)
    (run : TransitionSystem.Run ShellExecutes start labels finish) :
    ShellBufferClean finish ∧
    labels.flatMap Prod.snd = referenceLines (labels.map Prod.fst) ∧
    (∀ line, ShellDispatches line) ∧
    ∀ ascii s, (shellHandleCharacterCalls ascii s).interpret inlineExecution =
      shellHandleCharacter ascii s := by
  have hFollows : ShellFollows (labels.map Prod.fst) (labels.flatMap Prod.snd) finish := by
    refine run.history_invariant
      (fun past s => ShellFollows (past.map Prod.fst) (past.flatMap Prod.snd) s)
      (shellInitialize_follows hStart) fun past s label t hPast hStep => ?_
    rw [List.map_append, List.flatMap_append, List.flatMap_singleton]
    exact hPast.step hStep
  exact ⟨hFollows.clean, hFollows.executed, shell_dispatches, shellHandleCharacterCalls_inline⟩

end Run

section Total

/-- What the code in front of and behind a command asks for, and the command. -/
def ShellRequest.Quiet : ∀ ⦃ρ : Type⦄, ShellRequest ρ → Prop
  | _, .inl request => request.Quiet
  | _, .inr _ => True

theorem kernelCode_quiet {α : Type} {p : KernelProgram α} (h : p.Only KernelRequest.Quiet) :
    (kernelCode p).Only ShellRequest.Quiet := by
  induction p with
  | done a => trivial
  | ask r next ih => exact ⟨h.1, fun reply => ih reply (h.2 reply)⟩

/-- Outside interrupt context every character has a call that returns. -/
theorem shellExecutes_exists (s : ShellState) {ascii : BitVec 8} (hNull : ascii ≠ 0#8) :
    ∃ lines t, ShellExecutes s (ascii, lines) t := by
  have hQuiet : (shellEditLineCalls ascii s).Only ShellRequest.Quiet := by
    rw [shellEditLineCalls]
    split_ifs
    · exact .bind (kernelCode_quiet (consolePutchar_only Output.quiet _)) fun _ =>
        .bind ⟨trivial, fun _ => trivial⟩ fun _ =>
          .bind (kernelCode_quiet (consoleWritestring_only Output.quiet _)) fun _ => trivial
    · exact kernelCode_quiet (shellEditLine_quiet ascii s)
  obtain ⟨trace, t, h⟩ := hQuiet.exists_returns fun _ request hRequest => by
    cases request with
    | inl request => exact hRequest.reply_nonempty request
    | inr request =>
        cases request with
        | executeCommand command => exact ⟨()⟩
  have hCall : (shellHandleCharacterCalls ascii s).Returns
      (⟨.kernel .interruptsGetContextDepth, 0#32⟩ :: trace) t := .ask h
  exact ⟨_, t, .handle hNull hCall⟩

/-- Every text without NUL has a run of complete calls. -/
theorem shellExecution_exists (s : ShellState) (characters : List (BitVec 8)) (hNull : 0#8 ∉ characters) :
    ∃ labels t, TransitionSystem.Run ShellExecutes s labels t ∧ labels.map Prod.fst = characters := by
  induction characters generalizing s with
  | nil => exact ⟨[], s, .nil, rfl⟩
  | cons ascii rest ih =>
      rw [List.mem_cons, not_or] at hNull
      obtain ⟨lines, t, hStep⟩ := shellExecutes_exists s fun hZero : ascii = 0#8 => hNull.1 hZero.symm
      obtain ⟨labels, u, run, hLabels⟩ := ih t hNull.2
      exact ⟨_, u, run.cons hStep, by rw [List.map_cons, hLabels]⟩

/-- A typing error, its correction, a tab, Enter, and an unfinished line. -/
theorem shell_executes_edited_lines_corrected : ∃ start labels finish,
    TransitionSystem.Run ShellExecutes start labels finish ∧
    labels.map Prod.fst = asciiText "piq" ++ [0x08#8, 0x08#8, 0x09#8] ++ asciiText "mm\nhe" ∧
    labels.flatMap Prod.snd = [ShellBuiltin.pmm.name] ∧ ShellBufferClean finish := by
  obtain ⟨⟨start, calls⟩, trace, hStart, -⟩ := shellStart_exists
  obtain ⟨labels, finish, run, hLabels⟩ := shellExecution_exists start
    (asciiText "piq" ++ [0x08#8, 0x08#8, 0x09#8] ++ asciiText "mm\nhe") (by decide)
  obtain ⟨hClean, hLines, -⟩ := shell_executes_edited_lines hStart run
  refine ⟨start, labels, finish, run, hLabels, ?_, hClean⟩
  rw [hLines, hLabels]
  decide +kernel

end Total
end WigOSX
