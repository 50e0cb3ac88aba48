import WigOSX.Drivers.Vga

/-! The console service of `console.c` over the terminal. -/
namespace WigOSX

/-- The static state of `console.c` and of the terminal behind it. -/
structure ConsoleState where
  initialized : Bool
  terminal : TerminalState

def consoleInitialize (s : ConsoleState) : ConsoleState where
  initialized := true
  terminal := terminalInitialize s.terminal

/-- A call of the console. The text of `console_writestring` is never null. -/
inductive ConsoleCall where
  | putchar (character : BitVec 8)
  | writestring (text : List (BitVec 8))
  | clear
deriving DecidableEq

/-- The terminal call behind a console call. -/
def ConsoleCall.terminalCall : ConsoleCall → TerminalCall
  | .putchar character => .putchar character
  | .writestring text => .write text
  | .clear => .clear

/-- The three console functions are guarded by the same flag. -/
def consoleCall (s : ConsoleState) (call : ConsoleCall) : ConsoleState :=
  if !s.initialized then s
  else { s with terminal := terminalCall s.terminal call.terminalCall }

/-- The text that a call emits. -/
def ConsoleCall.text : ConsoleCall → List (BitVec 8)
  | .putchar character => [character]
  | .writestring text => text
  | .clear => []

end WigOSX
