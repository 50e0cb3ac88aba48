import WigOSX.Drivers.VgaRefinement

/-! The window against the hardware scan. The driver reduces cell indices
modulo the size of text memory, while the CRTC scans consecutive cells. The
two agree exactly as long as the window does not reach past the last cell,
and that depends only on how often the screen has scrolled. -/
namespace WigOSX

/-- The driver draws the cells that the controller scans, and all of them
exist. -/
def WindowIsLinear (t : TerminalState) : Prop :=
  ∀ row < 25, ∀ column < 80,
    terminalGetBufferIndex t row column = t.crtc.startAddress + 80 * row + column ∧
      t.crtc.startAddress + 80 * row + column < vgaTextMemoryCells

/-- The reduction does nothing exactly when the last window cell is in range. -/
theorem windowIsLinear_iff {t : TerminalState} {p : PlainTerminal} (h : TerminalShows t p) :
    WindowIsLinear t ↔ 80 * p.scrolls % 16384 ≤ 14384 := by
  have hView := h.view
  rw [WindowIsLinear, h.crtc, vgaTextMemoryCells_eq, ← hView]
  constructor
  · intro hLinear
    have hLast := (hLinear 24 (by decide) 79 (by decide)).2
    omega
  · intro hBound row hRow column hColumn
    rw [terminalGetBufferIndex_eq, Nat.mod_eq_of_lt (by omega)]
    omega

/-- After any sequence of calls the displayed window is inside text memory
if and only if the view start that follows from the scrolls since the screen
was last cleared leaves room for a whole screen behind it. -/
theorem terminal_window_linear_iff (initial : TerminalState) (calls : List TerminalCall) :
    WindowIsLinear (calls.foldl terminalCall (terminalInitialize initial)) ↔
      80 * (calls.foldl PlainTerminal.call PlainTerminal.start).scrolls % 16384 ≤ 14384 :=
  windowIsLinear_iff ((terminalInitialize_shows initial).calls calls)

/-- A new line moves the cursor down and scrolls at the last row. -/
theorem PlainTerminal.newline_counts (p : PlainTerminal) :
    p.newline.row.val = min (p.row.val + 1) 24 ∧ p.newline.scrolls = p.scrolls + (p.row.val + 1 - 24) := by
  rw [newline]
  split_ifs with hInside
  · constructor
    · show p.row.val + 1 = _
      omega
    · show p.scrolls = _
      omega
  · constructor
    · show p.row.val = _
      omega
    · show p.scrolls + 1 = _
      omega

/-- Line feeds on a fresh screen: the cursor goes down to the last row, and
every further one scrolls. -/
theorem PlainTerminal.line_feeds (n : Nat) :
    let p := (List.replicate n (TerminalCall.putchar asciiLineFeed)).foldl call start
    p.row.val = min n 24 ∧ p.scrolls = n - 24 := by
  induction n with
  | zero => exact ⟨rfl, rfl⟩
  | succ n ih =>
      rw [List.replicate_succ', List.foldl_append]
      obtain ⟨hRow, hScrolls⟩ := ih
      have hStep := newline_counts ((List.replicate n (TerminalCall.putchar asciiLineFeed)).foldl call start)
      rw [hRow, hScrolls] at hStep
      show (newline _).row.val = _ ∧ (newline _).scrolls = _
      rw [hStep.1, hStep.2]
      omega

/-- The 180th scroll puts the last row of the window past the last cell. -/
theorem terminal_window_not_linear :
    ¬WindowIsLinear ((List.replicate 204 (TerminalCall.putchar asciiLineFeed)).foldl terminalCall
      (terminalInitialize .boot)) := by
  have hScrolls := (PlainTerminal.line_feeds 204).2
  rw [windowIsLinear_iff ((terminalInitialize_shows .boot).calls _), hScrolls]
  decide

end WigOSX
