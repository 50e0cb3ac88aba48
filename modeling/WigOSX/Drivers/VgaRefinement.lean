import WigOSX.Drivers.PlainTerminal
import WigOSX.Library.CircularWindow

/-! The viewport terminal shows what the plain terminal holds. The visible
screen is the window of 2000 cells that begins at the view start. A scroll
moves the window by one row, so the plain terminal's copy is a renumbering of
cells and only the new bottom row has to be written. -/
namespace WigOSX
open CircularWindow (cell)

section Cells

theorem vgaTextMemoryCells_eq : vgaTextMemoryCells = 16384 := rfl

/-- The cell of a position is counted from the start of the view, around the
ring of 16384 cells. -/
theorem terminalGetBufferIndex_eq (t : TerminalState) (row column : Nat) :
    terminalGetBufferIndex t row column = (t.viewStart + (80 * row + column)) % 16384 := by
  rw [terminalGetBufferIndex, terminalWrapIndex, vgaTextMemoryCells_eq, vgaWidth, Nat.add_assoc,
    Nat.mul_comm]

/-- A store changes one cell of the visible window. -/
theorem terminalStore_cell (t : TerminalState) {row column : Nat} (hRow : row < 25)
    (hColumn : column < 80) (entry : BitVec 16) {k : Nat} (hk : k < 16384) :
    cell (terminalStore t row column entry).buffer 16384 t.viewStart k =
      if k = 80 * row + column then entry else cell t.buffer 16384 t.viewStart k := by
  rw [terminalStore, terminalGetBufferIndex_eq]
  exact CircularWindow.cell_update t.buffer 16384 t.viewStart (by omega) hk entry

/-- Clearing a row blanks its 80 cells and nothing else. -/
theorem terminalClearRow_spec (t : TerminalState) (row : Nat) (hRow : row < 25) :
    ∃ buffer, terminalClearRow row t = { t with buffer := buffer } ∧
      ∀ k < 16384, cell buffer 16384 t.viewStart k =
        if 80 * row ≤ k ∧ k < 80 * row + 80 then vgaEntry asciiSpace t.color
        else cell t.buffer 16384 t.viewStart k := by
  have hLoop : ∀ n ≤ 80, ∃ buffer,
      (List.range n).foldl (fun t x => terminalStore t row x (vgaEntry asciiSpace t.color)) t =
        { t with buffer := buffer } ∧
      ∀ k < 16384, cell buffer 16384 t.viewStart k =
        if 80 * row ≤ k ∧ k < 80 * row + n then vgaEntry asciiSpace t.color
        else cell t.buffer 16384 t.viewStart k := by
    intro n
    induction n with
    | zero =>
        intro _
        refine ⟨t.buffer, rfl, fun k _ => ?_⟩
        rw [if_neg (by omega)]
    | succ n ih =>
        intro hn
        obtain ⟨buffer, hFold, hCells⟩ := ih (by omega)
        rw [List.range_succ, List.foldl_append, hFold]
        refine ⟨_, rfl, fun k hk => ?_⟩
        have hStore := terminalStore_cell { t with buffer := buffer } hRow
          (show n < 80 by omega) (vgaEntry asciiSpace t.color) hk
        refine hStore.trans ?_
        show (if _ then _ else cell buffer 16384 t.viewStart k) = _
        rw [hCells k hk]
        by_cases hHere : k = 80 * row + n
        · rw [if_pos hHere, if_pos (by omega)]
        · rw [if_neg hHere]
          congr 1
          exact propext (by omega)
  exact hLoop 80 (Nat.le_refl 80)

/-- Clearing all rows blanks the 2000 cells of the window. -/
theorem terminalClearRows_spec (t : TerminalState) :
    ∃ buffer, (List.range vgaHeight).foldl (fun t y => terminalClearRow y t) t =
        { t with buffer := buffer } ∧
      ∀ k < 2000, cell buffer 16384 t.viewStart k = vgaEntry asciiSpace t.color := by
  have hLoop : ∀ n ≤ 25, ∃ buffer,
      (List.range n).foldl (fun t y => terminalClearRow y t) t = { t with buffer := buffer } ∧
      ∀ k < 80 * n, cell buffer 16384 t.viewStart k = vgaEntry asciiSpace t.color := by
    intro n
    induction n with
    | zero =>
        intro _
        exact ⟨t.buffer, rfl, fun k hk => absurd hk (by omega)⟩
    | succ n ih =>
        intro hn
        obtain ⟨buffer, hFold, hCells⟩ := ih (by omega)
        obtain ⟨next, hClear, hNext⟩ := terminalClearRow_spec { t with buffer := buffer }
          n (by omega)
        rw [List.range_succ, List.foldl_append, hFold, List.foldl_cons, List.foldl_nil, hClear]
        refine ⟨next, rfl, fun k hk => ?_⟩
        rw [hNext k (by omega)]
        by_cases hHere : 80 * n ≤ k
        · rw [if_pos (by omega)]
        · rw [if_neg (by omega)]
          exact hCells k (by omega)
  exact hLoop 25 (Nat.le_refl 25)

/-- Programming the two halves of the start address. -/
theorem vgaCrtc_outb_startAddress (crtc : VgaCrtc) (high low : BitVec 8) :
    ((((crtc.outb vgaCrtcIndexPort vgaCrtcStartAddressHigh).outb vgaCrtcDataPort high).outb
      vgaCrtcIndexPort vgaCrtcStartAddressLow).outb vgaCrtcDataPort low).startAddress =
      high.toNat * 256 + low.toNat := by
  show (Function.update (Function.update crtc.registers vgaCrtcStartAddressHigh high)
      vgaCrtcStartAddressLow low vgaCrtcStartAddressHigh).toNat * 256 +
    (Function.update (Function.update crtc.registers vgaCrtcStartAddressHigh high)
      vgaCrtcStartAddressLow low vgaCrtcStartAddressLow).toNat = _
  rw [Function.update_of_ne (by decide), Function.update_self, Function.update_self]

/-- The two register writes carry the low sixteen bits of the start. -/
theorem terminalSetHardwareViewStart_spec (t : TerminalState) (cellOffset : Nat)
    (h : cellOffset < 16384) :
    ∃ crtc, terminalSetHardwareViewStart cellOffset t = { t with crtc := crtc } ∧
      crtc.startAddress = cellOffset := by
  have hAddress : (BitVec.ofNat 16 cellOffset).toNat = cellOffset := by
    rw [BitVec.toNat_ofNat]
    omega
  have hByte : ∀ v : BitVec 16, ((v &&& 0xFF#16).setWidth 8).toNat = v.toNat % 256 := by
    intro v
    have hMask : (0xFF#16).toNat = 2 ^ 8 - 1 := rfl
    rw [BitVec.toNat_setWidth, BitVec.toNat_and, hMask, Nat.and_two_pow_sub_one_eq_mod,
      Nat.mod_mod]
  have hHigh : (BitVec.ofNat 16 cellOffset >>> 8).toNat = cellOffset / 256 := by
    rw [BitVec.toNat_ushiftRight, hAddress, Nat.shiftRight_eq_div_pow]
  refine ⟨_, rfl, ?_⟩
  rw [vgaCrtc_outb_startAddress, hByte, hByte, hHigh, hAddress]
  omega

/-- A scroll moves the window by one row and blanks the row that comes in. -/
theorem terminalScrollUp_spec (t : TerminalState) :
    ∃ crtc buffer, terminalScrollUp t =
        { t with viewStart := (t.viewStart + 80) % 16384, crtc := crtc, buffer := buffer } ∧
      crtc.startAddress = (t.viewStart + 80) % 16384 ∧
      ∀ k < 16384, cell buffer 16384 ((t.viewStart + 80) % 16384) k =
        if 1920 ≤ k ∧ k < 2000 then vgaEntry asciiSpace t.color
        else cell t.buffer 16384 t.viewStart (80 + k) := by
  have hWrap : terminalWrapIndex (t.viewStart + vgaWidth) = (t.viewStart + 80) % 16384 := rfl
  have hLt : (t.viewStart + 80) % 16384 < 16384 := Nat.mod_lt _ (by decide)
  obtain ⟨crtc, hStart, hAddress⟩ := terminalSetHardwareViewStart_spec
    { t with viewStart := (t.viewStart + 80) % 16384 } _ hLt
  obtain ⟨buffer, hClear, hCells⟩ := terminalClearRow_spec
    { t with viewStart := (t.viewStart + 80) % 16384, crtc := crtc } 24 (by decide)
  refine ⟨crtc, buffer, ?_, hAddress, fun k hk => ?_⟩
  · simp only [terminalScrollUp, hWrap, hStart]
    exact hClear
  · refine (hCells k hk).trans ?_
    show (if _ then _ else cell t.buffer 16384 ((t.viewStart + 80) % 16384) k) = _
    rw [CircularWindow.cell_mod_start, CircularWindow.cell_advance]

end Cells

section Simulation

/-- The terminal state and the plain terminal agree on cursor, color and
every visible cell, and the controller shows the window. -/
structure TerminalShows (t : TerminalState) (p : PlainTerminal) : Prop where
  row : t.row = p.row
  column : t.column = p.column
  color : t.color = p.color
  view : t.viewStart = 80 * p.scrolls % 16384
  crtc : t.crtc.startAddress = t.viewStart
  cells : ∀ (r : Fin 25) (c : Fin 80),
    ScreenCell.read (cell t.buffer 16384 t.viewStart (80 * r + c)) = p.cells r c

variable {t : TerminalState} {p : PlainTerminal}

/-- Replaces the cells of the plain terminal and moves its cursor. -/
theorem TerminalShows.place (h : TerminalShows t p) {row column : Nat} {buffer : Nat → BitVec 16}
    {cells : Fin 25 → Fin 80 → ScreenCell} {r : Fin 25} {c : Fin 80} (hRow : row = r)
    (hColumn : column = c)
    (hCells : ∀ (r : Fin 25) (c : Fin 80),
      ScreenCell.read (cell buffer 16384 t.viewStart (80 * r + c)) = cells r c) :
    TerminalShows { t with row := row, column := column, buffer := buffer }
      { p with row := r, column := c, cells := cells } :=
  ⟨hRow, hColumn, h.color, h.view, h.crtc, hCells⟩

theorem visible_lt (r : Fin 25) (c : Fin 80) : 80 * r.val + c.val < 16384 := by
  omega

/-- Clearing needs nothing of the state before but its color. -/
theorem terminalClear_shows (hColor : t.color = p.color) :
    TerminalShows (terminalClear t) p.clear := by
  obtain ⟨crtc, hStart, hAddress⟩ := terminalSetHardwareViewStart_spec
    { t with viewStart := 0 } 0 (by decide)
  obtain ⟨buffer, hClear, hCells⟩ := terminalClearRows_spec { t with viewStart := 0, crtc := crtc }
  have hEq : terminalClear t =
      { t with viewStart := 0, crtc := crtc, buffer := buffer, row := 0, column := 0 } := by
    simp only [terminalClear, hStart, hClear]
  rw [hEq]
  refine ⟨rfl, rfl, hColor, rfl, hAddress, fun r c => ?_⟩
  refine (congrArg ScreenCell.read (hCells _ (by omega))).trans ?_
  rw [ScreenCell.read_vgaEntry, hColor]
  rfl

/-- Both terminals start blank, with the cursor in the corner. -/
theorem terminalInitialize_shows (initial : TerminalState) :
    TerminalShows (terminalInitialize initial) .start :=
  terminalClear_shows (p := .start) rfl

/-- The window after a scroll is the old window moved by one row with a
blank row at its end. -/
theorem TerminalShows.scroll (h : TerminalShows t p) :
    TerminalShows (terminalScrollUp t) p.scroll := by
  obtain ⟨crtc, buffer, hEq, hAddress, hCells⟩ := terminalScrollUp_spec t
  rw [hEq]
  refine ⟨h.row, h.column, h.color, ?_, hAddress, fun r c => ?_⟩
  · show (t.viewStart + 80) % 16384 = 80 * (p.scrolls + 1) % 16384
    rw [h.view, Nat.mod_add_mod, Nat.mul_succ]
  · refine (congrArg ScreenCell.read (hCells _ (visible_lt r c))).trans ?_
    by_cases hLast : r.val + 1 < 25
    · have hCopied : p.scroll.cells r c = p.cells ⟨r.val + 1, hLast⟩ c := dif_pos hLast
      have hIndex : 80 + (80 * r.val + c.val) = 80 * (r.val + 1) + c.val := by omega
      rw [if_neg (by omega), hCopied, hIndex]
      exact h.cells ⟨r.val + 1, hLast⟩ c
    · have hBlank : p.scroll.cells r c = p.blank := dif_neg hLast
      rw [if_pos (by omega), ScreenCell.read_vgaEntry, hBlank, h.color]
      rfl

/-- A carriage return moves both cursors to the first column. -/
theorem TerminalShows.carriageReturn (h : TerminalShows t p) :
    TerminalShows (terminalCarriageReturn t) p.carriageReturn :=
  h.place h.row rfl h.cells

/-- A line feed moves both cursors down, or scrolls both screens. -/
theorem TerminalShows.newline (h : TerminalShows t p) :
    TerminalShows (terminalNewline t) p.newline := by
  have hHeight : vgaHeight = 25 := rfl
  have hRow := h.row
  rw [terminalNewline, PlainTerminal.newline, hHeight]
  by_cases hLast : p.row.val + 1 < 25
  · have hNext : t.row + 1 = p.row.val + 1 := by rw [hRow]
    rw [if_neg (by show ¬25 ≤ t.row + 1; omega), dif_pos hLast]
    exact h.place hNext rfl h.cells
  · have hBottom : 24 = p.row.val := by omega
    have hScroll := h.carriageReturn.scroll
    rw [if_pos (by show 25 ≤ t.row + 1; omega), dif_neg hLast]
    exact hScroll.place hBottom hScroll.column hScroll.cells

/-- A store into the cursor's row fills one column of the plain array. -/
theorem TerminalShows.store (h : TerminalShows t p) (column : Fin 80) (entry : BitVec 16) :
    TerminalShows (terminalStore t t.row column entry)
      (p.fill column.val (column.val + 1) (ScreenCell.read entry)) := by
  refine h.place h.row h.column fun r c => ?_
  have hRow := h.row
  have hStore := terminalStore_cell t (show t.row < 25 by omega) column.isLt entry (visible_lt r c)
  rw [terminalStore] at hStore
  rw [hStore, hRow]
  by_cases hHere : r = p.row ∧ column.val ≤ c.val ∧ c.val < column.val + 1
  · obtain ⟨rfl, hLow, hHigh⟩ := hHere
    rw [if_pos (by omega), if_pos ⟨rfl, hLow, hHigh⟩]
  · rw [if_neg hHere, if_neg, h.cells r c]
    intro hEq
    exact hHere ⟨Fin.ext (by omega), by omega, by omega⟩

/-- Advancing the cursor by one column, with the wrap at the right edge. -/
theorem TerminalShows.advance (h : TerminalShows t p) (column : Nat) :
    TerminalShows
      (if vgaWidth ≤ column then terminalNewline { t with column := column }
        else { t with column := column })
      (p.moveTo column) := by
  have hWidth : vgaWidth = 80 := rfl
  rw [PlainTerminal.moveTo, hWidth]
  by_cases hEdge : column < 80
  · rw [if_neg (Nat.not_le.mpr hEdge), dif_pos hEdge]
    exact h.place h.row rfl h.cells
  · rw [if_pos (Nat.le_of_not_lt hEdge), dif_neg hEdge]
    exact h.newline

/-- A printable character goes to the same place on both screens and moves
both cursors on. -/
theorem TerminalShows.glyph (h : TerminalShows t p) (c : BitVec 8) :
    TerminalShows (terminalPutGlyph c t) (p.glyph c) := by
  have hStore := h.store p.column (vgaEntry c t.color)
  rw [← h.column, ScreenCell.read_vgaEntry, h.color] at hStore
  rw [PlainTerminal.glyph, ← h.column]
  have hNext := hStore.advance (t.column + 1)
  rw [← h.color] at hNext ⊢
  exact hNext

/-- A tab stop is at most the right edge, so only the last of the spaces that
`terminal_tab` emits can leave the row. -/
theorem TerminalShows.tab (h : TerminalShows t p) : TerminalShows (terminalTab t) p.tab := by
  have hGlyphs : ∀ n, TerminalShows ((List.range n).foldl (fun t _ => terminalPutGlyph asciiSpace t) t)
      ((PlainTerminal.glyph 0x20#8)^[n] p) := by
    intro n
    induction n with
    | zero => exact h
    | succ n ih =>
        rw [List.range_succ, List.foldl_append, Function.iterate_succ_apply']
        exact ih.glyph asciiSpace
  have hSpaces : tabWidth - t.column % tabWidth = p.tabStop - p.column.val := by
    have hWidth : tabWidth = 4 := rfl
    rw [hWidth, h.column, PlainTerminal.tabStop]
    omega
  rw [terminalTab, hSpaces, PlainTerminal.tab_eq_glyphs]
  exact hGlyphs _

/-- A backspace takes the same character off both screens. -/
theorem TerminalShows.backspace (h : TerminalShows t p) :
    TerminalShows (terminalBackspace t) p.backspace := by
  have hColumn := h.column
  have hRow := h.row
  have hBlank : ScreenCell.read (vgaEntry asciiSpace t.color) = p.blank := by
    rw [ScreenCell.read_vgaEntry, h.color]
    rfl
  rw [terminalBackspace, PlainTerminal.backspace]
  by_cases hInside : 0 < p.column.val
  · have hBack : p.column.val - 1 + 1 = p.column.val := by omega
    have hStore := h.store ⟨p.column.val - 1, by omega⟩ (vgaEntry asciiSpace t.color)
    rw [if_pos (by omega), if_pos hInside]
    rw [hBack, hBlank] at hStore
    simp only [hColumn]
    exact hStore.place hStore.row rfl hStore.cells
  · rw [if_neg (by omega), if_neg hInside]
    by_cases hAbove : 0 < p.row.val
    · have hUp : TerminalShows { t with row := t.row - 1, column := vgaWidth - 1 }
          { p with row := ⟨p.row.val - 1, by omega⟩, column := 79 } :=
        h.place (show t.row - 1 = p.row.val - 1 by rw [hRow]) rfl h.cells
      rw [if_pos (by omega), if_pos hAbove]
      show TerminalShows _ (PlainTerminal.fill _ 79 80 p.blank)
      rw [← hBlank]
      exact hUp.store 79 (vgaEntry asciiSpace t.color)
    · rw [if_neg (by omega), if_neg hAbove]
      exact h

/-- The codes of the reference are the driver's named control characters. -/
theorem PlainTerminal.putchar_eq (p : PlainTerminal) (c : BitVec 8) : p.putchar c =
    if c = asciiLineFeed then p.newline
    else if c = asciiCarriageReturn then p.carriageReturn
    else if c = asciiTab then p.tab
    else if c = asciiBackspace then p.backspace
    else if c = asciiFormFeed then p.clear
    else p.glyph c := rfl

/-- The two terminals take the same case of each character. -/
theorem TerminalShows.putchar (h : TerminalShows t p) (c : BitVec 8) :
    TerminalShows (terminalPutchar c t) (p.putchar c) := by
  rw [terminalPutchar, PlainTerminal.putchar_eq]
  split_ifs
  · exact h.newline
  · exact h.carriageReturn
  · exact h.tab
  · exact h.backspace
  · exact terminalClear_shows h.color
  · exact h.glyph c

/-- Text keeps the two screens together, by induction on the text. -/
theorem TerminalShows.write (h : TerminalShows t p) (data : List (BitVec 8)) :
    TerminalShows (terminalWrite data t) (data.foldl (fun p c => p.putchar c) p) := by
  induction data generalizing t p with
  | nil => exact h
  | cons c rest ih => exact ih (h.putchar c)

/-- Every call keeps the two terminals in step. -/
theorem TerminalShows.call (h : TerminalShows t p) (call : TerminalCall) :
    TerminalShows (terminalCall t call) (p.call call) := by
  cases call with
  | putchar c => exact h.putchar c
  | write data => exact h.write data
  | clear => exact terminalClear_shows h.color
  | setcolor color => exact ⟨h.row, h.column, rfl, h.view, h.crtc, h.cells⟩

/-- So does every sequence of calls. -/
theorem TerminalShows.calls (h : TerminalShows t p) (calls : List TerminalCall) :
    TerminalShows (calls.foldl terminalCall t) (calls.foldl PlainTerminal.call p) := by
  induction calls generalizing t p with
  | nil => exact h
  | cons call rest ih => exact ih (h.call call)

/-- The viewport terminal refines the plain one. After any sequence of calls
each visible cell has the reference's character in its low byte and the
reference's color in its high byte, the cursor and the color are those of the
reference, the positions are in range, and the controller was last given the
view start. -/
theorem terminal_refines_plain (initial : TerminalState) (calls : List TerminalCall) :
    let t := calls.foldl terminalCall (terminalInitialize initial)
    let p := calls.foldl PlainTerminal.call PlainTerminal.start
    (∀ (r : Fin 25) (c : Fin 80),
      (t.buffer ((t.viewStart + 80 * r.val + c.val) % 16384)).extractLsb' 0 8 = (p.cells r c).character ∧
      (t.buffer ((t.viewStart + 80 * r.val + c.val) % 16384)).extractLsb' 8 8 = (p.cells r c).color) ∧
    t.row = p.row ∧ t.column = p.column ∧ t.color = p.color ∧
    t.row < 25 ∧ t.column < 80 ∧ t.viewStart < 16384 ∧ t.crtc.startAddress = t.viewStart := by
  intro t p
  have h : TerminalShows t p := (terminalInitialize_shows initial).calls calls
  have hRow := h.row
  have hColumn := h.column
  refine ⟨fun r c => ?_, hRow, hColumn, h.color, by omega, by omega, ?_, h.crtc⟩
  · rw [Nat.add_assoc, ← h.cells r c]
    exact ⟨rfl, rfl⟩
  · rw [h.view]
    exact Nat.mod_lt _ (by decide)

end Simulation
end WigOSX
