import WigOSX.Drivers.VgaRefinement
import WigOSX.Library.Typewriter

/-! Backspace against printing. The rows that the screen has shown since some
state are laid out on one unbounded strip, on which a scroll moves nothing and
the cursor only steps forward and back. -/
namespace WigOSX
open CircularWindow (cell)
open Typewriter (Strip)

/-- How often `terminal_putchar` calls `terminal_scroll_up` for a character
that it stores. -/
def terminalGlyphScrolls (t : TerminalState) : Nat :=
  if vgaWidth ≤ t.column + 1 ∧ vgaHeight ≤ t.row + 1 then 1 else 0

def terminalWriteScrolls : List (BitVec 8) → TerminalState → Nat
  | [], _ => 0
  | c :: rest, t => terminalGlyphScrolls t + terminalWriteScrolls rest (terminalPutchar c t)

/-- The characters other than line feed, carriage return, tab, backspace and
form feed. -/
def TerminalPrintable (c : BitVec 8) : Prop :=
  c ≠ 0x0A#8 ∧ c ≠ 0x0D#8 ∧ c ≠ 0x09#8 ∧ c ≠ 0x08#8 ∧ c ≠ 0x0C#8

instance (c : BitVec 8) : Decidable (TerminalPrintable c) := inferInstanceAs (Decidable (_ ∧ _))

/-- A state that calls on the initialized terminal lead to. -/
def TerminalReachable (t : TerminalState) : Prop :=
  ∃ (initial : TerminalState) (calls : List TerminalCall),
    t = calls.foldl terminalCall (terminalInitialize initial)

/-- No case of `terminal_putchar` names a printable character. -/
theorem terminalPutchar_printable {c : BitVec 8} (h : TerminalPrintable c) (t : TerminalState) :
    terminalPutchar c t = terminalPutGlyph c t := by
  obtain ⟨hLineFeed, hCarriageReturn, hTab, hBackspace, hFormFeed⟩ :
    c ≠ asciiLineFeed ∧ c ≠ asciiCarriageReturn ∧ c ≠ asciiTab ∧ c ≠ asciiBackspace ∧
      c ≠ asciiFormFeed := h
  rw [terminalPutchar, if_neg hLineFeed, if_neg hCarriageReturn, if_neg hTab, if_neg hBackspace,
    if_neg hFormFeed]

theorem terminalPutchar_backspace : terminalPutchar 0x08#8 = terminalBackspace := rfl

section Strip

/-- The screen is the part of the strip that begins `scrolls` rows after the
row at `origin`, and the strip is still blank below the screen. -/
structure TerminalOnStrip (t : TerminalState) (color : BitVec 8) (origin scrolls : Nat)
    (strip : Strip (BitVec 16)) : Prop where
  row : t.row < 25
  column : t.column < 80
  view : t.viewStart = (origin + 80 * scrolls) % 16384
  head : strip.head = 80 * scrolls + (80 * t.row + t.column)
  cells : ∀ k < 2000, cell t.buffer 16384 t.viewStart k = strip.cells (80 * scrolls + k)
  below : ∀ i, 80 * scrolls + 2000 ≤ i → strip.cells i = vgaEntry asciiSpace color
  color : t.color = color

/-- The strip of a state: its screen, and blank cells behind it. -/
def terminalStrip (t : TerminalState) : Strip (BitVec 16) where
  cells i := if i < 2000 then cell t.buffer 16384 t.viewStart i else vgaEntry asciiSpace t.color
  head := 80 * t.row + t.column

variable {t : TerminalState} {color : BitVec 8} {origin scrolls : Nat} {strip : Strip (BitVec 16)}

/-- Every reachable screen is a window on some strip. -/
theorem TerminalReachable.onStrip (h : TerminalReachable t) :
    TerminalOnStrip t t.color t.viewStart 0 (terminalStrip t) := by
  obtain ⟨initial, calls, rfl⟩ := h
  have hShows := (terminalInitialize_shows initial).calls calls
  have hRow := hShows.row
  have hColumn := hShows.column
  have hView := hShows.view
  refine ⟨by omega, by omega, by omega, (Nat.zero_add _).symm, fun k hk => ?_, fun i hi => ?_, rfl⟩
  · rw [Nat.mul_zero, Nat.zero_add]
    exact (if_pos hk).symm
  · exact if_neg (by omega)

/-- A store at the new cursor changes the same cell of the strip. -/
theorem TerminalOnStrip.store (h : TerminalOnStrip t color origin scrolls strip) {row column : Nat}
    (hRow : row < 25) (hColumn : column < 80) (entry : BitVec 16) :
    TerminalOnStrip { terminalStore t row column entry with row := row, column := column } color
      origin scrolls
      { cells := Function.update strip.cells (80 * scrolls + (80 * row + column)) entry
        head := 80 * scrolls + (80 * row + column) } := by
  refine ⟨hRow, hColumn, h.view, rfl, fun k hk => ?_, fun i hi => ?_, h.color⟩
  · refine (terminalStore_cell t hRow hColumn entry (by omega)).trans ?_
    show _ = Function.update strip.cells _ entry _
    by_cases hHere : k = 80 * row + column
    · rw [if_pos hHere, hHere, Function.update_self]
    · rw [if_neg hHere, Function.update_of_ne (by omega), h.cells k hk]
  · exact (Function.update_of_ne (by omega) _ _).trans (h.below i hi)

/-- The cursor goes to the next row of the screen, or to the row that a
scroll brings in. -/
theorem TerminalOnStrip.newline (h : TerminalOnStrip t color origin scrolls strip) :
    TerminalOnStrip (terminalNewline t) color origin
      (scrolls + if vgaHeight ≤ t.row + 1 then 1 else 0)
      { strip with head := 80 * scrolls + 80 * (t.row + 1) } := by
  have hHeight : vgaHeight = 25 := rfl
  have hRow := h.row
  rw [terminalNewline, hHeight]
  split_ifs with hLast
  · have hEnd : 25 ≤ t.row + 1 := hLast
    obtain ⟨crtc, buffer, hEq, _, hCells⟩ := terminalScrollUp_spec { t with column := 0 }
    rw [hEq]
    refine ⟨Nat.lt_succ_self 24, Nat.zero_lt_succ 79, ?_, ?_, fun k hk => ?_,
      fun i hi => h.below i (by omega), h.color⟩
    · show (t.viewStart + 80) % 16384 = _
      rw [h.view, Nat.mod_add_mod]
      rfl
    · show 80 * scrolls + 80 * (t.row + 1) = 80 * (scrolls + 1) + (80 * 24 + 0)
      omega
    · refine (hCells k (by omega)).trans ?_
      show (if _ then vgaEntry asciiSpace t.color else cell t.buffer 16384 t.viewStart (80 + k)) = _
      by_cases hBottom : 1920 ≤ k
      · rw [if_pos ⟨hBottom, hk⟩, h.below _ (by omega), h.color]
      · have hIndex : 80 * scrolls + (80 + k) = 80 * (scrolls + 1) + k := by omega
        rw [if_neg (by omega), h.cells _ (by omega), hIndex]
  · refine ⟨Nat.lt_of_not_ge hLast, Nat.zero_lt_succ 79, h.view, ?_, h.cells, h.below, h.color⟩
    show 80 * scrolls + 80 * (t.row + 1) = 80 * (scrolls + 0) + (80 * (t.row + 1) + 0)
    omega

/-- The cursor steps forward, with the wrap at the right edge. -/
theorem TerminalOnStrip.advance (h : TerminalOnStrip t color origin scrolls strip) :
    TerminalOnStrip
      (if vgaWidth ≤ t.column + 1 then terminalNewline { t with column := t.column + 1 }
        else { t with column := t.column + 1 })
      color origin (scrolls + terminalGlyphScrolls t) { strip with head := strip.head + 1 } := by
  have hWidth : vgaWidth = 80 := rfl
  have hHead := h.head
  have hColumn := h.column
  rw [terminalGlyphScrolls, hWidth]
  by_cases hEdge : 80 ≤ t.column + 1
  · have hEnd : strip.head + 1 = 80 * scrolls + 80 * (t.row + 1) := by omega
    rw [if_pos hEdge, hEnd, if_congr (and_iff_right hEdge) rfl rfl]
    exact h.newline
  · rw [if_neg hEdge, if_neg fun hBoth => hEdge hBoth.1]
    refine ⟨h.row, Nat.lt_of_not_ge hEdge, h.view, ?_, h.cells, h.below, h.color⟩
    show strip.head + 1 = 80 * scrolls + (80 * t.row + (t.column + 1))
    omega

/-- A printed character goes on the strip where the terminal puts it,
scrolling or not. -/
theorem TerminalOnStrip.glyph (h : TerminalOnStrip t color origin scrolls strip) (c : BitVec 8) :
    TerminalOnStrip (terminalPutGlyph c t) color origin (scrolls + terminalGlyphScrolls t)
      (strip.print (vgaEntry c color)) := by
  have hStore := h.store h.row h.column (vgaEntry c t.color)
  rw [← h.head, h.color] at hStore
  have hNext := hStore.advance
  rw [terminalPutGlyph, h.color]
  exact hNext

theorem TerminalOnStrip.write {s : List (BitVec 8)} (hText : ∀ c ∈ s, TerminalPrintable c)
    (h : TerminalOnStrip t color origin scrolls strip) :
    TerminalOnStrip (terminalWrite s t) color origin (scrolls + terminalWriteScrolls s t)
      ((s.map fun c => vgaEntry c color).foldl Strip.print strip) := by
  induction s generalizing t scrolls strip with
  | nil => exact h
  | cons c rest ih =>
      obtain ⟨hHead, hRest⟩ := List.forall_mem_cons.mp hText
      have hStep := ih hRest (h.glyph c)
      rw [terminalWriteScrolls, terminalPutchar_printable hHead, ← Nat.add_assoc]
      show TerminalOnStrip (terminalWrite rest (terminalPutchar c t)) _ _ _ _
      rw [terminalPutchar_printable hHead]
      exact hStep

/-- Off the top left corner the cursor steps back and blanks what it finds. -/
theorem TerminalOnStrip.backspace (h : TerminalOnStrip t color origin scrolls strip)
    (hBack : 0 < 80 * t.row + t.column) :
    TerminalOnStrip (terminalBackspace t) color origin scrolls
      (strip.rubOut (vgaEntry asciiSpace color)) := by
  have hHead := h.head
  have hRow := h.row
  have hColumn := h.column
  have hWidth : vgaWidth = 80 := rfl
  obtain rfl := h.color
  rw [Strip.rubOut, terminalBackspace, hWidth]
  by_cases hInside : 0 < t.column
  · have hPosition : strip.head - 1 = 80 * scrolls + (80 * t.row + (t.column - 1)) := by omega
    rw [if_pos hInside, hPosition]
    exact h.store hRow (show t.column - 1 < 80 by omega) (vgaEntry asciiSpace t.color)
  · have hPosition : strip.head - 1 = 80 * scrolls + (80 * (t.row - 1) + 79) := by omega
    rw [if_neg hInside, if_pos (by omega), hPosition]
    exact h.store (show t.row - 1 < 25 by omega) (show 79 < 80 by omega)
      (vgaEntry asciiSpace t.color)

/-- Backspaces that stay on the screen. -/
theorem TerminalOnStrip.backspaces (h : TerminalOnStrip t color origin scrolls strip) {k : Nat}
    (hRoom : k ≤ 80 * t.row + t.column) :
    TerminalOnStrip (terminalBackspace^[k] t) color origin scrolls
      ((Strip.rubOut (vgaEntry asciiSpace color))^[k] strip) := by
  induction k with
  | zero => exact h
  | succ k ih =>
      have hStep := ih (by omega)
      have hLeft := hStep.head
      rw [Typewriter.rubOut_head, h.head] at hLeft
      rw [Function.iterate_succ_apply', Function.iterate_succ_apply']
      exact hStep.backspace (by omega)

/-- Writing and then rubbing out leaves the strip of the text that is kept,
with blanks where the rest was. -/
theorem TerminalReachable.write_backspaces (h : TerminalReachable t) {s : List (BitVec 8)}
    (hText : ∀ c ∈ s, TerminalPrintable c) {k : Nat} (hCount : k ≤ s.length)
    (hRoom : k ≤ 80 * (terminalWrite s t).row + (terminalWrite s t).column) :
    ∃ strip, TerminalOnStrip ((terminalPutchar 0x08#8)^[k] (terminalWrite s t)) t.color
        t.viewStart (terminalWriteScrolls s t) strip ∧
      strip.head = 80 * t.row + t.column + (s.length - k) ∧
      strip.head + k < 80 * terminalWriteScrolls s t + 2000 ∧
      ∀ i, strip.cells i =
        if strip.head ≤ i ∧ i < strip.head + k then vgaEntry asciiSpace t.color
        else (((s.take (s.length - k)).map fun c => vgaEntry c t.color).foldl Strip.print
          (terminalStrip t)).cells i := by
  have hWrite := h.onStrip.write hText
  rw [Nat.zero_add] at hWrite
  have hLength : (s.map fun c => vgaEntry c t.color).length = s.length := List.length_map _
  obtain ⟨hHead, hCells⟩ := Typewriter.rubOut_print (vgaEntry asciiSpace t.color)
    (s.map fun c => vgaEntry c t.color) (terminalStrip t) (hLength.symm ▸ hCount)
  have hStart : (terminalStrip t).head = 80 * t.row + t.column := rfl
  rw [hLength, ← List.map_take] at hHead hCells
  rw [Typewriter.print_head, List.length_map, List.length_take_of_le (Nat.sub_le _ _), hStart] at hHead
  have hEnd : 80 * t.row + t.column + s.length = 80 * t.row + t.column + (s.length - k) + k := by omega
  have hBehind := hWrite.head
  rw [Typewriter.print_head, hLength, hStart] at hBehind
  have hRow := hWrite.row
  have hColumn := hWrite.column
  rw [terminalPutchar_backspace]
  refine ⟨_, hWrite.backspaces hRoom, hHead, by omega, fun i => ?_⟩
  rw [hCells i, hHead, hStart, hEnd]

end Strip

/-- Backspace undoes printing. `k` backspaces after a text of `n` ordinary
characters leave the cursor `n - k` cells of text memory behind where it
started and `k` blank cells behind it. On the screen stand before it the rest
of the text and then what those cells of text memory held at the start, and
the rows that a scroll brought in are blank where the text did not reach. The
low byte of a cell is its character and the high byte its color. -/
theorem terminal_backspace_undoes {t : TerminalState} (hReachable : TerminalReachable t)
    (s : List (BitVec 8)) (hText : ∀ c ∈ s, TerminalPrintable c) (k : Nat) (hCount : k ≤ s.length)
    (hRoom : k ≤ 80 * (terminalWrite s t).row + (terminalWrite s t).column) (u : TerminalState)
    (hEnd : u = (terminalPutchar 0x08#8)^[k] (terminalWrite s t)) (p : Nat)
    (hPosition : p = 80 * u.row + u.column) :
    (u.viewStart + 80 * u.row + u.column) % 16384 =
        (t.viewStart + 80 * t.row + t.column + s.length - k) % 16384 ∧
      u.viewStart = (t.viewStart + 80 * terminalWriteScrolls s t) % 16384 ∧
      u.color = t.color ∧
      p + k < 2000 ∧
      (∀ q, p ≤ q → q < p + k →
        (u.buffer ((u.viewStart + q) % 16384)).extractLsb' 0 8 = 0x20#8 ∧
        (u.buffer ((u.viewStart + q) % 16384)).extractLsb' 8 8 = t.color) ∧
      (∀ j, 1 ≤ j → j ≤ min (s.length - k) p →
        some ((u.buffer ((u.viewStart + (p - j)) % 16384)).extractLsb' 0 8) =
          s[s.length - k - j]? ∧
        (u.buffer ((u.viewStart + (p - j)) % 16384)).extractLsb' 8 8 = t.color) ∧
      ∀ q < 2000, q + (s.length - k) < p ∨ p + k ≤ q →
        if 25 ≤ q / 80 + terminalWriteScrolls s t then
          (u.buffer ((u.viewStart + q) % 16384)).extractLsb' 0 8 = 0x20#8 ∧
          (u.buffer ((u.viewStart + q) % 16384)).extractLsb' 8 8 = t.color
        else u.buffer ((u.viewStart + q) % 16384) = t.buffer ((u.viewStart + q) % 16384) := by
  subst hEnd
  obtain ⟨strip, hStrip, hHead, hBehind, hCells⟩ :=
    hReachable.write_backspaces hText hCount hRoom
  have hCursor := hStrip.head
  rw [← hPosition] at hCursor
  have hView := hStrip.view
  have hKept : ((s.take (s.length - k)).map fun c => vgaEntry c t.color).length = s.length - k := by
    rw [List.length_map, List.length_take_of_le (Nat.sub_le _ _)]
  refine ⟨by omega, hView, hStrip.color, by omega, fun q hFrom hTo => ?_, fun j hFirst hLast => ?_,
    fun q hVisible hOther => ?_⟩
  · have hCell := hStrip.cells q (by omega)
    rw [hCells, if_pos (by omega)] at hCell
    exact vgaEntry_bytes hCell
  · have hPlace : 80 * terminalWriteScrolls s t + (p - j) =
        (terminalStrip t).head + (s.length - k - j) := by
      show _ = 80 * t.row + t.column + (s.length - k - j)
      omega
    have hCell := hStrip.cells (p - j) (by omega)
    rw [hCells, if_neg (by omega), hPlace, Typewriter.print_inside _ _ (by omega), List.getElem_map,
      List.getElem_take] at hCell
    obtain ⟨hCharacter, hColor⟩ := vgaEntry_bytes hCell
    rw [List.getElem?_eq_getElem (by omega)]
    exact ⟨congrArg some hCharacter, hColor⟩
  · have hStart : (terminalStrip t).head = 80 * t.row + t.column := rfl
    have hUntouched := Typewriter.print_outside
      ((s.take (s.length - k)).map fun c => vgaEntry c t.color) (terminalStrip t)
      (show 80 * terminalWriteScrolls s t + q < _ ∨ _ by rw [hKept, hStart]; omega)
    have hCell := hStrip.cells q hVisible
    rw [hCells, if_neg (by omega), hUntouched] at hCell
    split_ifs with hNew
    · have hBelow : (terminalStrip t).cells (80 * terminalWriteScrolls s t + q) =
          vgaEntry asciiSpace t.color := if_neg (by omega)
      exact vgaEntry_bytes (hCell.trans hBelow)
    · have hAbove : (terminalStrip t).cells (80 * terminalWriteScrolls s t + q) =
          cell t.buffer 16384 t.viewStart (80 * terminalWriteScrolls s t + q) := if_pos (by omega)
      refine (hCell.trans hAbove).trans ?_
      rw [hView, ← CircularWindow.cell_advance, ← CircularWindow.cell_mod_start]
      rfl

/-- Three characters at the end of the last row, so that the second one
scrolls, and two backspaces, the second of which goes back to the row above.
The cells before the cursor and under it, the cell behind it and the row that
came in. -/
theorem terminal_backspace_undoes_scroll :
    ∃ t u : TerminalState,
      t = [TerminalCall.write (List.replicate 24 0x0A#8 ++
          List.replicate 78 0x20#8)].foldl terminalCall (terminalInitialize .boot) ∧
        u = (terminalPutchar 0x08#8)^[2] (terminalWrite [0x78#8, 0x79#8, 0x7A#8] t) ∧
        u.viewStart = 80 ∧ u.row = 23 ∧ u.column = 79 ∧ t.color = 7#8 ∧
        (u.buffer 1998).extractLsb' 0 8 = 0x78#8 ∧ (u.buffer 1998).extractLsb' 8 8 = 7#8 ∧
        (u.buffer 1999).extractLsb' 0 8 = 0x20#8 ∧ (u.buffer 1999).extractLsb' 8 8 = 7#8 ∧
        (u.buffer 2000).extractLsb' 0 8 = 0x20#8 ∧ (u.buffer 2000).extractLsb' 8 8 = 7#8 := by
  obtain ⟨t, hStart⟩ : ∃ t, t = [TerminalCall.write (List.replicate 24 0x0A#8 ++
      List.replicate 78 0x20#8)].foldl terminalCall (terminalInitialize .boot) := ⟨_, rfl⟩
  have hRun : t.viewStart = 0 ∧ t.color = 7#8 ∧
      terminalWriteScrolls [0x78#8, 0x79#8, 0x7A#8] t = 1 ∧
      2 ≤ 80 * (terminalWrite [0x78#8, 0x79#8, 0x7A#8] t).row +
        (terminalWrite [0x78#8, 0x79#8, 0x7A#8] t).column ∧
      ((terminalPutchar 0x08#8)^[2] (terminalWrite [0x78#8, 0x79#8, 0x7A#8] t)).row = 23 ∧
      ((terminalPutchar 0x08#8)^[2] (terminalWrite [0x78#8, 0x79#8, 0x7A#8] t)).column = 79 := by
    rw [hStart]
    decide +kernel
  obtain ⟨hView, hColor, hScrolls, hRoom, hRow, hColumn⟩ := hRun
  obtain ⟨u, hEnd⟩ : ∃ u, u = (terminalPutchar 0x08#8)^[2]
    (terminalWrite [0x78#8, 0x79#8, 0x7A#8] t) := ⟨_, rfl⟩
  rw [← hEnd] at hRow hColumn
  have hPosition : 1919 = 80 * u.row + u.column := by rw [hRow, hColumn]
  obtain ⟨_, hNext, _, _, hBlank, hKept, _⟩ := terminal_backspace_undoes ⟨_, _, hStart⟩
    [0x78#8, 0x79#8, 0x7A#8] (by decide) 2 (by decide) hRoom u hEnd 1919 hPosition
  rw [hView, hScrolls] at hNext
  have hLetter := hKept 1 (by decide) (by decide)
  have hFirst := hBlank 1919 (by decide) (by decide)
  have hSecond := hBlank 1920 (by decide) (by decide)
  rw [hNext, hColor] at hLetter hFirst hSecond
  exact ⟨t, u, hStart, hEnd, hNext, hRow, hColumn, hColor, Option.some_inj.mp hLetter.1, hLetter.2,
    hFirst.1, hFirst.2, hSecond.1, hSecond.2⟩

end WigOSX
