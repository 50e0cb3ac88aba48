import WigOSX.Drivers.Vga

/-! A reference terminal without a viewport: a plain array of 25 by 80 cells
that scrolls by copying rows. A cell is a character in a color, and nothing
here is taken from the driver but the shape of its calls. Positions carry
their bounds in their types. The count of scrolls since the screen was last
cleared is kept next to it. -/
namespace WigOSX

/-- What a cell of the screen shows. -/
structure ScreenCell where
  character : BitVec 8
  color : BitVec 8
deriving DecidableEq

/-- How text-mode hardware reads an entry of text memory: the low byte is the
character and the high byte its color. -/
def ScreenCell.read (entry : BitVec 16) : ScreenCell where
  character := entry.extractLsb' 0 8
  color := entry.extractLsb' 8 8

/-- The driver's entries show the character and the color they are made from. -/
@[simp] theorem ScreenCell.read_vgaEntry (character color : BitVec 8) :
    ScreenCell.read (vgaEntry character color) = ⟨character, color⟩ := by
  rw [ScreenCell.read, vgaEntry_character, vgaEntry_color]

structure PlainTerminal where
  cells : Fin 25 → Fin 80 → ScreenCell
  row : Fin 25
  column : Fin 80
  color : BitVec 8
  scrolls : Nat

namespace PlainTerminal

/-- The cell a cleared position shows: a space in the current color. -/
def blank (p : PlainTerminal) : ScreenCell := ⟨0x20#8, p.color⟩

def clear (p : PlainTerminal) : PlainTerminal :=
  { p with cells := fun _ _ => p.blank, row := 0, column := 0, scrolls := 0 }

/-- Light grey on black, cleared. -/
def start : PlainTerminal where
  cells := fun _ _ => ⟨0x20#8, 7#8⟩
  row := 0
  column := 0
  color := 7#8
  scrolls := 0

def setcolor (color : BitVec 8) (p : PlainTerminal) : PlainTerminal :=
  { p with color := color }

/-- Rows 1 to 24 are copied to 0 to 23 and row 24 is blanked. -/
def scroll (p : PlainTerminal) : PlainTerminal :=
  { p with
    cells := fun r c => if h : r.val + 1 < 25 then p.cells ⟨r.val + 1, h⟩ c else p.blank
    scrolls := p.scrolls + 1 }

def newline (p : PlainTerminal) : PlainTerminal :=
  if h : p.row.val + 1 < 25 then { p with row := ⟨p.row.val + 1, h⟩, column := 0 }
  else { p.scroll with column := 0 }

def carriageReturn (p : PlainTerminal) : PlainTerminal :=
  { p with column := 0 }

/-- Moves the cursor to a column of its row, or to the next row when the
column is the right edge. -/
def moveTo (p : PlainTerminal) (column : Nat) : PlainTerminal :=
  if h : column < 80 then { p with column := ⟨column, h⟩ } else p.newline

/-- Puts a cell into the columns `first ≤ c < last` of the current row. -/
def fill (p : PlainTerminal) (first last : Nat) (cell : ScreenCell) : PlainTerminal :=
  { p with
    cells := fun r c =>
      if r = p.row ∧ first ≤ c.val ∧ c.val < last then cell else p.cells r c }

def glyph (c : BitVec 8) (p : PlainTerminal) : PlainTerminal :=
  (p.fill p.column.val (p.column.val + 1) ⟨c, p.color⟩).moveTo (p.column.val + 1)

/-- The next multiple of 4 right of the cursor. -/
def tabStop (p : PlainTerminal) : Nat := (p.column.val / 4 + 1) * 4

def tab (p : PlainTerminal) : PlainTerminal :=
  (p.fill p.column.val p.tabStop p.blank).moveTo p.tabStop

/-- Erases the cell before the cursor, also across the start of a line. -/
def backspace (p : PlainTerminal) : PlainTerminal :=
  if 0 < p.column.val then
    { p.fill (p.column.val - 1) p.column.val p.blank with
      column := ⟨p.column.val - 1, by omega⟩ }
  else if 0 < p.row.val then
    let p := { p with row := ⟨p.row.val - 1, by omega⟩, column := 79 }
    p.fill 79 80 p.blank
  else p

/-- Line feed, carriage return, tab, backspace and form feed act on the screen;
every other byte is shown. -/
def putchar (c : BitVec 8) (p : PlainTerminal) : PlainTerminal :=
  if c = 0x0A#8 then p.newline
  else if c = 0x0D#8 then p.carriageReturn
  else if c = 0x09#8 then p.tab
  else if c = 0x08#8 then p.backspace
  else if c = 0x0C#8 then p.clear
  else p.glyph c

def call (p : PlainTerminal) : TerminalCall → PlainTerminal
  | .putchar c => p.putchar c
  | .write data => data.foldl (fun p c => p.putchar c) p
  | .clear => p.clear
  | .setcolor color => p.setcolor color

section Tab

variable (p : PlainTerminal)

/-- Filling up to a column and then on is filling at once. -/
theorem fill_fill {first middle last : Nat} (hFirst : first ≤ middle) (hLast : middle ≤ last)
    (cell : ScreenCell) : (p.fill first middle cell).fill middle last cell = p.fill first last cell := by
  have hCells : ((p.fill first middle cell).fill middle last cell).cells =
      (p.fill first last cell).cells := by
    funext r c
    simp only [fill]
    by_cases hRow : r = p.row
    · by_cases hMiddle : c.val < middle
      · simp [hRow, hMiddle, show ¬middle ≤ c.val by omega, show c.val < last by omega]
      · simp [hRow, hMiddle, show middle ≤ c.val by omega, show first ≤ c.val by omega]
    · simp [hRow]
  exact congrArg (fun cells => { p with cells := cells }) hCells

/-- The column before the move does not matter. -/
theorem moveTo_column (column : Fin 80) (next : Nat) :
    ({ p with column := column } : PlainTerminal).moveTo next = p.moveTo next := by
  unfold moveTo newline
  split_ifs <;> rfl

/-- A space behind the filled part of a row. -/
theorem glyph_space_column {column : Nat} (h : column < 80) :
    glyph 0x20#8 { p with column := ⟨column, h⟩ } =
      (p.fill column (column + 1) p.blank).moveTo (column + 1) :=
  moveTo_column (p.fill column (column + 1) p.blank) ⟨column, h⟩ (column + 1)

/-- Emitting spaces up to a column is filling the row with blanks. -/
theorem iterate_glyph_space (n : Nat) (h : p.column.val + (n + 1) ≤ 80) :
    (glyph 0x20#8)^[n + 1] p =
      (p.fill p.column.val (p.column.val + (n + 1)) p.blank).moveTo (p.column.val + (n + 1)) := by
  induction n with
  | zero => rfl
  | succ n ih =>
      have hInside : p.column.val + (n + 1) < 80 := by omega
      have hBlank : (p.fill p.column.val (p.column.val + (n + 1)) p.blank).blank = p.blank := rfl
      rw [Function.iterate_succ_apply', ih (by omega), moveTo, dif_pos hInside, glyph_space_column,
        hBlank, fill_fill p (by omega) (by omega), Nat.add_assoc]

theorem tab_eq_glyphs : p.tab = (glyph 0x20#8)^[p.tabStop - p.column.val] p := by
  obtain ⟨n, hn⟩ : ∃ n, p.tabStop = p.column.val + (n + 1) := by
    refine ⟨p.tabStop - p.column.val - 1, ?_⟩
    rw [tabStop]
    omega
  have hEdge : p.tabStop ≤ 80 := by
    rw [tabStop]
    omega
  rw [hn, Nat.add_sub_cancel_left, iterate_glyph_space p n (by omega), tab, hn]

end Tab
end PlainTerminal
end WigOSX
