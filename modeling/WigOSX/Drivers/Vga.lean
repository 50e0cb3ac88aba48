import Mathlib

/-! The VGA text-mode terminal of `vga.c`. The text memory is a circular
buffer of cells; scrolling moves the first visible cell and programs it into
the CRTC instead of copying rows. -/
namespace WigOSX

/-- `VGA_WIDTH`. -/
def vgaWidth : Nat := 80

/-- `VGA_HEIGHT`. -/
def vgaHeight : Nat := 25

/-- `TAB_WIDTH`. -/
def tabWidth : Nat := 4

/-- `VGA_TEXT_MEMORY_BYTES`. -/
def vgaTextMemoryBytes : Nat := 32768

/-- `VGA_TEXT_MEMORY_CELLS`: two bytes for each cell. -/
def vgaTextMemoryCells : Nat := vgaTextMemoryBytes / 2

/-- `VGA_CRTC_INDEX_PORT` and `VGA_CRTC_DATA_PORT`. -/
def vgaCrtcIndexPort : BitVec 16 := 0x3D4#16
def vgaCrtcDataPort : BitVec 16 := 0x3D5#16

/-- `VGA_CRTC_START_ADDRESS_HIGH` and `VGA_CRTC_START_ADDRESS_LOW`. -/
def vgaCrtcStartAddressHigh : BitVec 8 := 0x0C#8
def vgaCrtcStartAddressLow : BitVec 8 := 0x0D#8

/-- The CRT controller: an index register that selects the register behind
the data port. -/
structure VgaCrtc where
  index : BitVec 8
  registers : BitVec 8 → BitVec 8

/-- The effect of `outb` on the controller, which decodes ports of its own. -/
def VgaCrtc.outb (crtc : VgaCrtc) (port : BitVec 16) (value : BitVec 8) : VgaCrtc :=
  if port = 0x3D4#16 then { crtc with index := value }
  else if port = 0x3D5#16 then
    { crtc with registers := Function.update crtc.registers crtc.index value }
  else crtc

/-- The start address the controller was last programmed with, in its
registers 12 and 13. -/
def VgaCrtc.startAddress (crtc : VgaCrtc) : Nat :=
  (crtc.registers 0x0C#8).toNat * 256 + (crtc.registers 0x0D#8).toNat

/-- The static state of `vga.c`, the text memory and the controller. -/
structure TerminalState where
  row : Nat
  column : Nat
  viewStart : Nat
  color : BitVec 8
  buffer : Nat → BitVec 16
  crtc : VgaCrtc

/-- Static initialization at boot, with blank text memory. -/
def TerminalState.boot : TerminalState where
  row := 0
  column := 0
  viewStart := 0
  color := 0#8
  buffer := fun _ => 0#16
  crtc := { index := 0#8, registers := fun _ => 0#8 }

def terminalWrapIndex (index : Nat) : Nat :=
  index % vgaTextMemoryCells

def terminalGetBufferIndex (t : TerminalState) (row column : Nat) : Nat :=
  terminalWrapIndex (t.viewStart + row * vgaWidth + column)

def terminalSetHardwareViewStart (cellOffset : Nat) (t : TerminalState) : TerminalState :=
  let address := BitVec.ofNat 16 cellOffset
  { t with
    crtc := (((t.crtc.outb vgaCrtcIndexPort vgaCrtcStartAddressHigh).outb
      vgaCrtcDataPort ((address >>> 8 &&& 0xFF#16).setWidth 8)).outb
      vgaCrtcIndexPort vgaCrtcStartAddressLow).outb
      vgaCrtcDataPort ((address &&& 0xFF#16).setWidth 8) }

def vgaEntry (character color : BitVec 8) : BitVec 16 :=
  character.setWidth 16 ||| color.setWidth 16 <<< 8

/-- The low byte of an entry, which text-mode hardware shows as a character. -/
@[simp] theorem vgaEntry_character (character color : BitVec 8) :
    (vgaEntry character color).extractLsb' 0 8 = character := by
  ext i hi
  simp [vgaEntry, hi, show i < 16 by omega]

/-- The high byte of an entry, which text-mode hardware takes as the color. -/
@[simp] theorem vgaEntry_color (character color : BitVec 8) :
    (vgaEntry character color).extractLsb' 8 8 = color := by
  ext i hi
  simp [vgaEntry, hi, show 8 + i < 16 by omega]

theorem vgaEntry_bytes {entry : BitVec 16} {character color : BitVec 8}
    (h : entry = vgaEntry character color) :
    entry.extractLsb' 0 8 = character ∧ entry.extractLsb' 8 8 = color := by
  rw [h]
  exact ⟨vgaEntry_character character color, vgaEntry_color character color⟩

/-- The colors of `enum vga_color` that the driver names. -/
def vgaColorBlack : BitVec 8 := 0#8
def vgaColorLightGrey : BitVec 8 := 7#8

def vgaEntryColor (foreground background : BitVec 8) : BitVec 8 :=
  foreground ||| background <<< 4

/-- `terminal_buffer[terminal_get_buffer_index(row, column)] = entry`. -/
def terminalStore (t : TerminalState) (row column : Nat) (entry : BitVec 16) : TerminalState :=
  { t with buffer := Function.update t.buffer (terminalGetBufferIndex t row column) entry }

/-- The blank character. -/
def asciiSpace : BitVec 8 := 0x20#8

def terminalClearRow (row : Nat) (t : TerminalState) : TerminalState :=
  (List.range vgaWidth).foldl (fun t x => terminalStore t row x (vgaEntry asciiSpace t.color)) t

def terminalClear (t : TerminalState) : TerminalState :=
  let t := terminalSetHardwareViewStart 0 { t with viewStart := 0 }
  let t := (List.range vgaHeight).foldl (fun t y => terminalClearRow y t) t
  { t with row := 0, column := 0 }

def terminalInitialize (t : TerminalState) : TerminalState :=
  terminalClear
    { t with
      row := 0
      column := 0
      viewStart := 0
      color := vgaEntryColor vgaColorLightGrey vgaColorBlack }

def terminalSetcolor (color : BitVec 8) (t : TerminalState) : TerminalState :=
  { t with color := color }

def terminalScrollUp (t : TerminalState) : TerminalState :=
  let t := { t with viewStart := terminalWrapIndex (t.viewStart + vgaWidth) }
  terminalClearRow (vgaHeight - 1) (terminalSetHardwareViewStart t.viewStart t)

def terminalNewline (t : TerminalState) : TerminalState :=
  let t := { t with column := 0 }
  if vgaHeight ≤ t.row + 1 then { terminalScrollUp t with row := vgaHeight - 1 }
  else { t with row := t.row + 1 }

def terminalCarriageReturn (t : TerminalState) : TerminalState :=
  { t with column := 0 }

/-- `terminal_putchar` on a character that no case of its switch names. -/
def terminalPutGlyph (c : BitVec 8) (t : TerminalState) : TerminalState :=
  let t := terminalStore t t.row t.column (vgaEntry c t.color)
  let t := { t with column := t.column + 1 }
  if vgaWidth ≤ t.column then terminalNewline t else t

/-- The calls `terminal_putchar(' ')` of the source reach the default case of
the switch, which breaks the recursion between the two functions. -/
def terminalTab (t : TerminalState) : TerminalState :=
  (List.range (tabWidth - t.column % tabWidth)).foldl (fun t _ => terminalPutGlyph asciiSpace t) t

def terminalBackspace (t : TerminalState) : TerminalState :=
  if 0 < t.column then
    let t := { t with column := t.column - 1 }
    terminalStore t t.row t.column (vgaEntry asciiSpace t.color)
  else if 0 < t.row then
    let t := { t with row := t.row - 1, column := vgaWidth - 1 }
    terminalStore t t.row t.column (vgaEntry asciiSpace t.color)
  else t

def terminalFormFeed (t : TerminalState) : TerminalState :=
  terminalClear t

def asciiBackspace : BitVec 8 := 0x08#8
def asciiTab : BitVec 8 := 0x09#8
def asciiLineFeed : BitVec 8 := 0x0A#8
def asciiFormFeed : BitVec 8 := 0x0C#8
def asciiCarriageReturn : BitVec 8 := 0x0D#8

def terminalPutchar (c : BitVec 8) (t : TerminalState) : TerminalState :=
  if c = asciiLineFeed then terminalNewline t
  else if c = asciiCarriageReturn then terminalCarriageReturn t
  else if c = asciiTab then terminalTab t
  else if c = asciiBackspace then terminalBackspace t
  else if c = asciiFormFeed then terminalFormFeed t
  else terminalPutGlyph c t

def terminalWrite (data : List (BitVec 8)) (t : TerminalState) : TerminalState :=
  data.foldl (fun t c => terminalPutchar c t) t

/-- What `terminal_tab` relies on. -/
theorem terminalPutchar_space (t : TerminalState) :
    terminalPutchar asciiSpace t = terminalPutGlyph asciiSpace t := rfl

/-- The calls that a user of the initialized terminal can make. -/
inductive TerminalCall where
  | putchar (c : BitVec 8)
  | write (data : List (BitVec 8))
  | clear
  | setcolor (color : BitVec 8)

def terminalCall (t : TerminalState) : TerminalCall → TerminalState
  | .putchar c => terminalPutchar c t
  | .write data => terminalWrite data t
  | .clear => terminalClear t
  | .setcolor color => terminalSetcolor color t

end WigOSX
