import WigOSX.Core.Format

/-! The PS/2 keyboard driver of `keyboard.c`: modifier state and the
translation of Set 1 scancodes. -/
namespace WigOSX

/-- `KEYBOARD_DATA_PORT`. -/
def keyboardDataPort : BitVec 16 := 0x60#16

/-- `KEYBOARD_RELEASED_MASK`. -/
def keyboardReleasedMask : BitVec 8 := 0x80#8

/-- `KEYBOARD_SCANCODE_TABLE_SIZE`. -/
def keyboardScancodeTableSize : BitVec 8 := 128#8

def scancodeLeftShift : BitVec 8 := 0x2A#8
def scancodeRightShift : BitVec 8 := 0x36#8
def scancodeCapsLock : BitVec 8 := 0x3A#8

/-- The static state of `keyboard.c`. -/
structure KeyboardState where
  shiftPressed : Bool
  capsLockEnabled : Bool
deriving DecidableEq

/-- Static initialization at boot. -/
def KeyboardState.boot : KeyboardState where
  shiftPressed := false
  capsLockEnabled := false

/-- Consecutive table entries from a scancode on. -/
def keyboardRow (first : Nat) (characters : String) : List (BitVec 8 × BitVec 8) :=
  (asciiText characters).zipIdx.map fun entry => (BitVec.ofNat 8 (first + entry.2), entry.1)

/-- `keyboard_normal_map`; the scancodes that are not listed map to 0. -/
def keyboardNormalMap : List (BitVec 8 × BitVec 8) :=
  keyboardRow 0x02 "1234567890-=\x08\t" ++ keyboardRow 0x10 "qwertyuiop[]\n" ++
    keyboardRow 0x1E "asdfghjkl;'\x60" ++ keyboardRow 0x2B "\\zxcvbnm,./" ++ keyboardRow 0x39 " "

/-- `keyboard_shift_map`. -/
def keyboardShiftMap : List (BitVec 8 × BitVec 8) :=
  keyboardRow 0x02 "!@#$%^&*()_+\x08\t" ++ keyboardRow 0x10 "QWERTYUIOP\x7b\x7d\n" ++
    keyboardRow 0x1E "ASDFGHJKL:\x22~" ++ keyboardRow 0x2B "|ZXCVBNM<>?" ++ keyboardRow 0x39 " "

def keyboardLookup (map : List (BitVec 8 × BitVec 8)) (scancode : BitVec 8) : BitVec 8 :=
  (map.lookup scancode).getD 0#8

def keyboardIsLetterScancode (scancode : BitVec 8) : Bool :=
  (0x10#8 ≤ scancode && scancode ≤ 0x19#8) || (0x1E#8 ≤ scancode && scancode ≤ 0x26#8) ||
    (0x2C#8 ≤ scancode && scancode ≤ 0x32#8)

def keyboardHandleModifierPress (scancode : BitVec 8) (s : KeyboardState) : KeyboardState :=
  if scancode = scancodeLeftShift ∨ scancode = scancodeRightShift then { s with shiftPressed := true }
  else if scancode = scancodeCapsLock then { s with capsLockEnabled := !s.capsLockEnabled }
  else s

def keyboardHandleModifierRelease (scancode : BitVec 8) (s : KeyboardState) : KeyboardState :=
  if scancode = scancodeLeftShift ∨ scancode = scancodeRightShift then { s with shiftPressed := false }
  else s

def keyboardTranslateScancode (scancode : BitVec 8) (s : KeyboardState) : BitVec 8 :=
  if keyboardScancodeTableSize ≤ scancode then 0#8
  else if keyboardIsLetterScancode scancode then
    if s.shiftPressed ^^ s.capsLockEnabled then keyboardLookup keyboardShiftMap scancode
    else keyboardLookup keyboardNormalMap scancode
  else if s.shiftPressed then keyboardLookup keyboardShiftMap scancode
  else keyboardLookup keyboardNormalMap scancode

/-- `keyboard_handle_interrupt` on a non-null pointer and the byte that the
data port delivered. The result is `none` for false. -/
def keyboardHandleInterrupt (rawScancode : BitVec 8) (s : KeyboardState) :
    Option (BitVec 8) × KeyboardState :=
  let released := rawScancode &&& keyboardReleasedMask ≠ 0#8
  let scancode := rawScancode &&& ~~~keyboardReleasedMask
  if released then (none, keyboardHandleModifierRelease scancode s)
  else
    let s := keyboardHandleModifierPress scancode s
    if scancode = scancodeLeftShift ∨ scancode = scancodeRightShift ∨ scancode = scancodeCapsLock then
      (none, s)
    else
      let ascii := keyboardTranslateScancode scancode s
      if ascii = 0#8 then (none, s) else (some ascii, s)

section Delivered

/-- Printable ASCII, line feed, backspace and tab. -/
def IsTypedCharacter (c : BitVec 8) : Prop :=
  (0x20#8 ≤ c ∧ c ≤ 0x7E#8) ∨ c = 0x0A#8 ∨ c = 0x08#8 ∨ c = 0x09#8

instance : DecidablePred IsTypedCharacter := fun _ => inferInstanceAs (Decidable (_ ∨ _))

theorem keyboardRow_typed {first : Nat} {characters : String}
    (h : ∀ c ∈ asciiText characters, IsTypedCharacter c) :
    ∀ entry ∈ keyboardRow first characters, IsTypedCharacter entry.2 := by
  intro entry hEntry
  obtain ⟨indexed, hIndexed, rfl⟩ := List.mem_map.mp hEntry
  exact h indexed.1 (List.fst_mem_of_mem_zipIdx hIndexed)

/-- Every character of the plain map is one that the shell and the terminal
can take. -/
theorem keyboardNormalMap_typed : ∀ entry ∈ keyboardNormalMap, IsTypedCharacter entry.2 := by
  rw [keyboardNormalMap]
  simp only [List.forall_mem_append]
  refine ⟨⟨⟨⟨?_, ?_⟩, ?_⟩, ?_⟩, ?_⟩
  all_goals exact keyboardRow_typed (by decide +kernel)

theorem keyboardShiftMap_typed : ∀ entry ∈ keyboardShiftMap, IsTypedCharacter entry.2 := by
  rw [keyboardShiftMap]
  simp only [List.forall_mem_append]
  refine ⟨⟨⟨⟨?_, ?_⟩, ?_⟩, ?_⟩, ?_⟩
  all_goals exact keyboardRow_typed (by decide +kernel)

theorem keyboardLookup_typed {map : List (BitVec 8 × BitVec 8)}
    (hMap : ∀ entry ∈ map, IsTypedCharacter entry.2) {scancode : BitVec 8}
    (h : keyboardLookup map scancode ≠ 0#8) : IsTypedCharacter (keyboardLookup map scancode) := by
  rw [keyboardLookup] at h ⊢
  cases hFound : map.lookup scancode with
  | none =>
      rw [hFound] at h
      exact absurd rfl h
  | some character =>
      obtain ⟨before, after, hMem, -⟩ := List.lookup_eq_some_iff.mp hFound
      exact hMap (scancode, character) (hMem ▸ List.mem_append_cons_self)

/-- The translation of a scancode, if there is one, is such a character in
every state of the modifiers. -/
theorem keyboardTranslateScancode_typed {scancode : BitVec 8} {s : KeyboardState}
    (h : keyboardTranslateScancode scancode s ≠ 0#8) :
    IsTypedCharacter (keyboardTranslateScancode scancode s) := by
  rw [keyboardTranslateScancode] at h ⊢
  split_ifs at h ⊢
  · exact absurd rfl h
  · exact keyboardLookup_typed keyboardShiftMap_typed h
  · exact keyboardLookup_typed keyboardNormalMap_typed h
  · exact keyboardLookup_typed keyboardShiftMap_typed h
  · exact keyboardLookup_typed keyboardNormalMap_typed h

/-- The driver delivers no other characters than these. -/
theorem keyboardHandleInterrupt_typed {rawScancode ascii : BitVec 8} {s : KeyboardState}
    (h : (keyboardHandleInterrupt rawScancode s).1 = some ascii) : IsTypedCharacter ascii := by
  rw [keyboardHandleInterrupt] at h
  dsimp only at h
  split_ifs at h with hReleased hModifier hNone
  obtain rfl := Option.some.inj h
  exact keyboardTranslateScancode_typed hNone

end Delivered
end WigOSX
