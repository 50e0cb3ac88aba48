import WigOSX.Drivers.Keyboard

/-! The keyboard driver over whole streams of scancodes, one byte for each
interrupt. The Shift flag follows the last Shift byte, which is not the same
as the keys that are held, and the characters are compared with what the held
keys should type. The prefix byte `0xE0` is read like any other byte, so what
follows it acts like the plain key. -/
namespace WigOSX

/-- The characters that a stream produces, and the state behind it. -/
def keyboardFeed : List (BitVec 8) → KeyboardState → List (BitVec 8) × KeyboardState
  | [], s => ([], s)
  | raw :: rest, s =>
      ((keyboardHandleInterrupt raw s).1.toList ++
          (keyboardFeed rest (keyboardHandleInterrupt raw s).2).1,
        (keyboardFeed rest (keyboardHandleInterrupt raw s).2).2)

/-- The state behind a stream that starts at boot. -/
def keyboardAfter (stream : List (BitVec 8)) : KeyboardState := (keyboardFeed stream .boot).2

/-- The last byte of a stream is handled in the state that the bytes before it
have left. -/
theorem keyboardFeed_snoc (stream : List (BitVec 8)) (raw : BitVec 8) (keyboard : KeyboardState) :
    keyboardFeed (stream ++ [raw]) keyboard =
      ((keyboardFeed stream keyboard).1 ++
          (keyboardHandleInterrupt raw (keyboardFeed stream keyboard).2).1.toList,
        (keyboardHandleInterrupt raw (keyboardFeed stream keyboard).2).2) := by
  induction stream generalizing keyboard with
  | nil =>
      rw [List.nil_append, keyboardFeed, keyboardFeed, keyboardFeed, List.append_nil, List.nil_append]
  | cons first rest ih => rw [List.cons_append, keyboardFeed, ih, keyboardFeed, List.append_assoc]

/-- One more byte is handled in the state behind the stream. -/
theorem keyboardAfter_snoc (stream : List (BitVec 8)) (raw : BitVec 8) :
    keyboardAfter (stream ++ [raw]) = (keyboardHandleInterrupt raw (keyboardAfter stream)).2 := by
  rw [keyboardAfter, keyboardFeed_snoc, keyboardAfter]

section Bytes

/-- The make code of one of the two Shift keys. -/
def IsShiftMake (raw : BitVec 8) : Prop := raw = scancodeLeftShift ∨ raw = scancodeRightShift

/-- The break code of one of the two Shift keys. -/
def IsShiftBreak (raw : BitVec 8) : Prop :=
  raw = scancodeLeftShift ||| keyboardReleasedMask ∨ raw = scancodeRightShift ||| keyboardReleasedMask

instance : DecidablePred IsShiftMake := fun _ => inferInstanceAs (Decidable (_ ∨ _))
instance : DecidablePred IsShiftBreak := fun _ => inferInstanceAs (Decidable (_ ∨ _))

/-- The make code of a key that types a character. -/
def IsCharacterKey (raw : BitVec 8) : Prop := raw ∈ keyboardNormalMap.map Prod.fst

/-- The Shift flag behind one more byte. -/
def shiftAfter (shift : Bool) (raw : BitVec 8) : Bool :=
  if IsShiftMake raw then true else if IsShiftBreak raw then false else shift

/-- Only the modifier helpers change the state. -/
theorem keyboardHandleInterrupt_state (raw : BitVec 8) (s : KeyboardState) :
    (keyboardHandleInterrupt raw s).2 =
      if raw &&& keyboardReleasedMask ≠ 0#8 then
        keyboardHandleModifierRelease (raw &&& ~~~keyboardReleasedMask) s
      else keyboardHandleModifierPress (raw &&& ~~~keyboardReleasedMask) s := by
  simp only [keyboardHandleInterrupt]
  split_ifs <;> rfl

/-- What the handler does to the Shift flag, for every byte and whatever else
it does. -/
theorem keyboardHandleInterrupt_shift (raw : BitVec 8) (s : KeyboardState) :
    (keyboardHandleInterrupt raw s).2.shiftPressed = shiftAfter s.shiftPressed raw := by
  rw [keyboardHandleInterrupt_state]
  revert raw
  obtain ⟨shift, caps⟩ := s
  cases shift <;> cases caps <;> decide

/-- The Caps Lock flag is toggled by the make code of its key and by no other
byte. -/
theorem keyboardHandleInterrupt_caps (raw : BitVec 8) (s : KeyboardState) :
    (keyboardHandleInterrupt raw s).2.capsLockEnabled =
      if raw = scancodeCapsLock then !s.capsLockEnabled else s.capsLockEnabled := by
  rw [keyboardHandleInterrupt_state]
  revert raw
  obtain ⟨shift, caps⟩ := s
  cases shift <;> cases caps <;> decide

end Bytes

section Translation

/-- Both maps list the same keys. -/
theorem keyboardMaps_keys : keyboardShiftMap.map Prod.fst = keyboardNormalMap.map Prod.fst := by
  decide +kernel

/-- No modifier and no break code types a character. -/
theorem IsCharacterKey.plain {raw : BitVec 8} (h : IsCharacterKey raw) :
    raw < keyboardScancodeTableSize ∧ raw ≠ scancodeCapsLock ∧ ¬IsShiftMake raw := by
  have hAll : ∀ raw ∈ keyboardNormalMap.map Prod.fst,
      raw < keyboardScancodeTableSize ∧ raw ≠ scancodeCapsLock ∧ ¬IsShiftMake raw := by
    decide +kernel
  exact hAll raw h

/-- A translation gives a character for the keys of its map and zero for every
other byte. -/
theorem keyboardLookup_ne_zero_iff {map : List (BitVec 8 × BitVec 8)}
    (hMap : ∀ entry ∈ map, IsTypedCharacter entry.2) (scancode : BitVec 8) :
    keyboardLookup map scancode ≠ 0#8 ↔ scancode ∈ map.map Prod.fst := by
  rw [keyboardLookup]
  cases hFound : map.lookup scancode with
  | none =>
      refine iff_of_false (by simp) fun hMem => ?_
      obtain ⟨entry, hEntry, rfl⟩ := List.mem_map.mp hMem
      exact absurd rfl (bne_iff_ne.mp (List.lookup_eq_none_iff.mp hFound entry hEntry))
  | some character =>
      obtain ⟨before, after, hSplit, -⟩ := List.lookup_eq_some_iff.mp hFound
      have hEntry : (scancode, character) ∈ map := hSplit ▸ List.mem_append_cons_self
      refine iff_of_true ?_ (List.mem_map_of_mem hEntry)
      have hTyped : IsTypedCharacter character := hMap _ hEntry
      rintro rfl
      exact absurd hTyped (by decide)

/-- Whether a key types a character does not depend on the modifiers. -/
theorem keyboardTranslateScancode_ne_zero_iff {scancode : BitVec 8}
    (h : scancode < keyboardScancodeTableSize) (s : KeyboardState) :
    keyboardTranslateScancode scancode s ≠ 0#8 ↔ IsCharacterKey scancode := by
  have hNormal := keyboardLookup_ne_zero_iff keyboardNormalMap_typed scancode
  have hShift := keyboardLookup_ne_zero_iff keyboardShiftMap_typed scancode
  rw [keyboardMaps_keys] at hShift
  rw [keyboardTranslateScancode, if_neg (BitVec.not_le.mpr h), IsCharacterKey]
  split_ifs
  · exact hShift
  · exact hNormal
  · exact hShift
  · exact hNormal

/-- The handler offers a character exactly for the keys that have one. -/
theorem keyboardHandleInterrupt_none_iff (raw : BitVec 8) (s : KeyboardState) :
    (keyboardHandleInterrupt raw s).1 = none ↔ ¬IsCharacterKey raw := by
  have hMake : ∀ raw : BitVec 8, ¬raw &&& keyboardReleasedMask ≠ 0#8 →
      raw &&& ~~~keyboardReleasedMask = raw ∧ raw < keyboardScancodeTableSize := by
    decide
  have hBreak : ∀ raw : BitVec 8, raw &&& keyboardReleasedMask ≠ 0#8 →
      ¬raw < keyboardScancodeTableSize := by
    decide
  simp only [keyboardHandleInterrupt]
  by_cases hReleased : raw &&& keyboardReleasedMask ≠ 0#8
  · rw [if_pos hReleased]
    exact iff_of_true rfl fun hKey => hBreak raw hReleased hKey.plain.1
  · obtain ⟨hSame, hSmall⟩ := hMake raw hReleased
    rw [if_neg hReleased, hSame]
    split_ifs with hModifier hNone
    · refine iff_of_true rfl fun hKey => ?_
      obtain ⟨-, hCaps, hShift⟩ := hKey.plain
      rcases hModifier with hLeft | hRight | hLock
      · exact hShift (Or.inl hLeft)
      · exact hShift (Or.inr hRight)
      · exact hCaps hLock
    · refine iff_of_true rfl fun hKey => ?_
      exact (keyboardTranslateScancode_ne_zero_iff hSmall _).mpr hKey hNone
    · refine iff_of_false (by simp) (not_not.mpr ?_)
      exact (keyboardTranslateScancode_ne_zero_iff hSmall _).mp hNone

end Translation

section Held

/-- Whether the key with the make code `key` is down behind one more byte. -/
def heldAfter (key : BitVec 8) (held : Bool) (raw : BitVec 8) : Bool :=
  if raw = key then true else if raw = key ||| 0x80#8 then false else held

/-- The key was made and not released since. -/
def keyHeld (key : BitVec 8) (stream : List (BitVec 8)) : Bool :=
  stream.foldl (heldAfter key) false

/-- Whether a key is held after one more byte depends on that byte and on
whether it was held before. -/
theorem keyHeld_snoc (key raw : BitVec 8) (stream : List (BitVec 8)) :
    keyHeld key (stream ++ [raw]) = heldAfter key (keyHeld key stream) raw := by
  rw [keyHeld, List.foldl_append]
  rfl

/-- Left Shift or Right Shift is down. -/
def AnyShiftHeld (stream : List (BitVec 8)) : Prop :=
  keyHeld 0x2A#8 stream = true ∨ keyHeld 0x36#8 stream = true

/-- Holding either Shift key, read off the bytes of the two keys. -/
theorem anyShiftHeld_iff (stream : List (BitVec 8)) :
    AnyShiftHeld stream ↔ (keyHeld 0x2A#8 stream || keyHeld 0x36#8 stream) = true := by
  rw [Bool.or_eq_true]
  rfl

/-- The byte behind the stream releases one Shift key over the other one. -/
def ReleasesShiftOverHeld (stream : List (BitVec 8)) (raw : BitVec 8) : Prop :=
  (raw = 0xAA#8 ∧ keyHeld 0x36#8 stream = true) ∨ (raw = 0xB6#8 ∧ keyHeld 0x2A#8 stream = true)

/-- Some byte of the stream releases one Shift key while the other is down. -/
def ShiftReleasedOverHeld (stream : List (BitVec 8)) : Prop :=
  ∃ fed raw, fed ++ [raw] <+: stream ∧ ReleasesShiftOverHeld fed raw

/-- A Shift key is released only while it is held. -/
def ShiftBreaksFollowMakes (stream : List (BitVec 8)) : Prop :=
  ∀ i < stream.length, ∀ key ∈ [0x2A#8, 0x36#8],
    stream[i]? = some (key ||| 0x80#8) → keyHeld key (stream.take i) = true

instance : DecidablePred AnyShiftHeld := fun _ => inferInstanceAs (Decidable (_ ∨ _))

instance (stream : List (BitVec 8)) : Decidable (ShiftBreaksFollowMakes stream) :=
  inferInstanceAs (Decidable (∀ i < stream.length, ∀ key ∈ [0x2A#8, 0x36#8],
    stream[i]? = some (key ||| 0x80#8) → keyHeld key (stream.take i) = true))

/-- Every make code of Caps Lock has switched it, repeats included. -/
def capsLockOn (stream : List (BitVec 8)) : Bool := stream.count 0x3A#8 % 2 = 1

/-- A letter in the other case; every other character as it is. -/
def swapCase (c : BitVec 8) : BitVec 8 :=
  if 0x41#8 ≤ c ∧ c ≤ 0x5A#8 then c + 0x20#8
  else if 0x61#8 ≤ c ∧ c ≤ 0x7A#8 then c - 0x20#8
  else c

/-- What the byte `raw` types behind the stream, by the keys that are down: an
entry of the Shift map while a Shift key is held and of the plain map
otherwise, where Caps Lock swaps the case of letters. -/
def heldCharacter (stream : List (BitVec 8)) (raw : BitVec 8) : Option (BitVec 8) :=
  let typed := (if AnyShiftHeld stream then keyboardShiftMap else keyboardNormalMap).lookup raw
  if capsLockOn stream then typed.map swapCase else typed

/-- What the bytes of a stream type one after another, behind those before it. -/
def heldText (before : List (BitVec 8)) : List (BitVec 8) → List (BitVec 8)
  | [] => []
  | raw :: rest => (heldCharacter before raw).toList ++ heldText (before ++ [raw]) rest

end Held

section Shift

variable (stream : List (BitVec 8))

/-- The driver's Caps Lock flag is the parity of the make codes of its key,
over every stream. -/
theorem keyboardAfter_capsLock : (keyboardAfter stream).capsLockEnabled = capsLockOn stream := by
  induction stream using List.reverseRecOn with
  | nil => rfl
  | append_singleton stream raw ih =>
      rw [keyboardAfter_snoc, keyboardHandleInterrupt_caps, ih, capsLockOn, capsLockOn,
        List.count_append, List.count_singleton]
      by_cases hCaps : raw = scancodeCapsLock
      · have hBeq : (raw == 0x3A#8) = true := beq_iff_eq.mpr hCaps
        rw [if_pos hCaps, if_pos hBeq, ← decide_not, decide_eq_decide]
        omega
      · have hBeq : ¬(raw == 0x3A#8) = true := fun h => hCaps (beq_iff_eq.mp h)
        rw [if_neg hCaps, if_neg hBeq, Nat.add_zero]

/-- A byte that is no character key stands in neither map. -/
theorem keyboardMaps_lookup_eq_none {raw : BitVec 8} (h : ¬IsCharacterKey raw) :
    keyboardNormalMap.lookup raw = none ∧ keyboardShiftMap.lookup raw = none := by
  have hNone : ∀ map : List (BitVec 8 × BitVec 8), raw ∉ map.map Prod.fst → map.lookup raw = none := by
    intro map hAbsent
    rw [List.lookup_eq_none_iff]
    intro entry hEntry
    rw [bne_iff_ne]
    rintro rfl
    exact hAbsent (List.mem_map_of_mem hEntry)
  have hShift : raw ∉ keyboardShiftMap.map Prod.fst := by
    rw [keyboardMaps_keys]
    exact h
  exact ⟨hNone keyboardNormalMap h, hNone keyboardShiftMap hShift⟩

/-- The maps and the case of letters describe every key under each of the
four settings of the modifiers, although the driver reads the other map where
Caps Lock swaps a case. -/
theorem keyboardHandleInterrupt_character (raw : BitVec 8) (s : KeyboardState) :
    (keyboardHandleInterrupt raw s).1 =
      if s.capsLockEnabled then
        ((if s.shiftPressed then keyboardShiftMap else keyboardNormalMap).lookup raw).map swapCase
      else (if s.shiftPressed then keyboardShiftMap else keyboardNormalMap).lookup raw := by
  have hKeys : ∀ raw ∈ keyboardNormalMap.map Prod.fst, ∀ shift caps : Bool,
      (keyboardHandleInterrupt raw ⟨shift, caps⟩).1 =
        if caps then ((if shift then keyboardShiftMap else keyboardNormalMap).lookup raw).map swapCase
        else (if shift then keyboardShiftMap else keyboardNormalMap).lookup raw := by
    decide +kernel
  by_cases hKey : IsCharacterKey raw
  · exact hKeys raw hKey s.shiftPressed s.capsLockEnabled
  · obtain ⟨hNormal, hShift⟩ := keyboardMaps_lookup_eq_none hKey
    rw [(keyboardHandleInterrupt_none_iff raw s).mpr hKey]
    split_ifs
    · rw [hShift, Option.map_none]
    · rw [hNormal, Option.map_none]
    · rw [hShift]
    · rw [hNormal]

/-- One byte keeps the flag in step with the keys unless it releases one
Shift key over the other. -/
theorem shiftAfter_held_iff (raw : BitVec 8) :
    shiftAfter (keyHeld 0x2A#8 stream || keyHeld 0x36#8 stream) raw =
        (keyHeld 0x2A#8 (stream ++ [raw]) || keyHeld 0x36#8 (stream ++ [raw])) ↔
      ¬ReleasesShiftOverHeld stream raw := by
  rw [keyHeld_snoc, keyHeld_snoc, ReleasesShiftOverHeld]
  generalize keyHeld 0x2A#8 stream = left
  generalize keyHeld 0x36#8 stream = right
  revert raw
  cases left <;> cases right <;> decide

/-- The condition on a stream is one on its last byte or one on the bytes
before it. -/
theorem shiftReleasedOverHeld_snoc (raw : BitVec 8) :
    ShiftReleasedOverHeld (stream ++ [raw]) ↔
      ReleasesShiftOverHeld stream raw ∨ ShiftReleasedOverHeld stream := by
  constructor
  · rintro ⟨fed, next, hFed, hRelease⟩
    rcases List.prefix_concat_iff.mp hFed with hAll | hBefore
    · obtain ⟨rfl, hNext⟩ := List.append_inj' hAll rfl
      obtain rfl := List.singleton_inj.mp hNext
      exact Or.inl hRelease
    · exact Or.inr ⟨fed, next, hBefore, hRelease⟩
  · rintro (hRelease | ⟨fed, next, hFed, hRelease⟩)
    · exact ⟨stream, raw, List.prefix_rfl, hRelease⟩
    · exact ⟨fed, next, hFed.trans (List.prefix_append _ _), hRelease⟩

/-- Over a whole stream, the flag is in step with the keys behind every byte
if and only if no byte releases one Shift key over the other. -/
theorem shiftPressed_held_iff :
    (∀ fed, fed <+: stream → (keyboardAfter fed).shiftPressed =
      (keyHeld 0x2A#8 fed || keyHeld 0x36#8 fed)) ↔ ¬ShiftReleasedOverHeld stream := by
  induction stream using List.reverseRecOn with
  | nil =>
      refine iff_of_true (fun fed hFed => ?_) ?_
      · rw [List.prefix_nil.mp hFed]
        rfl
      · rintro ⟨fed, raw, hFed, -⟩
        exact List.append_ne_nil_of_right_ne_nil fed (List.cons_ne_nil raw []) (List.prefix_nil.mp hFed)
  | append_singleton stream raw ih =>
      simp only [List.prefix_concat_iff, or_imp, forall_and, forall_eq]
      rw [ih, shiftReleasedOverHeld_snoc, not_or]
      refine and_congr_left fun hBefore => ?_
      rw [keyboardAfter_snoc, keyboardHandleInterrupt_shift, ih.mpr hBefore stream List.prefix_rfl]
      exact shiftAfter_held_iff stream raw

/-- Where the flag is in step, the next byte types what the held keys say. -/
theorem keyboardHandleInterrupt_held {stream : List (BitVec 8)}
    (h : (keyboardAfter stream).shiftPressed = true ↔ AnyShiftHeld stream) (raw : BitVec 8) :
    (keyboardHandleInterrupt raw (keyboardAfter stream)).1 = heldCharacter stream raw := by
  rw [keyboardHandleInterrupt_character, heldCharacter, keyboardAfter_capsLock, if_congr h rfl rfl]

/-- While the flag tells whether a Shift key is held, the characters are those
of the held keys; by induction on the rest of the stream. -/
theorem keyboardFeed_held (before rest : List (BitVec 8))
    (h : ∀ fed, fed <+: rest →
      ((keyboardAfter (before ++ fed)).shiftPressed = true ↔ AnyShiftHeld (before ++ fed))) :
    (keyboardFeed rest (keyboardAfter before)).1 = heldText before rest := by
  induction rest generalizing before with
  | nil => rfl
  | cons raw rest ih =>
      have hHere := h [] List.nil_prefix
      rw [List.append_nil] at hHere
      have hRest : (keyboardFeed rest (keyboardAfter (before ++ [raw]))).1 =
          heldText (before ++ [raw]) rest := by
        refine ih (before ++ [raw]) fun fed hFed => ?_
        rw [List.append_assoc]
        exact h (raw :: fed) ((List.prefix_cons_inj raw).mpr hFed)
      rw [keyboardFeed, heldText, keyboardHandleInterrupt_held hHere, ← keyboardAfter_snoc, hRest]

/-- Up to every byte of a stream the Shift flag is set exactly while a Shift
key is held, and the characters typed are those of the held keys, exactly when
no byte of the stream releases one Shift key while the other is held. -/
theorem keyboard_shift_tracks_held_iff (stream : List (BitVec 8)) :
    (∀ fed, fed <+: stream →
      ((keyboardAfter fed).shiftPressed = true ↔ AnyShiftHeld fed) ∧
      (keyboardFeed fed .boot).1 = heldText [] fed) ↔
    ¬ShiftReleasedOverHeld stream := by
  have hFlag : ∀ fed, ((keyboardAfter fed).shiftPressed = true ↔ AnyShiftHeld fed) ↔
      (keyboardAfter fed).shiftPressed = (keyHeld 0x2A#8 fed || keyHeld 0x36#8 fed) := by
    intro fed
    rw [anyShiftHeld_iff]
    exact Bool.eq_iff_iff.symm
  rw [← shiftPressed_held_iff]
  constructor
  · intro h fed hFed
    exact (hFlag fed).mp (h fed hFed).1
  · intro h fed hFed
    refine ⟨(hFlag fed).mpr (h fed hFed), keyboardFeed_held [] fed fun part hPart => ?_⟩
    exact (hFlag part).mpr (h part (hPart.trans hFed))

/-- Left Shift down, Right Shift down, Left Shift up, then the A key: Right
Shift is held, so the key should type a capital letter, and the driver types a
small one. -/
theorem keyboard_shift_released_over_held :
    ShiftBreaksFollowMakes [0x2A#8, 0x36#8, 0xAA#8, 0x1E#8] ∧
      0xE0#8 ∉ [0x2A#8, 0x36#8, 0xAA#8, 0x1E#8] ∧ 0xE1#8 ∉ [0x2A#8, 0x36#8, 0xAA#8, 0x1E#8] ∧
      AnyShiftHeld [0x2A#8, 0x36#8, 0xAA#8] ∧
      (keyboardAfter [0x2A#8, 0x36#8, 0xAA#8]).shiftPressed = false ∧
      heldText [] [0x2A#8, 0x36#8, 0xAA#8, 0x1E#8] = asciiText "A" ∧
      (keyboardFeed [0x2A#8, 0x36#8, 0xAA#8, 0x1E#8] .boot).1 = asciiText "a" := by
  have hTyped : (keyboardFeed [0x2A#8, 0x36#8, 0xAA#8, 0x1E#8] .boot).1 = asciiText "a" := by
    decide +kernel
  have hHeld : heldText [] [0x2A#8, 0x36#8, 0xAA#8, 0x1E#8] = asciiText "A" := by
    decide +kernel
  exact ⟨by decide, by decide, by decide, Or.inr (by decide), by decide, hHeld, hTyped⟩

end Shift

section Extended

/-- The prefix byte of an extended scancode. -/
def extendedPrefix : BitVec 8 := 0xE0#8

/-- The stream without its two-byte extended sequences. -/
def removeExtended : List (BitVec 8) → List (BitVec 8)
  | [] => []
  | [raw] => [raw]
  | raw :: payload :: rest =>
      if raw = extendedPrefix then removeExtended rest else raw :: removeExtended (payload :: rest)

/-- The byte behind a prefix does nothing as a plain scancode: it is neither
Caps Lock nor a key that types a character, and it does not move the flag. -/
def PayloadInert (shift : Bool) (payload : BitVec 8) : Prop :=
  payload ≠ scancodeCapsLock ∧ ¬IsCharacterKey payload ∧ (IsShiftMake payload → shift = true) ∧
    (IsShiftBreak payload → shift = false)

/-- Every extended sequence of the stream has an inert payload, where the
flag is the one that the bytes outside of extended sequences have set. -/
def ExtendedInert (shift : Bool) : List (BitVec 8) → Prop
  | [] => True
  | [_] => True
  | raw :: payload :: rest =>
      if raw = extendedPrefix then PayloadInert shift payload ∧ ExtendedInert shift rest
      else ExtendedInert (shiftAfter shift raw) (payload :: rest)

/-- The flag is unchanged unless a make code finds it clear or a break code
finds it set. -/
theorem shiftAfter_eq_self_iff (shift : Bool) (raw : BitVec 8) :
    shiftAfter shift raw = shift ↔
      (IsShiftMake raw → shift = true) ∧ (IsShiftBreak raw → shift = false) := by
  revert raw
  cases shift <;> decide

/-- A byte is without effect exactly when it is no character key, no Caps
Lock, and changes no flag. -/
theorem keyboardHandleInterrupt_ignored_iff (raw : BitVec 8) (s : KeyboardState) :
    keyboardHandleInterrupt raw s = (none, s) ↔ PayloadInert s.shiftPressed raw := by
  have hShift := keyboardHandleInterrupt_shift raw s
  have hCaps := keyboardHandleInterrupt_caps raw s
  have hState : (keyboardHandleInterrupt raw s).2 = s ↔
      shiftAfter s.shiftPressed raw = s.shiftPressed ∧ raw ≠ scancodeCapsLock := by
    constructor
    · intro hSame
      rw [hSame] at hShift hCaps
      refine ⟨hShift.symm, fun hLock => ?_⟩
      rw [if_pos hLock] at hCaps
      cases hOld : s.capsLockEnabled <;> simp [hOld] at hCaps
    · rintro ⟨hSame, hNotLock⟩
      rw [hSame] at hShift
      rw [if_neg hNotLock] at hCaps
      generalize (keyboardHandleInterrupt raw s).2 = t at hShift hCaps
      cases s
      cases t
      simp_all
  rw [Prod.ext_iff, keyboardHandleInterrupt_none_iff, hState, shiftAfter_eq_self_iff, PayloadInert]
  tauto

/-- The prefix byte itself is read as the break code of no modifier. -/
theorem keyboardHandleInterrupt_extendedPrefix (s : KeyboardState) :
    keyboardHandleInterrupt extendedPrefix s = (none, s) := by
  rw [keyboardHandleInterrupt_ignored_iff]
  refine ⟨by decide, fun hKey => absurd hKey.plain.1 (by decide), fun hMake => ?_, fun hBreak => ?_⟩
  · exact absurd hMake (by decide)
  · exact absurd hBreak (by decide)

/-- A byte without effect may be dropped from the front of a stream. -/
theorem keyboardFeed_ignored {raw : BitVec 8} {s : KeyboardState}
    (h : keyboardHandleInterrupt raw s = (none, s)) (rest : List (BitVec 8)) :
    keyboardFeed (raw :: rest) s = keyboardFeed rest s := by
  rw [keyboardFeed, h]
  rfl

/-- A common first byte can be dropped from a comparison. -/
theorem keyboardFeed_cons_inj (raw : BitVec 8) (s : KeyboardState) (a b : List (BitVec 8)) :
    keyboardFeed (raw :: a) s = keyboardFeed (raw :: b) s ↔
      keyboardFeed a (keyboardHandleInterrupt raw s).2 =
        keyboardFeed b (keyboardHandleInterrupt raw s).2 := by
  rw [keyboardFeed, keyboardFeed, Prod.ext_iff, Prod.ext_iff]
  simp only [List.append_cancel_left_eq]

/-- A stream of one byte tells whether that byte has an effect. -/
theorem keyboardFeed_singleton_eq_nil_iff (raw : BitVec 8) (s : KeyboardState) :
    keyboardFeed [raw] s = keyboardFeed [] s ↔ keyboardHandleInterrupt raw s = (none, s) := by
  rw [keyboardFeed, Prod.ext_iff, Prod.ext_iff]
  simp [keyboardFeed]

theorem removeExtended_cons {raw : BitVec 8} (h : raw ≠ extendedPrefix) (rest : List (BitVec 8)) :
    removeExtended (raw :: rest) = raw :: removeExtended rest := by
  cases rest with
  | nil => rfl
  | cons payload rest => rw [removeExtended, if_neg h]

theorem removeExtended_pair (payload : BitVec 8) (rest : List (BitVec 8)) :
    removeExtended (extendedPrefix :: payload :: rest) = removeExtended rest := by
  rw [removeExtended, if_pos rfl]

/-- The induction is on the parse of the stream into plain bytes and extended
sequences; the state is that of the run without them. -/
theorem keyboardFeed_removeExtended_iff (stream : List (BitVec 8)) (s : KeyboardState) :
    (∀ fed, fed <+: stream → keyboardFeed fed s = keyboardFeed (removeExtended fed) s) ↔
      ExtendedInert s.shiftPressed stream := by
  induction stream using removeExtended.induct generalizing s with
  | case1 =>
      refine iff_of_true (fun fed hFed => ?_) trivial
      rw [List.prefix_nil.mp hFed]
      rfl
  | case2 raw =>
      refine iff_of_true (fun fed hFed => ?_) trivial
      rcases List.prefix_cons_iff.mp hFed with rfl | ⟨rest, rfl, hRest⟩
      · rfl
      · rw [List.prefix_nil.mp hRest]
        rfl
  | case3 payload rest ih =>
      rw [ExtendedInert, if_pos rfl, ← keyboardHandleInterrupt_ignored_iff]
      have hSkip := keyboardFeed_ignored (keyboardHandleInterrupt_extendedPrefix s)
      constructor
      · intro h
        have hPair := h [extendedPrefix, payload] ⟨rest, rfl⟩
        rw [hSkip, removeExtended_pair, removeExtended, keyboardFeed_singleton_eq_nil_iff] at hPair
        refine ⟨hPair, (ih s).mp fun fed hFed => ?_⟩
        have hBoth := h (extendedPrefix :: payload :: fed)
          ((List.prefix_cons_inj _).mpr ((List.prefix_cons_inj _).mpr hFed))
        rwa [hSkip, removeExtended_pair, keyboardFeed_ignored hPair] at hBoth
      · rintro ⟨hPayload, hRest⟩ fed hFed
        rcases List.prefix_cons_iff.mp hFed with rfl | ⟨behind, rfl, hBehind⟩
        · rfl
        rcases List.prefix_cons_iff.mp hBehind with rfl | ⟨others, rfl, hOthers⟩
        · rfl
        rw [hSkip, removeExtended_pair, keyboardFeed_ignored hPayload]
        exact (ih s).mpr hRest others hOthers
  | case4 raw payload rest hPlain ih =>
      rw [ExtendedInert, if_neg hPlain, ← keyboardHandleInterrupt_shift, ← ih]
      constructor
      · intro h fed hFed
        have hBoth := h (raw :: fed) ((List.prefix_cons_inj _).mpr hFed)
        rwa [removeExtended_cons hPlain, keyboardFeed_cons_inj] at hBoth
      · intro h fed hFed
        rcases List.prefix_cons_iff.mp hFed with rfl | ⟨others, rfl, hOthers⟩
        · rfl
        rw [removeExtended_cons hPlain, keyboardFeed_cons_inj]
        exact h others hOthers

/-- Up to every byte of a stream the driver has produced the characters and
reached the state of the stream without extended sequences exactly when all
of them have inert payloads. -/
theorem keyboard_ignores_extended_iff (stream : List (BitVec 8)) :
    (∀ fed, fed <+: stream →
      (keyboardFeed fed .boot).1 = (keyboardFeed (removeExtended fed) .boot).1 ∧
      (keyboardFeed fed .boot).2 = (keyboardFeed (removeExtended fed) .boot).2) ↔
    ExtendedInert false stream := by
  simp only [← Prod.ext_iff]
  exact keyboardFeed_removeExtended_iff stream .boot

/-- The Enter key of the keypad, `0xE0 0x1C`, types a line feed. -/
theorem keyboard_reads_extended :
    removeExtended [0xE0#8, 0x1C#8] = [] ∧
      (keyboardFeed [0xE0#8, 0x1C#8] .boot).1 = asciiText "\n" ∧
      (keyboardFeed (removeExtended [0xE0#8, 0x1C#8]) .boot).1 = [] := by
  have hTyped : (keyboardFeed [0xE0#8, 0x1C#8] .boot).1 = asciiText "\n" := by decide +kernel
  exact ⟨rfl, hTyped, rfl⟩

end Extended
end WigOSX
