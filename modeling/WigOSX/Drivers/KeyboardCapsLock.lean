import WigOSX.Drivers.KeyboardModifiers

/-! Caps Lock over whole streams. The driver inverts its flag on every make
code of the key, and a key that is held repeats its make code. The flag is
therefore the parity of all make codes, which is the parity of the presses
exactly when the number of repeats is even. -/
namespace WigOSX

/-- The byte at position `i` is a make code of Caps Lock, and the key was up. -/
def isCapsLockPress (stream : List (BitVec 8)) (i : Nat) : Bool :=
  stream[i]? = some scancodeCapsLock && !keyHeld scancodeCapsLock (stream.take i)

/-- The byte at position `i` is a make code of Caps Lock, and the key was down. -/
def isCapsLockRepeat (stream : List (BitVec 8)) (i : Nat) : Bool :=
  stream[i]? = some scancodeCapsLock && keyHeld scancodeCapsLock (stream.take i)

def capsLockPresses (stream : List (BitVec 8)) : Nat :=
  (List.range stream.length).countP (isCapsLockPress stream)

def capsLockRepeats (stream : List (BitVec 8)) : Nat :=
  (List.range stream.length).countP (isCapsLockRepeat stream)

/-- What the flag is when a press inverts it once, however long it lasts. -/
def capsLockByPresses (stream : List (BitVec 8)) : Bool :=
  capsLockPresses stream % 2 = 1

def KeyboardState.withCapsLock (s : KeyboardState) (enabled : Bool) : KeyboardState :=
  { s with capsLockEnabled := enabled }

section Counting

theorem countP_range_snoc (p q : Nat → Bool) (n : Nat) (h : ∀ i < n, p i = q i) :
    (List.range (n + 1)).countP p = (List.range n).countP q + if p n then 1 else 0 := by
  rw [List.range_succ, List.countP_append, List.countP_singleton]
  congr 1
  apply List.countP_congr
  intro i hi
  rw [h i (List.mem_range.mp hi)]

variable (stream : List (BitVec 8)) (raw : BitVec 8)

/-- A make code is a press when the key was not held before it. -/
theorem capsLockPresses_snoc :
    capsLockPresses (stream ++ [raw]) = capsLockPresses stream +
      if raw = scancodeCapsLock ∧ keyHeld scancodeCapsLock stream = false then 1 else 0 := by
  rw [capsLockPresses, List.length_append, List.length_singleton,
    countP_range_snoc _ (isCapsLockPress stream)]
  · simp [isCapsLockPress, capsLockPresses]
  · intro i hi
    rw [isCapsLockPress, isCapsLockPress, List.getElem?_append_left hi,
      List.take_append_of_le_length hi.le]

/-- A make code of the held key is a repeat of the keyboard's. -/
theorem capsLockRepeats_snoc :
    capsLockRepeats (stream ++ [raw]) = capsLockRepeats stream +
      if raw = scancodeCapsLock ∧ keyHeld scancodeCapsLock stream = true then 1 else 0 := by
  rw [capsLockRepeats, List.length_append, List.length_singleton,
    countP_range_snoc _ (isCapsLockRepeat stream)]
  · simp [isCapsLockRepeat, capsLockRepeats]
  · intro i hi
    rw [isCapsLockRepeat, isCapsLockRepeat, List.getElem?_append_left hi,
      List.take_append_of_le_length hi.le]

end Counting

/-- Every make code of Caps Lock is a press or a repeat. -/
theorem capsLock_count (stream : List (BitVec 8)) :
    stream.count scancodeCapsLock = capsLockPresses stream + capsLockRepeats stream := by
  induction stream using List.reverseRecOn with
  | nil => rfl
  | append_singleton stream raw ih =>
      rw [List.count_append, List.count_singleton, capsLockPresses_snoc, capsLockRepeats_snoc, ih]
      by_cases hMake : raw = scancodeCapsLock
      · cases keyHeld scancodeCapsLock stream with
        | false => simp [hMake, Nat.add_right_comm]
        | true => simp [hMake, Nat.add_assoc]
      · simp [hMake]

/-- Every make code inverts the flag, be it a press or a repeat. -/
theorem capsLock_parity (stream : List (BitVec 8)) :
    (keyboardAfter stream).capsLockEnabled =
      decide ((capsLockPresses stream + capsLockRepeats stream) % 2 = 1) := by
  rw [keyboardAfter_capsLock, ← capsLock_count]
  rfl

/-- The flag is the parity of the presses, and keys are translated by that
parity, exactly when Caps Lock repeated an even number of times. -/
theorem keyboard_caps_lock_by_presses_iff (stream : List (BitVec 8)) :
    ((keyboardAfter stream).capsLockEnabled = capsLockByPresses stream ∧
      ∀ raw, (keyboardHandleInterrupt raw (keyboardAfter stream)).1 =
        (keyboardHandleInterrupt raw
          ((keyboardAfter stream).withCapsLock (capsLockByPresses stream))).1) ↔
    capsLockRepeats stream % 2 = 0 := by
  have hParity : (keyboardAfter stream).capsLockEnabled = capsLockByPresses stream ↔
      capsLockRepeats stream % 2 = 0 := by
    rw [capsLock_parity, capsLockByPresses, decide_eq_decide]
    omega
  rw [← hParity]
  constructor
  · intro h
    exact h.1
  · intro h
    refine ⟨h, fun raw => ?_⟩
    rw [KeyboardState.withCapsLock, ← h]

/-- Caps Lock down, one repeat, up: one press, and the A key types a small
letter. -/
theorem keyboard_caps_lock_repeat_counts :
    0xE0#8 ∉ [0x3A#8, 0x3A#8, 0xBA#8] ∧ 0xE1#8 ∉ [0x3A#8, 0x3A#8, 0xBA#8] ∧
      capsLockPresses [0x3A#8, 0x3A#8, 0xBA#8] = 1 ∧
      (keyboardAfter [0x3A#8, 0x3A#8, 0xBA#8]).capsLockEnabled = false ∧
      (keyboardFeed [0x3A#8, 0x3A#8, 0xBA#8, 0x1E#8] .boot).1 = asciiText "a" := by
  have hTyped : (keyboardFeed [0x3A#8, 0x3A#8, 0xBA#8, 0x1E#8] .boot).1 = asciiText "a" := by
    decide +kernel
  exact ⟨by decide, by decide, by decide, by decide, hTyped⟩

end WigOSX
