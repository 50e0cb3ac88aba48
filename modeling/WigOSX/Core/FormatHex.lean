import WigOSX.Core.Log

/-! Hexadecimal formatting. The text has a fixed width, and reads back as the
number it was made from. -/
namespace WigOSX

/-- `hex_digits[]`, which the loop never indexes past its end. -/
def kformatHexDigit (digit : BitVec 32) : BitVec 8 :=
  (asciiText "0123456789ABCDEF").getD digit.toNat 0#8

/-- A round of the loop. -/
def kformatHexRound (value : BitVec 32) (buffer : List (BitVec 8)) (i : Nat) : List (BitVec 8) :=
  let shift := 28#32 - BitVec.ofNat 32 i * 4#32
  let digit := (value >>> shift.toNat) &&& 0xF#32
  buffer.set (2 + i) (kformatHexDigit digit)

def kformatUint32Hex (value : BitVec 32) (bufferIsNull : Bool) (buffer : List (BitVec 8)) :
    Bool × List (BitVec 8) :=
  if bufferIsNull ∨ buffer.length < 11 then (false, buffer)
  else
    let buffer := (buffer.set 0 0x30#8).set 1 0x78#8
    let buffer := (List.range 8).foldl (kformatHexRound value) buffer
    (true, buffer.set 10 0#8)

def klogWriteHex32 (value : BitVec 32) : KernelProgram Unit :=
  klogWriteFormatted (formatted (kformatUint32Hex value) 11)

section Text

/-- The text of a number. -/
def hexText (value : BitVec 32) : List (BitVec 8) :=
  asciiText "0x" ++ (List.range 8).map fun i => kformatHexDigit ((value >>> (28 - 4 * i)) &&& 0xF#32)

/-- The number that a hexadecimal digit stands for. -/
def hexDigitValue (c : BitVec 8) : Option Nat :=
  let digit := (asciiText "0123456789ABCDEF").idxOf c
  if digit < 16 then some digit else none

/-- Reads a number behind `0x`, most significant digit first. -/
def hexRead (text : List (BitVec 8)) : Option Nat :=
  if text.take 2 = asciiText "0x" then
    (text.drop 2).foldl (fun number c => number.bind fun n => (hexDigitValue c).map fun d => 16 * n + d) (some 0)
  else none

/-- With room for eleven bytes the text of the number is stored, terminator
included. -/
theorem kformatUint32Hex_eq (value : BitVec 32) (buffer : List (BitVec 8)) (hSize : 11 ≤ buffer.length) :
    kformatUint32Hex value false buffer = (true, kformatStore (hexText value) buffer) := by
  rw [kformatUint32Hex, if_neg (by simpa using hSize)]
  match buffer, hSize with
  | b0 :: b1 :: b2 :: b3 :: b4 :: b5 :: b6 :: b7 :: b8 :: b9 :: b10 :: rest, _ => rfl

theorem kformatUint32Hex_refuses (value : BitVec 32) {bufferIsNull : Bool} {buffer : List (BitVec 8)}
    (h : bufferIsNull = true ∨ buffer.length < 11) :
    kformatUint32Hex value bufferIsNull buffer = (false, buffer) :=
  if_pos h

/-- The digit of four bits has the value of these bits. -/
theorem hexDigitValue_digit (digit : BitVec 32) :
    hexDigitValue (kformatHexDigit (digit &&& 0xF#32)) = some (digit.toNat % 16) := by
  have hTable : ∀ d : Fin 16, hexDigitValue ((asciiText "0123456789ABCDEF").getD d.val 0#8) = some d.val := by
    decide
  have hDigit : (digit &&& 0xF#32).toNat = digit.toNat % 16 := by
    rw [BitVec.toNat_and]
    exact Nat.and_two_pow_sub_one_eq_mod digit.toNat 4
  rw [kformatHexDigit, hDigit]
  exact hTable ⟨digit.toNat % 16, Nat.mod_lt _ (by decide)⟩

/-- The text reads back as the number. -/
theorem hexRead_hexText (value : BitVec 32) : hexRead (hexText value) = some value.toNat := by
  have hPrefix : (hexText value).take 2 = asciiText "0x" := rfl
  have hDigits : (hexText value).drop 2 =
      (List.range 8).map fun i => kformatHexDigit ((value >>> (28 - 4 * i)) &&& 0xF#32) := rfl
  rw [hexRead, if_pos hPrefix, hDigits, List.foldl_map]
  simp only [hexDigitValue_digit, List.range, List.range.loop, List.foldl_cons, List.foldl_nil,
    Option.bind_some, Option.map_some, BitVec.toNat_ushiftRight, Nat.shiftRight_eq_div_pow]
  have hValue := value.isLt
  congr 1
  omega

theorem hexText_length (value : BitVec 32) : (hexText value).length = 10 := rfl

/-- No digit is the terminator. -/
theorem cString_hexText (value : BitVec 32) (rest : List (BitVec 8)) :
    cString (hexText value ++ 0#8 :: rest) = hexText value := by
  have hTable : ∀ d : Fin 16, (asciiText "0123456789ABCDEF").getD d.val 0#8 ≠ 0#8 := by
    decide
  have hDigit (digit : BitVec 32) : kformatHexDigit (digit &&& 0xF#32) ≠ 0#8 := by
    have hBound : (digit &&& 0xF#32).toNat < 16 := by
      rw [BitVec.toNat_and]
      exact Nat.lt_succ_of_le Nat.and_le_right
    exact hTable ⟨_, hBound⟩
  have hText : ∀ c ∈ hexText value, decide (c ≠ 0#8) = true := by
    intro c hc
    rw [decide_eq_true_eq]
    rcases List.mem_append.mp hc with hPrefix | hDigits
    · have hLiteral : ∀ c ∈ asciiText "0x", c ≠ 0#8 := by decide
      exact hLiteral c hPrefix
    · obtain ⟨i, -, rfl⟩ := List.mem_map.mp hDigits
      exact hDigit _
  rw [cString, List.takeWhile_append_of_pos hText, List.takeWhile_cons_of_neg (by decide), List.append_nil]

/-- The callers' buffers have that room, so they always print the whole text. -/
theorem formatted_hex (value : BitVec 32) : formatted (kformatUint32Hex value) 11 = some (hexText value) := by
  rw [formatted, kformatUint32Hex_eq value _ (by rw [List.length_replicate])]
  exact congrArg some (cString_hexText value _)

/-- For every number and every buffer: the formatter succeeds exactly with a
buffer of eleven bytes or more, and otherwise stores nothing. The text it
stores reads back as the number, and what lies behind it is kept. -/
theorem kformatUint32Hex_roundtrip (value : BitVec 32) (bufferIsNull : Bool) (buffer : List (BitVec 8)) :
    ((kformatUint32Hex value bufferIsNull buffer).1 = true ↔ bufferIsNull = false ∧ 11 ≤ buffer.length) ∧
    ((kformatUint32Hex value bufferIsNull buffer).1 = false →
      (kformatUint32Hex value bufferIsNull buffer).2 = buffer) ∧
    ((kformatUint32Hex value bufferIsNull buffer).1 = true →
      hexRead (cString (kformatUint32Hex value bufferIsNull buffer).2) = some value.toNat ∧
      (kformatUint32Hex value bufferIsNull buffer).2.drop 11 = buffer.drop 11 ∧
      (kformatUint32Hex value bufferIsNull buffer).2.length = buffer.length) := by
  by_cases hRefused : bufferIsNull = true ∨ buffer.length < 11
  · rw [kformatUint32Hex_refuses value hRefused]
    refine ⟨⟨nofun, fun hAccepted => ?_⟩, fun _ => rfl, nofun⟩
    rcases hRefused with hNull | hSmall
    · exact absurd (hAccepted.1.symm.trans hNull) Bool.noConfusion
    · exact absurd hAccepted.2 (Nat.not_le.mpr hSmall)
  · obtain ⟨hPointer, hSize⟩ := not_or.mp hRefused
    cases Bool.eq_false_iff.mpr hPointer
    have hFits : 11 ≤ buffer.length := Nat.le_of_not_lt hSize
    rw [kformatUint32Hex_eq value buffer hFits]
    refine ⟨⟨fun _ => ⟨rfl, hFits⟩, fun _ => rfl⟩, nofun, fun _ => ⟨?_, ?_, ?_⟩⟩
    · rw [kformatStore, cString_hexText, hexRead_hexText]
    · rfl
    · rw [kformatStore, List.length_append, List.length_cons, List.length_drop, hexText_length]
      omega

end Text
end WigOSX
