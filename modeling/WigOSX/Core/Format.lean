import Mathlib

/-! Text as the kernel keeps it, bytes in a buffer, and the decimal formatting
of `format.c`. -/
namespace WigOSX

/-- The bytes of a string literal, without the terminator. -/
def asciiText (literal : String) : List (BitVec 8) :=
  literal.toList.map fun c => BitVec.ofNat 8 c.toNat

/-- What a reader of null-terminated text sees of a buffer. -/
def cString (buffer : List (BitVec 8)) : List (BitVec 8) :=
  buffer.takeWhile (· ≠ 0#8)

/-- The first loop of the formatters: `digits[]` in the order it is filled,
least significant first. Unsigned division does not wrap, so both widths
share it. -/
def kformatDigits (value : Nat) : List (BitVec 8) :=
  if h : 0 < value then BitVec.ofNat 8 (0x30 + value % 10) :: kformatDigits (value / 10) else []
decreasing_by exact Nat.div_lt_self h (by norm_num)

/-- Overwrites the start of a buffer with a text and its terminator. -/
def kformatStore (text buffer : List (BitVec 8)) : List (BitVec 8) :=
  text ++ 0#8 :: buffer.drop (text.length + 1)

/-- The body shared by the two decimal formatters. The length of the buffer
is `buffer_size`. -/
def kformatDecimal (value : Nat) (bufferIsNull : Bool) (buffer : List (BitVec 8)) :
    Bool × List (BitVec 8) :=
  if bufferIsNull ∨ buffer.length = 0 then (false, buffer)
  else if value = 0 then
    if buffer.length < 2 then (false, buffer) else (true, kformatStore [0x30#8] buffer)
  else
    let digits := kformatDigits value
    if buffer.length ≤ digits.length then (false, buffer)
    else (true, kformatStore digits.reverse buffer)

def kformatUint32Decimal (value : BitVec 32) : Bool → List (BitVec 8) → Bool × List (BitVec 8) :=
  kformatDecimal value.toNat

def kformatUint64Decimal (value : BitVec 64) : Bool → List (BitVec 8) → Bool × List (BitVec 8) :=
  kformatDecimal value.toNat

end WigOSX
