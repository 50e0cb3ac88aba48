import WigOSX.Core.Format

/-! The decimal formatters with their arrays. The two loops of `format.c` are
written over the local array `digits[]` and the caller's buffer, and fail
where the source would index past an end. They never fail, they compute what
the formatters compute, and the text is the canonical numeral. -/
namespace WigOSX

variable {capacity : Nat}

/-- `while (value > 0)`, from `digits[digit_count]` on. -/
def kformatFill (value : Nat) (digits : Vector (BitVec 8) capacity) (digitCount : Nat) :
    Option (Vector (BitVec 8) capacity × Nat) :=
  if h : 0 < value then
    if hDigit : digitCount < capacity then
      kformatFill (value / 10) (digits.set digitCount (BitVec.ofNat 8 (0x30 + value % 10)))
        (digitCount + 1)
    else none
  else some (digits, digitCount)
termination_by value
decreasing_by exact Nat.div_lt_self h (by norm_num)

/-- `while (digit_count > 0)`, from `buffer[output_index]` on. -/
def kformatCopy (digits : Vector (BitVec 8) capacity) :
    Nat → Nat → List (BitVec 8) → Option (List (BitVec 8) × Nat)
  | 0, outputIndex, buffer => some (buffer, outputIndex)
  | digitCount + 1, outputIndex, buffer =>
      if hDigit : digitCount < capacity then
        if outputIndex < buffer.length then
          kformatCopy digits digitCount (outputIndex + 1) (buffer.set outputIndex digits[digitCount])
        else none
      else none

/-- The body of the two formatters. The local array starts with any content. -/
def kformatLoops (value : Nat) (digits : Vector (BitVec 8) capacity) (bufferIsNull : Bool)
    (buffer : List (BitVec 8)) : Option (Bool × List (BitVec 8)) :=
  if bufferIsNull ∨ buffer.length = 0 then some (false, buffer)
  else if value = 0 then
    if buffer.length < 2 then some (false, buffer)
    else some (true, (buffer.set 0 0x30#8).set 1 0#8)
  else do
    let (digits, digitCount) ← kformatFill value digits 0
    if buffer.length ≤ digitCount then return (false, buffer)
    else
      let (buffer, outputIndex) ← kformatCopy digits digitCount 0 buffer
      if outputIndex < buffer.length then return (true, buffer.set outputIndex 0#8) else none

/-- `char digits[10]`. -/
def kformatUint32DecimalLoops (value : BitVec 32) (digits : Vector (BitVec 8) 10) :
    Bool → List (BitVec 8) → Option (Bool × List (BitVec 8)) :=
  kformatLoops value.toNat digits

/-- `char digits[20]`. -/
def kformatUint64DecimalLoops (value : BitVec 64) (digits : Vector (BitVec 8) 20) :
    Bool → List (BitVec 8) → Option (Bool × List (BitVec 8)) :=
  kformatLoops value.toNat digits

section Digits

/-- The digits come off a number in the order of `Nat.digits`, each as its
ASCII code. -/
theorem kformatDigits_eq (value : Nat) :
    kformatDigits value = (Nat.digits 10 value).map fun d => BitVec.ofNat 8 (0x30 + d) := by
  induction value using Nat.strong_induction_on with
  | _ value ih =>
      rw [kformatDigits]
      split_ifs with hPos
      · rw [Nat.digits_def' (by norm_num) hPos, List.map_cons, ih _ (Nat.div_lt_self hPos (by norm_num))]
      · rw [Nat.eq_zero_of_not_pos hPos, Nat.digits_zero, List.map_nil]

/-- A number other than zero has as many digits as its logarithm tells. -/
theorem kformatDigits_length {value : Nat} (h : value ≠ 0) :
    (kformatDigits value).length = Nat.log 10 value + 1 := by
  rw [kformatDigits_eq, List.length_map, Nat.length_digits 10 value (by norm_num) h]

/-- A number below a power of ten has at most as many digits as the exponent. -/
theorem kformatDigits_length_le {value : Nat} (h : value < 10 ^ capacity) :
    (kformatDigits value).length ≤ capacity := by
  rw [kformatDigits_eq, List.length_map]
  exact (Nat.digits_length_le_iff (by norm_num) value).mpr h

/-- The first loop stores the digits behind those that are there. -/
theorem kformatFill_eq (value : Nat) {digits : Vector (BitVec 8) capacity} {stored : List (BitVec 8)}
    (hStored : digits.toList.take stored.length = stored)
    (h : stored.length + (kformatDigits value).length ≤ capacity) :
    ∃ filled, kformatFill value digits stored.length =
        some (filled, stored.length + (kformatDigits value).length) ∧
      filled.toList.take (stored.length + (kformatDigits value).length) =
        stored ++ kformatDigits value := by
  induction value using Nat.strong_induction_on generalizing digits stored with
  | _ value ih =>
      rw [kformatDigits] at h ⊢
      rw [kformatFill]
      by_cases hPos : 0 < value
      · simp only [dif_pos hPos, List.length_cons] at h ⊢
        have hDigit : stored.length < capacity := by omega
        have hNext : (digits.set stored.length (BitVec.ofNat 8 (0x30 + value % 10))).toList.take
            (stored ++ [BitVec.ofNat 8 (0x30 + value % 10)]).length =
            stored ++ [BitVec.ofNat 8 (0x30 + value % 10)] := by
          have hLength : stored.length < digits.toList.length := by
            rw [Vector.length_toList]
            exact hDigit
          rw [Vector.toList_set, List.length_append, List.length_singleton, List.take_add_one,
            List.take_set_of_le le_rfl, hStored, List.getElem?_set_self hLength]
          rfl
        obtain ⟨filled, hFill, hFilled⟩ := ih (value / 10) (Nat.div_lt_self hPos (by norm_num)) hNext (by
          rw [List.length_append, List.length_singleton]
          omega)
        rw [List.length_append, List.length_singleton] at hFill hFilled
        refine ⟨filled, ?_, ?_⟩
        · rw [dif_pos hDigit, hFill, Nat.add_right_comm, Nat.add_assoc]
        · rw [← Nat.add_assoc, Nat.add_right_comm, hFilled, List.append_assoc, List.singleton_append]
      · simp only [dif_neg hPos, List.length_nil, Nat.add_zero, List.append_nil]
        exact ⟨digits, rfl, hStored⟩

/-- The second loop copies them back in reverse order. -/
theorem kformatCopy_eq {digits : Vector (BitVec 8) capacity} {stored : List (BitVec 8)}
    (hStored : digits.toList.take stored.length = stored) (hCapacity : stored.length ≤ capacity)
    (written rest : List (BitVec 8)) (h : stored.length ≤ rest.length) :
    kformatCopy digits stored.length written.length (written ++ rest) =
      some (written ++ stored.reverse ++ rest.drop stored.length, written.length + stored.length) := by
  induction stored using List.reverseRecOn generalizing written rest with
  | nil => simp [kformatCopy]
  | append_singleton stored last ih =>
      rw [List.length_append, List.length_singleton] at hStored hCapacity h
      have hDigit : stored.length < capacity := by omega
      have hLength : stored.length < digits.toList.length := by
        rw [Vector.length_toList]
        exact hDigit
      rw [List.take_add_one, List.getElem?_eq_getElem hLength] at hStored
      obtain ⟨hBefore, hLast⟩ := List.append_inj' hStored rfl
      have hLast : digits[stored.length] = last := by
        rw [← List.singleton_inj, ← hLast]
        rfl
      cases rest with
      | nil => exact absurd h (Nat.not_succ_le_zero _)
      | cons old rest =>
          have hRoom : written.length < (written ++ old :: rest).length := by
            rw [List.length_append, List.length_cons]
            omega
          have hSet : (written ++ old :: rest).set written.length last = (written ++ [last]) ++ rest := by
            rw [List.set_append_right _ _ le_rfl, Nat.sub_self, List.set_cons_zero, List.append_assoc,
              List.singleton_append]
          have hNext := ih hBefore (by omega) (written ++ [last]) rest (by
            rw [List.length_cons] at h
            omega)
          rw [List.length_append, List.length_singleton] at hNext
          rw [List.length_append, List.length_singleton, kformatCopy, dif_pos hDigit, if_pos hRoom,
            hLast, hSet, hNext, List.reverse_append, List.reverse_singleton, List.drop_succ_cons]
          refine congrArg some (Prod.ext ?_ ?_)
          · simp
          · show written.length + 1 + stored.length = written.length + (stored.length + 1)
            omega

end Digits

section Refinement

/-- With room for the digits of the value, no index is past an end, and the
loops compute what the formatter computes. -/
theorem kformatLoops_eq {value : Nat} (h : value < 10 ^ capacity)
    (digits : Vector (BitVec 8) capacity) (bufferIsNull : Bool) (buffer : List (BitVec 8)) :
    kformatLoops value digits bufferIsNull buffer = some (kformatDecimal value bufferIsNull buffer) := by
  rw [kformatLoops, kformatDecimal]
  split_ifs with hNone hZero hSmall
  · rfl
  · rfl
  · cases buffer with
    | nil => exact absurd rfl (not_or.mp hNone).2
    | cons first rest =>
        cases rest with
        | nil => exact absurd Nat.one_lt_two hSmall
        | cons second rest => rfl
  · have hEmpty : digits.toList.take ([] : List (BitVec 8)).length = [] := rfl
    have hRoom := kformatDigits_length_le h
    obtain ⟨filled, hFill, hFilled⟩ := kformatFill_eq value hEmpty (by simpa using hRoom)
    rw [List.length_nil, Nat.zero_add] at hFill hFilled
    rw [hFill]
    show (if buffer.length ≤ (kformatDigits value).length then some (false, buffer) else _) = some _
    dsimp only
    split_ifs with hFits
    · rfl
    · have hCopy := kformatCopy_eq hFilled hRoom [] buffer (by omega)
      rw [List.nil_append, List.nil_append, List.length_nil, Nat.zero_add] at hCopy
      rw [hCopy]
      have hRest : (kformatDigits value).length < buffer.length := by omega
      have hEnd : (kformatDigits value).length <
          ((kformatDigits value).reverse ++ buffer.drop (kformatDigits value).length).length := by
        rw [List.length_append, List.length_reverse, List.length_drop]
        omega
      show (if _ < _ then some _ else none) = _
      rw [if_pos hEnd, kformatStore, List.set_append_right _ _ (by rw [List.length_reverse]),
        List.length_reverse, Nat.sub_self, List.drop_eq_getElem_cons hRest, List.set_cons_zero]

end Refinement

section Numeral

/-- The number of decimal digits; zero has one. -/
def decimalDigitCount (value : Nat) : Nat := Nat.log 10 value + 1

/-- The number that a text of digits denotes. -/
def decimalValue (text : List (BitVec 8)) : Nat :=
  text.foldl (fun value c => 10 * value + (c.toNat - 0x30)) 0

/-- The canonical decimal numeral of a value. -/
structure IsDecimalNumeral (value : Nat) (text : List (BitVec 8)) : Prop where
  length_eq : text.length = decimalDigitCount value
  digits : ∀ c ∈ text, 0x30 ≤ c.toNat ∧ c.toNat ≤ 0x39
  value_eq : decimalValue text = value
  noLeadingZero : value ≠ 0 → text.head? ≠ some 0x30#8

/-- The code of a digit fits a byte, so nothing is lost in it. -/
theorem digit_toNat (value : Nat) :
    (BitVec.ofNat 8 (0x30 + value % 10)).toNat = 0x30 + value % 10 := by
  rw [BitVec.toNat_ofNat]
  omega

/-- Read back in the other order, the digits have the number's value. -/
theorem kformatDigits_value (value : Nat) : decimalValue (kformatDigits value).reverse = value := by
  rw [decimalValue, List.foldl_reverse]
  induction value using Nat.strong_induction_on with
  | _ value ih =>
      rw [kformatDigits]
      split_ifs with hPos
      · rw [List.foldr_cons, ih _ (Nat.div_lt_self hPos (by norm_num)), digit_toNat]
        omega
      · exact (Nat.eq_zero_of_not_pos hPos).symm

theorem kformatDigits_digits (value : Nat) :
    ∀ c ∈ kformatDigits value, 0x30 ≤ c.toNat ∧ c.toNat ≤ 0x39 := by
  induction value using Nat.strong_induction_on with
  | _ value ih =>
      rw [kformatDigits]
      split_ifs with hPos
      · rw [List.forall_mem_cons, digit_toNat]
        exact ⟨by omega, ih _ (Nat.div_lt_self hPos (by norm_num))⟩
      · exact fun _ hMem => (List.not_mem_nil hMem).elim

/-- The most significant digit is not zero. -/
theorem kformatDigits_getLast {value : Nat} (h : value ≠ 0) :
    (kformatDigits value).getLast? ≠ some 0x30#8 := by
  induction value using Nat.strong_induction_on with
  | _ value ih =>
      have hPos := Nat.pos_of_ne_zero h
      rw [kformatDigits, dif_pos hPos]
      by_cases hQuotient : value / 10 = 0
      · rw [hQuotient, kformatDigits, dif_neg (Nat.lt_irrefl 0), List.getLast?_singleton]
        intro hLast
        have hDigit := congrArg BitVec.toNat (Option.some.inj hLast)
        rw [digit_toNat, BitVec.toNat_ofNat] at hDigit
        omega
      · have hNil : kformatDigits (value / 10) ≠ [] := by
          rw [kformatDigits, dif_pos (Nat.pos_of_ne_zero hQuotient)]
          exact List.cons_ne_nil _ _
        rw [List.getLast?_cons_of_ne_nil hNil]
        exact ih _ (Nat.div_lt_self hPos (by norm_num)) hQuotient

/-- Reversed, they are the numeral of the number: no leading zero, and the
right value. -/
theorem kformatDigits_numeral {value : Nat} (h : value ≠ 0) :
    IsDecimalNumeral value (kformatDigits value).reverse := by
  refine ⟨?_, fun c hMem => ?_, kformatDigits_value value, fun _ => ?_⟩
  · rw [List.length_reverse]
    exact kformatDigits_length h
  · exact kformatDigits_digits value c (List.mem_reverse.mp hMem)
  · rw [List.head?_reverse]
    exact kformatDigits_getLast h

/-- What a formatter does to a buffer. -/
structure FormatsDecimal (value : Nat) (buffer : List (BitVec 8)) (accepted : Bool)
    (after : List (BitVec 8)) : Prop where
  accepts : accepted = true ↔ decimalDigitCount value + 1 ≤ buffer.length
  stores : accepted = true → ∃ text, IsDecimalNumeral value text ∧
    after = text ++ 0#8 :: buffer.drop (text.length + 1)
  refuses : accepted = false → after = buffer

/-- The numeral that a formatter stores. -/
def decimalText (value : Nat) : List (BitVec 8) :=
  if value = 0 then [0x30#8] else (kformatDigits value).reverse

/-- The text of a number is its numeral, zero included. -/
theorem decimalText_numeral (value : Nat) : IsDecimalNumeral value (decimalText value) := by
  rw [decimalText]
  split_ifs with hZero
  · subst hZero
    have hCount : decimalDigitCount 0 = 1 := by
      rw [decimalDigitCount, Nat.log_zero_right]
    exact ⟨hCount.symm, by decide, rfl, fun h => absurd rfl h⟩
  · exact kformatDigits_numeral hZero

/-- The numeral is stored if it fits together with its terminator; otherwise
the buffer is left alone. -/
theorem kformatDecimal_eq (value : Nat) (buffer : List (BitVec 8)) :
    kformatDecimal value false buffer =
      if decimalDigitCount value + 1 ≤ buffer.length then (true, kformatStore (decimalText value) buffer)
      else (false, buffer) := by
  have hLength := (decimalText_numeral value).length_eq
  have hPos : 1 ≤ decimalDigitCount value := Nat.le_add_left 1 _
  simp only [kformatDecimal, Bool.false_eq_true, false_or, decimalText] at hLength ⊢
  by_cases hZero : value = 0
  · rw [if_pos hZero, List.length_singleton] at hLength
    simp only [if_pos hZero, ← hLength]
    split_ifs
    all_goals first | rfl | omega
  · rw [if_neg hZero, List.length_reverse] at hLength
    simp only [if_neg hZero, hLength]
    split_ifs
    all_goals first | rfl | omega

/-- So the formatter meets its specification on every value and every buffer. -/
theorem kformatDecimal_formats (value : Nat) (buffer : List (BitVec 8)) :
    FormatsDecimal value buffer (kformatDecimal value false buffer).1
      (kformatDecimal value false buffer).2 := by
  rw [kformatDecimal_eq]
  split_ifs with hFits
  · exact ⟨iff_of_true rfl hFits, fun _ => ⟨_, decimalText_numeral value, rfl⟩, Bool.noConfusion⟩
  · exact ⟨iff_of_false Bool.false_ne_true hFits, Bool.noConfusion, fun _ => rfl⟩

/-- Both formatters on every value, every buffer and every initial content
of their local array: no index leaves an array, the result and the buffer are
those of `FormatsDecimal`, a null buffer is refused, and on 32-bit values the
two agree. -/
theorem kformat_decimal_exact (buffer : List (BitVec 8)) (digits : Vector (BitVec 8) 10)
    (wideDigits : Vector (BitVec 8) 20) :
    (∀ value : BitVec 32, ∃ accepted after,
      kformatUint32DecimalLoops value digits false buffer = some (accepted, after) ∧
      FormatsDecimal value.toNat buffer accepted after) ∧
    (∀ value : BitVec 64, ∃ accepted after,
      kformatUint64DecimalLoops value wideDigits false buffer = some (accepted, after) ∧
      FormatsDecimal value.toNat buffer accepted after) ∧
    (∀ value : BitVec 32, kformatUint32DecimalLoops value digits true buffer = some (false, buffer)) ∧
    (∀ value : BitVec 64, kformatUint64DecimalLoops value wideDigits true buffer = some (false, buffer)) ∧
    ∀ (value : BitVec 32) (bufferIsNull : Bool),
      kformatUint32DecimalLoops value digits bufferIsNull buffer =
        kformatUint64DecimalLoops (value.setWidth 64) wideDigits bufferIsNull buffer := by
  have hNarrow : ∀ value : BitVec 32, value.toNat < 10 ^ 10 := fun value => by omega
  have hWide : ∀ value : BitVec 64, value.toNat < 10 ^ 20 := fun value => by omega
  refine ⟨fun value => ?_, fun value => ?_, fun value => rfl, fun value => rfl,
    fun value bufferIsNull => ?_⟩
  · exact ⟨_, _, kformatLoops_eq (hNarrow value) digits false buffer, kformatDecimal_formats _ buffer⟩
  · exact ⟨_, _, kformatLoops_eq (hWide value) wideDigits false buffer, kformatDecimal_formats _ buffer⟩
  · have hValue : (value.setWidth 64).toNat = value.toNat := by
      rw [BitVec.toNat_setWidth]
      omega
    rw [kformatUint32DecimalLoops, kformatUint64DecimalLoops, kformatLoops_eq (hNarrow value),
      kformatLoops_eq (hWide _), hValue]

end Numeral
end WigOSX
