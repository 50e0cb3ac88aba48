import WigOSX.Drivers.PitTicks
import WigOSX.Machine.Pit8254

/-! The programming of the timer in `pit.c`, against the timer itself. -/
namespace WigOSX

namespace Pit8254

/-- A write to a port of the timer. -/
def outb (port : BitVec 16) (value : BitVec 8) (p : Pit8254) : Pit8254 :=
  if port = pitCommandPort then p.writeCommand value
  else if port = pitChannel0Port then p.writeData value
  else p

def writes (commands : List (BitVec 16 × BitVec 8)) (p : Pit8254) : Pit8254 :=
  commands.foldl (fun p command => p.outb command.1 command.2) p

/-- A square wave with a binary count. -/
def programmed (count : BitVec 16) : Pit8254 where
  access := 3#2
  mode := 3#3
  bcd := false
  lowByte := none
  reload := some count

theorem programmed_period {count : BitVec 16} (h : count ≠ 0#16) :
    (programmed count).period = some count.toNat := by
  have hMode : ¬((programmed count).bcd = true ∨ (programmed count).mode.extractLsb' 0 2 ≠ 2#2 ∧
      (programmed count).mode.extractLsb' 0 2 ≠ 3#2) := by
    rintro (hBcd | ⟨-, hSquare⟩)
    · exact Bool.noConfusion hBcd
    · exact hSquare rfl
  rw [period, if_neg hMode, programmed, Option.map_some, if_neg h]

/-- The control word and the two bytes of a count, from whatever state. -/
theorem writes_count (low high : BitVec 8) (p : Pit8254) :
    p.writes [(pitCommandPort, pitCommand), (pitChannel0Port, low), (pitChannel0Port, high)] =
      programmed (high ++ low) := by
  have hSelect : ¬(pitCommand.extractLsb' 6 2 ≠ 0#2 ∨ pitCommand.extractLsb' 4 2 = 0#2) := by decide
  have hCommand : p.writeCommand pitCommand = ⟨3#2, 3#3, false, none, none⟩ := by
    rw [writeCommand, if_neg hSelect]
    rfl
  show ((p.writeCommand pitCommand).writeData low).writeData high = programmed (high ++ low)
  rw [hCommand]
  rfl

end Pit8254

/-- A divisor is written as two bytes. -/
theorem divisor_bytes (divisor : BitVec 32) :
    ((divisor >>> 8 &&& 0xFF#32).setWidth 8 ++ (divisor &&& 0xFF#32).setWidth 8 : BitVec 16) =
      divisor.setWidth 16 := by
  have hMask (w : BitVec 32) : (w &&& 0xFF#32).setWidth 8 = w.setWidth 8 := by
    have hOnes : (0xFF#32).setWidth 8 = BitVec.allOnes 8 := rfl
    rw [BitVec.setWidth_and, hOnes, BitVec.and_allOnes]
  rw [hMask, hMask]
  ext i hi
  rw [BitVec.getElem_append]
  split
  · simp
  · have hIndex : 8 + (i - 8) = i := by omega
    simp [hIndex]

/-- The checks of `pit_initialize`, as numbers. -/
theorem pitFrequency_refused {frequencyHz : BitVec 32} :
    (frequencyHz < pitMinFrequencyHz ∨ pitMaxFrequencyHz < frequencyHz) ↔
      ¬(19 ≤ frequencyHz.toNat ∧ frequencyHz.toNat ≤ 1193182) := by
  have hMin : pitMinFrequencyHz.toNat = 19 := by decide
  have hMax : pitMaxFrequencyHz.toNat = 1193182 := rfl
  rw [BitVec.lt_def, BitVec.lt_def, hMin, hMax]
  omega

/-- The divisor of a frequency that passes the first check passes the second. -/
theorem pitDivisor_fits {frequencyHz : BitVec 32} (hLow : 19 ≤ frequencyHz.toNat)
    (hHigh : frequencyHz.toNat ≤ 1193182) :
    (pitBaseFrequency / frequencyHz).toNat = 1193182 / frequencyHz.toNat ∧
      0 < 1193182 / frequencyHz.toNat ∧ 1193182 / frequencyHz.toNat ≤ 62799 := by
  refine ⟨BitVec.toNat_udiv, Nat.div_pos hHigh (by omega), ?_⟩
  exact Nat.div_le_div_left hLow (by decide)

/-- A frequency that the divisor cannot express is refused without touching
the device. -/
theorem pitInitialize_refused {frequencyHz : BitVec 32} (s : PitState)
    (h : ¬(19 ≤ frequencyHz.toNat ∧ frequencyHz.toNat ≤ 1193182)) :
    pitInitialize frequencyHz s = (false, [], s) := by
  rw [pitInitialize, if_pos (pitFrequency_refused.mpr h)]

/-- Any other one is programmed: the command, then the divisor's low and high
byte. -/
theorem pitInitialize_accepted {frequencyHz : BitVec 32} (s : PitState)
    (hLow : 19 ≤ frequencyHz.toNat) (hHigh : frequencyHz.toNat ≤ 1193182) :
    pitInitialize frequencyHz s = (true,
      [(pitCommandPort, pitCommand),
        (pitChannel0Port, ((pitBaseFrequency / frequencyHz) &&& 0xFF#32).setWidth 8),
        (pitChannel0Port, ((pitBaseFrequency / frequencyHz) >>> 8 &&& 0xFF#32).setWidth 8)], ⟨0#32⟩) := by
  obtain ⟨hDivisor, hPos, hFits⟩ := pitDivisor_fits hLow hHigh
  have hMax : pitMaxDivisor.toNat = 65535 := rfl
  have hBounds : ¬(pitBaseFrequency / frequencyHz = 0#32 ∨ pitMaxDivisor < pitBaseFrequency / frequencyHz) := by
    rw [← BitVec.toNat_inj, BitVec.lt_def, hDivisor, hMax, BitVec.toNat_ofNat]
    omega
  rw [pitInitialize, if_neg (pitFrequency_refused.not.mpr (not_not_intro ⟨hLow, hHigh⟩))]
  exact if_neg hBounds

/-- For every frequency and whatever the timer was doing: `pit_initialize`
succeeds exactly from 19 Hz to the clock of the timer. Then the timer runs a
square wave whose period is the largest whole number of clocks that is not
too slow, and the ticks start over. Otherwise nothing is written and nothing
changes. -/
theorem pit_initialize_programs (frequencyHz : BitVec 32) (s : PitState) (timer : Pit8254) :
    ((pitInitialize frequencyHz s).1 = true ↔ 19 ≤ frequencyHz.toNat ∧ frequencyHz.toNat ≤ 1193182) ∧
    ((pitInitialize frequencyHz s).1 = true →
      (∃ clocks, (timer.writes (pitInitialize frequencyHz s).2.1).period = some clocks ∧
        clocks * frequencyHz.toNat ≤ 1193182 ∧ 1193182 < (clocks + 1) * frequencyHz.toNat) ∧
      (timer.writes (pitInitialize frequencyHz s).2.1).mode = 3#3 ∧
      (pitInitialize frequencyHz s).2.2.pitTicks = 0#32) ∧
    ((pitInitialize frequencyHz s).1 = false →
      timer.writes (pitInitialize frequencyHz s).2.1 = timer ∧ (pitInitialize frequencyHz s).2.2 = s) := by
  by_cases hRange : 19 ≤ frequencyHz.toNat ∧ frequencyHz.toNat ≤ 1193182
  · obtain ⟨hLow, hHigh⟩ := hRange
    obtain ⟨hDivisor, hPos, hFits⟩ := pitDivisor_fits hLow hHigh
    have hCount : ((pitBaseFrequency / frequencyHz).setWidth 16).toNat = 1193182 / frequencyHz.toNat := by
      rw [BitVec.toNat_setWidth, hDivisor]
      omega
    have hNonzero : (pitBaseFrequency / frequencyHz).setWidth 16 ≠ 0#16 := by
      rw [ne_eq, ← BitVec.toNat_inj, hCount, BitVec.toNat_ofNat]
      omega
    rw [pitInitialize_accepted s hLow hHigh, Pit8254.writes_count, divisor_bytes,
      Pit8254.programmed_period hNonzero, hCount]
    refine ⟨⟨fun _ => ⟨hLow, hHigh⟩, fun _ => rfl⟩, fun _ => ⟨⟨_, rfl, ?_, ?_⟩, rfl, rfl⟩, nofun⟩
    · exact Nat.div_mul_le_self 1193182 _
    · rw [Nat.mul_comm]
      exact Nat.lt_mul_div_succ 1193182 (by omega)
  · rw [pitInitialize_refused s hRange]
    exact ⟨⟨nofun, fun h => absurd h hRange⟩, nofun, fun _ => ⟨rfl, rfl⟩⟩

/-- The frequency that the kernel asks for. -/
example : ((⟨0#2, 0#3, true, none, none⟩ : Pit8254).writes (pitInitialize 100#32 ⟨7#32⟩).2.1).period =
    some 11931 := by decide

end WigOSX
