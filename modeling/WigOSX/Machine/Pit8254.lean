import Mathlib

/-! Channel 0 of the interval timer, whose output is IRQ 0. The other two
channels and the read-back of counts are left out; commands for them change
nothing here. -/
namespace WigOSX

/-- What the last control word has set, the low byte that waits for its high
byte, and the count that the channel starts over from. -/
structure Pit8254 where
  access : BitVec 2
  mode : BitVec 3
  bcd : Bool
  lowByte : Option (BitVec 8)
  reload : Option (BitVec 16)
deriving DecidableEq

namespace Pit8254

/-- A control word stops the channel until a count is written; access 0 only
latches the count for reading. -/
def writeCommand (value : BitVec 8) (p : Pit8254) : Pit8254 :=
  if value.extractLsb' 6 2 ≠ 0#2 ∨ value.extractLsb' 4 2 = 0#2 then p
  else
    { access := value.extractLsb' 4 2
      mode := value.extractLsb' 1 3
      bcd := value.getLsbD 0
      lowByte := none
      reload := none }

/-- A byte of the count. -/
def writeData (value : BitVec 8) (p : Pit8254) : Pit8254 :=
  if p.access = 1#2 then { p with reload := some (0#8 ++ value) }
  else if p.access = 2#2 then { p with reload := some (value ++ 0#8) }
  else
    match p.lowByte with
    | none => { p with lowByte := some value }
    | some low => { p with lowByte := none, reload := some (value ++ low) }

/-- The number of input clocks from one interrupt to the next, for a binary
count in one of the two periodic modes. Count 0 is the largest. -/
def period (p : Pit8254) : Option Nat :=
  if p.bcd ∨ p.mode.extractLsb' 0 2 ≠ 2#2 ∧ p.mode.extractLsb' 0 2 ≠ 3#2 then none
  else p.reload.map fun count => if count = 0#16 then 65536 else count.toNat

end Pit8254
end WigOSX
