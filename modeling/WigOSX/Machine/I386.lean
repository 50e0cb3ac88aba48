import WigOSX.Machine.MemoryStores

/-! The part of the i386 that the interrupt stubs use. Segments are flat, so
a stack address is a memory address, and the stack pointer wraps. Straight
code does not advance `eip` here, since nothing in a stub reads it; a `call`
names the return address it pushes instead. -/
namespace WigOSX

/-- The registers that an interrupt must not disturb. -/
@[ext]
structure I386Registers where
  eax : BitVec 32
  ecx : BitVec 32
  edx : BitVec 32
  ebx : BitVec 32
  esp : BitVec 32
  ebp : BitVec 32
  esi : BitVec 32
  edi : BitVec 32
  ds : BitVec 16
  es : BitVec 16
  fs : BitVec 16
  gs : BitVec 16
  cs : BitVec 16
  eip : BitVec 32
  eflags : BitVec 32
  deriving DecidableEq

structure I386State extends I386Registers where
  memory : PhysicalMemory

/-- The data segment registers. -/
inductive I386Segment where
  | ds | es | fs | gs

inductive I386Instruction where
  | cli
  | pushImmediate (word : BitVec 32)
  | pusha
  | movDsAx
  | pushEax
  | movImmediateAx (word : BitVec 16)
  | movAxSegment (segment : I386Segment)
  | pushEsp
  | call (returnAddress : BitVec 32)
  | addEsp (bytes : BitVec 32)
  | popEax
  | popa
  | iret

section Execution

/-- The interrupt flag. -/
def i386InterruptFlag : BitVec 32 := 0x200#32

/-- IF, TF, NT, RF and VM, which an interrupt gate clears. -/
def i386GateFlags : BitVec 32 := 0x34300#32

/-- CF, PF, AF, ZF, SF and OF. -/
def i386StatusFlags : BitVec 32 := 0x8D5#32

/-- The flags after `add`. -/
def i386AddFlags (a b eflags : BitVec 32) : BitVec 32 :=
  let sum := a + b
  let flag (bit : Nat) (condition : Bool) : BitVec 32 := if condition then 1#32 <<< bit else 0#32
  let lowBits := (List.range 8).countP fun k => sum.getLsbD k
  (eflags &&& ~~~i386StatusFlags) |||
    flag 0 (2 ^ 32 ≤ a.toNat + b.toNat) ||| flag 2 (lowBits % 2 = 0) |||
    flag 4 (16 ≤ a.toNat % 16 + b.toNat % 16) ||| flag 6 (sum = 0#32) ||| flag 7 sum.msb |||
    flag 11 (a.msb = b.msb ∧ sum.msb ≠ a.msb)

namespace I386State

def push (s : I386State) (word : BitVec 32) : I386State :=
  { s with esp := s.esp - 4#32, memory := s.memory.writeUint32 (s.esp - 4#32) word }

/-- The word `k` slots above the top of the stack. -/
def slot (s : I386State) (k : Nat) : BitVec 32 :=
  s.memory.readUint32 (s.esp + BitVec.ofNat 32 (4 * k))

def setAx (s : I386State) (word : BitVec 16) : I386State :=
  { s with eax := s.eax.extractLsb' 16 16 ++ word }

def setSegment (s : I386State) (segment : I386Segment) (selector : BitVec 16) : I386State :=
  match segment with
  | .ds => { s with ds := selector }
  | .es => { s with es := selector }
  | .fs => { s with fs := selector }
  | .gs => { s with gs := selector }

/-- `pusha` pushes the stack pointer it started with. -/
def pusha (s : I386State) : I386State :=
  (((((((s.push s.eax).push s.ecx).push s.edx).push s.ebx).push s.esp).push s.ebp).push s.esi).push
    s.edi

/-- `popa` skips the saved stack pointer. -/
def popa (s : I386State) : I386State :=
  { s with
    edi := s.slot 0
    esi := s.slot 1
    ebp := s.slot 2
    ebx := s.slot 4
    edx := s.slot 5
    ecx := s.slot 6
    eax := s.slot 7
    esp := s.esp + 32#32 }

/-- `iret` to the same privilege level. -/
def iret (s : I386State) : I386State :=
  { s with
    eip := s.slot 0
    cs := (s.slot 1).setWidth 16
    eflags := s.slot 2
    esp := s.esp + 12#32 }

/-- The processor takes an interrupt through an interrupt gate at the same
privilege level. The upper half of the pushed code selector is unspecified. -/
def interrupt (s : I386State) (selector padding : BitVec 16) (offset : BitVec 32) : I386State :=
  let saved := ((s.push s.eflags).push (padding ++ s.cs)).push s.eip
  { saved with cs := selector, eip := offset, eflags := s.eflags &&& ~~~i386GateFlags }

end I386State

/-- One instruction. `callee` takes the state at its first instruction to the
state behind its `ret`. -/
def i386Execute (callee : I386State → I386State) (instruction : I386Instruction) (s : I386State) :
    I386State :=
  match instruction with
  | .cli => { s with eflags := s.eflags &&& ~~~i386InterruptFlag }
  | .pushImmediate word => s.push word
  | .pusha => s.pusha
  | .movDsAx => s.setAx s.ds
  | .pushEax => s.push s.eax
  | .movImmediateAx word => s.setAx word
  | .movAxSegment segment => s.setSegment segment (s.eax.setWidth 16)
  | .pushEsp => s.push s.esp
  | .call returnAddress => callee (s.push returnAddress)
  | .addEsp bytes => { s with
      esp := s.esp + bytes
      eflags := i386AddFlags s.esp bytes s.eflags }
  | .popEax => { s with eax := s.slot 0, esp := s.esp + 4#32 }
  | .popa => s.popa
  | .iret => s.iret

/-- A piece of straight code. -/
def i386Run (callee : I386State → I386State) (code : List I386Instruction) (s : I386State) : I386State :=
  code.foldl (fun s instruction => i386Execute callee instruction s) s

/-- The states in which the code enters `callee`. -/
def i386Calls (callee : I386State → I386State) : List I386Instruction → I386State → List I386State
  | [], _ => []
  | .call returnAddress :: rest, s =>
      s.push returnAddress :: i386Calls callee rest (callee (s.push returnAddress))
  | instruction :: rest, s => i386Calls callee rest (i386Execute callee instruction s)

end Execution

section Convention

/-- The first argument of a C function, at its first instruction. -/
def I386State.cArgument (s : I386State) : BitVec 32 := s.slot 1

/-- What the C calling convention promises of a function entered in `s` and
left in `t`: the return address is popped and the callee-saved registers are
those of the caller. -/
structure FollowsCConvention (s t : I386State) : Prop where
  esp : t.esp = s.esp + 4#32
  ebx : t.ebx = s.ebx
  esi : t.esi = s.esi
  edi : t.edi = s.edi
  ebp : t.ebp = s.ebp

end Convention

section Stack

/-- The memory after pushing these words, the first one first. -/
def pushWords : List (BitVec 32) → BitVec 32 → PhysicalMemory → PhysicalMemory
  | [], _, memory => memory
  | word :: rest, top, memory => pushWords rest (top - 4#32) (memory.writeUint32 (top - 4#32) word)

theorem stackAddress_succ (top : BitVec 32) (k : Nat) :
    top - 4#32 - BitVec.ofNat 32 (4 * (k + 1)) = top - BitVec.ofNat 32 (4 * (k + 1 + 1)) := by
  rw [BitVec.sub_sub, BitVec.ofNat_add_ofNat]
  congr 2
  omega

/-- A word that no push overlaps is left alone. -/
theorem readUint32_pushWords_of_apart {a : BitVec 32} (words : List (BitVec 32)) (top : BitVec 32)
    (memory : PhysicalMemory)
    (h : ∀ k < words.length, PhysicalMemory.Apart a (top - BitVec.ofNat 32 (4 * (k + 1)))) :
    (pushWords words top memory).readUint32 a = memory.readUint32 a := by
  induction words generalizing top memory with
  | nil => rfl
  | cons word rest ih =>
      have hFirst := h 0 (by simp)
      rw [pushWords, ih, PhysicalMemory.readUint32_writeUint32_of_apart hFirst]
      intro k hk
      rw [stackAddress_succ]
      exact h (k + 1) (by simpa using hk)

/-- Each pushed word can be read back at its place below the top. The stack
may wrap as long as it does not reach round to itself. -/
theorem readUint32_pushWords (words : List (BitVec 32)) (top : BitVec 32) (memory : PhysicalMemory)
    {j : Nat} (hj : j < words.length) (hRoom : 4 * words.length ≤ 2 ^ 32) :
    (pushWords words top memory).readUint32 (top - BitVec.ofNat 32 (4 * (j + 1))) = words[j] := by
  induction words generalizing top memory j with
  | nil => exact absurd hj (Nat.not_lt_zero j)
  | cons word rest ih =>
      rw [List.length_cons] at hj hRoom
      cases j with
      | zero =>
          rw [pushWords, readUint32_pushWords_of_apart]
          · exact PhysicalMemory.readUint32_writeUint32 memory _ word
          · intro k hk
            rw [PhysicalMemory.Apart]
            bv_omega
      | succ j =>
          rw [pushWords, ← stackAddress_succ]
          exact ih _ _ (by omega) (by omega)

end Stack
end WigOSX
