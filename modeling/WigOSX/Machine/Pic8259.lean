import Mathlib

/-! The pair of 8259 interrupt controllers of a PC: initialization words,
masks, fully nested priorities, the acknowledge cycle with its spurious
answers, and the end-of-interrupt commands. Rotating priorities, polling and
the special mask mode are left out; such commands change nothing here. -/
namespace WigOSX

/-- What a controller expects at its data port: the mask, or the next word of
an initialization sequence. -/
inductive PicPhase where
  | ready
  | icw2 (single needsIcw4 : Bool)
  | icw3 (needsIcw4 : Bool)
  | icw4
deriving DecidableEq

/-- The requests, the lines in service, the masked lines, and what the
initialization words have set. -/
structure Pic8259 where
  irr : BitVec 8
  isr : BitVec 8
  imr : BitVec 8
  vectorBase : BitVec 8
  cascade : BitVec 8
  mode8086 : Bool
  automaticEoi : Bool
  phase : PicPhase
deriving DecidableEq

namespace Pic8259

def lineBit (i : Fin 8) : BitVec 8 := 1#8 <<< i.val

/-- The line of highest priority is taken out. -/
def clearFirst (lines : BitVec 8) : BitVec 8 :=
  match Fin.find? fun i : Fin 8 => lines.getLsbD i with
  | some i => lines &&& ~~~lineBit i
  | none => lines

/-- A non-specific end of interrupt. -/
def endOfInterrupt (p : Pic8259) : Pic8259 :=
  { p with isr := clearFirst p.isr }

/-- The first initialization word, or an operation command. -/
def writeCommand (value : BitVec 8) (p : Pic8259) : Pic8259 :=
  if value.getLsbD 4 then
    { p with
      irr := 0#8
      isr := 0#8
      imr := 0#8
      mode8086 := p.mode8086 && value.getLsbD 0
      automaticEoi := p.automaticEoi && value.getLsbD 0
      phase := .icw2 (value.getLsbD 1) (value.getLsbD 0) }
  else if value >>> 3 = 0b00100#8 then p.endOfInterrupt
  else if value >>> 3 = 0b01100#8 then { p with isr := p.isr &&& ~~~(1#8 <<< (value &&& 7#8).toNat) }
  else p

def writeData (value : BitVec 8) (p : Pic8259) : Pic8259 :=
  match p.phase with
  | .ready => { p with imr := value }
  | .icw2 single needsIcw4 =>
      { p with
        vectorBase := value &&& 0xF8#8
        phase := if !single then .icw3 needsIcw4 else if needsIcw4 then .icw4 else .ready }
  | .icw3 needsIcw4 => { p with cascade := value, phase := if needsIcw4 then .icw4 else .ready }
  | .icw4 =>
      { p with mode8086 := value.getLsbD 0, automaticEoi := value.getLsbD 1, phase := .ready }

/-- The data port reads as the mask. -/
def readData (p : Pic8259) : BitVec 8 := p.imr

/-- The line that the controller asks to be served: the first one that is
requested, not masked, and before every line in service. -/
def request (p : Pic8259) : Option (Fin 8) :=
  Fin.find? fun i => p.irr.getLsbD i && !p.imr.getLsbD i && decide (∀ j ≤ i, p.isr.getLsbD j = false)

/-- An acknowledge cycle. When the request has gone, the answer is line 7 and
nothing is in service for it. -/
def acknowledge (p : Pic8259) : Fin 8 × Pic8259 :=
  match p.request with
  | some i =>
      (i, { p with
        irr := p.irr &&& ~~~lineBit i
        isr := if p.automaticEoi then p.isr else p.isr ||| lineBit i })
  | none => (7, p)

def raise (i : Nat) (p : Pic8259) : Pic8259 :=
  { p with irr := p.irr ||| 1#8 <<< i }

def withdraw (i : Nat) (p : Pic8259) : Pic8259 :=
  { p with irr := p.irr &&& ~~~(1#8 <<< i) }

end Pic8259

structure PicPair where
  master : Pic8259
  slave : Pic8259
deriving DecidableEq

namespace PicPair

/-- The processor acknowledges an interrupt and gets a vector. Line 2 of the
master is the slave, which then names one of its own lines. -/
def acknowledge (pics : PicPair) : BitVec 8 × PicPair :=
  if pics.master.request = some 2 then
    (pics.slave.vectorBase ||| BitVec.ofNat 8 pics.slave.acknowledge.1.val,
      ⟨pics.master.acknowledge.2, pics.slave.acknowledge.2⟩)
  else
    (pics.master.vectorBase ||| BitVec.ofNat 8 pics.master.acknowledge.1.val,
      ⟨pics.master.acknowledge.2, pics.slave⟩)

/-- A line is raised; line 2 is raised by the slave. -/
def raise (line : Fin 16) (pics : PicPair) : PicPair :=
  if line.val < 8 then ⟨pics.master.raise line.val, pics.slave⟩
  else ⟨pics.master, pics.slave.raise (line.val - 8)⟩

/-- A request goes away before it is acknowledged. -/
def withdraw (line : Fin 16) (pics : PicPair) : PicPair :=
  if line.val < 8 then ⟨pics.master.withdraw line.val, pics.slave⟩
  else ⟨pics.master, pics.slave.withdraw (line.val - 8)⟩

def masked (line : Fin 16) (pics : PicPair) : Bool :=
  if line.val < 8 then pics.master.imr.getLsbD line.val else pics.slave.imr.getLsbD (line.val - 8)

def requested (line : Fin 16) (pics : PicPair) : Bool :=
  if line.val < 8 then pics.master.irr.getLsbD line.val else pics.slave.irr.getLsbD (line.val - 8)

end PicPair

section Service

namespace Pic8259

variable {p : Pic8259}

@[simp] theorem clearFirst_zero : clearFirst 0#8 = 0#8 := by
  decide

@[simp] theorem clearFirst_lineBit (i : Fin 8) : clearFirst (lineBit i) = 0#8 := by
  revert i
  decide

/-- The request is for a line that is raised and not masked. -/
theorem request_some {i : Fin 8} (h : p.request = some i) :
    p.irr.getLsbD i = true ∧ p.imr.getLsbD i = false := by
  have hLine := (Fin.find?_eq_some_iff.mp h).1
  rw [Bool.and_eq_true, Bool.and_eq_true, Bool.not_eq_true'] at hLine
  exact hLine.1

/-- When nothing is in service, a line that is raised and not masked makes the
controller ask for it or for one before it. -/
theorem exists_request {i : Fin 8} (hIsr : p.isr = 0#8) (hRaised : p.irr.getLsbD i = true)
    (hOpen : p.imr.getLsbD i = false) : ∃ j ≤ i, p.request = some j := by
  have hAsks : (p.irr.getLsbD i && !p.imr.getLsbD i &&
      decide (∀ j ≤ i, p.isr.getLsbD j = false)) = true := by
    rw [hRaised, hOpen, hIsr]
    exact decide_eq_true fun j _ => BitVec.getLsbD_zero
  cases hRequest : p.request with
  | none => exact absurd ((Fin.find?_eq_none_iff.mp hRequest i).symm.trans hAsks) Bool.noConfusion
  | some j =>
      refine ⟨j, ?_, rfl⟩
      by_contra hAfter
      have hFirst := (Fin.find?_eq_some_iff.mp hRequest).2 i (not_le.mp hAfter)
      exact Bool.noConfusion (hFirst.symm.trans hAsks)

theorem acknowledge_line {i : Fin 8} (h : p.request = some i) : p.acknowledge.1 = i := by
  rw [acknowledge, h]

/-- After an acknowledge cycle at most one line is in service. -/
theorem acknowledge_isr (hEoi : p.automaticEoi = false) (hIsr : p.isr = 0#8) :
    p.acknowledge.2.isr = 0#8 ∨ ∃ i, p.acknowledge.2.isr = lineBit i := by
  rw [acknowledge]
  cases p.request with
  | none => exact .inl hIsr
  | some i =>
      refine .inr ⟨i, ?_⟩
      simp [hEoi, hIsr]

theorem clearFirst_acknowledge (hEoi : p.automaticEoi = false) (hIsr : p.isr = 0#8) :
    clearFirst p.acknowledge.2.isr = 0#8 := by
  cases acknowledge_isr hEoi hIsr with
  | inl hNone => rw [hNone, clearFirst_zero]
  | inr hLine =>
      obtain ⟨i, hLine⟩ := hLine
      rw [hLine, clearFirst_lineBit]

/-- What the initialization words and the mask have set. -/
structure Configured (vectorBase imr : BitVec 8) (p : Pic8259) : Prop where
  phase : p.phase = .ready
  vectorBase : p.vectorBase = vectorBase
  automaticEoi : p.automaticEoi = false
  imr : p.imr = imr

variable {vectorBase imr : BitVec 8}

theorem Configured.raise (h : p.Configured vectorBase imr) (i : Nat) : (p.raise i).Configured vectorBase imr :=
  ⟨h.phase, h.vectorBase, h.automaticEoi, h.imr⟩

theorem Configured.withdraw (h : p.Configured vectorBase imr) (i : Nat) :
    (p.withdraw i).Configured vectorBase imr :=
  ⟨h.phase, h.vectorBase, h.automaticEoi, h.imr⟩

theorem Configured.endOfInterrupt (h : p.Configured vectorBase imr) :
    p.endOfInterrupt.Configured vectorBase imr :=
  ⟨h.phase, h.vectorBase, h.automaticEoi, h.imr⟩

theorem Configured.acknowledge (h : p.Configured vectorBase imr) :
    p.acknowledge.2.Configured vectorBase imr := by
  rw [Pic8259.acknowledge]
  cases p.request with
  | none => exact h
  | some i => exact ⟨h.phase, h.vectorBase, h.automaticEoi, h.imr⟩

end Pic8259

end Service
end WigOSX
