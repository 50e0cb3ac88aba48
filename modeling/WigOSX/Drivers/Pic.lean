import WigOSX.Kernel.Work
import WigOSX.Machine.Pic8259

/-! The programming of the interrupt controllers in `pic.c`, against the
controllers themselves. -/
namespace WigOSX

open Interaction (perform runAlone)

/-- The data ports, beside the command ports. -/
def picMasterData : BitVec 16 := 0x21#16
def picSlaveData : BitVec 16 := 0xA1#16

namespace PicPair

def outb (port : BitVec 16) (value : BitVec 8) (pics : PicPair) : PicPair :=
  if port = picMasterCommand then ⟨pics.master.writeCommand value, pics.slave⟩
  else if port = picMasterData then ⟨pics.master.writeData value, pics.slave⟩
  else if port = picSlaveCommand then ⟨pics.master, pics.slave.writeCommand value⟩
  else if port = picSlaveData then ⟨pics.master, pics.slave.writeData value⟩
  else pics

/-- Writes to ports, in order. -/
def writes (commands : List (BitVec 16 × BitVec 8)) (pics : PicPair) : PicPair :=
  commands.foldl (fun pics command => pics.outb command.1 command.2) pics

/-- The port accesses of the driver; it reads no port but the masks. -/
def serve ⦃ρ : Type⦄ (pics : PicPair) (request : KernelRequest ρ) : Option (ρ × PicPair) :=
  match request with
  | .inb port =>
      if port = picMasterData then some (pics.master.readData, pics)
      else if port = picSlaveData then some (pics.slave.readData, pics)
      else none
  | .outb port value => some ((), pics.outb port value)
  | _ => none

end PicPair

section Driver

def ioWait : KernelProgram Unit := perform (.outb 0x80#16 0#8)

def picIcw1Init : BitVec 8 := 0x10#8
def picIcw1Icw4 : BitVec 8 := 0x01#8
def picIcw48086 : BitVec 8 := 0x01#8
def picMasterOffset : BitVec 8 := 0x20#8
def picSlaveOffset : BitVec 8 := 0x28#8

def picRemap : KernelProgram Unit := do
  let masterMask ← perform (.inb picMasterData)
  let slaveMask ← perform (.inb picSlaveData)
  perform (.outb picMasterCommand (picIcw1Init ||| picIcw1Icw4))
  ioWait
  perform (.outb picSlaveCommand (picIcw1Init ||| picIcw1Icw4))
  ioWait
  perform (.outb picMasterData picMasterOffset)
  ioWait
  perform (.outb picSlaveData picSlaveOffset)
  ioWait
  perform (.outb picMasterData 0x04#8)
  ioWait
  perform (.outb picSlaveData 0x02#8)
  ioWait
  perform (.outb picMasterData picIcw48086)
  ioWait
  perform (.outb picSlaveData picIcw48086)
  ioWait
  perform (.outb picMasterData masterMask)
  perform (.outb picSlaveData slaveMask)

def picMaskAll : KernelProgram Unit := do
  perform (.outb picMasterData 0xFF#8)
  perform (.outb picSlaveData 0xFF#8)

def picUnmaskIrq (irq : BitVec 8) : KernelProgram Bool :=
  if 15#8 < irq then return false
  else if irq < 8#8 then do
    let value ← perform (.inb picMasterData)
    perform (.outb picMasterData (value &&& ~~~(1#8 <<< irq.toNat)))
    return true
  else do
    let slaveIrq := irq - 8#8
    let slaveMask ← perform (.inb picSlaveData)
    perform (.outb picSlaveData (slaveMask &&& ~~~(1#8 <<< slaveIrq.toNat)))
    -- the slave reaches the processor through line 2 of the master
    let masterMask ← perform (.inb picMasterData)
    perform (.outb picMasterData (masterMask &&& ~~~(1#8 <<< 2)))
    return true

/-- Calls of `pic_unmask_irq`, one after the other, with what they return. -/
def picUnmaskEach : List (BitVec 8) → KernelProgram (List Bool)
  | [] => return []
  | irq :: rest => do
      let valid ← picUnmaskIrq irq
      let others ← picUnmaskEach rest
      return valid :: others

/-- What `kernel_main` does to the controllers, with the lines that it unmasks. -/
def picProgram (irqs : List (BitVec 8)) : KernelProgram (List Bool) := do
  picRemap
  picMaskAll
  picUnmaskEach irqs

end Driver

section Programmed

/-- A controller after `pic_remap`, with a mask. -/
def Pic8259.programmed (vectorBase cascade imr : BitVec 8) : Pic8259 where
  irr := 0#8
  isr := 0#8
  imr := imr
  vectorBase := vectorBase
  cascade := cascade
  mode8086 := true
  automaticEoi := false
  phase := .ready

def PicPair.programmed (masterMask slaveMask : BitVec 8) : PicPair where
  master := .programmed picMasterOffset 0x04#8 masterMask
  slave := .programmed picSlaveOffset 0x02#8 slaveMask

/-- Whatever state the controllers are in, they are initialized anew and keep
their masks. -/
theorem picRemap_alone (pics : PicPair) : picRemap.runAlone PicPair.serve pics =
    some ((), PicPair.programmed pics.master.imr pics.slave.imr) := by
  rfl

/-- `pic_mask_all` closes all lines of both chips. -/
theorem picMaskAll_alone (masterMask slaveMask : BitVec 8) :
    picMaskAll.runAlone PicPair.serve (PicPair.programmed masterMask slaveMask) =
      some ((), PicPair.programmed 0xFF#8 0xFF#8) := by
  rfl

/-- The calls with these numbers let a line through. Every line of the slave
needs line 2 of the master. -/
def PicOpens (irqs : List (BitVec 8)) (line : Fin 16) : Prop :=
  BitVec.ofNat 8 line.val ∈ irqs ∨ line.val = 2 ∧ ∃ irq ∈ irqs, 8#8 ≤ irq ∧ irq ≤ 15#8

theorem picOpens_cons {irq : BitVec 8} {irqs : List (BitVec 8)} {line : Fin 16} :
    PicOpens (irq :: irqs) line ↔ PicOpens [irq] line ∨ PicOpens irqs line := by
  simp only [PicOpens, List.mem_cons, List.not_mem_nil, or_false, exists_eq_or_imp, exists_eq_left,
    and_or_left]
  constructor
  · rintro ((hEq | hMem) | hFirst | hRest)
    · exact .inl (.inl hEq)
    · exact .inr (.inl hMem)
    · exact .inl (.inr hFirst)
    · exact .inr (.inr hRest)
  · rintro ((hEq | hFirst) | hMem | hRest)
    · exact .inl (.inl hEq)
    · exact .inr (.inl hFirst)
    · exact .inl (.inr hMem)
    · exact .inr (.inr hRest)

theorem picOpens_singleton {irq : BitVec 8} {line : Fin 16} :
    PicOpens [irq] line ↔
      irq.toNat = line.val ∨ line.val = 2 ∧ 8 ≤ irq.toNat ∧ irq.toNat ≤ 15 := by
  have hLine : (BitVec.ofNat 8 line.val).toNat = line.val := by
    rw [BitVec.toNat_ofNat, Nat.mod_eq_of_lt (by omega)]
  simp only [PicOpens, List.mem_singleton, exists_eq_left]
  rw [BitVec.toNat_inj.symm, hLine, eq_comm]
  rfl

/-- A cleared bit of a mask. -/
theorem getLsbD_clear (mask : BitVec 8) {i k : Nat} (hi : i < 8) :
    (mask &&& ~~~(1#8 <<< k)).getLsbD i = true ↔ mask.getLsbD i = true ∧ i ≠ k := by
  rw [BitVec.getLsbD_and, BitVec.getLsbD_not, BitVec.getLsbD_shiftLeft, BitVec.getLsbD_one]
  simp only [hi, decide_true, Bool.true_and, Bool.and_eq_true, Bool.not_eq_true', Bool.and_eq_false_iff]
  simp
  omega

theorem masked_programmed {masterMask slaveMask : BitVec 8} {line : Fin 16} :
    (PicPair.programmed masterMask slaveMask).masked line =
      if line.val < 8 then masterMask.getLsbD line.val else slaveMask.getLsbD (line.val - 8) := rfl

/-- Unmasking one line opens it, and the cascade with it for a line of the
slave. -/
theorem picUnmaskIrq_alone (irq masterMask slaveMask : BitVec 8) :
    ∃ masterLater slaveLater,
      (picUnmaskIrq irq).runAlone PicPair.serve (PicPair.programmed masterMask slaveMask) =
        some (decide (irq ≤ 15#8), .programmed masterLater slaveLater) ∧
      ∀ line, (PicPair.programmed masterLater slaveLater).masked line = true ↔
        (PicPair.programmed masterMask slaveMask).masked line = true ∧ ¬PicOpens [irq] line := by
  simp only [masked_programmed, picOpens_singleton]
  rw [picUnmaskIrq]
  by_cases hInvalid : 15#8 < irq
  · have hAbove : 15 < irq.toNat := hInvalid
    refine ⟨masterMask, slaveMask, ?_, fun line => (and_iff_left (by omega)).symm⟩
    rw [if_pos hInvalid, decide_eq_false (BitVec.not_le.mpr hInvalid)]
    rfl
  · have hValid : irq.toNat ≤ 15 := Nat.le_of_not_lt hInvalid
    rw [if_neg hInvalid, decide_eq_true (BitVec.not_lt.mp hInvalid)]
    by_cases hMaster : irq < 8#8
    · have hBelow : irq.toNat < 8 := hMaster
      refine ⟨masterMask &&& ~~~(1#8 <<< irq.toNat), slaveMask, ?_, fun line => ?_⟩
      · rw [if_pos hMaster]
        rfl
      · by_cases hLine : line.val < 8
        · rw [if_pos hLine, if_pos hLine, getLsbD_clear _ hLine]
          exact and_congr_right fun _ => by omega
        · rw [if_neg hLine, if_neg hLine]
          exact (and_iff_left (by omega)).symm
    · have hSlave : 8 ≤ irq.toNat := Nat.le_of_not_lt hMaster
      have hIndex : (irq - 8#8).toNat = irq.toNat - 8 := by bv_omega
      refine ⟨masterMask &&& ~~~(1#8 <<< 2), slaveMask &&& ~~~(1#8 <<< (irq - 8#8).toNat), ?_, fun line => ?_⟩
      · rw [if_neg hMaster]
        rfl
      · rw [hIndex]
        by_cases hLine : line.val < 8
        · rw [if_pos hLine, if_pos hLine, getLsbD_clear _ hLine]
          exact and_congr_right fun _ => by omega
        · rw [if_neg hLine, if_neg hLine, getLsbD_clear _ (by omega)]
          exact and_congr_right fun _ => by omega

/-- A list of lines is opened one by one, by induction on the list. -/
theorem picUnmaskEach_alone (irqs : List (BitVec 8)) (masterMask slaveMask : BitVec 8) :
    ∃ masterLater slaveLater,
      (picUnmaskEach irqs).runAlone PicPair.serve (PicPair.programmed masterMask slaveMask) =
        some (irqs.map fun irq => decide (irq ≤ 15#8), .programmed masterLater slaveLater) ∧
      ∀ line, (PicPair.programmed masterLater slaveLater).masked line = true ↔
        (PicPair.programmed masterMask slaveMask).masked line = true ∧ ¬PicOpens irqs line := by
  induction irqs generalizing masterMask slaveMask with
  | nil =>
      refine ⟨masterMask, slaveMask, rfl, fun line => ?_⟩
      rw [and_iff_left]
      rintro (hMem | ⟨-, irq, hMem, -⟩)
      · exact List.not_mem_nil hMem
      · exact List.not_mem_nil hMem
  | cons irq irqs ih =>
      obtain ⟨masterNext, slaveNext, hFirst, hMasks⟩ := picUnmaskIrq_alone irq masterMask slaveMask
      obtain ⟨masterLater, slaveLater, hRest, hLater⟩ := ih masterNext slaveNext
      refine ⟨masterLater, slaveLater, ?_, fun line => ?_⟩
      · rw [picUnmaskEach, Interaction.runAlone_bind hFirst, Interaction.runAlone_bind hRest]
        rfl
      · rw [hLater, hMasks, and_assoc, ← not_or, ← picOpens_cons]

theorem picProgram_alone (pics : PicPair) (irqs : List (BitVec 8)) :
    ∃ masterMask slaveMask,
      (picProgram irqs).runAlone PicPair.serve pics =
        some (irqs.map fun irq => decide (irq ≤ 15#8), .programmed masterMask slaveMask) ∧
      ∀ line, (PicPair.programmed masterMask slaveMask).masked line = true ↔ ¬PicOpens irqs line := by
  obtain ⟨masterMask, slaveMask, hEach, hMasks⟩ := picUnmaskEach_alone irqs 0xFF#8 0xFF#8
  refine ⟨masterMask, slaveMask, ?_, fun line => ?_⟩
  · rw [picProgram, Interaction.runAlone_bind (picRemap_alone pics),
      Interaction.runAlone_bind (picMaskAll_alone _ _), hEach]
  · rw [hMasks, and_iff_right]
    revert line
    decide

/-- Whatever state the controllers are in, the programming of the kernel
leaves them with the vectors 32 to 47, nothing requested or in service, and
exactly the lines masked that no call has opened; the calls report whether
their line exists. -/
theorem pic_unmasks_exactly (pics : PicPair) (irqs : List (BitVec 8)) :
    ∃ later, (picProgram irqs).runAlone PicPair.serve pics =
        some (irqs.map fun irq => decide (irq ≤ 15#8), later) ∧
      later.master.vectorBase = 0x20#8 ∧ later.slave.vectorBase = 0x28#8 ∧
      (∀ line, later.requested line = false) ∧ later.master.isr = 0#8 ∧ later.slave.isr = 0#8 ∧
      ∀ line, later.masked line = true ↔ ¬PicOpens irqs line := by
  obtain ⟨masterMask, slaveMask, hAlone, hMasks⟩ := picProgram_alone pics irqs
  refine ⟨_, hAlone, rfl, rfl, fun line => ?_, rfl, rfl, hMasks⟩
  revert line
  show ∀ line : Fin 16, (if line.val < 8 then (0#8).getLsbD line.val else (0#8).getLsbD (line.val - 8)) = false
  decide

end Programmed
end WigOSX
