import WigOSX.Core.MemoryGrammar

/-! What the map parser touches. The loop of `memory_read_multiboot_map` is
written once more over a log of its memory accesses; forgetting the log gives
the parser back. Every logged access stays inside the described buffer or the
region table, and the log has a bounded number of iterations. -/
namespace WigOSX

/-- What one iteration does to memory and to its cursor. -/
inductive MemoryEvent where
  /-- The loop condition held at this cursor. -/
  | iterate (currentAddress : BitVec 32)
  /-- One byte of an entry was read. -/
  | load (address : BitVec 32)
  /-- `memory_regions[index]` was written. -/
  | store (index : BitVec 32)
  /-- `current_address += entry_total_size` -/
  | advance (currentAddress entryTotalSize : BitVec 32)
deriving DecidableEq

/-- A result together with the accesses that led to it, in order. -/
structure Logged (α : Type) where
  value : α
  events : List MemoryEvent

instance : Monad Logged where
  pure value := ⟨value, []⟩
  bind p next := ⟨(next p.value).value, p.events ++ (next p.value).events⟩

def tell (events : List MemoryEvent) : Logged Unit := ⟨(), events⟩

section Model

/-- The bytes `[address, address + count)`; pointer arithmetic wraps. -/
def loadEvents (address : BitVec 32) (count : Nat) : List MemoryEvent :=
  (List.range count).map fun k => .load (address + BitVec.ofNat 32 k)

def loadUint32 (memory : PhysicalMemory) (address : BitVec 32) : Logged (BitVec 32) := do
  tell (loadEvents address 4)
  return memory.readUint32 address

def loadUint64 (memory : PhysicalMemory) (address : BitVec 32) : Logged (BitVec 64) := do
  tell (loadEvents address 8)
  return memory.readUint64 address

/-- The tail of `memory_add_region`: a full table is not written to. -/
def memoryStoreRegionLogged (m : MemoryState) (region : MemoryRegion) : Logged MemoryState :=
  if BitVec.ofNat 32 memoryMaxRegions ≤ m.regionCount then return memoryStoreRegion m region
  else do
    tell [.store m.regionCount]
    return memoryStoreRegion m region

def memoryAddRegionLogged (m : MemoryState) (baseAddress length : BitVec 64)
    (type : MemoryRegionType) : Logged MemoryState :=
  if length = 0#64 then return m
  else memoryStoreRegionLogged (memoryCountRegion m length type) ⟨baseAddress, length, type⟩

/-- `entry->length != 0 && entry->base_addr > UINT64_MAX - entry->length` -/
def memoryEntryWraps (memory : PhysicalMemory) (entry : BitVec 32) : Logged Bool := do
  let length ← loadUint64 memory (entry + 12#32)
  if length = 0#64 then return false
  else
    let baseAddr ← loadUint64 memory (entry + 4#32)
    return uint64Max - length < baseAddr

/-- The fields that are read for the call of `memory_add_region`. -/
def memoryAddEntryLogged (memory : PhysicalMemory) (entry : BitVec 32) (m : MemoryState) :
    Logged MemoryState := do
  let type ← loadUint32 memory (entry + 20#32)
  let baseAddr ← loadUint64 memory (entry + 4#32)
  let length ← loadUint64 memory (entry + 12#32)
  memoryAddRegionLogged m baseAddr length
    (if type = multibootMemoryAvailable then .usable else .reserved)

/-- `memoryReadEntries` over the log. -/
def memoryReadEntriesLogged (memory : PhysicalMemory) (endAddress currentAddress : BitVec 32)
    (m : MemoryState) : Logged (Option KernelStatus × MemoryState) :=
  if _hLoop : currentAddress < endAddress then do
    tell [.iterate currentAddress]
    let remainingBytes := endAddress - currentAddress
    if remainingBytes < 4#32 then return (some .malformedData, m)
    else
      let size ← loadUint32 memory currentAddress
      if size < multibootMemoryMapBaseSize then return (some .malformedData, m)
      else if _hLarge : uint32Max - 4#32 < size then return (some .malformedData, m)
      else
        let entryTotalSize := 4#32 + size
        if _hRemaining : remainingBytes < entryTotalSize then return (some .malformedData, m)
        else
          let wraps ← memoryEntryWraps memory currentAddress
          if wraps then return (some .malformedData, m)
          else
            let m ← memoryAddEntryLogged memory currentAddress m
            if m.mapTruncated then return (some .malformedData, m)
            else
              tell [.advance currentAddress entryTotalSize]
              memoryReadEntriesLogged memory endAddress (currentAddress + entryTotalSize) m
  else return (none, m)
termination_by endAddress.toNat - currentAddress.toNat
decreasing_by exact memoryEntry_shrinks _hLoop _hLarge _hRemaining

/-- `memoryReadMultibootMap` over the log. -/
def memoryReadMultibootMapLogged (memory : PhysicalMemory) (info : BitVec 32) (m : MemoryState) :
    Logged (KernelStatus × MemoryState) :=
  let mmapAddr := MultibootInfo.mmapAddr memory info
  let mmapLength := MultibootInfo.mmapLength memory info
  if info = 0#32 ∨ mmapAddr = 0#32 ∨ mmapLength = 0#32 then return (.invalidArgument, m)
  else if uint32Max - mmapAddr < mmapLength then return (.malformedData, m)
  else do
    match ← memoryReadEntriesLogged memory (mmapAddr + mmapLength) mmapAddr m with
    | (some status, m) => return (status, m)
    | (none, m) => if m.regionCount = 0#32 then return (.malformedData, m) else return (.ok, m)

end Model

section Erasure

variable {α β : Type} {memory : PhysicalMemory} {endAddress currentAddress : BitVec 32}
  {m : MemoryState}

theorem logged_pure (a : α) : (pure a : Logged α) = ⟨a, []⟩ := rfl

theorem logged_bind (p : Logged α) (next : α → Logged β) :
    (p >>= next) = ⟨(next p.value).value, p.events ++ (next p.value).events⟩ := rfl

/-- The logged region step computes what the parser's own step computes. -/
theorem memoryAddRegionLogged_value (m : MemoryState) (baseAddress length : BitVec 64)
    (type : MemoryRegionType) :
    (memoryAddRegionLogged m baseAddress length type).value =
      memoryAddRegion m baseAddress length type := by
  rw [memoryAddRegionLogged, memoryAddRegion]
  split_ifs
  · rfl
  · rw [memoryStoreRegionLogged]
    split_ifs <;> rfl

/-- The same for the step over one entry, whose fields it loads one by one. -/
theorem memoryAddEntryLogged_value (memory : PhysicalMemory) (entry : BitVec 32) (m : MemoryState) :
    (memoryAddEntryLogged memory entry m).value =
      memoryAddEntry m (MapEntry.readAt memory entry) :=
  memoryAddRegionLogged_value m _ _ _

/-- The logged test of an entry is the parser's test, with the loads that
short-circuiting leaves. -/
theorem memoryEntryWraps_value (memory : PhysicalMemory) (entry : BitVec 32) :
    (memoryEntryWraps memory entry).value = true ↔
      (MapEntry.readAt memory entry).length ≠ 0#64 ∧
        uint64Max - (MapEntry.readAt memory entry).length < (MapEntry.readAt memory entry).baseAddr := by
  have hLength : (loadUint64 memory (entry + 12#32)).value =
      (MapEntry.readAt memory entry).length := rfl
  simp only [memoryEntryWraps, logged_bind, hLength]
  split_ifs with hEmpty
  · simp [hEmpty]
  · simp only [logged_pure, decide_eq_true_eq, ne_eq, hEmpty, not_false_eq_true, true_and]
    rfl

/-- The log of one iteration up to the size checks. -/
def memoryHeadEvents (currentAddress : BitVec 32) : List MemoryEvent :=
  .iterate currentAddress :: loadEvents currentAddress 4

/-- The loop body with its log. -/
theorem memoryReadEntriesLogged_eq (hLoop : currentAddress < endAddress) :
    memoryReadEntriesLogged memory endAddress currentAddress m =
      let entry := MapEntry.readAt memory currentAddress
      let wraps := memoryEntryWraps memory currentAddress
      let add := memoryAddEntryLogged memory currentAddress m
      let head := memoryHeadEvents currentAddress
      if endAddress - currentAddress < 4#32 then
        ⟨(some .malformedData, m), [.iterate currentAddress]⟩
      else if entry.size < multibootMemoryMapBaseSize then ⟨(some .malformedData, m), head⟩
      else if uint32Max - 4#32 < entry.size then ⟨(some .malformedData, m), head⟩
      else if endAddress - currentAddress < 4#32 + entry.size then
        ⟨(some .malformedData, m), head⟩
      else if wraps.value then ⟨(some .malformedData, m), head ++ wraps.events⟩
      else if add.value.mapTruncated then
        ⟨(some .malformedData, add.value), head ++ (wraps.events ++ add.events)⟩
      else
        let rest := memoryReadEntriesLogged memory endAddress (currentAddress + (4#32 + entry.size))
          add.value
        ⟨rest.value, head ++ (wraps.events ++ (add.events ++
          .advance currentAddress (4#32 + entry.size) :: rest.events))⟩ := by
  have hSize : (loadUint32 memory currentAddress).value =
      (MapEntry.readAt memory currentAddress).size := rfl
  have hRead : (loadUint32 memory currentAddress).events = loadEvents currentAddress 4 :=
    List.append_nil _
  rw [memoryReadEntriesLogged, dif_pos hLoop]
  simp only [logged_bind, logged_pure, tell, hSize, hRead, memoryHeadEvents]
  split_ifs <;> simp

/-- Forgetting the log gives the parser back. The induction is on the bytes
that are left. -/
theorem memoryReadEntriesLogged_value :
    (memoryReadEntriesLogged memory endAddress currentAddress m).value =
      memoryReadEntries memory endAddress currentAddress m := by
  induction hLeft : endAddress.toNat - currentAddress.toNat using Nat.strongRecOn
    generalizing currentAddress m with
  | _ left ih =>
      by_cases hLoop : currentAddress < endAddress
      · rw [memoryReadEntriesLogged_eq hLoop, memoryReadEntries_eq hLoop]
        simp only [memoryEntryWraps_value, memoryAddEntryLogged_value]
        split_ifs with hShort hSmall hLarge hOver hWraps hTruncated
        · rfl
        · rfl
        · rfl
        · rfl
        · rfl
        · rfl
        · have hShrinks := memoryEntry_shrinks hLoop hLarge hOver
          exact ih _ (by omega) rfl
      · rw [memoryReadEntriesLogged, memoryReadEntries, dif_neg hLoop, dif_neg hLoop]
        rfl

/-- The logged loop and the parser agree on every memory, so that the log
speaks of the parser. -/
theorem memoryReadMultibootMapLogged_value (memory : PhysicalMemory) (info : BitVec 32)
    (m : MemoryState) :
    (memoryReadMultibootMapLogged memory info m).value = memoryReadMultibootMap memory info m := by
  simp only [memoryReadMultibootMapLogged, memoryReadMultibootMap]
  split_ifs
  · rfl
  · rfl
  · simp only [logged_bind, memoryReadEntriesLogged_value]
    rcases memoryReadEntries memory (MultibootInfo.mmapAddr memory info +
      MultibootInfo.mmapLength memory info) (MultibootInfo.mmapAddr memory info) m with
      ⟨_ | status, t⟩
    · dsimp only
      split_ifs <;> rfl
    · rfl

end Erasure

section Safety

variable {memory : PhysicalMemory} {endAddress currentAddress : BitVec 32} {m : MemoryState}
  {start finish : Nat}

/-- The access stays inside the buffer `[start, finish)` or the region table,
and the cursor inside the buffer. An addition that stays below `finish` does
not wrap. -/
def MemoryEvent.Safe (start finish : Nat) : MemoryEvent → Prop
  | .iterate currentAddress => start ≤ currentAddress.toNat ∧ currentAddress.toNat < finish
  | .load address => start ≤ address.toNat ∧ address.toNat < finish
  | .store index => index.toNat < memoryMaxRegions
  | .advance currentAddress entryTotalSize =>
      start ≤ currentAddress.toNat ∧ currentAddress.toNat + entryTotalSize.toNat ≤ finish

def MemoryEvent.isIterate : MemoryEvent → Bool
  | .iterate _ => true
  | _ => false

/-- The loads of a field are safe if all of its bytes lie in the buffer. -/
theorem loadEvents_safe {address : BitVec 32} {count : Nat} (hStart : start ≤ address.toNat)
    (hFinish : address.toNat + count ≤ finish) (hRange : finish < 2 ^ 32) :
    ∀ event ∈ loadEvents address count, event.Safe start finish := by
  intro event hEvent
  obtain ⟨k, hk, rfl⟩ := List.mem_map.mp hEvent
  rw [List.mem_range] at hk
  have hAddress : (address + BitVec.ofNat 32 k).toNat = address.toNat + k := by
    rw [BitVec.toNat_add, BitVec.toNat_ofNat]
    omega
  show start ≤ (address + BitVec.ofNat 32 k).toNat ∧ (address + BitVec.ofNat 32 k).toNat < finish
  omega

/-- A field at a fixed offset inside an entry that fits the buffer. -/
theorem fieldEvents_safe (offset : BitVec 32) (count : Nat) {entry : BitVec 32} (hStart : start ≤ entry.toNat)
    (hFits : entry.toNat + 24 ≤ finish) (hOffset : offset.toNat + count ≤ 24)
    (hRange : finish < 2 ^ 32) :
    ∀ event ∈ loadEvents (entry + offset) count, event.Safe start finish := by
  have hAddress : (entry + offset).toNat = entry.toNat + offset.toNat := by
    rw [BitVec.toNat_add]
    omega
  exact loadEvents_safe (by omega) (by omega) hRange

theorem loadEvents_isIterate (address : BitVec 32) (count : Nat) :
    (loadEvents address count).countP MemoryEvent.isIterate = 0 := by
  rw [List.countP_eq_zero]
  intro event hEvent
  obtain ⟨k, -, rfl⟩ := List.mem_map.mp hEvent
  exact Bool.false_ne_true

/-- A store goes to the table only while there is room in it. -/
theorem memoryStoreRegionLogged_safe (m : MemoryState) (region : MemoryRegion) :
    ∀ event ∈ (memoryStoreRegionLogged m region).events, event.Safe start finish := by
  intro event hEvent
  rw [memoryStoreRegionLogged] at hEvent
  split_ifs at hEvent with hFull
  · exact absurd hEvent List.not_mem_nil
  · obtain rfl := List.mem_singleton.mp hEvent
    exact Nat.lt_of_not_le hFull

theorem memoryStoreRegionLogged_isIterate (m : MemoryState) (region : MemoryRegion) :
    (memoryStoreRegionLogged m region).events.countP MemoryEvent.isIterate = 0 := by
  rw [memoryStoreRegionLogged]
  split_ifs <;> rfl

/-- The fields that the two reading helpers load lie behind the size field. -/
theorem memoryEntry_events (memory : PhysicalMemory) (entry : BitVec 32) (m : MemoryState) :
    (∀ event ∈ (memoryEntryWraps memory entry).events,
      event ∈ loadEvents (entry + 12#32) 8 ∨ event ∈ loadEvents (entry + 4#32) 8) ∧
    ∀ event ∈ (memoryAddEntryLogged memory entry m).events,
      event ∈ loadEvents (entry + 20#32) 4 ∨ event ∈ loadEvents (entry + 4#32) 8 ∨
        event ∈ loadEvents (entry + 12#32) 8 ∨
        ∃ m region, event ∈ (memoryStoreRegionLogged m region).events := by
  constructor
  · intro event hEvent
    simp only [memoryEntryWraps, logged_bind, loadUint64, tell, logged_pure, List.append_nil] at hEvent
    split_ifs at hEvent
    · rw [List.append_nil] at hEvent
      exact Or.inl hEvent
    · exact List.mem_append.mp hEvent
  · intro event hEvent
    simp only [memoryAddEntryLogged, memoryAddRegionLogged, logged_bind, loadUint64, loadUint32,
      tell, logged_pure, List.append_nil, List.mem_append] at hEvent
    rcases hEvent with hType | hBase | hLength | hAdd
    · exact Or.inl hType
    · exact Or.inr (Or.inl hBase)
    · exact Or.inr (Or.inr (Or.inl hLength))
    · by_cases hEmpty : memory.readUint64 (entry + 12#32) = 0#64
      · rw [if_pos hEmpty] at hAdd
        exact absurd hAdd List.not_mem_nil
      · rw [if_neg hEmpty] at hAdd
        exact Or.inr (Or.inr (Or.inr ⟨_, _, hAdd⟩))

theorem memoryEntry_isIterate (memory : PhysicalMemory) (entry : BitVec 32) (m : MemoryState) :
    (memoryEntryWraps memory entry).events.countP MemoryEvent.isIterate = 0 ∧
      (memoryAddEntryLogged memory entry m).events.countP MemoryEvent.isIterate = 0 := by
  obtain ⟨hWraps, hAdd⟩ := memoryEntry_events memory entry m
  have hLoad : ∀ {address count event}, event ∈ loadEvents address count →
      ¬event.isIterate = true := by
    intro address count event hEvent
    exact List.countP_eq_zero.mp (loadEvents_isIterate address count) event hEvent
  rw [List.countP_eq_zero, List.countP_eq_zero]
  constructor
  · intro event hEvent
    rcases hWraps event hEvent with h | h
    · exact hLoad h
    · exact hLoad h
  · intro event hEvent
    rcases hAdd event hEvent with h | h | h | ⟨m, region, h⟩
    · exact hLoad h
    · exact hLoad h
    · exact hLoad h
    · exact List.countP_eq_zero.mp (memoryStoreRegionLogged_isIterate m region) event h

/-- What the helpers touch in an entry of 24 bytes or more inside the buffer. -/
theorem memoryEntry_safe (memory : PhysicalMemory) (entry : BitVec 32) (m : MemoryState)
    (hStart : start ≤ entry.toNat) (hFits : entry.toNat + 24 ≤ finish) (hRange : finish < 2 ^ 32) :
    (∀ event ∈ (memoryEntryWraps memory entry).events, event.Safe start finish) ∧
      ∀ event ∈ (memoryAddEntryLogged memory entry m).events, event.Safe start finish := by
  obtain ⟨hWraps, hAdd⟩ := memoryEntry_events memory entry m
  have hType := fieldEvents_safe 20#32 4 hStart hFits (by decide) hRange
  have hBase := fieldEvents_safe 4#32 8 hStart hFits (by decide) hRange
  have hLength := fieldEvents_safe 12#32 8 hStart hFits (by decide) hRange
  constructor
  · intro event hEvent
    rcases hWraps event hEvent with h | h
    · exact hLength event h
    · exact hBase event h
  · intro event hEvent
    rcases hAdd event hEvent with h | h | h | ⟨m, region, h⟩
    · exact hType event h
    · exact hBase event h
    · exact hLength event h
    · exact memoryStoreRegionLogged_safe m region event h

/-- The numbers behind the checks of one iteration. -/
theorem memoryEntry_room (hLoop : currentAddress < endAddress) {size : BitVec 32}
    (hSmall : ¬size < multibootMemoryMapBaseSize) (hLarge : ¬uint32Max - 4#32 < size)
    (hOver : ¬endAddress - currentAddress < 4#32 + size) :
    (4#32 + size).toNat = 4 + size.toNat ∧ 24 ≤ 4 + size.toNat ∧
      (currentAddress + (4#32 + size)).toNat = currentAddress.toNat + (4 + size.toNat) ∧
      currentAddress.toNat + (4 + size.toNat) ≤ endAddress.toNat := by
  obtain ⟨hNext, hFits⟩ := memoryEntry_advances hLoop hLarge hOver
  have hBase : multibootMemoryMapBaseSize.toNat = 20 := by decide
  have hEnd := endAddress.isLt
  rw [BitVec.lt_def, hBase] at hSmall
  refine ⟨?_, by omega, by omega, by omega⟩
  rw [BitVec.toNat_add, BitVec.toNat_ofNat]
  omega

/-- Every access of the loop is safe. The induction is on the bytes that are
left; each check comes before the reads that rely on it. -/
theorem memoryReadEntriesLogged_safe (hStart : start ≤ currentAddress.toNat) :
    ∀ event ∈ (memoryReadEntriesLogged memory endAddress currentAddress m).events,
      event.Safe start endAddress.toNat := by
  induction hLeft : endAddress.toNat - currentAddress.toNat using Nat.strongRecOn
    generalizing currentAddress m with
  | _ left ih =>
      by_cases hLoop : currentAddress < endAddress
      · have hLt := BitVec.lt_def.mp hLoop
        have hRange := endAddress.isLt
        have hIterate : (MemoryEvent.iterate currentAddress).Safe start endAddress.toNat :=
          ⟨hStart, hLt⟩
        have hHead : ¬endAddress - currentAddress < 4#32 →
            ∀ event ∈ memoryHeadEvents currentAddress, event.Safe start endAddress.toNat := by
          intro hShort
          have hRemaining : (endAddress - currentAddress).toNat =
              endAddress.toNat - currentAddress.toNat := by
            rw [BitVec.toNat_sub]
            omega
          rw [BitVec.lt_def, hRemaining, BitVec.toNat_ofNat] at hShort
          rw [memoryHeadEvents, List.forall_mem_cons]
          exact ⟨hIterate, loadEvents_safe hStart (by omega) hRange⟩
        rw [memoryReadEntriesLogged_eq hLoop]
        dsimp only
        split_ifs with hShort hSmall hLarge hOver hWraps hTruncated
        · rw [List.forall_mem_singleton]
          exact hIterate
        · exact hHead hShort
        · exact hHead hShort
        · exact hHead hShort
        all_goals
          obtain ⟨hTotal, hLong, hNext, hFits⟩ := memoryEntry_room hLoop hSmall hLarge hOver
          obtain ⟨hWrapSafe, hAddSafe⟩ := memoryEntry_safe memory currentAddress m hStart
            (by omega) hRange
        · exact List.forall_mem_append.mpr ⟨hHead hShort, hWrapSafe⟩
        · exact List.forall_mem_append.mpr ⟨hHead hShort,
            List.forall_mem_append.mpr ⟨hWrapSafe, hAddSafe⟩⟩
        · have hAdvance : (MemoryEvent.advance currentAddress
              (4#32 + (MapEntry.readAt memory currentAddress).size)).Safe start endAddress.toNat := by
            refine ⟨hStart, ?_⟩
            rw [hTotal]
            exact hFits
          have hRest : ∀ event ∈ (memoryReadEntriesLogged memory endAddress (currentAddress +
              (4#32 + (MapEntry.readAt memory currentAddress).size))
              (memoryAddEntryLogged memory currentAddress m).value).events,
              event.Safe start endAddress.toNat :=
            ih _ (by omega) (by omega) rfl
          exact List.forall_mem_append.mpr ⟨hHead hShort, List.forall_mem_append.mpr ⟨hWrapSafe,
            List.forall_mem_append.mpr ⟨hAddSafe, List.forall_mem_cons.mpr ⟨hAdvance, hRest⟩⟩⟩⟩
      · rw [memoryReadEntriesLogged, dif_neg hLoop]
        exact fun _ h => absurd h List.not_mem_nil

/-- Every iteration but the last one consumes at least 24 bytes. -/
theorem memoryReadEntriesLogged_iterations (memory : PhysicalMemory)
    (endAddress currentAddress : BitVec 32) (m : MemoryState) :
    (memoryReadEntriesLogged memory endAddress currentAddress m).events.countP
        MemoryEvent.isIterate ≤ (endAddress.toNat - currentAddress.toNat) / 24 + 1 := by
  induction hLeft : endAddress.toNat - currentAddress.toNat using Nat.strongRecOn
    generalizing currentAddress m with
  | _ left ih =>
      subst hLeft
      by_cases hLoop : currentAddress < endAddress
      · have hHead : (memoryHeadEvents currentAddress).countP MemoryEvent.isIterate = 1 := by
          rw [memoryHeadEvents, List.countP_cons_of_pos rfl, loadEvents_isIterate]
        obtain ⟨hWraps, hAdd⟩ := memoryEntry_isIterate memory currentAddress m
        rw [memoryReadEntriesLogged_eq hLoop]
        dsimp only
        split_ifs with hShort hSmall hLarge hOver hWrapped hTruncated
        · exact Nat.le_add_left _ _
        · rw [hHead]
          omega
        · rw [hHead]
          omega
        · rw [hHead]
          omega
        · rw [List.countP_append, hHead, hWraps]
          omega
        · rw [List.countP_append, List.countP_append, hHead, hWraps, hAdd]
          omega
        · obtain ⟨-, hLong, hNext, hFits⟩ := memoryEntry_room hLoop hSmall hLarge hOver
          have hRest : (memoryReadEntriesLogged memory endAddress (currentAddress +
              (4#32 + (MapEntry.readAt memory currentAddress).size))
              (memoryAddEntryLogged memory currentAddress m).value).events.countP
                MemoryEvent.isIterate ≤ (endAddress.toNat - (currentAddress +
                  (4#32 + (MapEntry.readAt memory currentAddress).size)).toNat) / 24 + 1 :=
            ih _ (by omega) _ _ rfl
          rw [List.countP_append, List.countP_append, List.countP_append, List.countP_cons_of_neg
            (by exact Bool.false_ne_true), hHead, hWraps, hAdd]
          omega
      · rw [memoryReadEntriesLogged, dif_neg hLoop]
        exact Nat.zero_le _

end Safety

/-- The parser returns what the logged loop returns, for every info structure
and every content of memory, and all that the loop touches is in bounds. -/
theorem memoryReadMultibootMap_safe (memory : PhysicalMemory) (info : BitVec 32) (m : MemoryState) :
    let logged := memoryReadMultibootMapLogged memory info m
    let start := (MultibootInfo.mmapAddr memory info).toNat
    let finish := start + (MultibootInfo.mmapLength memory info).toNat
    logged.value = memoryReadMultibootMap memory info m ∧
    (∀ event ∈ logged.events, event.Safe start finish) ∧
    (logged.events ≠ [] → finish < 2 ^ 32) ∧
    logged.events.countP MemoryEvent.isIterate ≤
      (MultibootInfo.mmapLength memory info).toNat / 24 + 1 := by
  intro logged start finish
  refine ⟨memoryReadMultibootMapLogged_value memory info m, ?_⟩
  have hCases : logged.events = [] ∨ (MultibootInfo.mmapAddr memory info +
        MultibootInfo.mmapLength memory info).toNat = finish ∧
      logged.events = (memoryReadEntriesLogged memory (MultibootInfo.mmapAddr memory info +
        MultibootInfo.mmapLength memory info) (MultibootInfo.mmapAddr memory info) m).events := by
    simp only [logged, memoryReadMultibootMapLogged]
    split_ifs with hAbsent hWrap
    · exact Or.inl rfl
    · exact Or.inl rfl
    · refine Or.inr ⟨mmapEnd_toNat ((uint32Max_sub_lt_iff _ _).mp hWrap), ?_⟩
      simp only [logged_bind]
      rcases (memoryReadEntriesLogged memory (MultibootInfo.mmapAddr memory info +
        MultibootInfo.mmapLength memory info) (MultibootInfo.mmapAddr memory info) m).value with
        ⟨_ | status, t⟩
      · dsimp only
        split_ifs <;> exact List.append_nil _
      · exact List.append_nil _
  rcases hCases with hNone | ⟨hFinish, hEvents⟩
  · rw [hNone]
    exact ⟨fun _ h => absurd h List.not_mem_nil, fun h => absurd rfl h, Nat.zero_le _⟩
  · rw [hEvents, ← hFinish]
    refine ⟨memoryReadEntriesLogged_safe (Nat.le_refl _), fun _ => BitVec.isLt _, ?_⟩
    have hCount := memoryReadEntriesLogged_iterations memory (MultibootInfo.mmapAddr memory info +
      MultibootInfo.mmapLength memory info) (MultibootInfo.mmapAddr memory info) m
    rwa [hFinish, Nat.add_sub_cancel_left] at hCount

end WigOSX
