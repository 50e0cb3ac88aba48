import WigOSX.Core.Memory

/-! The grammar of a Multiboot memory map, stated without the loop of
`memory.c`, and the proof that the parser accepts exactly this grammar and
stores exactly the entries with a nonzero length. -/
namespace WigOSX

/-- The fixed fields of a map entry. Bytes behind them belong to the entry
but carry no meaning. -/
structure MapEntry where
  size : BitVec 32
  baseAddr : BitVec 64
  length : BitVec 64
  type : BitVec 32
deriving DecidableEq

namespace MapEntry

def readAt (memory : PhysicalMemory) (address : BitVec 32) : MapEntry where
  size := MultibootMemoryMapEntry.size memory address
  baseAddr := MultibootMemoryMapEntry.baseAddr memory address
  length := MultibootMemoryMapEntry.length memory address
  type := MultibootMemoryMapEntry.type memory address

/-- The region an entry describes: only type 1 is usable memory. -/
def region (entry : MapEntry) : MemoryRegion where
  baseAddress := entry.baseAddr
  length := entry.length
  type := if entry.type = 1#32 then .usable else .reserved

/-- The end of the region is representable in 64 bits. -/
def Bounded (entry : MapEntry) : Prop :=
  entry.length ≠ 0#64 → entry.baseAddr.toNat + entry.length.toNat ≤ 2 ^ 64 - 1

instance (entry : MapEntry) : Decidable entry.Bounded :=
  inferInstanceAs (Decidable (_ → _))

/-- The regions of the entries with a nonzero length, in order. -/
def regions (entries : List MapEntry) : List MemoryRegion :=
  (entries.filter fun entry => entry.length ≠ 0#64).map region

theorem regions_cons_empty {entry : MapEntry} (h : entry.length = 0#64) (rest : List MapEntry) :
    regions (entry :: rest) = regions rest := by
  rw [regions, List.filter_cons_of_neg (by simp [h]), regions]

/-- Every other entry describes one region, in the order of the map. -/
theorem regions_cons {entry : MapEntry} (h : entry.length ≠ 0#64) (rest : List MapEntry) :
    regions (entry :: rest) = entry.region :: regions rest := by
  rw [regions, List.filter_cons_of_pos (by simp [h]), List.map_cons, regions]

end MapEntry

/-- The bytes `[address, finish)` consist of the given entries, each of
`4 + size` bytes with `size` at least 20, and of nothing else. -/
inductive Tiles (memory : PhysicalMemory) (finish : Nat) : Nat → List MapEntry → Prop where
  | nil : Tiles memory finish finish []
  | cons {address : Nat} {entry : MapEntry} {entries : List MapEntry}
      (hEntry : entry = MapEntry.readAt memory (BitVec.ofNat 32 address))
      (hSize : 20 ≤ entry.size.toNat) (hFits : address + (4 + entry.size.toNat) ≤ finish)
      (rest : Tiles memory finish (address + (4 + entry.size.toNat)) entries) :
      Tiles memory finish address (entry :: entries)

/-- Everything an acceptable memory map has to satisfy. -/
structure MapGrammar (memory : PhysicalMemory) (info : BitVec 32) (entries : List MapEntry) : Prop where
  flag : MultibootInfo.hasMemoryMap memory info = true
  address : MultibootInfo.mmapAddr memory info ≠ 0#32
  nonempty : MultibootInfo.mmapLength memory info ≠ 0#32
  noWrap : (MultibootInfo.mmapLength memory info).toNat ≤
    2 ^ 32 - 1 - (MultibootInfo.mmapAddr memory info).toNat
  tiles : Tiles memory
    ((MultibootInfo.mmapAddr memory info).toNat + (MultibootInfo.mmapLength memory info).toNat)
    (MultibootInfo.mmapAddr memory info).toNat entries
  bounded : ∀ entry ∈ entries, entry.Bounded
  some_region : 1 ≤ (MapEntry.regions entries).length
  max_regions : (MapEntry.regions entries).length ≤ 32

section Store

/-- The region table holds exactly this list. -/
structure MemoryHolds (m : MemoryState) (regions : List MemoryRegion) : Prop where
  count : m.regionCount.toNat = regions.length
  capacity : regions.length ≤ 32
  stored : ∀ i < regions.length, m.regions[i]? = regions[i]?

def memoryAddEntry (m : MemoryState) (entry : MapEntry) : MemoryState :=
  memoryAddRegion m entry.baseAddr entry.length entry.region.type

/-- Counting a region touches neither the table nor the flags. -/
theorem memoryCountRegion_table (m : MemoryState) (length : BitVec 64) (type : MemoryRegionType) :
    (memoryCountRegion m length type).regions = m.regions ∧
      (memoryCountRegion m length type).regionCount = m.regionCount ∧
      (memoryCountRegion m length type).mapTruncated = m.mapTruncated ∧
      (memoryCountRegion m length type).initialized = m.initialized := by
  cases type <;> exact ⟨rfl, rfl, rfl, rfl⟩

/-- Counting a region into the totals leaves the table itself alone. -/
theorem MemoryHolds.counted {m : MemoryState} {regions : List MemoryRegion}
    (h : MemoryHolds m regions) (length : BitVec 64) (type : MemoryRegionType) :
    MemoryHolds (memoryCountRegion m length type) regions := by
  obtain ⟨hRegions, hCount, -, -⟩ := memoryCountRegion_table m length type
  refine ⟨?_, h.capacity, fun i hi => ?_⟩
  · rw [hCount]
    exact h.count
  · rw [hRegions]
    exact h.stored i hi

/-- With a free slot the region is appended. -/
theorem memoryStoreRegion_store {m : MemoryState} {regions : List MemoryRegion}
    (h : MemoryHolds m regions) (hRoom : regions.length < 32) (region : MemoryRegion) :
    MemoryHolds (memoryStoreRegion m region) (regions ++ [region]) ∧
      (memoryStoreRegion m region).mapTruncated = m.mapTruncated := by
  have hNotFull : ¬BitVec.ofNat 32 memoryMaxRegions ≤ m.regionCount := by
    rw [BitVec.le_def, h.count]
    exact Nat.not_le.mpr hRoom
  rw [memoryStoreRegion, dif_neg hNotFull]
  refine ⟨⟨?_, ?_, ?_⟩, rfl⟩
  · show (m.regionCount + 1#32).toNat = _
    rw [BitVec.toNat_add, h.count, List.length_append, List.length_singleton, BitVec.toNat_ofNat]
    omega
  · rw [List.length_append, List.length_singleton]
    exact hRoom
  · intro i hi
    rw [List.length_append, List.length_singleton] at hi
    have hSlot : m.regionCount.toNat < memoryMaxRegions := by
      rw [h.count]
      exact hRoom
    show (m.regions.set m.regionCount.toNat region hSlot)[i]? = _
    rw [Vector.getElem?_set]
    rcases Nat.lt_succ_iff_lt_or_eq.mp hi with hLt | rfl
    · have hNe : m.regionCount.toNat ≠ i := by
        rw [h.count]
        omega
      rw [if_neg hNe, h.stored i hLt, List.getElem?_append_left hLt]
    · rw [if_pos h.count, List.getElem?_append_right (Nat.le_refl _), Nat.sub_self]
      rfl

/-- Without a free slot the map is marked as truncated. -/
theorem memoryStoreRegion_full {m : MemoryState} {regions : List MemoryRegion}
    (h : MemoryHolds m regions) (hFull : regions.length = 32) (region : MemoryRegion) :
    (memoryStoreRegion m region).mapTruncated = true := by
  have hCount : BitVec.ofNat 32 memoryMaxRegions ≤ m.regionCount := by
    rw [BitVec.le_def, h.count, hFull]
    exact Nat.le_refl 32
  rw [memoryStoreRegion, dif_pos hCount]

/-- What a store keeps: `initialized`, and a truncation mark that is set. -/
theorem memoryStoreRegion_flags (m : MemoryState) (region : MemoryRegion) :
    (memoryStoreRegion m region).initialized = m.initialized ∧
      (m.mapTruncated = true → (memoryStoreRegion m region).mapTruncated = true) := by
  rw [memoryStoreRegion]
  split
  · exact ⟨rfl, fun _ => rfl⟩
  · exact ⟨rfl, id⟩

/-- The parser passes over an entry of length zero. -/
theorem memoryAddEntry_skip (m : MemoryState) {entry : MapEntry} (h : entry.length = 0#64) :
    memoryAddEntry m entry = m := by
  rw [memoryAddEntry, memoryAddRegion, if_pos h]

/-- Any other entry is first counted into the totals, then stored in the
table. -/
theorem memoryAddEntry_eq (m : MemoryState) {entry : MapEntry} (h : entry.length ≠ 0#64) :
    memoryAddEntry m entry =
      memoryStoreRegion (memoryCountRegion m entry.length entry.region.type) entry.region := by
  rw [memoryAddEntry, memoryAddRegion, if_neg h]
  rfl

/-- Adding entries does not make the map count as initialized; the initializer
does, after the last one. -/
theorem memoryAddEntry_initialized (m : MemoryState) (entry : MapEntry) :
    (memoryAddEntry m entry).initialized = m.initialized := by
  by_cases hLength : entry.length = 0#64
  · rw [memoryAddEntry_skip m hLength]
  · rw [memoryAddEntry_eq m hLength, (memoryStoreRegion_flags _ _).1]
    exact (memoryCountRegion_table m entry.length entry.region.type).2.2.2

/-- The truncation mark is never taken back. -/
theorem memoryAddEntry_truncated {m : MemoryState} (h : m.mapTruncated = true) (entry : MapEntry) :
    (memoryAddEntry m entry).mapTruncated = true := by
  by_cases hLength : entry.length = 0#64
  · rwa [memoryAddEntry_skip m hLength]
  · have hCounted := (memoryCountRegion_table m entry.length entry.region.type).2.2.1
    rw [memoryAddEntry_eq m hLength]
    exact (memoryStoreRegion_flags _ _).2 (hCounted.trans h)

/-- Once the table has overflowed, the mark stays to the end of the map. -/
theorem memoryAddEntries_truncated (entries : List MapEntry) {m : MemoryState}
    (h : m.mapTruncated = true) : (entries.foldl memoryAddEntry m).mapTruncated = true := by
  induction entries generalizing m with
  | nil => exact h
  | cons entry rest ih => exact ih (memoryAddEntry_truncated h entry)

/-- Adding entries to a table that is not truncated appends their regions if
they all fit, and truncates otherwise. -/
theorem memoryAddEntries_spec (entries : List MapEntry) {m : MemoryState}
    {regions : List MemoryRegion} (h : MemoryHolds m regions) :
    (regions.length + (MapEntry.regions entries).length ≤ 32 →
      MemoryHolds (entries.foldl memoryAddEntry m) (regions ++ MapEntry.regions entries) ∧
        (entries.foldl memoryAddEntry m).mapTruncated = m.mapTruncated) ∧
    (32 < regions.length + (MapEntry.regions entries).length →
      (entries.foldl memoryAddEntry m).mapTruncated = true) := by
  induction entries generalizing m regions with
  | nil =>
      have hCapacity := h.capacity
      refine ⟨fun _ => ⟨?_, rfl⟩, fun hMany => ?_⟩
      · rw [MapEntry.regions, List.filter_nil, List.map_nil, List.append_nil]
        exact h
      · rw [MapEntry.regions, List.filter_nil, List.map_nil, List.length_nil] at hMany
        omega
  | cons entry rest ih =>
      rw [List.foldl_cons]
      by_cases hLength : entry.length = 0#64
      · rw [memoryAddEntry_skip m hLength, MapEntry.regions_cons_empty hLength]
        exact ih h
      · rw [MapEntry.regions_cons hLength, List.length_cons]
        have hCounted := h.counted entry.length entry.region.type
        have hKept := (memoryCountRegion_table m entry.length entry.region.type).2.2.1
        rw [memoryAddEntry_eq m hLength]
        rcases Nat.lt_or_ge regions.length 32 with hRoom | hFull
        · obtain ⟨hNext, hSame⟩ := memoryStoreRegion_store hCounted hRoom entry.region
          obtain ⟨hFits, hMany⟩ := ih hNext
          rw [List.length_append, List.length_singleton] at hFits hMany
          refine ⟨fun hBound => ?_, fun hBound => hMany (by omega)⟩
          obtain ⟨hHolds, hRest⟩ := hFits (by omega)
          rw [List.append_assoc, List.singleton_append] at hHolds
          exact ⟨hHolds, hRest.trans (hSame.trans hKept)⟩
        · have hCapacity := h.capacity
          refine ⟨fun hBound => by omega, fun _ => ?_⟩
          exact memoryAddEntries_truncated rest
            (memoryStoreRegion_full hCounted (by omega) entry.region)

end Store

section Loop

variable {memory : PhysicalMemory} {endAddress currentAddress : BitVec 32} {m : MemoryState}

/-- The checks that one iteration makes on the entry at `currentAddress`. -/
structure MapEntry.Accepted (entry : MapEntry) (endAddress currentAddress : BitVec 32)
    (m : MemoryState) : Prop where
  size : 20 ≤ entry.size.toNat
  fits : currentAddress.toNat + (4 + entry.size.toNat) ≤ endAddress.toNat
  bounded : entry.Bounded
  room : (memoryAddEntry m entry).mapTruncated = false

/-- The parser's test for wrapping, written without a sum that could wrap. -/
theorem MapEntry.bounded_iff (entry : MapEntry) :
    entry.Bounded ↔ ¬(entry.length ≠ 0#64 ∧ uint64Max - entry.length < entry.baseAddr) := by
  have hMax : uint64Max.toNat = 2 ^ 64 - 1 := rfl
  have hSub : (uint64Max - entry.length).toNat = 2 ^ 64 - 1 - entry.length.toNat := by
    have hLength := entry.length.isLt
    rw [BitVec.toNat_sub, hMax]
    omega
  rw [MapEntry.Bounded, not_and, BitVec.lt_def, hSub]
  refine forall_congr' fun _ => ?_
  have hBase := entry.baseAddr.isLt
  omega

/-- The loop body read through the entry record. -/
theorem memoryReadEntries_eq (hLoop : currentAddress < endAddress) :
    memoryReadEntries memory endAddress currentAddress m =
      let entry := MapEntry.readAt memory currentAddress
      if endAddress - currentAddress < 4#32 then (some .malformedData, m)
      else if entry.size < multibootMemoryMapBaseSize then (some .malformedData, m)
      else if uint32Max - 4#32 < entry.size then (some .malformedData, m)
      else if endAddress - currentAddress < 4#32 + entry.size then (some .malformedData, m)
      else if entry.length ≠ 0#64 ∧ uint64Max - entry.length < entry.baseAddr then
        (some .malformedData, m)
      else if (memoryAddEntry m entry).mapTruncated then
        (some .malformedData, memoryAddEntry m entry)
      else memoryReadEntries memory endAddress (currentAddress + (4#32 + entry.size))
        (memoryAddEntry m entry) := by
  rw [memoryReadEntries, dif_pos hLoop]
  rfl

variable (memory m) in
/-- One iteration returns `MALFORMED_DATA` or adds the entry and goes on
behind it. -/
theorem memoryReadEntries_step (hLoop : currentAddress < endAddress) :
    let entry := MapEntry.readAt memory currentAddress
    (entry.Accepted endAddress currentAddress m →
      memoryReadEntries memory endAddress currentAddress m =
        memoryReadEntries memory endAddress (currentAddress + (4#32 + entry.size))
          (memoryAddEntry m entry)) ∧
    (¬entry.Accepted endAddress currentAddress m →
      (memoryReadEntries memory endAddress currentAddress m).1 = some .malformedData ∧
        (memoryReadEntries memory endAddress currentAddress m).2.initialized = m.initialized) := by
  rw [memoryReadEntries_eq hLoop]
  generalize MapEntry.readAt memory currentAddress = entry
  simp only []
  have hLt := BitVec.lt_def.mp hLoop
  have hRemaining : (endAddress - currentAddress).toNat = endAddress.toNat - currentAddress.toNat := by
    bv_omega
  have hBase : multibootMemoryMapBaseSize.toNat = 20 := by decide
  have hTooLarge : (uint32Max - 4#32).toNat = 2 ^ 32 - 5 := by decide
  have hEnd := endAddress.isLt
  split_ifs with hShort hSmall hLarge hOver hWrap hTruncated
  · rw [BitVec.lt_def, hRemaining, BitVec.toNat_ofNat] at hShort
    exact ⟨fun h => absurd h.fits (by omega), fun _ => ⟨rfl, rfl⟩⟩
  · rw [BitVec.lt_def, hBase] at hSmall
    exact ⟨fun h => absurd h.size (by omega), fun _ => ⟨rfl, rfl⟩⟩
  · rw [BitVec.lt_def, hTooLarge] at hLarge
    exact ⟨fun h => absurd h.fits (by omega), fun _ => ⟨rfl, rfl⟩⟩
  all_goals
    rw [BitVec.lt_def, hBase] at hSmall
    rw [BitVec.lt_def, hTooLarge] at hLarge
    have hTotal : (4#32 + entry.size).toNat = 4 + entry.size.toNat := by
      rw [BitVec.toNat_add, BitVec.toNat_ofNat]
      omega
    rw [BitVec.lt_def, hRemaining, hTotal] at hOver
  · exact ⟨fun h => absurd h.fits (by omega), fun _ => ⟨rfl, rfl⟩⟩
  · exact ⟨fun h => absurd hWrap (entry.bounded_iff.mp h.bounded), fun _ => ⟨rfl, rfl⟩⟩
  · refine ⟨fun h => ?_, fun _ => ⟨rfl, memoryAddEntry_initialized m entry⟩⟩
    rw [h.room] at hTruncated
    exact absurd hTruncated Bool.false_ne_true
  · refine ⟨fun _ => rfl, fun h => absurd ⟨by omega, by omega, ?_, ?_⟩ h⟩
    · exact entry.bounded_iff.mpr hWrap
    · exact Bool.eq_false_iff.mpr hTruncated

/-- The next address after an accepted entry. -/
theorem MapEntry.Accepted.next_toNat {entry : MapEntry}
    (h : entry.Accepted endAddress currentAddress m) :
    (currentAddress + (4#32 + entry.size)).toNat =
      currentAddress.toNat + (4 + entry.size.toNat) := by
  have hFits := h.fits
  have hEnd := endAddress.isLt
  rw [BitVec.toNat_add, BitVec.toNat_add, BitVec.toNat_ofNat]
  omega

/-- A loop that runs to the end has read a tiling of the buffer. The
induction is on the bytes that are left. -/
theorem memoryReadEntries_sound {finish : MemoryState}
    (hRoom : m.mapTruncated = false) (hStart : currentAddress ≤ endAddress)
    (hDone : memoryReadEntries memory endAddress currentAddress m = (none, finish)) :
    ∃ entries, Tiles memory endAddress.toNat currentAddress.toNat entries ∧
      (∀ entry ∈ entries, entry.Bounded) ∧ finish = entries.foldl memoryAddEntry m ∧
      finish.mapTruncated = false := by
  induction hLeft : endAddress.toNat - currentAddress.toNat using Nat.strongRecOn
    generalizing currentAddress m with
  | _ left ih =>
      rcases Nat.lt_or_eq_of_le (BitVec.le_def.mp hStart) with hLt | hEq
      · have hLoop : currentAddress < endAddress := BitVec.lt_def.mpr hLt
        obtain ⟨hNext, hReject⟩ := memoryReadEntries_step memory m hLoop
        by_cases hAccepted : (MapEntry.readAt memory currentAddress).Accepted endAddress currentAddress m
        · rw [hNext hAccepted] at hDone
          have hAddress := hAccepted.next_toNat
          have hFits := hAccepted.fits
          have hBefore : currentAddress + (4#32 + (MapEntry.readAt memory currentAddress).size) ≤
              endAddress := by
            rw [BitVec.le_def]
            omega
          obtain ⟨entries, hTiles, hBounded, hFold, hKept⟩ :=
            ih _ (by omega) hAccepted.room hBefore hDone rfl
          rw [hAddress] at hTiles
          refine ⟨MapEntry.readAt memory currentAddress :: entries, ?_, ?_, hFold, hKept⟩
          · exact .cons (by rw [BitVec.ofNat_toNat, BitVec.setWidth_eq]) hAccepted.size hFits hTiles
          · intro entry hMem
            rcases List.mem_cons.mp hMem with rfl | hRest
            · exact hAccepted.bounded
            · exact hBounded entry hRest
        · rw [hDone] at hReject
          exact absurd (hReject hAccepted).1 (by simp)
      · obtain rfl := BitVec.eq_of_toNat_eq hEq
        rw [memoryReadEntries, dif_neg (BitVec.lt_irrefl _)] at hDone
        cases hDone
        exact ⟨[], .nil, by simp, rfl, hRoom⟩

/-- A tiling whose entries are bounded and fit the table is read to the end. -/
theorem memoryReadEntries_complete {entries : List MapEntry} {address : Nat}
    (hTiles : Tiles memory endAddress.toNat address entries) (hAddress : currentAddress.toNat = address)
    (hBounded : ∀ entry ∈ entries, entry.Bounded)
    (hRoom : (entries.foldl memoryAddEntry m).mapTruncated = false) :
    memoryReadEntries memory endAddress currentAddress m =
      (none, entries.foldl memoryAddEntry m) := by
  induction hTiles generalizing currentAddress m with
  | nil =>
      have hStop : ¬currentAddress < endAddress := by
        rw [BitVec.lt_def]
        omega
      rw [memoryReadEntries, dif_neg hStop]
      rfl
  | @cons address entry entries hEntry hSize hFits rest ih =>
      have hLoop : currentAddress < endAddress := by
        rw [BitVec.lt_def]
        omega
      have hRead : entry = MapEntry.readAt memory currentAddress := by
        rw [hEntry, ← hAddress, BitVec.ofNat_toNat, BitVec.setWidth_eq]
      -- the mark is kept by the remaining entries, so this entry did not set it
      have hHere : (memoryAddEntry m entry).mapTruncated = false := by
        rw [← Bool.not_eq_true]
        intro hFull
        rw [List.foldl_cons, memoryAddEntries_truncated entries hFull] at hRoom
        exact Bool.noConfusion hRoom
      have hAccepted : entry.Accepted endAddress currentAddress m :=
        ⟨hSize, by rw [hAddress]; exact hFits, hBounded entry List.mem_cons_self, hHere⟩
      have hNext := (memoryReadEntries_step memory m hLoop).1
      rw [← hRead] at hNext
      rw [hNext hAccepted, List.foldl_cons]
      apply ih
      · rw [hAccepted.next_toNat, hAddress]
      · exact fun other hMem => hBounded other (List.mem_cons_of_mem _ hMem)
      · exact hRoom

variable (memory endAddress currentAddress m) in
/-- The only early return of the loop is `MALFORMED_DATA`, and the loop does
not touch the readiness flag. -/
theorem memoryReadEntries_status :
    ((memoryReadEntries memory endAddress currentAddress m).1 = none ∨
      (memoryReadEntries memory endAddress currentAddress m).1 = some .malformedData) ∧
    (memoryReadEntries memory endAddress currentAddress m).2.initialized = m.initialized := by
  induction hLeft : endAddress.toNat - currentAddress.toNat using Nat.strongRecOn
    generalizing currentAddress m with
  | _ left ih =>
      by_cases hLoop : currentAddress < endAddress
      · obtain ⟨hNext, hReject⟩ := memoryReadEntries_step memory m hLoop
        by_cases hAccepted : (MapEntry.readAt memory currentAddress).Accepted endAddress currentAddress m
        · have hAddress := hAccepted.next_toNat
          have hLt := BitVec.lt_def.mp hLoop
          rw [hNext hAccepted]
          obtain ⟨hStatus, hInit⟩ := ih (endAddress.toNat - (currentAddress +
            (4#32 + (MapEntry.readAt memory currentAddress).size)).toNat) (by omega) _ _ rfl
          exact ⟨hStatus, hInit.trans (memoryAddEntry_initialized m _)⟩
        · obtain ⟨hStatus, hInit⟩ := hReject hAccepted
          exact ⟨Or.inr hStatus, hInit⟩
      · rw [memoryReadEntries, dif_neg hLoop]
        exact ⟨Or.inl rfl, rfl⟩

end Loop

section Initialize

variable {memory : PhysicalMemory} {info : BitVec 32} {m : MemoryState}

/-- The basic totals of the loader are stored beside the table and do not
touch it. -/
theorem memoryReadBasic_table (memory : PhysicalMemory) (info : BitVec 32) (m : MemoryState) :
    (memoryReadBasic memory info m).regions = m.regions ∧
      (memoryReadBasic memory info m).regionCount = m.regionCount ∧
      (memoryReadBasic memory info m).mapTruncated = m.mapTruncated ∧
      (memoryReadBasic memory info m).initialized = m.initialized := by
  unfold memoryReadBasic
  split
  · exact ⟨rfl, rfl, rfl, rfl⟩
  · exact ⟨rfl, rfl, rfl, rfl⟩

/-- The table after the reset, with the basic fields filled in, is empty. -/
theorem memoryReadBasic_reset (memory : PhysicalMemory) (info : BitVec 32) :
    MemoryHolds (memoryReadBasic memory info memoryResetSummary) [] ∧
      (memoryReadBasic memory info memoryResetSummary).mapTruncated = false ∧
      (memoryReadBasic memory info memoryResetSummary).initialized = false := by
  obtain ⟨-, hCount, hTruncated, hInit⟩ := memoryReadBasic_table memory info memoryResetSummary
  refine ⟨⟨?_, by decide, fun i hi => absurd hi (Nat.not_lt_zero i)⟩, hTruncated, hInit⟩
  rw [hCount]
  rfl

/-- The end of a map that does not wrap is the sum of its start and its
length. -/
theorem mmapEnd_toNat
    (hNoWrap : (MultibootInfo.mmapLength memory info).toNat ≤
      2 ^ 32 - 1 - (MultibootInfo.mmapAddr memory info).toNat) :
    (MultibootInfo.mmapAddr memory info + MultibootInfo.mmapLength memory info).toNat =
      (MultibootInfo.mmapAddr memory info).toNat + (MultibootInfo.mmapLength memory info).toNat := by
  have hAddress := (MultibootInfo.mmapAddr memory info).isLt
  rw [BitVec.toNat_add]
  omega

/-- The check on the header of the map bounds its length by the space above
its start. -/
theorem uint32Max_sub_lt_iff (addr length : BitVec 32) :
    ¬uint32Max - addr < length ↔ length.toNat ≤ 2 ^ 32 - 1 - addr.toNat := by
  have hMax : uint32Max.toNat = 2 ^ 32 - 1 := rfl
  have hAddress := addr.isLt
  rw [BitVec.lt_def, BitVec.toNat_sub, hMax]
  omega

/-- A map in the grammar is read completely. -/
theorem memoryReadMultibootMap_complete {entries : List MapEntry} (hInfo : info ≠ 0#32)
    (h : MapGrammar memory info entries) (hEmpty : MemoryHolds m []) (hRoom : m.mapTruncated = false) :
    memoryReadMultibootMap memory info m = (.ok, entries.foldl memoryAddEntry m) ∧
      MemoryHolds (entries.foldl memoryAddEntry m) (MapEntry.regions entries) := by
  have hFits : ([] : List MemoryRegion).length + (MapEntry.regions entries).length ≤ 32 := by
    have hMax := h.max_regions
    rw [List.length_nil]
    omega
  obtain ⟨hHolds, hKept⟩ := (memoryAddEntries_spec entries hEmpty).1 hFits
  rw [List.nil_append] at hHolds
  have hTiles := h.tiles
  rw [← mmapEnd_toNat h.noWrap] at hTiles
  have hLoop := memoryReadEntries_complete hTiles rfl h.bounded (hKept.trans hRoom)
  have hSome : ¬(entries.foldl memoryAddEntry m).regionCount = 0#32 := by
    rw [← BitVec.toNat_inj, hHolds.count, BitVec.toNat_ofNat]
    have hMin := h.some_region
    omega
  refine ⟨?_, hHolds⟩
  simp only [memoryReadMultibootMap, hInfo, h.address, h.nonempty, or_self, if_false,
    if_neg ((uint32Max_sub_lt_iff _ _).mpr h.noWrap), hLoop, if_neg hSome]

/-- Past the pointer checks the only failure is `MALFORMED_DATA`, and success
means that the map is in the grammar. -/
theorem memoryReadMultibootMap_sound (hInfo : info ≠ 0#32)
    (hFlag : MultibootInfo.hasMemoryMap memory info = true)
    (hAddress : MultibootInfo.mmapAddr memory info ≠ 0#32)
    (hLength : MultibootInfo.mmapLength memory info ≠ 0#32)
    (hEmpty : MemoryHolds m []) (hRoom : m.mapTruncated = false) :
    ((memoryReadMultibootMap memory info m).1 = .malformedData ∧
      (memoryReadMultibootMap memory info m).2.initialized = m.initialized) ∨
    ((memoryReadMultibootMap memory info m).1 = .ok ∧ ∃ entries, MapGrammar memory info entries) := by
  simp only [memoryReadMultibootMap, hInfo, hAddress, hLength, or_self, if_false]
  by_cases hWrap : uint32Max - MultibootInfo.mmapAddr memory info < MultibootInfo.mmapLength memory info
  · rw [if_pos hWrap]
    exact Or.inl ⟨rfl, rfl⟩
  rw [if_neg hWrap]
  have hNoWrap := (uint32Max_sub_lt_iff _ _).mp hWrap
  obtain ⟨hStatus, hInit⟩ := memoryReadEntries_status memory
    (MultibootInfo.mmapAddr memory info + MultibootInfo.mmapLength memory info)
    (MultibootInfo.mmapAddr memory info) m
  rcases hRead : memoryReadEntries memory
    (MultibootInfo.mmapAddr memory info + MultibootInfo.mmapLength memory info)
    (MultibootInfo.mmapAddr memory info) m with ⟨status, t⟩
  rw [hRead] at hStatus hInit
  rcases hStatus with rfl | rfl
  · have hBefore : MultibootInfo.mmapAddr memory info ≤
        MultibootInfo.mmapAddr memory info + MultibootInfo.mmapLength memory info := by
      rw [BitVec.le_def, mmapEnd_toNat hNoWrap]
      omega
    obtain ⟨entries, hTiles, hBounded, rfl, hKept⟩ := memoryReadEntries_sound hRoom hBefore hRead
    rw [mmapEnd_toNat hNoWrap] at hTiles
    obtain ⟨hFits, hMany⟩ := memoryAddEntries_spec entries hEmpty
    rw [List.length_nil, Nat.zero_add] at hFits hMany
    have hMax : (MapEntry.regions entries).length ≤ 32 := by
      refine Nat.le_of_not_lt fun hOver => ?_
      rw [hMany hOver] at hKept
      exact Bool.noConfusion hKept
    have hHolds := (hFits hMax).1
    rw [List.nil_append] at hHolds
    dsimp only
    by_cases hNone : (entries.foldl memoryAddEntry m).regionCount = 0#32
    · rw [if_pos hNone]
      exact Or.inl ⟨rfl, hInit⟩
    · rw [if_neg hNone]
      refine Or.inr ⟨rfl, entries, hFlag, hAddress, hLength, hNoWrap, hTiles, hBounded, ?_, hMax⟩
      rw [← BitVec.toNat_inj, hHolds.count, BitVec.toNat_ofNat] at hNone
      omega
  · exact Or.inl ⟨rfl, hInit⟩

/-- The flag, the address and the length that `memory_initialize` asks for
before it looks at the map. -/
def MapPresent (memory : PhysicalMemory) (info : BitVec 32) : Prop :=
  MultibootInfo.hasMemoryMap memory info = true ∧ MultibootInfo.mmapAddr memory info ≠ 0#32 ∧
    MultibootInfo.mmapLength memory info ≠ 0#32

/-- Without a map the initializer reports so, and only the basic totals are
known. -/
theorem memoryInitialize_absent (hInfo : info ≠ 0#32) (h : ¬MapPresent memory info)
    (previous : MemoryState) :
    memoryInitialize memory info previous =
      (.unavailable, memoryReadBasic memory info memoryResetSummary) := by
  have hMissing : MultibootInfo.hasMemoryMap memory info = false ∨
      MultibootInfo.mmapAddr memory info = 0#32 ∨ MultibootInfo.mmapLength memory info = 0#32 := by
    rw [MapPresent, not_and_or, not_and_or, not_not, not_not, Bool.not_eq_true] at h
    exact h
  simp only [memoryInitialize, if_neg hInfo, if_pos hMissing]

/-- With a map the result is that of the parsing loop, on top of the basic
totals. -/
theorem memoryInitialize_present (hInfo : info ≠ 0#32) (h : MapPresent memory info)
    (previous : MemoryState) :
    memoryInitialize memory info previous =
      let read := memoryReadMultibootMap memory info (memoryReadBasic memory info memoryResetSummary)
      if read.1.isOk then (.ok, { read.2 with mapAvailable := true, initialized := true })
      else read := by
  obtain ⟨hFlag, hAddress, hLength⟩ := h
  have hNotMissing : ¬(MultibootInfo.hasMemoryMap memory info = false ∨
      MultibootInfo.mmapAddr memory info = 0#32 ∨ MultibootInfo.mmapLength memory info = 0#32) := by
    simp [hFlag, hAddress, hLength]
  simp only [memoryInitialize, if_neg hInfo, if_neg hNotMissing]

/-- A buffer that satisfies the grammar belongs to a header that announces a
map. -/
theorem MapGrammar.present {entries : List MapEntry} (h : MapGrammar memory info entries) :
    MapPresent memory info :=
  ⟨h.flag, h.address, h.nonempty⟩

/-- A map in the grammar is accepted and its regions are stored in order. -/
theorem memoryInitialize_of_grammar {entries : List MapEntry} (hInfo : info ≠ 0#32)
    (h : MapGrammar memory info entries) (previous : MemoryState) :
    (memoryInitialize memory info previous).1 = .ok ∧
      (memoryInitialize memory info previous).2.initialized = true ∧
      (memoryInitialize memory info previous).2.mapTruncated = false ∧
      MemoryHolds (memoryInitialize memory info previous).2 (MapEntry.regions entries) := by
  obtain ⟨hEmpty, hRoom, -⟩ := memoryReadBasic_reset memory info
  obtain ⟨hRead, hHolds⟩ := memoryReadMultibootMap_complete hInfo h hEmpty hRoom
  have hKept := ((memoryAddEntries_spec entries hEmpty).1 (by
    have hMax := h.max_regions
    rw [List.length_nil]
    omega)).2
  rw [memoryInitialize_present hInfo h.present, hRead]
  exact ⟨rfl, rfl, hKept.trans hRoom, hHolds.count, hHolds.capacity, hHolds.stored⟩

/-- A map outside the grammar is refused and leaves the module unready. -/
theorem memoryInitialize_of_not_grammar (hInfo : info ≠ 0#32) (hPresent : MapPresent memory info)
    (h : ¬∃ entries, MapGrammar memory info entries) (previous : MemoryState) :
    (memoryInitialize memory info previous).1 = .malformedData ∧
      (memoryInitialize memory info previous).2.initialized = false := by
  obtain ⟨hEmpty, hRoom, hInit⟩ := memoryReadBasic_reset memory info
  rw [memoryInitialize_present hInfo hPresent]
  obtain ⟨hFlag, hAddress, hLength⟩ := hPresent
  rcases memoryReadMultibootMap_sound hInfo hFlag hAddress hLength hEmpty hRoom with
    ⟨hStatus, hKept⟩ | ⟨-, hGrammar⟩
  · have hNotOk : ¬(memoryReadMultibootMap memory info
        (memoryReadBasic memory info memoryResetSummary)).1.isOk = true := by
      rw [hStatus]
      decide
    rw [if_neg hNotOk]
    exact ⟨hStatus, hKept.trans hInit⟩
  · exact absurd hGrammar h

/-- What a table that holds a list shows through its getters. -/
theorem MemoryHolds.getters {regions : List MemoryRegion} (h : MemoryHolds m regions) :
    (memoryGetRegionCount m).toNat = regions.length ∧
      ∀ i : BitVec 32, memoryGetRegion m i = regions[i.toNat]? := by
  refine ⟨h.count, fun i => ?_⟩
  rw [memoryGetRegion]
  split_ifs with hOutside
  · rw [BitVec.le_def, h.count] at hOutside
    exact (List.getElem?_eq_none hOutside).symm
  · rw [BitVec.le_def, h.count] at hOutside
    exact h.stored i.toNat (Nat.lt_of_not_le hOutside)

/-- `memory_initialize` accepts exactly the grammar. On acceptance the getters
return the regions of the map in buffer order; a missing map is
`UNAVAILABLE`, anything else `MALFORMED_DATA`. -/
theorem memoryInitialize_iff_grammar (memory : PhysicalMemory) (info : BitVec 32)
    (previous : MemoryState) (hInfo : info ≠ 0#32) :
    let result := memoryInitialize memory info previous
    (result.1 = .ok ↔ ∃ entries, MapGrammar memory info entries) ∧
    (∀ entries, MapGrammar memory info entries →
      (memoryGetRegionCount result.2).toNat = (MapEntry.regions entries).length ∧
      ∀ i : BitVec 32, memoryGetRegion result.2 i = (MapEntry.regions entries)[i.toNat]?) ∧
    (result.1 = .unavailable ↔ ¬MapPresent memory info) ∧
    (result.1 = .malformedData ↔
      MapPresent memory info ∧ ¬∃ entries, MapGrammar memory info entries) ∧
    (memoryIsInitialized result.2 = true ↔ result.1 = .ok) := by
  intro result
  by_cases hAbsent : ¬MapPresent memory info
  · have hResult : result = (.unavailable, memoryReadBasic memory info memoryResetSummary) :=
      memoryInitialize_absent hInfo hAbsent previous
    have hInit : memoryIsInitialized (memoryReadBasic memory info memoryResetSummary) = false :=
      (memoryReadBasic_reset memory info).2.2
    have hNone : ∀ entries, ¬MapGrammar memory info entries := fun _ h => hAbsent h.present
    rw [hResult]
    simp [hAbsent, hInit, hNone]
  have hPresent := not_not.mp hAbsent
  by_cases hGrammar : ∃ entries, MapGrammar memory info entries
  · obtain ⟨hOk, hInit⟩ : result.1 = .ok ∧ result.2.initialized = true := by
      obtain ⟨entries, h⟩ := hGrammar
      obtain ⟨hOk, hInit, -⟩ := memoryInitialize_of_grammar hInfo h previous
      exact ⟨hOk, hInit⟩
    refine ⟨iff_of_true hOk hGrammar, fun entries h => ?_, ?_, ?_, iff_of_true hInit hOk⟩
    · exact (memoryInitialize_of_grammar hInfo h previous).2.2.2.getters
    · simp [hOk, hPresent]
    · simp [hOk, hGrammar]
  · obtain ⟨hMalformed, hInit⟩ := memoryInitialize_of_not_grammar hInfo hPresent hGrammar previous
    have hReady : ¬memoryIsInitialized result.2 = true := by
      rw [memoryIsInitialized, hInit]
      exact Bool.false_ne_true
    have hNotOk : ¬result.1 = .ok := by
      rw [hMalformed]
      exact KernelStatus.noConfusion
    refine ⟨iff_of_false hNotOk hGrammar, fun entries h => absurd ⟨entries, h⟩ hGrammar, ?_, ?_, ?_⟩
    · simp [result, hMalformed, hPresent]
    · exact iff_of_true hMalformed ⟨hPresent, hGrammar⟩
    · exact iff_of_false hReady hNotOk

/-- A boot record at `0x9000` followed by its map at `0x9034`: 16 MiB from
1 MiB on are usable, and one page in the middle of them is reserved. -/
def overlappingBootMemory : PhysicalMemory := fun address =>
  let header : List (BitVec 8) := [0x40, 0, 0, 0] ++ List.replicate 40 0 ++
    [0x30, 0, 0, 0, 0x34, 0x90, 0, 0]
  let usable : List (BitVec 8) := [20, 0, 0, 0, 0, 0, 0x10, 0, 0, 0, 0, 0,
    0, 0, 0, 1, 0, 0, 0, 0, 1, 0, 0, 0]
  let reserved : List (BitVec 8) := [20, 0, 0, 0, 0, 0, 0x40, 0, 0, 0, 0, 0,
    0, 0x10, 0, 0, 0, 0, 0, 0, 2, 0, 0, 0]
  (header ++ usable ++ reserved).getD (address - 0x9000#32).toNat 0#8

def overlappingBootEntries : List MapEntry :=
  [⟨20#32, 0x100000#64, 0x1000000#64, 1#32⟩, ⟨20#32, 0x400000#64, 0x1000#64, 2#32⟩]

theorem overlappingBootMemory_grammar :
    MapGrammar overlappingBootMemory 0x9000#32 overlappingBootEntries where
  flag := by decide
  address := by decide
  nonempty := by decide
  noWrap := by decide
  tiles := .cons (by decide) (by decide) (by decide)
    (.cons (by decide) (by decide) (by decide) .nil)
  bounded := by decide
  some_region := by decide
  max_regions := by decide

/-- The getters return the two regions with the addresses, the lengths and
the types that the buffer's bytes spell out, and nothing behind them. -/
theorem memoryInitialize_iff_grammar_overlapping :
    let result := memoryInitialize overlappingBootMemory 0x9000#32 memoryResetSummary
    result.1 = .ok ∧ (memoryGetRegionCount result.2).toNat = 2 ∧
      memoryGetRegion result.2 0#32 =
        some { baseAddress := 0x100000#64, length := 0x1000000#64, type := .usable } ∧
      memoryGetRegion result.2 1#32 =
        some { baseAddress := 0x400000#64, length := 0x1000#64, type := .reserved } ∧
      memoryGetRegion result.2 2#32 = none := by
  obtain ⟨hOk, hRegions, -⟩ := memoryInitialize_iff_grammar overlappingBootMemory 0x9000#32
    memoryResetSummary (by decide)
  obtain ⟨hCount, hGet⟩ := hRegions _ overlappingBootMemory_grammar
  refine ⟨hOk.mpr ⟨_, overlappingBootMemory_grammar⟩, ?_, ?_, ?_, ?_⟩
  · rw [hCount]
    rfl
  · rw [hGet]
    rfl
  · rw [hGet]
    rfl
  · rw [hGet]
    rfl

end Initialize
end WigOSX
