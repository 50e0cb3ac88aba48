import WigOSX.Core.MemoryGrammar

/-! The byte totals of the memory map. The parser bounds every entry on its
own, and the two accumulators add the lengths modulo `2 ^ 64`. They are exact
for a map without overlaps, but entries may overlap. -/
namespace WigOSX

/-- The regions in `memory_regions[0 .. memory_region_count - 1]`. -/
def memoryStoredRegions (m : MemoryState) : List MemoryRegion :=
  m.regions.toList.take m.regionCount.toNat

/-- The sum of the lengths of the regions of one type. -/
def regionBytes (type : MemoryRegionType) (regions : List MemoryRegion) : Nat :=
  ((regions.filter fun region => region.type = type).map fun region => region.length.toNat).sum

/-- The sum of the lengths that the entries of one type carry in the buffer. -/
def mapBytes (type : MemoryRegionType) (entries : List MapEntry) : Nat :=
  ((entries.filter fun entry => entry.region.type = type).map fun entry => entry.length.toNat).sum

/-- The accumulator of one type. -/
def MemoryState.totalBytes (m : MemoryState) : MemoryRegionType → BitVec 64
  | .usable => memoryGetTotalUsableBytes m
  | .reserved => memoryGetTotalReservedBytes m

variable {memory : PhysicalMemory} {info : BitVec 32} {m : MemoryState}

section Sums

theorem sum_map_filter_cons {α : Type} (select : α → Prop) [DecidablePred select] (size : α → Nat)
    (a : α) (rest : List α) :
    (((a :: rest).filter fun x => select x).map size).sum =
      (if select a then size a else 0) + ((rest.filter fun x => select x).map size).sum := by
  rw [List.filter_cons]
  split_ifs with hFilter hSelect hSelect
  · rw [List.map_cons, List.sum_cons]
  · exact absurd (of_decide_eq_true hFilter) hSelect
  · exact absurd (decide_eq_true hSelect) hFilter
  · rw [Nat.zero_add]

theorem mapBytes_cons (type : MemoryRegionType) (entry : MapEntry) (rest : List MapEntry) :
    mapBytes type (entry :: rest) =
      (if entry.region.type = type then entry.length.toNat else 0) + mapBytes type rest :=
  sum_map_filter_cons _ _ entry rest

theorem regionBytes_cons (type : MemoryRegionType) (region : MemoryRegion)
    (rest : List MemoryRegion) :
    regionBytes type (region :: rest) =
      (if region.type = type then region.length.toNat else 0) + regionBytes type rest :=
  sum_map_filter_cons _ _ region rest

/-- The entries that are not stored add nothing. -/
theorem regionBytes_regions (type : MemoryRegionType) (entries : List MapEntry) :
    regionBytes type (MapEntry.regions entries) = mapBytes type entries := by
  induction entries with
  | nil => rfl
  | cons entry rest ih =>
      rw [mapBytes_cons]
      by_cases hLength : entry.length = 0#64
      · rw [MapEntry.regions_cons_empty hLength, ih, hLength]
        simp
      · rw [MapEntry.regions_cons hLength, regionBytes_cons, ih]
        rfl

end Sums

section Accumulators

theorem memoryStoreRegion_total (m : MemoryState) (region : MemoryRegion)
    (type : MemoryRegionType) : (memoryStoreRegion m region).totalBytes type = m.totalBytes type := by
  rw [memoryStoreRegion]
  split <;> cases type <;> rfl

theorem memoryCountRegion_total (m : MemoryState) (length : BitVec 64)
    (counted type : MemoryRegionType) :
    (memoryCountRegion m length counted).totalBytes type =
      if counted = type then m.totalBytes type + length else m.totalBytes type := by
  cases counted <;> cases type <;> rfl

/-- One entry adds its length to the accumulator of its type. -/
theorem memoryAddEntry_total (m : MemoryState) (entry : MapEntry) (type : MemoryRegionType) :
    (memoryAddEntry m entry).totalBytes type =
      m.totalBytes type + BitVec.ofNat 64 (if entry.region.type = type then entry.length.toNat else 0) := by
  by_cases hLength : entry.length = 0#64
  · rw [memoryAddEntry_skip m hLength, hLength]
    simp
  · rw [memoryAddEntry_eq m hLength, memoryStoreRegion_total, memoryCountRegion_total]
    split_ifs
    · rw [BitVec.ofNat_toNat, BitVec.setWidth_eq]
    · rw [BitVec.add_zero]

theorem memoryAddEntries_total (entries : List MapEntry) (m : MemoryState)
    (type : MemoryRegionType) :
    (entries.foldl memoryAddEntry m).totalBytes type =
      m.totalBytes type + BitVec.ofNat 64 (mapBytes type entries) := by
  induction entries generalizing m with
  | nil => simp [mapBytes]
  | cons entry rest ih =>
      rw [List.foldl_cons, ih, memoryAddEntry_total, mapBytes_cons, BitVec.ofNat_add,
        BitVec.add_assoc]

/-- The table holds the list that its first slots show. -/
theorem MemoryHolds.stored_eq {regions : List MemoryRegion} (h : MemoryHolds m regions) :
    memoryStoredRegions m = regions := by
  apply List.ext_getElem?
  intro i
  rw [memoryStoredRegions, h.count, List.getElem?_take]
  split_ifs with hi
  · rw [← h.stored i hi, Vector.getElem?_toList]
  · exact (List.getElem?_eq_none (Nat.le_of_not_lt hi)).symm

/-- The accumulators of an accepted map. -/
theorem memoryInitialize_total {entries : List MapEntry} (hInfo : info ≠ 0#32)
    (h : MapGrammar memory info entries) (previous : MemoryState) (type : MemoryRegionType) :
    ((memoryInitialize memory info previous).2.totalBytes type).toNat =
      mapBytes type entries % 2 ^ 64 := by
  obtain ⟨hEmpty, hRoom, -⟩ := memoryReadBasic_reset memory info
  obtain ⟨hRead, -⟩ := memoryReadMultibootMap_complete hInfo h hEmpty hRoom
  have hZero : (memoryReadBasic memory info memoryResetSummary).totalBytes type = 0#64 := by
    unfold memoryReadBasic
    split_ifs <;> cases type <;> rfl
  have hState : (memoryInitialize memory info previous).2.totalBytes type =
      (entries.foldl memoryAddEntry (memoryReadBasic memory info memoryResetSummary)).totalBytes type := by
    rw [memoryInitialize_present hInfo h.present, hRead]
    cases type <;> rfl
  rw [hState, memoryAddEntries_total, hZero, BitVec.zero_add, BitVec.toNat_ofNat]

end Accumulators

section Disjoint

/-- Ranges below a bound that do not overlap are together no longer than it. -/
theorem sum_lengths_le_of_disjoint (bound : Nat) (ranges : List (Nat × Nat))
    (hInside : ∀ range ∈ ranges, range.1 + range.2 ≤ bound)
    (hApart : ranges.Pairwise fun a b => Disjoint (Finset.Ico a.1 (a.1 + a.2))
      (Finset.Ico b.1 (b.1 + b.2))) :
    (ranges.map Prod.snd).sum ≤ bound := by
  have hUnion : ∃ covered ⊆ Finset.range bound, covered.card = (ranges.map Prod.snd).sum ∧
      ∀ s : Finset Nat, (∀ range ∈ ranges, Disjoint s (Finset.Ico range.1 (range.1 + range.2))) →
        Disjoint s covered := by
    induction ranges with
    | nil => exact ⟨∅, Finset.empty_subset _, rfl, fun s _ => Finset.disjoint_empty_right s⟩
    | cons range rest ih =>
        rw [List.forall_mem_cons] at hInside
        rw [List.pairwise_cons] at hApart
        obtain ⟨covered, hSubset, hCard, hDisjoint⟩ := ih hInside.2 hApart.2
        refine ⟨Finset.Ico range.1 (range.1 + range.2) ∪ covered, ?_, ?_, fun s hs => ?_⟩
        · refine Finset.union_subset (fun i hi => ?_) hSubset
          rw [Finset.mem_Ico] at hi
          rw [Finset.mem_range]
          omega
        · rw [Finset.card_union_of_disjoint (hDisjoint _ hApart.1), Nat.card_Ico, hCard,
            List.map_cons, List.sum_cons]
          omega
        · rw [List.forall_mem_cons] at hs
          exact Finset.disjoint_union_right.mpr ⟨hs.1, hDisjoint s hs.2⟩
  obtain ⟨covered, hSubset, hCard, -⟩ := hUnion
  rw [← hCard]
  exact (Finset.card_le_card hSubset).trans_eq (Finset.card_range bound)

/-- The addresses of an entry. -/
def MapEntry.addresses (entry : MapEntry) : Finset Nat :=
  Finset.Ico entry.baseAddr.toNat (entry.baseAddr.toNat + entry.length.toNat)

/-- A map whose entries of one type do not overlap cannot wrap its total. -/
theorem mapBytes_lt_of_disjoint {entries : List MapEntry} (hBounded : ∀ entry ∈ entries, entry.Bounded)
    (type : MemoryRegionType)
    (hApart : (entries.filter fun entry => entry.region.type = type).Pairwise
      fun a b => Disjoint a.addresses b.addresses) :
    mapBytes type entries < 2 ^ 64 := by
  have hRanges := sum_lengths_le_of_disjoint (2 ^ 64 - 1)
    ((entries.filter fun entry => entry.region.type = type).map fun entry =>
      (entry.baseAddr.toNat, entry.length.toNat))
  rw [List.map_map, List.pairwise_map] at hRanges
  have hLe : mapBytes type entries ≤ 2 ^ 64 - 1 := by
    refine hRanges (fun range hMem => ?_) hApart
    obtain ⟨entry, hEntry, rfl⟩ := List.mem_map.mp hMem
    have hEnd := hBounded entry (List.mem_of_mem_filter hEntry)
    have hBase := entry.baseAddr.isLt
    by_cases hLength : entry.length = 0#64
    · rw [hLength, BitVec.toNat_ofNat]
      dsimp only
      omega
    · exact hEnd hLength
  omega

end Disjoint

theorem memoryInitialize_info_ne_zero {memory : PhysicalMemory} {info : BitVec 32}
    {previous : MemoryState} (hOk : (memoryInitialize memory info previous).1 = .ok) : info ≠ 0#32 := by
  rintro rfl
  rw [memoryInitialize, if_pos rfl] at hOk
  exact KernelStatus.noConfusion hOk

/-- The totals of an accepted map are exact exactly when the lengths of the
usable entries in the buffer, and those of the other entries, sum to less
than `2 ^ 64`. -/
theorem memory_totals_exact_iff (memory : PhysicalMemory) (info : BitVec 32) (previous : MemoryState)
    (hOk : (memoryInitialize memory info previous).1 = .ok) :
    let m := (memoryInitialize memory info previous).2
    ((memoryGetTotalUsableBytes m).toNat = regionBytes .usable (memoryStoredRegions m) ∧
      (memoryGetTotalReservedBytes m).toNat = regionBytes .reserved (memoryStoredRegions m)) ↔
    ∃ entries, MapGrammar memory info entries ∧
      mapBytes .usable entries < 2 ^ 64 ∧ mapBytes .reserved entries < 2 ^ 64 := by
  intro m
  have hInfo := memoryInitialize_info_ne_zero hOk
  have hSums : ∀ entries, MapGrammar memory info entries → ∀ type,
      ((m.totalBytes type).toNat = regionBytes type (memoryStoredRegions m) ↔
        mapBytes type entries < 2 ^ 64) := by
    intro entries h type
    rw [(memoryInitialize_of_grammar hInfo h previous).2.2.2.stored_eq, regionBytes_regions,
      memoryInitialize_total hInfo h previous]
    exact ⟨fun hEq => hEq ▸ Nat.mod_lt _ (by decide), Nat.mod_eq_of_lt⟩
  constructor
  · rintro ⟨hUsable, hReserved⟩
    obtain ⟨entries, h⟩ := (memoryInitialize_iff_grammar memory info previous hInfo).1.mp hOk
    exact ⟨entries, h, (hSums entries h .usable).mp hUsable, (hSums entries h .reserved).mp hReserved⟩
  · rintro ⟨entries, h, hUsable, hReserved⟩
    exact ⟨(hSums entries h .usable).mpr hUsable, (hSums entries h .reserved).mpr hReserved⟩

/-- The two regions of `overlappingBootMemory` are of different types. -/
theorem memory_totals_exact_iff_overlapping :
    let m := (memoryInitialize overlappingBootMemory 0x9000#32 memoryResetSummary).2
    (memoryGetTotalUsableBytes m).toNat = regionBytes .usable (memoryStoredRegions m) := by
  intro m
  have hOk := (memoryInitialize_of_grammar (by decide) overlappingBootMemory_grammar
    memoryResetSummary).1
  have hBound := mapBytes_lt_of_disjoint overlappingBootMemory_grammar.bounded
  have hUsable := hBound .usable (List.pairwise_singleton _ _)
  have hReserved := hBound .reserved (List.pairwise_singleton _ _)
  exact ((memory_totals_exact_iff overlappingBootMemory 0x9000#32 memoryResetSummary hOk).mpr
    ⟨_, overlappingBootMemory_grammar, hUsable, hReserved⟩).1

/-- A boot record at `0x9000` whose map lists `[0, 2 ^ 63)` twice as usable. -/
def wrappingBootMemory : PhysicalMemory := fun address =>
  let header : List (BitVec 8) := [0x40, 0, 0, 0] ++ List.replicate 40 0 ++
    [0x30, 0, 0, 0, 0x34, 0x90, 0, 0]
  let half : List (BitVec 8) := [20, 0, 0, 0, 0, 0, 0, 0, 0, 0, 0, 0,
    0, 0, 0, 0, 0, 0, 0, 0x80, 1, 0, 0, 0]
  (header ++ half ++ half).getD (address - 0x9000#32).toNat 0#8

def wrappingBootEntries : List MapEntry :=
  [⟨20#32, 0#64, 0x8000000000000000#64, 1#32⟩, ⟨20#32, 0#64, 0x8000000000000000#64, 1#32⟩]

theorem wrappingBootMemory_grammar :
    MapGrammar wrappingBootMemory 0x9000#32 wrappingBootEntries where
  flag := by decide
  address := by decide
  nonempty := by decide
  noWrap := by decide
  tiles := .cons (by decide) (by decide) (by decide)
    (.cons (by decide) (by decide) (by decide) .nil)
  bounded := by decide
  some_region := by decide
  max_regions := by decide

/-- The map is accepted, and its usable total is zero. -/
theorem memory_totals_wrap :
    (memoryInitialize wrappingBootMemory 0x9000#32 memoryResetSummary).1 = .ok ∧
      ¬(memoryGetTotalUsableBytes
          (memoryInitialize wrappingBootMemory 0x9000#32 memoryResetSummary).2).toNat =
        regionBytes .usable (memoryStoredRegions
          (memoryInitialize wrappingBootMemory 0x9000#32 memoryResetSummary).2) := by
  have hGrammar := wrappingBootMemory_grammar
  have hTotal := memoryInitialize_total (by decide) hGrammar memoryResetSummary .usable
  obtain ⟨hOk, -, -, hHolds⟩ := memoryInitialize_of_grammar (by decide) hGrammar memoryResetSummary
  have hSum : mapBytes .usable wrappingBootEntries = 2 ^ 64 := by decide
  rw [hSum] at hTotal
  rw [hHolds.stored_eq, regionBytes_regions, hSum]
  refine ⟨hOk, fun hEq => ?_⟩
  have hZero := hTotal.symm.trans hEq
  omega

end WigOSX
