import WigOSX.Library.CountedLoop
import WigOSX.Machine.MemoryStores

/-! The static page tables. The kernel fills one page directory and four page
tables with two nested loops; the processor translates an address by walking
them. The tables translate exactly the low 16 MiB, each address to itself. -/
namespace WigOSX
open CountedLoop

/-- `I386_PAGE_DIRECTORY_ENTRY_COUNT`. -/
def i386PageDirectoryEntryCount : BitVec 32 := 1024#32

/-- `I386_PAGE_TABLE_ENTRY_COUNT`. -/
def i386PageTableEntryCount : BitVec 32 := 1024#32

/-- `I386_PAGING_PAGE_SIZE`. -/
def i386PagingPageSize : BitVec 32 := 4096#32

/-- `I386_PAGING_IDENTITY_MAPPED_BYTES`. -/
def i386PagingIdentityMappedBytes : BitVec 32 := 16#32 * 1024#32 * 1024#32

/-- `I386_PAGE_TABLE_COUNT`. -/
def i386PageTableCount : BitVec 32 :=
  i386PagingIdentityMappedBytes / (i386PagingPageSize * i386PageTableEntryCount)

def i386PagePresent : BitVec 32 := 0x001#32
def i386PageWritable : BitVec 32 := 0x002#32

/-- `I386_PAGE_FLAGS`. -/
def i386PageFlags : BitVec 32 := i386PagePresent ||| i386PageWritable

/-- `I386_CR0_PAGING_ENABLE`. -/
def i386Cr0PagingEnable : BitVec 32 := 0x80000000#32

/-- Where the linker puts `paging_directory` and `paging_tables`: on page
boundaries as declared, inside the address space, sharing no byte. -/
structure PagingImage where
  pagingDirectory : BitVec 32
  pagingTables : BitVec 32
  directory_aligned : pagingDirectory.toNat % 4096 = 0
  tables_aligned : pagingTables.toNat % 4096 = 0
  tables_fit : pagingTables.toNat + 16384 ≤ 2 ^ 32
  disjoint : pagingDirectory.toNat + 4096 ≤ pagingTables.toNat ∨
    pagingTables.toNat + 16384 ≤ pagingDirectory.toNat

namespace PagingImage

variable (image : PagingImage)

/-- `&paging_directory[i]`. -/
def directoryEntry (i : Nat) : BitVec 32 := image.pagingDirectory + 4#32 * BitVec.ofNat 32 i

/-- `paging_tables[table]` as a pointer. -/
def tableAddress (table : Nat) : BitVec 32 := image.pagingTables + 4096#32 * BitVec.ofNat 32 table

/-- `&paging_tables[table][page]`. -/
def tableEntry (table page : Nat) : BitVec 32 :=
  image.tableAddress table + 4#32 * BitVec.ofNat 32 page

end PagingImage

section Build

/-- The inner loop of `i386_paging_clear_tables`, for one table. -/
def i386PagingClearTable (image : PagingImage) (memory : PhysicalMemory) (table : Nat) :
    PhysicalMemory :=
  rounds (fun memory page => memory.writeUint32 (image.tableEntry table page) 0#32)
    i386PageTableEntryCount.toNat memory

/-- `i386_paging_clear_tables`. -/
def i386PagingClearTables (image : PagingImage) (memory : PhysicalMemory) : PhysicalMemory :=
  let cleared := rounds (fun memory i => memory.writeUint32 (image.directoryEntry i) 0#32)
    i386PageDirectoryEntryCount.toNat memory
  rounds (i386PagingClearTable image) i386PageTableCount.toNat cleared

/-- The entry that the inner loop stores for one page. -/
def i386IdentityEntry (table page : Nat) : BitVec 32 :=
  let pageIndex := BitVec.ofNat 32 table * i386PageTableEntryCount + BitVec.ofNat 32 page
  let physicalAddress := pageIndex * i386PagingPageSize
  physicalAddress ||| i386PageFlags

/-- The inner loop of `i386_paging_build_identity_map`, for one table. -/
def i386PagingFillTable (image : PagingImage) (memory : PhysicalMemory) (table : Nat) :
    PhysicalMemory :=
  rounds (fun memory page =>
      memory.writeUint32 (image.tableEntry table page) (i386IdentityEntry table page))
    i386PageTableEntryCount.toNat memory

/-- `i386_paging_build_identity_map`. -/
def i386PagingBuildIdentityMap (image : PagingImage) (memory : PhysicalMemory) : PhysicalMemory :=
  rounds (fun memory table =>
      (i386PagingFillTable image memory table).writeUint32 (image.directoryEntry table)
        (image.tableAddress table ||| i386PageFlags))
    i386PageTableCount.toNat memory

theorem i386PageTableCount_toNat : i386PageTableCount.toNat = 4 := by decide

end Build

section Walk

/-- What the processor finds for a virtual address. -/
inductive I386Translation where
  | directoryNotPresent
  | tableNotPresent
  | mapped (physicalAddress : BitVec 32) (writable : Bool)
  deriving DecidableEq, Repr

/-- The two-level walk from the page directory in `cr3`, with 4 KiB pages. A
page is writable if both of its entries are. -/
def i386Walk (memory : PhysicalMemory) (cr3 v : BitVec 32) : I386Translation :=
  let directoryEntry := memory.readUint32 ((cr3 &&& 0xFFFFF000#32) + 4#32 * (v >>> 22))
  if directoryEntry &&& i386PagePresent = 0#32 then .directoryNotPresent
  else
    let tableEntry := memory.readUint32
      ((directoryEntry &&& 0xFFFFF000#32) + 4#32 * ((v >>> 12) &&& 1023#32))
    if tableEntry &&& i386PagePresent = 0#32 then .tableNotPresent
    else .mapped ((tableEntry &&& 0xFFFFF000#32) + (v &&& 0xFFF#32))
      (directoryEntry &&& tableEntry &&& i386PageWritable != 0#32)

end Walk

section Entries

variable (image : PagingImage)

namespace PagingImage

/-- The entries of the directory are four bytes apart, and their addresses do
not wrap. -/
theorem directoryEntry_toNat {i : Nat} (hi : i < 1024) :
    (image.directoryEntry i).toNat = image.pagingDirectory.toNat + 4 * i := by
  have hAligned := image.directory_aligned
  have hBound := image.pagingDirectory.isLt
  rw [directoryEntry, BitVec.toNat_add, BitVec.toNat_mul, BitVec.toNat_ofNat, BitVec.toNat_ofNat]
  omega

theorem tableAddress_toNat {table : Nat} (hTable : table < 4) :
    (image.tableAddress table).toNat = image.pagingTables.toNat + 4096 * table := by
  have hFit := image.tables_fit
  rw [tableAddress, BitVec.toNat_add, BitVec.toNat_mul, BitVec.toNat_ofNat, BitVec.toNat_ofNat]
  omega

theorem tableEntry_toNat {table page : Nat} (hTable : table < 4) (hPage : page < 1024) :
    (image.tableEntry table page).toNat = image.pagingTables.toNat + 4096 * table + 4 * page := by
  have hFit := image.tables_fit
  rw [tableEntry, BitVec.toNat_add, BitVec.toNat_mul, image.tableAddress_toNat hTable,
    BitVec.toNat_ofNat, BitVec.toNat_ofNat]
  omega

/-- A store to another entry of the directory. -/
theorem directory_apart {i j : Nat} (hi : i < 1024) (hj : j < 1024) (hNe : i ≠ j) :
    PhysicalMemory.Apart (image.directoryEntry i) (image.directoryEntry j) := by
  have hAligned := image.directory_aligned
  have hI := image.directoryEntry_toNat hi
  have hJ := image.directoryEntry_toNat hj
  exact PhysicalMemory.apart_of_ne (by omega) (by omega) (by omega)

/-- Two different entries of the tables share no byte. -/
theorem table_apart {table page other last : Nat} (hTable : table < 4) (hPage : page < 1024)
    (hOther : other < 4) (hLast : last < 1024) (hNe : table ≠ other ∨ page ≠ last) :
    PhysicalMemory.Apart (image.tableEntry table page) (image.tableEntry other last) := by
  have hAligned := image.tables_aligned
  have hI := image.tableEntry_toNat hTable hPage
  have hJ := image.tableEntry_toNat hOther hLast
  exact PhysicalMemory.apart_of_ne (by omega) (by omega) (by omega)

/-- No entry of the directory shares a byte with an entry of a table. -/
theorem directory_table_apart {i table page : Nat} (hi : i < 1024) (hTable : table < 4)
    (hPage : page < 1024) :
    PhysicalMemory.Apart (image.directoryEntry i) (image.tableEntry table page) := by
  have hAligned := image.directory_aligned
  have hAligned' := image.tables_aligned
  have hI := image.directoryEntry_toNat hi
  have hJ := image.tableEntry_toNat hTable hPage
  rcases image.disjoint with hBefore | hBehind
  · exact PhysicalMemory.apart_of_ne (by omega) (by omega) (by omega)
  · exact PhysicalMemory.apart_of_ne (by omega) (by omega) (by omega)

end PagingImage

variable (memory : PhysicalMemory)

/-- Clearing one table stays away from the directory. -/
theorem i386PagingClearTable_directory {i table : Nat} (hi : i < 1024) (hTable : table < 4) :
    (i386PagingClearTable image memory table).readUint32 (image.directoryEntry i) =
      memory.readUint32 (image.directoryEntry i) := by
  apply PhysicalMemory.read_rounds_same
  intro page hPage memory
  exact PhysicalMemory.readUint32_writeUint32_of_apart (image.directory_table_apart hi hTable hPage)

/-- Filling a table leaves the directory as it was. -/
theorem i386PagingFillTable_directory {i table : Nat} (hi : i < 1024) (hTable : table < 4) :
    (i386PagingFillTable image memory table).readUint32 (image.directoryEntry i) =
      memory.readUint32 (image.directoryEntry i) := by
  apply PhysicalMemory.read_rounds_same
  intro page hPage memory
  exact PhysicalMemory.readUint32_writeUint32_of_apart (image.directory_table_apart hi hTable hPage)

/-- Filling one table stores its own entries and leaves the other tables. -/
theorem i386PagingFillTable_table {table other page : Nat} (hTable : table < 4) (hOther : other < 4)
    (hPage : page < 1024) :
    (i386PagingFillTable image memory table).readUint32 (image.tableEntry other page) =
      if other = table then i386IdentityEntry table page
      else memory.readUint32 (image.tableEntry other page) := by
  split_ifs with hSame
  · subst hSame
    refine PhysicalMemory.read_rounds_set hPage (fun memory => ?_) (fun last hFrom hLast memory => ?_) memory
    · exact PhysicalMemory.readUint32_writeUint32 memory _ _
    · exact PhysicalMemory.readUint32_writeUint32_of_apart
        (image.table_apart hTable hPage hTable hLast (Or.inr (by omega)))
  · apply PhysicalMemory.read_rounds_same
    intro last hLast memory
    exact PhysicalMemory.readUint32_writeUint32_of_apart
      (image.table_apart hOther hPage hTable hLast (Or.inl hSame))

/-- Clearing zeroes the directory. -/
theorem i386PagingClearTables_directory {i : Nat} (hi : i < 1024) :
    (i386PagingClearTables image memory).readUint32 (image.directoryEntry i) = 0#32 := by
  rw [i386PagingClearTables, i386PageTableCount_toNat]
  rw [PhysicalMemory.read_rounds_same fun table hTable memory =>
    i386PagingClearTable_directory image memory hi hTable]
  refine PhysicalMemory.read_rounds_set hi (fun memory => ?_) (fun j hFrom hj memory => ?_) memory
  · exact PhysicalMemory.readUint32_writeUint32 memory _ _
  · exact PhysicalMemory.readUint32_writeUint32_of_apart (image.directory_apart hi hj (by omega))

/-- Building sets the first four entries of the directory. -/
theorem i386PagingBuildIdentityMap_directory {i : Nat} (hi : i < 1024) :
    (i386PagingBuildIdentityMap image memory).readUint32 (image.directoryEntry i) =
      if i < 4 then image.tableAddress i ||| i386PageFlags
      else memory.readUint32 (image.directoryEntry i) := by
  have hOther : ∀ table < 4, table ≠ i → ∀ memory : PhysicalMemory,
      ((i386PagingFillTable image memory table).writeUint32 (image.directoryEntry table)
        (image.tableAddress table ||| i386PageFlags)).readUint32 (image.directoryEntry i) =
      memory.readUint32 (image.directoryEntry i) := by
    intro table hTable hNe memory
    rw [PhysicalMemory.readUint32_writeUint32_of_apart
      (image.directory_apart hi (by omega) hNe.symm)]
    exact i386PagingFillTable_directory image memory hi hTable
  rw [i386PagingBuildIdentityMap, i386PageTableCount_toNat]
  split_ifs with hMapped
  · refine PhysicalMemory.read_rounds_set hMapped (fun memory => ?_) (fun table hFrom hTable => ?_) memory
    · exact PhysicalMemory.readUint32_writeUint32 _ _ _
    · exact hOther table hTable (by omega)
  · apply PhysicalMemory.read_rounds_same
    intro table hTable
    exact hOther table hTable (by omega)

/-- The entry of each page is the one its own round stored. -/
theorem i386PagingBuildIdentityMap_table {table page : Nat} (hTable : table < 4)
    (hPage : page < 1024) :
    (i386PagingBuildIdentityMap image memory).readUint32 (image.tableEntry table page) =
      i386IdentityEntry table page := by
  have hRound : ∀ other < 4, ∀ memory : PhysicalMemory,
      ((i386PagingFillTable image memory other).writeUint32 (image.directoryEntry other)
        (image.tableAddress other ||| i386PageFlags)).readUint32 (image.tableEntry table page) =
      if table = other then i386IdentityEntry other page
      else memory.readUint32 (image.tableEntry table page) := by
    intro other hOther memory
    rw [PhysicalMemory.readUint32_writeUint32_of_apart
      (image.directory_table_apart (by omega) hTable hPage).symm]
    exact i386PagingFillTable_table image memory hOther hTable hPage
  rw [i386PagingBuildIdentityMap, i386PageTableCount_toNat]
  refine PhysicalMemory.read_rounds_set hTable (fun memory => ?_) (fun other hFrom hOther memory => ?_) memory
  · rw [hRound table hTable, if_pos rfl]
  · rw [hRound other hOther, if_neg (by omega)]

end Entries

section Flags

/-- The flags of an entry lie below a page-aligned address. -/
theorem aligned_bit {x : BitVec 32} (h : x.toNat % 4096 = 0) {k : Nat} (hk : k < 12) :
    x.getLsbD k = false := by
  have hBit := Nat.testBit_mod_two_pow x.toNat 12 k
  rw [show 2 ^ 12 = 4096 by rfl, h, Nat.zero_testBit, decide_eq_true hk, Bool.true_and] at hBit
  exact hBit.symm

theorem pageMask_bit : ∀ k < 32, (0xFFFFF000#32).getLsbD k = decide (12 ≤ k) := by decide

theorem i386PageFlags_bit : ∀ k < 32, 12 ≤ k → i386PageFlags.getLsbD k = false := by decide

/-- The mask of the processor keeps an address that starts a page. -/
theorem aligned_and_mask {x : BitVec 32} (h : x.toNat % 4096 = 0) : x &&& 0xFFFFF000#32 = x := by
  apply BitVec.eq_of_getLsbD_eq
  intro k hk
  rw [BitVec.getLsbD_and, pageMask_bit k hk]
  by_cases hLow : k < 12
  · rw [aligned_bit h hLow, Bool.false_and]
  · rw [decide_eq_true (Nat.not_lt.mp hLow), Bool.and_true]

/-- An entry's flags go away under the mask, so the address of its page comes
back. -/
theorem entry_and_mask {x : BitVec 32} (h : x.toNat % 4096 = 0) :
    (x ||| i386PageFlags) &&& 0xFFFFF000#32 = x := by
  apply BitVec.eq_of_getLsbD_eq
  intro k hk
  rw [BitVec.getLsbD_and, BitVec.getLsbD_or, pageMask_bit k hk]
  by_cases hLow : k < 12
  · rw [aligned_bit h hLow, decide_eq_false (Nat.not_le.mpr hLow), Bool.and_false]
  · rw [i386PageFlags_bit k hk (Nat.not_lt.mp hLow), decide_eq_true (Nat.not_lt.mp hLow),
      Bool.or_false, Bool.and_true]

theorem entry_present (x : BitVec 32) : (x ||| i386PageFlags) &&& i386PagePresent ≠ 0#32 := by
  intro h
  have hBit := congrArg (fun entry => entry.getLsbD 0) h
  have hFlags : i386PageFlags.getLsbD 0 = true := by decide
  have hPresent : i386PagePresent.getLsbD 0 = true := by decide
  rw [BitVec.getLsbD_and, BitVec.getLsbD_or, hFlags, hPresent, Bool.or_true] at hBit
  exact Bool.noConfusion hBit

/-- Two such entries on the way to a page make that page writable. -/
theorem entries_writable (x y : BitVec 32) :
    ((x ||| i386PageFlags) &&& (y ||| i386PageFlags) &&& i386PageWritable != 0#32) = true := by
  rw [bne_iff_ne]
  intro h
  have hBit := congrArg (fun entry => entry.getLsbD 1) h
  have hFlags : i386PageFlags.getLsbD 1 = true := by decide
  have hWritable : i386PageWritable.getLsbD 1 = true := by decide
  rw [BitVec.getLsbD_and, BitVec.getLsbD_and, BitVec.getLsbD_or, BitVec.getLsbD_or, hFlags,
    hWritable, Bool.or_true, Bool.or_true] at hBit
  exact Bool.noConfusion hBit

end Flags

section Translation

variable (image : PagingImage)

/-- The top ten bits of an address select the entry of its four MiB in the
directory. -/
theorem walk_directoryIndex (v : BitVec 32) : v.toNat / 2 ^ 22 < 1024 ∧
    (image.pagingDirectory &&& 0xFFFFF000#32) + 4#32 * (v >>> 22) =
      image.directoryEntry (v.toNat / 2 ^ 22) := by
  have hShift : v >>> 22 = BitVec.ofNat 32 (v.toNat / 2 ^ 22) := by
    apply BitVec.eq_of_toNat_eq
    rw [BitVec.toNat_ushiftRight, Nat.shiftRight_eq_div_pow, BitVec.toNat_ofNat]
    omega
  rw [aligned_and_mask image.directory_aligned, hShift]
  exact ⟨by omega, rfl⟩

/-- The next ten bits select the page inside its table. -/
theorem walk_tableIndex (v : BitVec 32) :
    (v >>> 12) &&& 1023#32 = BitVec.ofNat 32 (v.toNat / 4096 % 1024) := by
  apply BitVec.eq_of_toNat_eq
  rw [BitVec.toNat_and, BitVec.toNat_ushiftRight, Nat.shiftRight_eq_div_pow, BitVec.toNat_ofNat,
    BitVec.toNat_ofNat, show 1023 % 2 ^ 32 = 2 ^ 10 - 1 by rfl, Nat.and_two_pow_sub_one_eq_mod]
  omega

/-- The page frame of an identity entry. -/
theorem i386IdentityEntry_eq {table page : Nat} (hTable : table < 4) (hPage : page < 1024) :
    ∃ frame : BitVec 32, i386IdentityEntry table page = frame ||| i386PageFlags ∧
      frame.toNat = 4096 * (1024 * table + page) := by
  have hCount : i386PageTableEntryCount.toNat = 1024 := rfl
  have hSize : i386PagingPageSize.toNat = 4096 := rfl
  refine ⟨_, rfl, ?_⟩
  rw [BitVec.toNat_mul, BitVec.toNat_add, BitVec.toNat_mul, hCount, hSize, BitVec.toNat_ofNat,
    BitVec.toNat_ofNat]
  omega

variable (memory : PhysicalMemory) {v : BitVec 32}

/-- Below 16 MiB both entries on the way are present and writable. -/
theorem i386Walk_low (hLow : v.toNat < 2 ^ 24) :
    i386Walk (i386PagingBuildIdentityMap image (i386PagingClearTables image memory))
      image.pagingDirectory v = .mapped v true := by
  obtain ⟨hIndex, hEntry⟩ := walk_directoryIndex image v
  have hTable : v.toNat / 2 ^ 22 < 4 := by omega
  have hPage : v.toNat / 4096 % 1024 < 1024 := Nat.mod_lt _ (by decide)
  obtain ⟨frame, hIdentity, hFrame⟩ := i386IdentityEntry_eq hTable hPage
  have hTableAligned : (image.tableAddress (v.toNat / 2 ^ 22)).toNat % 4096 = 0 := by
    have hAligned := image.tables_aligned
    rw [image.tableAddress_toNat hTable]
    omega
  have hDirectory := i386PagingBuildIdentityMap_directory image (i386PagingClearTables image memory) hIndex
  have hStored := i386PagingBuildIdentityMap_table image (i386PagingClearTables image memory) hTable hPage
  rw [if_pos hTable] at hDirectory
  rw [PagingImage.tableEntry] at hStored
  have hSame : frame + (v &&& 0xFFF#32) = v := by
    apply BitVec.eq_of_toNat_eq
    rw [BitVec.toNat_add, BitVec.toNat_and, BitVec.toNat_ofNat,
      show 0xFFF % 2 ^ 32 = 2 ^ 12 - 1 by rfl, Nat.and_two_pow_sub_one_eq_mod, hFrame]
    omega
  rw [i386Walk, hEntry, hDirectory]
  dsimp only
  rw [if_neg (entry_present _), entry_and_mask hTableAligned, walk_tableIndex, hStored, hIdentity,
    if_neg (entry_present _), entry_and_mask (by omega), entries_writable, hSame]

/-- The directory entries from 16 MiB on are still clear. -/
theorem i386Walk_high (hHigh : 2 ^ 24 ≤ v.toNat) :
    i386Walk (i386PagingBuildIdentityMap image (i386PagingClearTables image memory))
      image.pagingDirectory v = .directoryNotPresent := by
  obtain ⟨hIndex, hEntry⟩ := walk_directoryIndex image v
  have hDirectory := i386PagingBuildIdentityMap_directory image (i386PagingClearTables image memory) hIndex
  rw [i386PagingClearTables_directory image memory hIndex,
    if_neg (show ¬v.toNat / 2 ^ 22 < 4 by omega)] at hDirectory
  rw [i386Walk, hEntry, hDirectory]
  rfl

theorem lt_identityMappedBytes_iff : v < i386PagingIdentityMappedBytes ↔ v.toNat < 2 ^ 24 :=
  BitVec.lt_def

/-- After the tables are cleared and built over any memory, the walk of a
virtual address ends at the same physical address, writable, below 16 MiB,
and at a directory entry that is not present from there on. -/
theorem i386_paging_translates (image : PagingImage) (memory : PhysicalMemory) (v : BitVec 32) :
    i386Walk (i386PagingBuildIdentityMap image (i386PagingClearTables image memory))
      image.pagingDirectory v =
    if v < i386PagingIdentityMappedBytes then .mapped v true else .directoryNotPresent := by
  split_ifs with hLow
  · exact i386Walk_low image memory (lt_identityMappedBytes_iff.mp hLow)
  · rw [lt_identityMappedBytes_iff, Nat.not_lt] at hLow
    exact i386Walk_high image memory hLow

end Translation

section Initialize

/-- What `paging.c` works on: memory, the two control registers and the
static flag. -/
structure PagingState where
  memory : PhysicalMemory
  cr0 : BitVec 32
  cr3 : BitVec 32
  pagingInitialized : Bool

/-- `i386_paging_is_enabled`. -/
def i386PagingIsEnabled (s : PagingState) : Bool :=
  s.cr0 &&& i386Cr0PagingEnable != 0#32

/-- `i386_paging_initialize_identity`. -/
def i386PagingInitializeIdentity (image : PagingImage) (s : PagingState) : PagingState :=
  let cleared := i386PagingClearTables image s.memory
  let built := i386PagingBuildIdentityMap image cleared
  let enabled := { s with
    memory := built
    cr3 := image.pagingDirectory
    cr0 := s.cr0 ||| i386Cr0PagingEnable }
  { enabled with pagingInitialized := i386PagingIsEnabled enabled }

/-- `i386_paging_get_identity_mapped_bytes`. -/
def i386PagingGetIdentityMappedBytes (s : PagingState) : BitVec 32 :=
  if !s.pagingInitialized then 0#32 else i386PagingIdentityMappedBytes

/-- Once it has been initialized, paging reports that it is enabled. -/
theorem i386PagingInitializeIdentity_enabled (image : PagingImage) (s : PagingState) :
    i386PagingIsEnabled (i386PagingInitializeIdentity image s) = true := by
  rw [i386PagingIsEnabled, bne_iff_ne]
  intro h
  have hBit := congrArg (fun register => register.getLsbD 31) h
  have hEnable : i386Cr0PagingEnable.getLsbD 31 = true := by decide
  rw [i386PagingInitializeIdentity, BitVec.getLsbD_and, BitVec.getLsbD_or, hEnable,
    Bool.or_true] at hBit
  exact Bool.noConfusion hBit

/-- Paging is on after initialization, and the reported size is the size that
the processor translates, each address to itself. -/
theorem i386PagingInitializeIdentity_reports (image : PagingImage) (s : PagingState) (v : BitVec 32) :
    i386Walk (i386PagingInitializeIdentity image s).memory (i386PagingInitializeIdentity image s).cr3 v =
      if v < i386PagingGetIdentityMappedBytes (i386PagingInitializeIdentity image s)
      then .mapped v true else .directoryNotPresent := by
  have hInitialized : (i386PagingInitializeIdentity image s).pagingInitialized = true :=
    i386PagingInitializeIdentity_enabled image s
  rw [i386PagingGetIdentityMappedBytes, hInitialized, Bool.not_true, if_neg Bool.false_ne_true]
  split_ifs with hLow
  · exact i386Walk_low image s.memory (lt_identityMappedBytes_iff.mp hLow)
  · rw [lt_identityMappedBytes_iff, Nat.not_lt] at hLow
    exact i386Walk_high image s.memory hLow

/-- A layout the linker could choose: the directory right behind 2 MiB and
the tables behind it. -/
def examplePagingImage : PagingImage where
  pagingDirectory := 0x200000#32
  pagingTables := 0x201000#32
  directory_aligned := by decide
  tables_aligned := by decide
  tables_fit := by decide
  disjoint := by decide

example : i386Walk (i386PagingInitializeIdentity examplePagingImage
    ⟨fun _ => 0xA5#8, 0x11#32, 0#32, false⟩).memory 0x200000#32 0x1000000#32 =
    .directoryNotPresent :=
  i386PagingInitializeIdentity_reports examplePagingImage ⟨fun _ => 0xA5#8, 0x11#32, 0#32, false⟩ _

end Initialize
end WigOSX
