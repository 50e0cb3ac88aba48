import WigOSX.Machine.PhysicalMemory

/-! The Multiboot structures of `multiboot.h`, read in place. Only the fields
the kernel loads are given an accessor; the offsets and sizes are those of
the complete structures. -/
namespace WigOSX

/-- `MULTIBOOT_INFO_MEMORY`, bit 0. -/
def multibootInfoMemory : BitVec 32 := 1#32 <<< 0

/-- `MULTIBOOT_INFO_MEMORY_MAP`, bit 6. -/
def multibootInfoMemoryMap : BitVec 32 := 1#32 <<< 6

/-- `MULTIBOOT_MEMORY_AVAILABLE`. -/
def multibootMemoryAvailable : BitVec 32 := 1#32

namespace MultibootInfo

/-- `sizeof(multiboot_info_t)`: thirteen 32-bit words. -/
def size : BitVec 64 := 52#64

variable (memory : PhysicalMemory) (info : BitVec 32)

def flags : BitVec 32 := memory.readUint32 info
def memLower : BitVec 32 := memory.readUint32 (info + 4#32)
def memUpper : BitVec 32 := memory.readUint32 (info + 8#32)
def mmapLength : BitVec 32 := memory.readUint32 (info + 44#32)
def mmapAddr : BitVec 32 := memory.readUint32 (info + 48#32)

/-- The test `(info->flags & MULTIBOOT_INFO_MEMORY_MAP) != 0`. -/
def hasMemoryMap : Bool :=
  flags memory info &&& multibootInfoMemoryMap != 0#32

end MultibootInfo

namespace MultibootMemoryMapEntry

/-- `sizeof(multiboot_memory_map_entry_t)`, the size field included. -/
def structSize : BitVec 32 := 24#32

variable (memory : PhysicalMemory) (entry : BitVec 32)

def size : BitVec 32 := memory.readUint32 entry
def baseAddr : BitVec 64 := memory.readUint64 (entry + 4#32)
def length : BitVec 64 := memory.readUint64 (entry + 12#32)
def type : BitVec 32 := memory.readUint32 (entry + 20#32)

end MultibootMemoryMapEntry
end WigOSX
