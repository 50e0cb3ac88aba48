import WigOSX.Machine.Limits

/-! Byte-addressed i386 physical memory. Addresses are 32-bit and pointer
arithmetic wraps; multi-byte loads are little-endian. -/
namespace WigOSX

abbrev PhysicalMemory := BitVec 32 → BitVec 8

namespace PhysicalMemory

def readUint32 (memory : PhysicalMemory) (address : BitVec 32) : BitVec 32 :=
  memory (address + 3#32) ++ memory (address + 2#32) ++ memory (address + 1#32) ++ memory address

def readUint64 (memory : PhysicalMemory) (address : BitVec 32) : BitVec 64 :=
  memory.readUint32 (address + 4#32) ++ memory.readUint32 address

end PhysicalMemory
end WigOSX
