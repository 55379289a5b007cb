import RegisterMap.RegisterArray

/-!
# Address Blocks and Memory Maps

A memory map is a named address space made of blocks; a block is a contiguous region that lists its
registers fully expanded, beside the arrays that some of them came from.
-/

namespace RegisterMap

/-- What a block is **used for**. -/
inductive Usage where
  | register
  | memory
  | reserved
deriving Repr, DecidableEq, Inhabited

namespace Usage

def all : List Usage := [register, memory, reserved]

/-- The canonical spelling. -/
def name : Usage → String
  | register => "register"
  | memory => "memory"
  | reserved => "reserved"

end Usage

/-- A contiguous, named **region** of a memory map. -/
structure AddressBlock where
  name : String
  description : Option String := none
  /-- Offset of the block's first byte within the map. -/
  baseOffset : Address
  /-- Size in bytes. -/
  size : UInt64
  usage : Usage := .register
  /-- Every register of the block, the instances of arrays included. -/
  registers : List Register := []
  /-- The arrays of the block, each with its template registers. -/
  arrays : List RegisterArray := []
deriving Repr, DecidableEq, Inhabited

namespace AddressBlock

/-- Offset one past the last byte. -/
def endOffset (b : AddressBlock) : Address := satAdd b.baseOffset b.size

/-- The first register of this name. -/
def register? (b : AddressBlock) (name : String) : Option Register :=
  b.registers.find? (·.name == name)

/-- The first array of this name. -/
def array? (b : AddressBlock) (name : String) : Option RegisterArray :=
  b.arrays.find? (·.name == name)

end AddressBlock

/-- A named **address space**. -/
structure MemoryMap where
  name : String
  description : Option String := none
  blocks : List AddressBlock := []
deriving Repr, DecidableEq, Inhabited

namespace MemoryMap

/-- The first block of this name. -/
def block? (m : MemoryMap) (name : String) : Option AddressBlock :=
  m.blocks.find? (·.name == name)

/-- The sum of the sizes of the blocks, gaps and overlaps ignored, modulo `2 ^ 64`. -/
def totalSize (m : MemoryMap) : UInt64 := m.blocks.foldl (fun acc b => acc + b.size) 0

/-- The sum of the sizes of the blocks, gaps and overlaps ignored, if **every sum on the way** fits
in 64 bits. -/
def totalSize? (m : MemoryMap) : Option UInt64 :=
  m.blocks.foldlM (fun acc b => nat64? (acc.toNat + b.size.toNat : Nat)) 0

end MemoryMap

end RegisterMap
