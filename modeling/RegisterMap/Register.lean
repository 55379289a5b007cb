import RegisterMap.Access
import RegisterMap.Word

/-!
# Registers and Bit Fields

A register has a byte offset in its block, a width in bits and named bit fields. A field occupies
the half-open bit range from `bitOffset` to `bitEnd`; its value is moved in and out of a register
word by `insert` and `extract`. Bits that a field claims past the end of a 64-bit word do not exist:
they are absent from its mask.
-/

namespace RegisterMap

/-- A named **range of bits** within a register. -/
structure BitField where
  name : String
  description : Option String := none
  /-- Index of the least significant bit. -/
  bitOffset : UInt32
  /-- Number of bits. -/
  bitWidth : UInt32
  access : AccessPolicy
  resetValue : Option Word := none
deriving Repr, DecidableEq, Inhabited

namespace BitField

/-- One past the index of the most significant bit. -/
def bitEnd (f : BitField) : UInt32 := satAdd32 f.bitOffset f.bitWidth

/-- The index of the most significant bit; a field without bits at position 0 has none, and the
index is then the largest number. -/
def lastBit (f : BitField) : UInt32 := f.bitEnd - 1

/-- The index of the most significant bit, if it **is not below 0**. -/
def lastBit? (f : BitField) : Option UInt32 := nat32? ((f.bitEnd.toNat : Int) - 1)

/-- The bits from the field's first one to `last`, as a reader is told about them. -/
def bitsTo (f : BitField) (last : UInt32) : String := s!"[{last.toNat}:{f.bitOffset.toNat}]"

/-- The field's bits, as a reader is told about them. -/
def bitsText (f : BitField) : String := f.bitsTo f.lastBit

/-- The field's bits, as a reader is told about them, if there is a last one. -/
def bitsText? (f : BitField) : Option String := f.lastBit?.map f.bitsTo

/-- The largest value of the field's width. -/
def valueMask (f : BitField) : Word := lowMask f.bitWidth

/-- The field's bits in register position. -/
def mask (f : BitField) : Word := shiftUp f.valueMask f.bitOffset

/-- The field's value in a register word. -/
def extract (f : BitField) (word : Word) : Word := shiftDown (word &&& f.mask) f.bitOffset

/-- `value` in register position, without the bits that are too high for the field. -/
def insert (f : BitField) (value : Word) : Word := shiftUp (value &&& f.valueMask) f.bitOffset

/-- The value needs no more bits than the field has. -/
def fits (f : BitField) (value : Word) : Bool := value &&& ~~~f.valueMask == 0

end BitField

/-- The array instance that a register or an interface was made from. -/
structure ArrayInstance where
  array : String
  /-- The index used in names, counted from the array's first index. -/
  index : UInt64
deriving Repr, DecidableEq, Inhabited

/-- A **register** at a byte offset within its block. -/
structure Register where
  name : String
  description : Option String := none
  offset : Address
  /-- Width in bits. -/
  width : UInt32
  access : AccessPolicy
  resetValue : Option Word := none
  fields : List BitField := []
  /-- Set on registers that an array instance contributed. -/
  arrayInstance : Option ArrayInstance := none
deriving Repr, DecidableEq, Inhabited

namespace Register

/-- Size in bytes. -/
def sizeBytes (r : Register) : UInt64 := (r.width / 8).toUInt64

/-- Offset one past the last byte. -/
def endOffset (r : Register) : Address := satAdd r.offset r.sizeBytes

/-- The bits that exist in the register. -/
def wordMask (r : Register) : Word := lowMask r.width

/-- The first field of this name. -/
def field? (r : Register) (name : String) : Option BitField := r.fields.find? (·.name == name)

/-- The **reset word**: the register's own reset value, or else the reset values of its fields put
together, cut to the register's width. -/
def composedReset (r : Register) : Word :=
  match r.resetValue with
  | some value => value &&& r.wordMask
  | none =>
    let bits := r.fields.filterMap fun f => f.resetValue.map f.insert
    bits.foldl (· ||| ·) 0 &&& r.wordMask

end Register

end RegisterMap
