import RegisterMap.Model.Basic
import RegisterMap.Verify.Overlap
import RegisterMap.Verify.Violation
import Std.Data.HashSet

/-!
# The Rules of a Register Map

Each check walks the whole model and lists what breaks its rule; `Model.violations` lists the
results of all checks one after another. Neither the order of the checks nor that of the walks
depends on what they find.
-/

namespace RegisterMap

open Text (hex)

/-! ### Overlaps -/

/-- The pairs among `items` whose intervals overlap. -/
def overlapping (start stop : α → UInt64) (items : List α) : List (α × α) :=
  Interval.overlappingPairs (items.map fun a => ⟨start a, stop a, a⟩)

namespace RegisterEntry

/-- What is said about two fields that share bits, each shown with its bits. -/
def fieldOverlap (e : RegisterEntry) (a b : BitField) (aBits bBits : String) : Violation :=
  { kind := .fieldOverlap
    path := s!"{e.path}.{b.name}"
    text := s!"fields `{a.name}` {aBits} and `{b.name}` {bBits} overlap"
    related := [s!"{e.path}.{a.name}"] }

/-- The pairs of **fields that share bits**. -/
def fieldOverlaps (e : RegisterEntry) : List Violation :=
  (overlapping (·.bitOffset.toUInt64) (·.bitEnd.toUInt64) e.register.fields).map fun (a, b) =>
    e.fieldOverlap a b a.bitsText b.bitsText

end RegisterEntry

namespace BlockEntry

/-- The pairs of **registers that share bytes**. -/
def registerOverlaps (e : BlockEntry) : List Violation :=
  (overlapping (·.offset) (·.endOffset) e.block.registers).map fun (a, b) =>
    { kind := .registerOverlap
      path := s!"{e.path}.{b.name}"
      text :=
        s!"registers `{a.name}` at {hex a.offset} and `{b.name}` at {hex b.offset} overlap"
      related := [s!"{e.path}.{a.name}"] }

end BlockEntry

/-- A block's addresses, as a reader is told about them. -/
def AddressBlock.rangeText (b : AddressBlock) : String :=
  s!"[{hex b.baseOffset}, {hex b.endOffset})"

namespace MemoryMap

/-- The pairs of **blocks that share addresses**. -/
def blockOverlaps (m : MemoryMap) : List Violation :=
  (overlapping (·.baseOffset) (·.endOffset) m.blocks).map fun (a, b) =>
    { kind := .blockOverlap
      path := s!"{m.name}.{b.name}"
      text := s!"blocks `{a.name}` {a.rangeText} and `{b.name}` {b.rangeText} overlap"
      related := [s!"{m.name}.{a.name}"] }

end MemoryMap

/-! ### Single items -/

/-- What is said about a field that reaches past its register, up to the bit `last`. -/
def FieldEntry.pastRegister (e : FieldEntry) (last : UInt32) : Violation :=
  { kind := .fieldBounds
    path := e.path
    text :=
      s!"field occupies bits up to {last.toNat} but register " ++
        s!"`{e.register.name}` is {e.register.width.toNat} bits wide" }

/-- A field that reaches **past its register**. -/
def FieldEntry.outOfBounds (e : FieldEntry) : List Violation :=
  if e.register.width < e.field.bitEnd then [e.pastRegister e.field.lastBit] else []

/-- The text about a reset value that needs more than `width` bits. -/
def resetText (reset : Word) (width : UInt32) : String :=
  s!"reset value {hex reset} does not fit in {width.toNat} bits"

/-- The **reset values** of a register and its fields that do not fit. -/
def RegisterEntry.badResets (e : RegisterEntry) : List Violation :=
  let r := e.register
  let own := r.resetValue.toList.filterMap fun reset =>
    if reset &&& ~~~r.wordMask = 0 then none
    else some { kind := .resetRange, path := e.path, text := resetText reset r.width }
  let ofFields := r.fields.flatMap fun f => f.resetValue.toList.filterMap fun reset =>
    if f.fits reset then none
    else some
      { kind := .resetRange
        path := s!"{e.path}.{f.name}"
        text := resetText reset f.bitWidth }
  own ++ ofFields

/-- A register that is **not aligned** to its own size. -/
def RegisterEntry.misaligned (e : RegisterEntry) : List Violation :=
  let size := e.register.sizeBytes
  if 1 < size ∧ e.address % size ≠ 0 then
    [{ kind := .alignment
       path := e.path
       text :=
         s!"register at {hex e.address} is not aligned to its {size.toNat}-byte width" }]
  else []

/-- An array with a **stride** smaller than its instances. -/
def BlockEntry.shortStrides (e : BlockEntry) : List Violation :=
  e.block.arrays.flatMap fun a =>
    if 1 < a.descriptor.count ∧ a.descriptor.stride < a.span then
      [{ kind := .arrayStride
         path := s!"{e.path}.{a.name}"
         text :=
           s!"stride {hex a.descriptor.stride} is smaller than the {hex a.span}-byte instance" }]
    else []

/-! ### References -/

namespace Model

/-- What is wrong with a **reference** of the interface called `interface`. -/
def badReference (m : Model) (interface : String) (reference : NamedRef) : List Violation :=
  match m.resolve reference with
  | .resolved => []
  | .missing =>
    [{ kind := .danglingReference
       path := interface
       text :=
         s!"bus interface `{interface}` references undeclared {reference.kind.label} " ++
           s!"`{reference.name}`"
       related := [reference.name] }]
  | .wrongKind kinds =>
    let declared := " and ".intercalate (kinds.map (·.label))
    [{ kind := .referenceKindMismatch
       path := interface
       text :=
         s!"bus interface `{interface}` expects {reference.kind.label} `{reference.name}`, " ++
           s!"which is declared as {declared}"
       related := [reference.name] }]

/-- The references of all interfaces that do not resolve. -/
def badReferences (m : Model) : List Violation :=
  m.busInterfaces.flatMap fun i => i.references.flatMap (m.badReference i.name)

end Model

/-! ### Names -/

/-- The names that occur **earlier in the list**, once for each repetition. -/
def repeated (seen : Std.HashSet String) : List String → List String
  | [] => []
  | name :: rest =>
    if seen.contains name then name :: repeated seen rest else repeated (seen.insert name) rest

/-- The repetitions among the names of siblings below `parent`, which ends in a point. -/
def repeatedNames (what parent : String) (names : List String) : List Violation :=
  (repeated {} names).map fun name =>
    { kind := .duplicateName
      path := parent ++ name
      text := s!"{what} `{name}` is declared more than once" }

namespace Model

/-- The repeated names: top-level entities, blocks, registers, fields. -/
def duplicateNames (m : Model) : List Violation :=
  repeatedNames "memory map" "" (m.memoryMaps.map (·.name)) ++
    repeatedNames "clock" "" (m.clocks.map (·.name)) ++
    repeatedNames "reset" "" (m.resets.map (·.name)) ++
    repeatedNames "bus interface" "" (m.busInterfaces.map (·.name)) ++
    m.memoryMaps.flatMap (fun map =>
      repeatedNames "block" (map.name ++ ".") (map.blocks.map (·.name))) ++
    m.blocks.flatMap (fun e =>
      repeatedNames "register" (e.path ++ ".") (e.block.registers.map (·.name))) ++
    m.registers.flatMap (fun e =>
      repeatedNames "field" (e.path ++ ".") (e.register.fields.map (·.name)))

/-! ### All rules -/

/-- Everything that breaks a rule, rule by rule, with these reports about the bits of fields. -/
def violationsWith (m : Model) (fieldOverlaps outOfBounds : List Violation) : List Violation :=
  fieldOverlaps ++
    outOfBounds ++
    m.blocks.flatMap (·.registerOverlaps) ++
    m.memoryMaps.flatMap (·.blockOverlaps) ++
    m.registers.flatMap (·.badResets) ++
    m.badReferences ++
    m.registers.flatMap (·.misaligned) ++
    m.duplicateNames ++
    m.blocks.flatMap (·.shortStrides)

/-- Everything that **breaks a rule**, rule by rule. -/
def violations (m : Model) : List Violation :=
  m.violationsWith (m.registers.flatMap (·.fieldOverlaps)) (m.fields.flatMap (·.outOfBounds))

/-- No rule is broken, apart from warnings. -/
def isValid (m : Model) : Bool := !m.violations.any (·.isError)

end Model

end RegisterMap
