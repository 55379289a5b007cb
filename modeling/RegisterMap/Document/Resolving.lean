import RegisterMap.Document.Reading
import RegisterMap.Model.Basic
import RegisterMap.Yaml.Stream

/-!
# From Drafts to the Model

Resolving gives every field its bits and every register its offset, fills in templates, and expands
arrays of registers and of interfaces.

## Conventions

A register or an array without an offset of its own is placed at the **byte cursor**, which stands
behind the entry before it; a reserved gap moves the cursor on. An array without a stride gets the
least power of two that holds one instance. Where 64 bits hold no such power, resolving stops,
before it is known whether the array fits the address space.
-/

namespace RegisterMap

/-! ### Fields and registers -/

/-- Give the fields of a register their bits, in order; `access` is the register's policy. -/
def placeFields (access : AccessPolicy) : FieldPlacer → List DraftField → Checked (List BitField)
  | _, [] => .ok []
  | placer, f :: fs =>
    match placer.place f.placement with
    | (.error problem, _) => failAt f.path problem
    | (.ok span, placer) => do
      let field : BitField :=
        { name := f.name
          description := f.description
          bitOffset := span.offset
          bitWidth := span.width
          access := f.access.getD access
          resetValue := f.resetValue }
      return field :: (← placeFields access placer fs)

namespace DraftRegister

/-- The register, placed at `cursor` unless it has an offset. -/
def resolve (r : DraftRegister) (cursor : Address) : Checked Register := do
  let fields ← placeFields r.access {} r.fields
  return {
    name := r.name
    description := r.description
    offset := r.offset.getD cursor
    width := r.width
    access := r.access
    resetValue := r.resetValue
    fields }

end DraftRegister

/-! ### Arrays -/

/-- The registers of one instance, at offsets from its start. -/
def resolveTemplate : Address → List DraftEntry → Checked (List Register)
  | _, [] => .ok []
  | cursor, .register r :: rest => do
    let register ← r.resolve cursor
    return register :: (← resolveTemplate register.endOffset rest)
  | cursor, .reserved _ bytes :: rest => resolveTemplate (satAdd cursor bytes) rest
  | _, .array nested :: _ => failAt nested.path .nestedArray

/-- The **stride** of an array that gives none: the least power of two that holds an instance, if it
fits in 64 bits. -/
def defaultStride? (span : UInt64) : Option UInt64 := ceilPowerOfTwo? (max span 1)

/-- The last instance ends within the address space. -/
def fitsAddressSpace (count stride span offset : UInt64) : Bool :=
  (count.toNat - 1) * stride.toNat + span.toNat + offset.toNat < UInt64.size

namespace DraftArray

/-- The entries that one instance of the array consists of. -/
def bodyEntries (templates : List DraftTemplate) (a : DraftArray DraftEntry) :
    Checked (List DraftEntry) :=
  match a.body with
  | .inline entries => .ok entries
  | .template name =>
    match templates.find? (·.name == name) with
    | some t => .ok t.entries
    | none => failAt a.path (.unknownTemplate name)

/-- The stride of the array: its own, or else the default for instances of `span` bytes. -/
def strideFor (a : DraftArray DraftEntry) (span : UInt64) : Checked UInt64 :=
  match a.stride.or (defaultStride? span) with
  | some stride => .ok stride
  | none => failAt a.path (.strideOverflow span)

/-- The array, placed at `cursor` unless it has an offset. -/
def resolve (templates : List DraftTemplate) (a : DraftArray DraftEntry) (cursor : Address) :
    Checked RegisterArray := do
  let registers ← resolveTemplate 0 (← a.bodyEntries templates)
  let span := spanOf registers
  let stride ← a.strideFor span
  let offset := a.offset.getD cursor
  if !fitsAddressSpace a.count stride span offset then
    failAt a.path (.arrayPastAddressSpace a.count stride offset)
  return {
    name := a.name
    offset
    descriptor :=
      { count := a.count
        stride
        indexStart := a.indexStart
        naming := a.naming }
    registers }

end DraftArray

/-! ### Blocks and maps -/

/-- The registers and arrays of a register list whose first entry is placed at `cursor`. -/
def resolveEntries (templates : List DraftTemplate) :
    Address → List DraftEntry → Checked (List Register × List RegisterArray)
  | _, [] => .ok ([], [])
  | cursor, .register r :: rest => do
    let register ← r.resolve cursor
    let (registers, arrays) ← resolveEntries templates register.endOffset rest
    return (register :: registers, arrays)
  | cursor, .reserved _ bytes :: rest => resolveEntries templates (satAdd cursor bytes) rest
  | cursor, .array a :: rest => do
    let array ← a.resolve templates cursor
    let (registers, arrays) ← resolveEntries templates array.endOffset rest
    return (array.expand ++ registers, array :: arrays)

/-- The size of a block that gives none: enough for its registers, but not less than the options
say. -/
def inferBlockSize (options : Options) (registers : List Register) : UInt64 :=
  if registers.isEmpty then options.emptyBlockSize
  else max (spanOf registers) options.minBlockSize

namespace DraftBlock

/-- The block with its registers placed and its arrays expanded. -/
def resolve (options : Options) (templates : List DraftTemplate) (b : DraftBlock) :
    Checked AddressBlock := do
  let (registers, arrays) ← resolveEntries templates 0 b.entries
  return {
    name := b.name
    description := b.description
    baseOffset := b.baseOffset
    size := b.size.getD (inferBlockSize options registers)
    usage := b.usage
    registers
    arrays }

end DraftBlock

namespace DraftMap

/-- The map with its blocks resolved. -/
def resolve (options : Options) (templates : List DraftTemplate) (m : DraftMap) :
    Checked MemoryMap := do
  let blocks ← m.blocks.mapM (·.resolve options templates)
  return { name := m.name, description := m.description, blocks }

end DraftMap

/-! ### Interfaces -/

namespace DraftInterface

/-- The interface without its replication. -/
def single (i : DraftInterface) : BusInterface :=
  { name := i.name
    signalsStart := i.signalsStart.getD s!"{i.name}_"
    protocol := i.protocol
    mode := i.mode
    baseAddress := i.baseAddress
    clock := i.clock.map (⟨.clock, ·⟩)
    reset := i.reset.map (⟨.reset, ·⟩)
    memoryMap := i.memoryMap.map (⟨.memoryMap, ·⟩) }

/-- The replication of the interface as a descriptor. -/
def descriptor (a : DraftInterfaceArray) : ArrayDescriptor :=
  { count := a.count
    stride := a.stride
    indexStart := a.indexStart
    naming := a.naming
    physicalPattern := a.physicalPattern }

/-- Instance `k` of a replicated interface. -/
def instanceAt (i : DraftInterface) (d : ArrayDescriptor) (k : UInt64) : BusInterface :=
  let index := d.indexOf k
  let stem := i.name ++ "_" ++ String.ofList indexPlaceholder
  { i.single with
    name := expandPattern (d.naming.getD stem) index
    signalsStart := expandPattern (d.physicalPattern.getD (stem ++ "_")) index
    baseAddress := i.baseAddress.map fun base => satAdd base (d.offsetOf k)
    arrayInstance := some { array := i.name, index } }

/-- The **interfaces** that a draft stands for: itself, or its instances in order. -/
def resolve (i : DraftInterface) : List BusInterface :=
  match i.array with
  | none => [i.single]
  | some a => (descriptor a).instances.map (i.instanceAt (descriptor a))

end DraftInterface

/-! ### Documents -/

namespace Draft

/-- The **model** of a draft. -/
def resolve (options : Options) (d : Draft) : Checked Model := do
  let memoryMaps ← d.maps.mapM (·.resolve options d.templates)
  return {
    memoryMaps
    clocks := d.clocks
    resets := d.resets
    busInterfaces := d.interfaces.flatMap (·.resolve) }

end Draft

namespace Model

/-- The model of a document that consists of these sections. -/
def ofSections (options : Options) (sections : List Yaml.Value) : Checked Model := do
  (← Draft.ofSections options sections).resolve options

/-- The **model of a document** in YAML text. -/
def ofText (options : Options) (text : String) : Except ResolveError Model :=
  match Yaml.parseStream text with
  | .error e => .error (.yaml e)
  | .ok sections => (ofSections options sections).mapError .document

end Model

end RegisterMap
