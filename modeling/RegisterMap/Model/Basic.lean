import RegisterMap.Model.Block
import RegisterMap.Model.Interface
import RegisterMap.Text.Split

/-!
# The Register Model

The model is the fully resolved register space: memory maps with expanded registers, clocks, resets
and bus interfaces. This module walks it, finds blocks and registers by dotted path, and resolves
references by name.

## Conventions

Paths are `map.block`, `map.block.register` and `map.block.register.field`. A lookup may leave out
the map; it then takes the first block of that name over all maps. Every lookup by name takes the
first match.
-/

namespace RegisterMap

/-- The fully resolved **register space**. -/
structure Model where
  memoryMaps : List MemoryMap := []
  clocks : List Clock := []
  resets : List Reset := []
  busInterfaces : List BusInterface := []
deriving Repr, DecidableEq, Inhabited

/-! ### Entries: items of the tree with the items around them -/

/-- A block with its map. -/
structure BlockEntry where
  map : MemoryMap
  block : AddressBlock
deriving Repr, DecidableEq

/-- A register with its block and map. -/
structure RegisterEntry extends BlockEntry where
  register : Register
deriving Repr, DecidableEq

/-- A bit field with its register, block and map. -/
structure FieldEntry extends RegisterEntry where
  field : BitField
deriving Repr, DecidableEq

namespace BlockEntry

/-- The path `map.block`. -/
def path (e : BlockEntry) : String := s!"{e.map.name}.{e.block.name}"

/-- The registers of the block, each as an entry. -/
def registers (e : BlockEntry) : List RegisterEntry :=
  e.block.registers.map fun r => { e with register := r }

end BlockEntry

namespace RegisterEntry

/-- The path `map.block.register`. -/
def path (e : RegisterEntry) : String := s!"{e.toBlockEntry.path}.{e.register.name}"

/-- Address of the register's first byte within its map. -/
def address (e : RegisterEntry) : Address := satAdd e.block.baseOffset e.register.offset

/-- The fields of the register, each as an entry. -/
def fields (e : RegisterEntry) : List FieldEntry :=
  e.register.fields.map fun f => { e with field := f }

end RegisterEntry

namespace FieldEntry

/-- The path `map.block.register.field`. -/
def path (e : FieldEntry) : String := s!"{e.toRegisterEntry.path}.{e.field.name}"

end FieldEntry

namespace MemoryMap

/-- The blocks of the map, each as an entry. -/
def blockEntries (m : MemoryMap) : List BlockEntry := m.blocks.map fun b => ⟨m, b⟩

end MemoryMap

/-- The outcome of **resolving a reference**. -/
inductive Resolution where
  | resolved
  /-- No entity of any kind has this name. -/
  | missing
  /-- The name exists, but only as entities of these other kinds. -/
  | wrongKind (declared : List EntityKind)
deriving Repr, DecidableEq

namespace Model

/-! ### Walks -/

/-- Every block, map by map. -/
def blocks (m : Model) : List BlockEntry := m.memoryMaps.flatMap (·.blockEntries)

/-- Every register, block by block. -/
def registers (m : Model) : List RegisterEntry := m.blocks.flatMap (·.registers)

/-- Every field, register by register. -/
def fields (m : Model) : List FieldEntry := m.registers.flatMap (·.fields)

/-! ### Lookup by path -/

/-- The first memory map of this name. -/
def memoryMap? (m : Model) (name : String) : Option MemoryMap :=
  m.memoryMaps.find? (·.name == name)

/-- The block at `map.block`, or the first block of that name over all maps. -/
def findBlock? (m : Model) (path : String) : Option BlockEntry :=
  match Text.splitFirst '.' path with
  | some (mapName, blockName) => do
    let map ← m.memoryMap? mapName
    let block ← map.block? blockName
    pure ⟨map, block⟩
  | none => m.blocks.find? (·.block.name == path)

/-- The register at `map.block.register` or `block.register`. -/
def findRegister? (m : Model) (path : String) : Option RegisterEntry := do
  let (blockPath, name) ← Text.splitLast '.' path
  let entry ← m.findBlock? blockPath
  let register ← entry.block.register? name
  pure { entry with register }

/-! ### References -/

/-- The names declared under a kind, in declaration order. -/
def namesOf (m : Model) : EntityKind → List String
  | .clock => m.clocks.map (·.name)
  | .reset => m.resets.map (·.name)
  | .memoryMap => m.memoryMaps.map (·.name)
  | .busInterface => m.busInterfaces.map (·.name)

/-- An entity of this kind and name is **declared**. -/
def declares (m : Model) (kind : EntityKind) (name : String) : Bool :=
  (m.namesOf kind).contains name

/-- The kinds under which `name` is declared, each once. -/
def kindsOf (m : Model) (name : String) : List EntityKind :=
  EntityKind.all.filter (m.declares · name)

/-- Look a **reference** up among the declarations. -/
def resolve (m : Model) (reference : NamedRef) : Resolution :=
  if m.declares reference.kind reference.name then .resolved
  else match m.kindsOf reference.name with
    | [] => .missing
    | kinds => .wrongKind kinds

/-- The reference names a declared entity of its own kind. -/
def isResolved (m : Model) (reference : NamedRef) : Bool := m.resolve reference == .resolved

end Model

end RegisterMap
