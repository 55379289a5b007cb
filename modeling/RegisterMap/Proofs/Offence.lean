import RegisterMap.Proofs.Bits
import RegisterMap.Proofs.Sweep

/-!
# Sound Models and Their Offences

What a valid register map is, said without the checks: `Model.Sound` states every rule about the
items of the model themselves. An `Offence` is one way to break a rule at one place of the tree of
maps, blocks, registers and fields, and `Model.Reports` says which violation is about which offence.

## Positions

Items are identified by their positions in the lists that hold them, never by their names, since two
siblings may have one name. A block is at the number of its map and its number within the map, and
so on downwards.

## Wording

What a violation says is its rule, the path of what breaks it and what else is involved. The text
for people is left open.
-/

namespace RegisterMap

/-! ### Places -/

/-- The **bytes** of a register, counted from the start of its block. -/
def Register.bytes (r : Register) : Set ℕ := Set.Ico r.offset.toNat r.endOffset.toNat

/-- The **bytes** of a block, counted from the start of its map. -/
def AddressBlock.bytes (b : AddressBlock) : Set ℕ := Set.Ico b.baseOffset.toNat b.endOffset.toNat

/-- The points of a field in a sweep are **its bits**. -/
theorem points_of_field (f : BitField) :
    (spanned (fun f : BitField => f.bitOffset.toUInt64) (·.bitEnd.toUInt64) f).points = f.bits := by
  simp [Interval.points, spanned, BitField.bits]

/-! ### Sound models -/

/-- A register that breaks no rule about its fields and reset values. -/
structure Register.Sound (r : Register) : Prop where
  fields_apart : r.fields.Pairwise fun f g => Disjoint f.bits g.bits
  fields_within : ∀ f ∈ r.fields, f.bitEnd ≤ r.width
  reset_fits : ∀ v ∈ r.resetValue, v.toNat < 2 ^ r.width.toNat
  field_resets_fit : ∀ f ∈ r.fields, ∀ v ∈ f.resetValue, v.toNat < 2 ^ f.bitWidth.toNat
  fields_named : (r.fields.map (·.name)).Nodup

/-- A block that breaks no rule about its registers and arrays. -/
structure AddressBlock.Sound (b : AddressBlock) : Prop where
  registers_apart : b.registers.Pairwise fun r s => Disjoint r.bytes s.bytes
  registers_named : (b.registers.map (·.name)).Nodup
  strides_suffice : ∀ a ∈ b.arrays, a.descriptor.count ≤ 1 ∨ a.span ≤ a.descriptor.stride
  registers_sound : ∀ r ∈ b.registers, r.Sound

/-- A memory map that breaks no rule about its blocks. -/
structure MemoryMap.Sound (m : MemoryMap) : Prop where
  blocks_apart : m.blocks.Pairwise fun b c => Disjoint b.bytes c.bytes
  blocks_named : (m.blocks.map (·.name)).Nodup
  blocks_sound : ∀ b ∈ m.blocks, b.Sound

/-- **Soundness.** A model that breaks no rule. -/
structure Model.Sound (m : Model) : Prop where
  entities_named : ∀ kind, (m.namesOf kind).Nodup
  references_declared : ∀ i ∈ m.busInterfaces, ∀ r ∈ i.references, r.name ∈ m.namesOf r.kind
  maps_sound : ∀ map ∈ m.memoryMaps, map.Sound

/-- A register with no fields and no reset value breaks no rule. -/
theorem Register.sound_of_no_fields {r : Register} (hfields : r.fields = [])
    (hreset : r.resetValue = none) : r.Sound where
  fields_apart := by simp [hfields]
  fields_within := by simp [hfields]
  reset_fits := by simp [hreset]
  field_resets_fit := by simp [hfields]
  fields_named := by simp [hfields]

/-- A block of **one register** breaks no rule if the register breaks none. -/
theorem AddressBlock.sound_of_register {b : AddressBlock} {r : Register} (hb : b.registers = [r])
    (harrays : b.arrays = []) (hr : r.Sound) : b.Sound where
  registers_apart := by simp [hb]
  registers_named := by simp [hb]
  strides_suffice := by simp [harrays]
  registers_sound := by simpa [hb] using hr

/-- So does a map of **one block**. -/
theorem MemoryMap.sound_of_block {m : MemoryMap} {b : AddressBlock} (hm : m.blocks = [b])
    (hb : b.Sound) : m.Sound where
  blocks_apart := by simp [hm]
  blocks_named := by simp [hm]
  blocks_sound := by simpa [hm] using hb

/-! ### Positions -/

/-- The number of a map, and of a block in it. -/
abbrev BlockPosition := ℕ × ℕ

/-- The position of a block, and the number of a register in it. -/
abbrev RegisterPosition := BlockPosition × ℕ

/-- The position of a register, and the number of a field in it. -/
abbrev FieldPosition := RegisterPosition × ℕ

namespace Model

variable (m : Model)

/-- The block at a position. -/
def BlockAt (p : BlockPosition) (e : BlockEntry) : Prop :=
  m.memoryMaps[p.1]? = some e.map ∧ e.map.blocks[p.2]? = some e.block

/-- The register at a position. -/
def RegisterAt (p : RegisterPosition) (e : RegisterEntry) : Prop :=
  m.BlockAt p.1 e.toBlockEntry ∧ e.block.registers[p.2]? = some e.register

/-- The field at a position. -/
def FieldAt (p : FieldPosition) (e : FieldEntry) : Prop :=
  m.RegisterAt p.1 e.toRegisterEntry ∧ e.register.fields[p.2]? = some e.field

end Model

/-! ### Offences -/

/-- A list of **siblings**, whose names have to differ. -/
inductive Scope where
  | entities (kind : EntityKind)
  | blocks (map : ℕ)
  | registers (block : BlockPosition)
  | fields (register : RegisterPosition)
deriving DecidableEq

/-- One way to **break a rule** at one place. Two items that share bits or bytes are given in sweep
order, so that each pair is one offence and not two. -/
inductive Offence where
  | sharedBits (register : RegisterPosition) (fields : ℕ × ℕ)
  | pastRegister (register : RegisterPosition) (field : ℕ)
  | sharedBytes (block : BlockPosition) (registers : ℕ × ℕ)
  | sharedAddresses (map : ℕ) (blocks : ℕ × ℕ)
  /-- The reset value of a register or of one of its fields. -/
  | badReset (register : RegisterPosition) (field : Option ℕ)
  /-- The reference of an interface, by its place among clock, reset and memory map. -/
  | badReference (interface reference : ℕ)
  /-- A name that occurs earlier among its siblings. -/
  | repeatedName (scope : Scope) (sibling : ℕ)
  | shortStride (block : BlockPosition) (array : ℕ)
deriving DecidableEq

/-- What a violation **says**, its wording apart. -/
def Violation.Says (v : Violation) (kind : ViolationKind) (path : String)
    (related : List String) : Prop :=
  v.kind = kind ∧ v.path = path ∧ v.related = related

/-- A violation about two of the items at `parent`; its path is that of the later one. -/
def ClashReport {α : Type} (start stop : α → UInt64) (name : α → String) (kind : ViolationKind)
    (parent : String) (items : List α) (p : ℕ × ℕ) (v : Violation) : Prop :=
  ∃ q, Clash start stop items p q ∧
    v.Says kind s!"{parent}.{name q.2}" [s!"{parent}.{name q.1}"]

/-- A violation about a field that reaches past its register. -/
def FieldEntry.BoundsReport (e : FieldEntry) (v : Violation) : Prop :=
  e.register.width < e.field.bitEnd ∧ v.Says .fieldBounds e.path []

/-- A violation about a reset value of more than `width` bits. -/
def ResetReport (path : String) (resetValue : Option Word) (width : UInt32) (v : Violation) :
    Prop :=
  ∃ reset, resetValue = some reset ∧ 2 ^ width.toNat ≤ reset.toNat ∧ v.Says .resetRange path []

/-- A violation about a reset value of a register: its own, or that of a field. -/
def RegisterEntry.ResetReport (e : RegisterEntry) : Option ℕ → Violation → Prop
  | none, v => RegisterMap.ResetReport e.path e.register.resetValue e.register.width v
  | some n, v =>
    ∃ f, e.register.fields[n]? = some f ∧
      RegisterMap.ResetReport s!"{e.path}.{f.name}" f.resetValue f.bitWidth v

/-- A violation about an array whose instances are longer than its stride. -/
def BlockEntry.StrideReport (e : BlockEntry) (n : ℕ) (v : Violation) : Prop :=
  ∃ a, e.block.arrays[n]? = some a ∧ (1 < a.descriptor.count ∧ a.descriptor.stride < a.span) ∧
    v.Says .arrayStride s!"{e.path}.{a.name}" []

/-- The name of sibling `n` occurs earlier among `names`. -/
def RepeatedAt (names : List String) (n : ℕ) (name : String) : Prop :=
  names[n]? = some name ∧ name ∈ names.take n

/-- A violation about a repeated name among siblings whose paths start with `parent`. -/
def NameReport (parent : String) (names : List String) (n : ℕ) (v : Violation) : Prop :=
  ∃ name, RepeatedAt names n name ∧ v.Says .duplicateName (parent ++ name) []

namespace Model

variable (m : Model)

/-- A violation about a reference that names nothing of its kind. It tells apart whether the name is
declared at all. -/
def ReferenceReport (interface : String) (reference : NamedRef) (v : Violation) : Prop :=
  reference.name ∉ m.namesOf reference.kind ∧
    ((∀ kind, reference.name ∉ m.namesOf kind) ∧
        v.Says .danglingReference interface [reference.name] ∨
      (∃ kind, reference.name ∈ m.namesOf kind) ∧
        v.Says .referenceKindMismatch interface [reference.name])

/-- A violation about a repeated name among the siblings of a scope. -/
def ScopeReport : Scope → ℕ → Violation → Prop
  | .entities kind, n, v => NameReport "" (m.namesOf kind) n v
  | .blocks i, n, v =>
    ∃ map, m.memoryMaps[i]? = some map ∧
      NameReport (map.name ++ ".") (map.blocks.map (·.name)) n v
  | .registers p, n, v =>
    ∃ e, m.BlockAt p e ∧ NameReport (e.path ++ ".") (e.block.registers.map (·.name)) n v
  | .fields p, n, v =>
    ∃ e, m.RegisterAt p e ∧ NameReport (e.path ++ ".") (e.register.fields.map (·.name)) n v

/-- **Reports.** The violation `v` is about the offence: a rule is broken there, and `v` says so. -/
def Reports : Offence → Violation → Prop
  | .sharedBits p q, v =>
    ∃ e, m.RegisterAt p e ∧ ClashReport (·.bitOffset.toUInt64) (·.bitEnd.toUInt64) (·.name)
      .fieldOverlap e.path e.register.fields q v
  | .pastRegister p n, v => ∃ e, m.FieldAt (p, n) e ∧ e.BoundsReport v
  | .sharedBytes p q, v =>
    ∃ e, m.BlockAt p e ∧ ClashReport (·.offset) (·.endOffset) (·.name)
      .registerOverlap e.path e.block.registers q v
  | .sharedAddresses n q, v =>
    ∃ map, m.memoryMaps[n]? = some map ∧ ClashReport (·.baseOffset) (·.endOffset) (·.name)
      .blockOverlap map.name map.blocks q v
  | .badReset p n, v => ∃ e, m.RegisterAt p e ∧ e.ResetReport n v
  | .badReference i n, v =>
    ∃ interface, m.busInterfaces[i]? = some interface ∧
      ∃ reference, interface.references[n]? = some reference ∧
        m.ReferenceReport interface.name reference v
  | .repeatedName scope n, v => m.ScopeReport scope n v
  | .shortStride p n, v => ∃ e, m.BlockAt p e ∧ e.StrideReport n v

/-- The rule is **broken** there. -/
def Offends (o : Offence) : Prop := ∃ v, m.Reports o v

end Model

end RegisterMap
