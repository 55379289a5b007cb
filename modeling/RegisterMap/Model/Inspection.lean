import RegisterMap.Model.Basic
import RegisterMap.Text.Numeral

/-!
# Inspecting a Model

Two views for people: the tree of all maps, blocks, registers and fields with their addresses, and
the details of a single register. Both show the bits of fields from the last to the first one. A
field that ends at 0 has no last bit, and a view that comes to such a field stops there.

The views are written for any way `bits` of showing the bits of a field, which may fail.
-/

namespace RegisterMap

open Text (hex hexAddress padLeft padRight)

/-- Lines of text, each closed by a line break. -/
def joinLines (lines : List String) : String := String.join (lines.map (· ++ "\n"))

/-! ### Lines -/

/-- The line of a block. -/
def BlockEntry.treeLine (e : BlockEntry) : String :=
  let b := e.block
  s!"  {b.name} @ {hexAddress b.baseOffset} ({b.size.toNat} bytes, {b.usage.name})"

/-- The line of a register. -/
def RegisterEntry.treeLine (e : RegisterEntry) : String :=
  let r := e.register
  let width := padLeft ' ' 2 (toString r.width.toNat)
  s!"    {hexAddress e.address} {padRight 16 r.name} {width}b {r.access.name}"

/-- The line of an interface. -/
def BusInterface.treeLine (i : BusInterface) : String :=
  let target := match i.memoryMap with
    | some map => s!" -> {map.name}"
    | none => ""
  s!"interface {i.name} ({i.signalsStart}*){target}"

/-! ### Views -/

section Views

variable {m : Type → Type} [Monad m] (bits : BitField → m String)

/-- The line of a field. -/
def FieldEntry.treeLine (e : FieldEntry) : m String :=
  return s!"      {← bits e.field} {e.field.name} {e.field.access.name}"

/-- The lines of a register and its fields. -/
def RegisterEntry.treeLines (e : RegisterEntry) : m (List String) :=
  return e.treeLine :: (← e.fields.mapM (·.treeLine bits))

/-- The lines of a block and its registers. -/
def BlockEntry.treeLines (e : BlockEntry) : m (List String) :=
  return e.treeLine :: (← e.registers.flatMapM (·.treeLines bits))

/-- The lines of a map: its name, then block by block. -/
def MemoryMap.treeLines (map : MemoryMap) : m (List String) :=
  return map.name :: (← map.blockEntries.flatMapM (·.treeLines bits))

/-- The **tree** of a model: its maps, then its interfaces. -/
def Model.treeWith (model : Model) : m String :=
  return joinLines
    ((← model.memoryMaps.flatMapM (·.treeLines bits)) ++ model.busInterfaces.map (·.treeLine))

namespace RegisterEntry

/-- The line of a field among the details of its register. -/
def fieldDetail (f : BitField) : m String :=
  return s!"  {padRight 12 f.name} {← bits f} {f.access.name} mask={hex f.mask}"

/-- The **details** of a register. -/
def detailsWith (e : RegisterEntry) : m String :=
  let r := e.register
  return joinLines (
    [s!"{e.path} @ {hexAddress e.address}"] ++
    r.description.toList.map (fun d => s!"  {d}") ++
    [s!"  width:  {r.width.toNat} bits",
      s!"  access: {r.access.name}",
      s!"  reset:  {hex r.composedReset}"] ++
    r.arrayInstance.toList.map (fun i => s!"  array:  {i.array}[{i.index.toNat}]") ++
    (← r.fields.mapM (fieldDetail bits)))

end RegisterEntry

end Views

/-- The tree of a model, if **all of its fields have a last bit**. -/
def Model.tree? (m : Model) : Option String := m.treeWith (·.bitsText?)

/-- The details of a register, if **all of its fields have a last bit**. -/
def RegisterEntry.details? (e : RegisterEntry) : Option String := e.detailsWith (·.bitsText?)

/-! ### Inspecting -/

/-- Why there is **nothing to show**. -/
inductive InspectError where
  | noRegister (path : String)
  /-- A field that is to be shown has no last bit. -/
  | overflow
deriving Repr, DecidableEq

namespace Model

/-- The tree, or the details of the register at a path. -/
def inspect (m : Model) (register : Option String) : Except InspectError String :=
  match register with
  | none => m.tree?.elim (.error .overflow) .ok
  | some path =>
    match m.findRegister? path with
    | none => .error (.noRegister path)
    | some e => e.details?.elim (.error .overflow) .ok

end Model

end RegisterMap
