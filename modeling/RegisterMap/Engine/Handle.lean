import RegisterMap.Engine.Error
import RegisterMap.Model.Basic

/-!
# Handles

A handle is a register together with its path and its address. It is found by path, or as a register
of one instance of an array; the latter is computed from the array's template and does not look at
the expanded registers of the block.
-/

namespace RegisterMap

/-- A register with its **path and address**. -/
structure RegisterHandle where
  path : String
  address : Address
  register : Register
deriving Repr, DecidableEq, Inhabited

namespace RegisterEntry

/-- The handle of a register of the model. -/
def handle (e : RegisterEntry) : RegisterHandle := ⟨e.path, e.address, e.register⟩

end RegisterEntry

/-- An **instance of an array**, with the path and the base of its block. -/
structure InstanceHandle where
  blockPath : String
  blockBase : Address
  array : RegisterArray
  /-- The instance's number, counted from zero. -/
  number : UInt64
deriving Repr, DecidableEq, Inhabited

namespace InstanceHandle

/-- The index of the instance as used in names. -/
def logicalIndex (h : InstanceHandle) : UInt64 := h.array.descriptor.indexOf h.number

/-- Address of the instance's first byte. -/
def baseAddress (h : InstanceHandle) : Address :=
  satAdd h.blockBase (h.array.instanceOffset h.number)

/-- The handle of a register of the instance. -/
def handleOf (h : InstanceHandle) (register : Register) : RegisterHandle :=
  { path := s!"{h.blockPath}.{register.name}"
    address := satAdd h.blockBase register.offset
    register }

/-- The handles of all registers of the instance, in template order. -/
def registers (h : InstanceHandle) : List RegisterHandle :=
  ((h.array.instance? h.number).getD []).map h.handleOf

/-- The handle of the register made from the template register of this name. -/
def register (h : InstanceHandle) (name : String) : Except EngineError RegisterHandle :=
  match h.array.instanceRegister? h.number name with
  | some register => .ok (h.handleOf register)
  | none =>
    .error (.unknownRegister s!"{h.blockPath}.{h.array.name}[{h.number.toNat}].{name}")

end InstanceHandle

namespace Model

/-- The **handle** of the register at a path. -/
def registerHandle (m : Model) (path : String) : Except EngineError RegisterHandle :=
  match m.findRegister? path with
  | some entry => .ok entry.handle
  | none => .error (.unknownRegister path)

/-- The block and the array at `map.block.array` or `block.array`. -/
def findArray? (m : Model) (path : String) : Option (BlockEntry × RegisterArray) := do
  let (blockPath, name) ← Text.splitLast '.' path
  let entry ← m.findBlock? blockPath
  let array ← entry.block.array? name
  pure (entry, array)

/-- Instance `number` of the array at a path. -/
def instanceHandle (m : Model) (path : String) (number : UInt64) :
    Except EngineError InstanceHandle :=
  match m.findArray? path with
  | none => .error (.unknownArray path)
  | some (entry, array) =>
    if array.descriptor.contains number then
      .ok { blockPath := entry.path, blockBase := entry.block.baseOffset, array, number }
    else .error (.indexOutOfRange path number array.descriptor.count)

end Model

/-- What a handle is **asked for by**: a path, or a template register of an array instance. -/
inductive Target where
  | path (path : String)
  | ofInstance (array : String) (number : UInt64) (name : String)
deriving Repr, DecidableEq, Inhabited

namespace Model

/-- The handle of a target. -/
def handle (m : Model) : Target → Except EngineError RegisterHandle
  | .path path => m.registerHandle path
  | .ofInstance array number name => do (← m.instanceHandle array number).register name

end Model

end RegisterMap
