import RegisterMap.Json.Decoding
import RegisterMap.Model.Basic

/-!
# The Model as JSON

Every part of the model encodes to a JSON object with a fixed order of members, and decodes from any
object that has the members it needs, or from an array of the members' values in that order. An
absent optional value leaves its member out.
-/

namespace RegisterMap

open Json

/-! ### Encoding -/

namespace ArrayInstance

/-- The keys in the order of the members. -/
def keys : List String := ["array", "index"]

def toJson (a : ArrayInstance) : Json :=
  .obj (member "array" (.str a.array) ++ member "index" (nat64 a.index))

end ArrayInstance

namespace BitField

/-- The keys in the order of the members. -/
def keys : List String :=
  ["name", "description", "bit-offset", "bit-width", "access", "reset-value"]

def toJson (f : BitField) : Json :=
  .obj (member "name" (.str f.name) ++
    memberIfSome "description" f.description .str ++
    member "bit-offset" (nat32 f.bitOffset) ++
    member "bit-width" (nat32 f.bitWidth) ++
    member "access" (.str f.access.name) ++
    memberIfSome "reset-value" f.resetValue nat64)

end BitField

namespace Register

/-- The keys in the order of the members. -/
def keys : List String :=
  ["name", "description", "offset", "width", "access", "reset-value", "fields", "instance"]

def toJson (r : Register) : Json :=
  .obj (member "name" (.str r.name) ++
    memberIfSome "description" r.description .str ++
    member "offset" (nat64 r.offset) ++
    member "width" (nat32 r.width) ++
    member "access" (.str r.access.name) ++
    memberIfSome "reset-value" r.resetValue nat64 ++
    member "fields" (.arr (r.fields.map (·.toJson))) ++
    memberIfSome "instance" r.arrayInstance (·.toJson))

end Register

namespace ArrayDescriptor

/-- The keys in the order of the members. -/
def keys : List String := ["count", "stride", "index-start", "naming", "prefix"]

def toJson (d : ArrayDescriptor) : Json :=
  .obj (member "count" (nat64 d.count) ++
    member "stride" (nat64 d.stride) ++
    member "index-start" (nat64 d.indexStart) ++
    memberIfSome "naming" d.naming .str ++
    memberIfSome "prefix" d.physicalPattern .str)

end ArrayDescriptor

namespace RegisterArray

/-- The keys in the order of the members. -/
def keys : List String := ["name", "offset", "descriptor", "registers"]

def toJson (a : RegisterArray) : Json :=
  .obj (member "name" (.str a.name) ++
    member "offset" (nat64 a.offset) ++
    member "descriptor" a.descriptor.toJson ++
    member "registers" (.arr (a.registers.map (·.toJson))))

end RegisterArray

namespace AddressBlock

/-- The keys in the order of the members. -/
def keys : List String :=
  ["name", "description", "base-offset", "size", "usage", "registers", "arrays"]

def toJson (b : AddressBlock) : Json :=
  .obj (member "name" (.str b.name) ++
    memberIfSome "description" b.description .str ++
    member "base-offset" (nat64 b.baseOffset) ++
    member "size" (nat64 b.size) ++
    member "usage" (.str b.usage.name) ++
    member "registers" (.arr (b.registers.map (·.toJson))) ++
    memberIfAny "arrays" b.arrays (·.toJson))

end AddressBlock

namespace MemoryMap

/-- The keys in the order of the members. -/
def keys : List String := ["name", "description", "blocks"]

def toJson (m : MemoryMap) : Json :=
  .obj (member "name" (.str m.name) ++
    memberIfSome "description" m.description .str ++
    member "blocks" (.arr (m.blocks.map (·.toJson))))

end MemoryMap

namespace Clock

/-- The keys in the order of the members. -/
def keys : List String := ["name", "frequency-hz"]

def toJson (c : Clock) : Json :=
  .obj (member "name" (.str c.name) ++ memberIfSome "frequency-hz" c.frequencyHz nat64)

end Clock

namespace Reset

/-- The keys in the order of the members. -/
def keys : List String := ["name", "polarity"]

def toJson (r : Reset) : Json :=
  .obj (member "name" (.str r.name) ++ member "polarity" (.str r.polarity.name))

end Reset

namespace NamedRef

/-- The keys in the order of the members. -/
def keys : List String := ["kind", "name"]

def toJson (r : NamedRef) : Json :=
  .obj (member "kind" (.str r.kind.name) ++ member "name" (.str r.name))

end NamedRef

namespace BusInterface

/-- The keys in the order of the members. -/
def keys : List String :=
  ["name", "physical-prefix", "protocol", "mode", "base-address", "instance", "clock", "reset",
    "memory-map"]

def toJson (i : BusInterface) : Json :=
  .obj (member "name" (.str i.name) ++
    member "physical-prefix" (.str i.signalsStart) ++
    memberIfSome "protocol" i.protocol .str ++
    member "mode" (.str i.mode.name) ++
    memberIfSome "base-address" i.baseAddress nat64 ++
    memberIfSome "instance" i.arrayInstance (·.toJson) ++
    memberIfSome "clock" i.clock (·.toJson) ++
    memberIfSome "reset" i.reset (·.toJson) ++
    memberIfSome "memory-map" i.memoryMap (·.toJson))

end BusInterface

namespace Model

/-- The keys in the order of the members. -/
def keys : List String := ["memory-maps", "clocks", "resets", "bus-interfaces"]

def toJson (m : Model) : Json :=
  .obj (member "memory-maps" (.arr (m.memoryMaps.map (·.toJson))) ++
    memberIfAny "clocks" m.clocks (·.toJson) ++
    memberIfAny "resets" m.resets (·.toJson) ++
    memberIfAny "bus-interfaces" m.busInterfaces (·.toJson))

end Model

/-! ### Decoding -/

/-- An access policy in its canonical spelling. -/
def AccessPolicy.ofJson? (j : Json) : Option AccessPolicy :=
  j.toChoice? AccessPolicy.all AccessPolicy.name

namespace ArrayInstance

def ofJson? (j : Json) : Option ArrayInstance := do
  let j ← j.toRecord? keys
  let array ← j.required "array" toStr?
  let index ← j.required "index" toNat64?
  pure { array, index }

end ArrayInstance

namespace BitField

def ofJson? (j : Json) : Option BitField := do
  let j ← j.toRecord? keys
  let name ← j.required "name" toStr?
  let description ← j.optional "description" toStr?
  let bitOffset ← j.required "bit-offset" toNat32?
  let bitWidth ← j.required "bit-width" toNat32?
  let access ← j.required "access" AccessPolicy.ofJson?
  let resetValue ← j.optional "reset-value" toNat64?
  pure { name, description, bitOffset, bitWidth, access, resetValue }

end BitField

namespace Register

def ofJson? (j : Json) : Option Register := do
  let j ← j.toRecord? keys
  let name ← j.required "name" toStr?
  let description ← j.optional "description" toStr?
  let offset ← j.required "offset" toNat64?
  let width ← j.required "width" toNat32?
  let access ← j.required "access" AccessPolicy.ofJson?
  let resetValue ← j.optional "reset-value" toNat64?
  let fields ← j.withDefault "fields" [] (toList? BitField.ofJson?)
  let arrayInstance ← j.optional "instance" ArrayInstance.ofJson?
  pure { name, description, offset, width, access, resetValue, fields, arrayInstance }

end Register

namespace ArrayDescriptor

def ofJson? (j : Json) : Option ArrayDescriptor := do
  let j ← j.toRecord? keys
  let count ← j.required "count" toNat64?
  let stride ← j.required "stride" toNat64?
  let indexStart ← j.withDefault "index-start" 0 toNat64?
  let naming ← j.optional "naming" toStr?
  let physicalPattern ← j.optional "prefix" toStr?
  pure { count, stride, indexStart, naming, physicalPattern }

end ArrayDescriptor

namespace RegisterArray

def ofJson? (j : Json) : Option RegisterArray := do
  let j ← j.toRecord? keys
  let name ← j.required "name" toStr?
  let offset ← j.required "offset" toNat64?
  let descriptor ← j.required "descriptor" ArrayDescriptor.ofJson?
  let registers ← j.required "registers" (toList? Register.ofJson?)
  pure { name, offset, descriptor, registers }

end RegisterArray

namespace AddressBlock

def ofJson? (j : Json) : Option AddressBlock := do
  let j ← j.toRecord? keys
  let name ← j.required "name" toStr?
  let description ← j.optional "description" toStr?
  let baseOffset ← j.required "base-offset" toNat64?
  let size ← j.required "size" toNat64?
  let usage ← j.withDefault "usage" Usage.register (·.toChoice? Usage.all Usage.name)
  let registers ← j.withDefault "registers" [] (toList? Register.ofJson?)
  let arrays ← j.withDefault "arrays" [] (toList? RegisterArray.ofJson?)
  pure { name, description, baseOffset, size, usage, registers, arrays }

end AddressBlock

namespace MemoryMap

def ofJson? (j : Json) : Option MemoryMap := do
  let j ← j.toRecord? keys
  let name ← j.required "name" toStr?
  let description ← j.optional "description" toStr?
  let blocks ← j.withDefault "blocks" [] (toList? AddressBlock.ofJson?)
  pure { name, description, blocks }

end MemoryMap

namespace Clock

def ofJson? (j : Json) : Option Clock := do
  let j ← j.toRecord? keys
  let name ← j.required "name" toStr?
  let frequencyHz ← j.optional "frequency-hz" toNat64?
  pure { name, frequencyHz }

end Clock

namespace Reset

def ofJson? (j : Json) : Option Reset := do
  let j ← j.toRecord? keys
  let name ← j.required "name" toStr?
  let polarity ←
    j.withDefault "polarity" ResetPolarity.activeLow
      (·.toChoice? ResetPolarity.all ResetPolarity.name)
  pure { name, polarity }

end Reset

namespace NamedRef

def ofJson? (j : Json) : Option NamedRef := do
  let j ← j.toRecord? keys
  let kind ← j.required "kind" (·.toChoice? EntityKind.all EntityKind.name)
  let name ← j.required "name" toStr?
  pure { kind, name }

end NamedRef

namespace BusInterface

def ofJson? (j : Json) : Option BusInterface := do
  let j ← j.toRecord? keys
  let name ← j.required "name" toStr?
  let signalsStart ← j.required "physical-prefix" toStr?
  let protocol ← j.optional "protocol" toStr?
  let mode ←
    j.withDefault "mode" InterfaceMode.slave (·.toChoice? InterfaceMode.all InterfaceMode.name)
  let baseAddress ← j.optional "base-address" toNat64?
  let arrayInstance ← j.optional "instance" ArrayInstance.ofJson?
  let clock ← j.optional "clock" NamedRef.ofJson?
  let reset ← j.optional "reset" NamedRef.ofJson?
  let memoryMap ← j.optional "memory-map" NamedRef.ofJson?
  pure { name, signalsStart, protocol, mode, baseAddress, arrayInstance, clock, reset, memoryMap }

end BusInterface

namespace Model

/-- Decode a model. Lists may be absent. -/
def ofJson? (j : Json) : Option Model := do
  let j ← j.toRecord? keys
  let memoryMaps ← j.withDefault "memory-maps" [] (toList? MemoryMap.ofJson?)
  let clocks ← j.withDefault "clocks" [] (toList? Clock.ofJson?)
  let resets ← j.withDefault "resets" [] (toList? Reset.ofJson?)
  let busInterfaces ← j.withDefault "bus-interfaces" [] (toList? BusInterface.ofJson?)
  pure { memoryMaps, clocks, resets, busInterfaces }

end Model

end RegisterMap
