import RegisterMap.Register

/-!
# Arrays of Registers

An array keeps its template registers once. Instance `i` is a function of the template and of `i`
alone, so a block that lists every instance and an accessor that computes a single one agree on
names, offsets and addresses.
-/

namespace RegisterMap

/-! ### Name patterns -/

/-- The **placeholder** that a name pattern replaces by an index. -/
def indexPlaceholder : List Char := ['{', 'i', 'n', 'd', 'e', 'x', '}']

/-- Replace every placeholder in `pattern` by `text`, from left to right. The second component says
whether there was one. -/
def substituteIndex (text : List Char) : List Char → List Char × Bool
  | [] => ([], false)
  | '{' :: 'i' :: 'n' :: 'd' :: 'e' :: 'x' :: '}' :: rest =>
    (text ++ (substituteIndex text rest).1, true)
  | c :: rest =>
    let (out, found) := substituteIndex text rest
    (c :: out, found)

/-- The name that `pattern` gives to `index`: the index in every placeholder, or at the end of a
pattern without one. -/
def expandPattern (pattern : String) (index : UInt64) : String :=
  let digits := (toString index.toNat).toList
  match substituteIndex digits pattern.toList with
  | (out, true) => String.ofList out
  | (out, false) => String.ofList (out ++ digits)

/-! ### Descriptors -/

/-- How often and how far apart something is **replicated**, and how the instances are called. -/
structure ArrayDescriptor where
  count : UInt64
  /-- Bytes between the starts of consecutive instances. -/
  stride : UInt64
  /-- Index of the first instance as used in names. -/
  indexStart : UInt64 := 0
  /-- Pattern of logical names. -/
  naming : Option String := none
  /-- Pattern of physical signal names. -/
  physicalPattern : Option String := none
deriving Repr, DecidableEq, Inhabited

namespace ArrayDescriptor

/-- The index used in the names of instance `i`. -/
def indexOf (d : ArrayDescriptor) (i : UInt64) : UInt64 := satAdd d.indexStart i

/-- Bytes from the start of the array to the start of instance `i`. -/
def offsetOf (d : ArrayDescriptor) (i : UInt64) : UInt64 := satMul i d.stride

/-- There is an instance `i`. -/
def contains (d : ArrayDescriptor) (i : UInt64) : Bool := i < d.count

/-- The instance numbers, in order. -/
def instances (d : ArrayDescriptor) : List UInt64 :=
  (List.range d.count.toNat).map UInt64.ofNat

end ArrayDescriptor

/-! ### Register arrays -/

/-- The largest end of the registers; zero without registers. -/
def spanOf (registers : List Register) : UInt64 :=
  registers.foldl (fun acc r => max acc r.endOffset) 0

/-- Template registers, replicated. -/
structure RegisterArray where
  name : String
  /-- Offset of the first instance within the block. -/
  offset : Address
  descriptor : ArrayDescriptor
  /-- Template registers, at offsets from the start of an instance. -/
  registers : List Register
deriving Repr, DecidableEq, Inhabited

namespace RegisterArray

/-- Bytes that one instance covers. -/
def span (a : RegisterArray) : UInt64 := spanOf a.registers

/-- Offset one past the last instance, with every instance taken as one stride long. -/
def endOffset (a : RegisterArray) : Address :=
  satAdd a.offset (a.descriptor.offsetOf a.descriptor.count)

/-- What the names of instance `i` start with. -/
def instanceName (a : RegisterArray) (i : UInt64) : String :=
  let index := a.descriptor.indexOf i
  match a.descriptor.naming with
  | some pattern => expandPattern pattern index
  | none => s!"{a.name}_{index.toNat}"

/-- Offset of instance `i` within the block. -/
def instanceOffset (a : RegisterArray) (i : UInt64) : Address :=
  satAdd a.offset (a.descriptor.offsetOf i)

/-- The register that template register `t` becomes in instance `i`. -/
def materialize (a : RegisterArray) (i : UInt64) (t : Register) : Register :=
  { t with
    name := s!"{a.instanceName i}_{t.name}"
    offset := satAdd (a.instanceOffset i) t.offset
    arrayInstance := some { array := a.name, index := a.descriptor.indexOf i } }

/-- The registers of instance `i`, in template order. -/
def instance? (a : RegisterArray) (i : UInt64) : Option (List Register) :=
  if a.descriptor.contains i then some (a.registers.map (a.materialize i)) else none

/-- The register of instance `i` made from the first template register of this name. -/
def instanceRegister? (a : RegisterArray) (i : UInt64) (name : String) : Option Register :=
  if a.descriptor.contains i then
    (a.registers.find? (·.name == name)).map (a.materialize i)
  else none

/-- The registers of every instance: instances in order, and each in template order. -/
def expand (a : RegisterArray) : List Register :=
  a.descriptor.instances.flatMap fun i => (a.instance? i).getD []

end RegisterArray

end RegisterMap
