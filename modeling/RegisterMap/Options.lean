import RegisterMap.Json.Decoding
import RegisterMap.Model.Encoding

/-!
# Resolution Options

The defaults that a project may choose for its documents.
-/

namespace RegisterMap

/-- The **defaults** that resolution applies. -/
structure Options where
  /-- Register width in bits where none is given. -/
  defaultRegisterSize : UInt32 := 32
  /-- Register access where none is given. -/
  defaultAccess : AccessPolicy := .readWrite
  /-- The least size of a block with registers whose size is not given. -/
  minBlockSize : UInt64 := 64
  /-- The size of a block without registers whose size is not given. -/
  emptyBlockSize : UInt64 := 4096
  /-- The largest number of instances of an array. -/
  maxArrayCount : UInt64 := 65536
deriving Repr, DecidableEq, Inhabited

namespace Options

open Json

/-- The keys of the options. -/
def keys : List String :=
  ["default-register-size", "default-access", "min-block-size", "empty-block-size",
    "max-array-count"]

/-- Every option under its key. -/
def toJson (o : Options) : Json :=
  .obj (member "default-register-size" (nat32 o.defaultRegisterSize) ++
    member "default-access" (.str o.defaultAccess.name) ++
    member "min-block-size" (nat64 o.minBlockSize) ++
    member "empty-block-size" (nat64 o.emptyBlockSize) ++
    member "max-array-count" (nat64 o.maxArrayCount))

/-- Read options from a record; the ones that it leaves out keep their defaults. -/
def ofJson? (j : Json) : Option Options := do
  let j ← j.toRecord? keys
  let d : Options := {}
  let defaultRegisterSize ← j.withDefault "default-register-size" d.defaultRegisterSize toNat32?
  let defaultAccess ← j.withDefault "default-access" d.defaultAccess AccessPolicy.ofJson?
  let minBlockSize ← j.withDefault "min-block-size" d.minBlockSize toNat64?
  let emptyBlockSize ← j.withDefault "empty-block-size" d.emptyBlockSize toNat64?
  let maxArrayCount ← j.withDefault "max-array-count" d.maxArrayCount toNat64?
  pure { defaultRegisterSize, defaultAccess, minBlockSize, emptyBlockSize, maxArrayCount }

end Options

end RegisterMap
