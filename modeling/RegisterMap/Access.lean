import RegisterMap.Text.Blank

/-!
# Access Policies

What software may do with a register or a bit field, and the spellings of a policy in documents.
-/

namespace RegisterMap

/-- The read and write contract of a register or a bit field. -/
inductive AccessPolicy where
  | readOnly
  /-- A written word acts as a pulse; reads have no defined value. -/
  | writeOnly
  | readWrite
  /-- Writing a one clears the bit; reads have no defined value. -/
  | writeOneToClear
  /-- Readable status bits that are cleared by writing a one. -/
  | readWriteOneToClear
deriving Repr, DecidableEq, Inhabited

/-- A spelling that names no policy. -/
structure UnknownAccessPolicy where
  spelling : String
deriving Repr, DecidableEq

namespace UnknownAccessPolicy

/-- The wording of a rejected spelling. -/
def message (e : UnknownAccessPolicy) : String :=
  s!"unrecognized access policy '{e.spelling}'"

end UnknownAccessPolicy

namespace AccessPolicy

/-- Every policy, in declaration order. -/
def all : List AccessPolicy :=
  [readOnly, writeOnly, readWrite, writeOneToClear, readWriteOneToClear]

/-- The **canonical spelling**. -/
def name : AccessPolicy → String
  | readOnly => "read-only"
  | writeOnly => "write-only"
  | readWrite => "read-write"
  | writeOneToClear => "write-1-to-clear"
  | readWriteOneToClear => "read-write-1-to-clear"

/-- A read has a defined value. -/
def isReadable : AccessPolicy → Bool
  | readOnly | readWrite | readWriteOneToClear => true
  | writeOnly | writeOneToClear => false

/-- Software may write. -/
def isWritable : AccessPolicy → Bool
  | readOnly => false
  | writeOnly | readWrite | writeOneToClear | readWriteOneToClear => true

/-- A written one clears its bit instead of setting it. -/
def clearsOnOne : AccessPolicy → Bool
  | writeOneToClear | readWriteOneToClear => true
  | readOnly | writeOnly | readWrite => false

/-- The policy with exactly this canonical spelling. -/
def ofName? (name : String) : Option AccessPolicy :=
  all.find? (·.name == name)

/-- The policy that a document means by `text`: letter case does not count, `_` stands for `-`, and
the usual abbreviations are known. -/
def parse (text : String) : Except UnknownAccessPolicy AccessPolicy :=
  let key := (Text.lower (Text.trim text)).map fun c => if c = '_' then '-' else c
  if key ∈ ["read-only", "readonly", "ro"] then .ok readOnly
  else if key ∈ ["write-only", "writeonly", "wo"] then .ok writeOnly
  else if key ∈ ["read-write", "readwrite", "rw"] then .ok readWrite
  else if key ∈ ["write-1-to-clear", "w1c"] then .ok writeOneToClear
  else if key ∈ ["read-write-1-to-clear", "rw1c"] then .ok readWriteOneToClear
  else .error ⟨text⟩

/-- A policy is found by **its own name**. -/
theorem ofName?_name (p : AccessPolicy) : ofName? p.name = some p := by
  cases p <;> rfl

end AccessPolicy

end RegisterMap
