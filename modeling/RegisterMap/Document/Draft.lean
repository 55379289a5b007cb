import RegisterMap.Document.Placement
import RegisterMap.Document.Shape
import RegisterMap.Model.Block
import RegisterMap.Model.Interface

/-!
# Drafts

A draft is a document in typed form, the same for both shapes. Names, widths, policies and numbers
are read and checked; fields and registers that give no position have none yet, arrays are not
expanded, and templates are still named and not filled in.
-/

namespace RegisterMap

/-- A bit field of a draft. -/
structure DraftField where
  path : String
  name : String
  description : Option String
  placement : Placement
  /-- The register's policy holds where none is given. -/
  access : Option AccessPolicy
  resetValue : Option Word
deriving Repr, DecidableEq, Inhabited

/-- A register of a draft. -/
structure DraftRegister where
  path : String
  name : String
  description : Option String
  /-- Where none is given, the register follows the entry before it. -/
  offset : Option Address
  width : UInt32
  access : AccessPolicy
  resetValue : Option Word
  fields : List DraftField
deriving Repr, DecidableEq, Inhabited

/-- What an array **repeats**. -/
inductive ArrayBody (Entry : Type) where
  | inline (entries : List Entry)
  /-- The entries of the template of this name. -/
  | template (name : String)
deriving Repr, Inhabited

/-- A register array of a draft. -/
structure DraftArray (Entry : Type) where
  path : String
  name : String
  offset : Option Address
  count : UInt64
  stride : Option UInt64
  indexStart : UInt64
  naming : Option String
  body : ArrayBody Entry
deriving Repr, Inhabited

/-- One **entry** of a register list. -/
inductive DraftEntry where
  | register (register : DraftRegister)
  /-- So many bytes that stay empty. -/
  | reserved (path : String) (bytes : UInt64)
  | array (array : DraftArray DraftEntry)
deriving Repr, Inhabited

namespace DraftEntry

/-- The entry is an array. -/
def isArray : DraftEntry → Bool
  | .array _ => true
  | _ => false

end DraftEntry

/-- A block of a draft. -/
structure DraftBlock where
  path : String
  name : String
  description : Option String
  baseOffset : Address
  /-- Where none is given, the size follows from the registers. -/
  size : Option UInt64
  usage : Usage
  entries : List DraftEntry
deriving Repr, Inhabited

/-- A memory map of a draft. -/
structure DraftMap where
  name : String
  description : Option String
  blocks : List DraftBlock
deriving Repr, Inhabited

/-- A **register template**: entries that arrays of any block may repeat. -/
structure DraftTemplate where
  name : String
  path : String
  entries : List DraftEntry
deriving Repr, Inhabited

/-- How a bus interface is replicated. -/
structure DraftInterfaceArray where
  count : UInt64
  stride : UInt64
  indexStart : UInt64
  naming : Option String
  physicalPattern : Option String
deriving Repr, DecidableEq, Inhabited

/-- A bus interface of a draft. -/
structure DraftInterface where
  path : String
  name : String
  protocol : Option String
  mode : InterfaceMode
  baseAddress : Option Address
  signalsStart : Option String
  clock : Option String
  reset : Option String
  memoryMap : Option String
  array : Option DraftInterfaceArray
deriving Repr, DecidableEq, Inhabited

/-- A document in **typed form**. -/
structure Draft where
  shape : Shape
  maps : List DraftMap := []
  templates : List DraftTemplate := []
  clocks : List Clock := []
  resets : List Reset := []
  interfaces : List DraftInterface := []
deriving Repr, Inhabited

namespace Draft

/-- The template of this name. -/
def template? (d : Draft) (name : String) : Option DraftTemplate :=
  d.templates.find? (·.name == name)

/-- The templates in the order of their names. -/
def sortedTemplates (d : Draft) : List DraftTemplate :=
  d.templates.mergeSort fun a b => !(b.name < a.name)

end Draft

end RegisterMap
